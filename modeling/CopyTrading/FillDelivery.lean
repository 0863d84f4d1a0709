import CopyTrading.PaperSession

namespace CopyTrading

open StepRun

/-- Orders and portfolio, with the fills that were booked into them. -/
structure FillBook where
  orders : OrderManager
  portfolio : Portfolio
  booked : List Fill

inductive DeliveryEvent
  /-- A fill that is delivered: an immediate one, a returned one, a polled one, a pushed one. -/
  | deliver (f : Fill)
  /-- What other operations made of the orders and the portfolio since the last delivery. -/
  | meanwhile (orders : OrderManager) (portfolio : Portfolio)

/-- Into the order manager and, if it is accepted there, into the portfolio. -/
def FillBook.deliver (s : FillBook) (f : Fill) : FillBook :=
  match s.orders.applyExternalFill f with
  | .ok orders => ⟨orders, (s.portfolio.applyFill f "").2, s.booked ++ [f]⟩
  | .error _ => s

def FillBook.step (s : FillBook) : DeliveryEvent → FillBook
  | .deliver f => s.deliver f
  | .meanwhile orders portfolio => { s with orders := orders, portfolio := portfolio }

def FillBook.run (s : FillBook) (es : List DeliveryEvent) : FillBook := es.foldl FillBook.step s

/-- The same execution at the venue. -/
def Fill.Same (f g : Fill) : Prop := f.fillId = g.fillId ∧ f.venueFillId = g.venueFillId

instance (f g : Fill) : Decidable (f.Same g) := inferInstanceAs (Decidable (_ ∧ _))

def FillBook.HasBooked (s : FillBook) (f : Fill) : Prop := ∃ g ∈ s.booked, g.Same f

/-- The order of the fill is unknown, is over, or has not enough left to take it. -/
def OrderManager.NoRoom (om : OrderManager) (f : Fill) : Prop :=
  ∀ o, om.get f.orderId = some o → ¬o.state.mayHaveExecuted ∨ o.remaining.get < f.quantity.get

/-- No fill is booked twice, and delivering a booked one again changes nothing. -/
structure FillBook.OnceEach (s : FillBook) (es : List DeliveryEvent) : Prop where
  distinct : (s.run es).booked.Pairwise fun f g => ¬f.Same g
  again : ∀ before f, (before ++ [.deliver f]) <+: es → (s.run before).HasBooked f →
    (s.run before).deliver f = s.run before

theorem OrderManager.noRoom_iff (om : OrderManager) (f : Fill) :
    om.NoRoom f ↔ ∀ om', om.applyExternalFill f ≠ .ok om' := by
  constructor
  · intro full om' accepted
    obtain ⟨o, held, may, fits, _⟩ := applyExternalFill_ok accepted
    rcases full o held with finished | short
    · exact finished may
    · exact absurd fits (not_le.mpr short)
  · intro refused o held
    by_contra room
    push Not at room
    obtain ⟨om', accepted⟩ := applyExternalFill_of held room.1 room.2
    exact refused om' accepted

theorem FillBook.deliver_cases (s : FillBook) (f : Fill) :
    (s.orders.NoRoom f ∧ s.deliver f = s) ∨
      (¬s.orders.NoRoom f ∧ (s.deliver f).booked = s.booked ++ [f]) := by
  rw [OrderManager.noRoom_iff]
  unfold deliver
  cases answer : s.orders.applyExternalFill f with
  | ok orders =>
    right
    refine ⟨?_, rfl⟩
    intro refused
    exact refused orders rfl
  | error e =>
    left
    refine ⟨?_, rfl⟩
    intro om' accepted
    cases accepted

theorem FillBook.run_snoc (s : FillBook) (es : List DeliveryEvent) (e : DeliveryEvent) :
    s.run (es ++ [e]) = (s.run es).step e := by
  unfold run
  rw [List.foldl_append]
  rfl

/-- Each fill is booked once exactly if no fill that was booked meets room again. -/
theorem booked_once_iff (orders : OrderManager) (portfolio : Portfolio)
    (es : List DeliveryEvent) : FillBook.OnceEach ⟨orders, portfolio, []⟩ es ↔
      ∀ before f, (before ++ [.deliver f]) <+: es →
        (FillBook.run ⟨orders, portfolio, []⟩ before).HasBooked f →
        (FillBook.run ⟨orders, portfolio, []⟩ before).orders.NoRoom f := by
  constructor
  · intro once before f reached booked
    have same := once.again before f reached booked
    rcases FillBook.deliver_cases (FillBook.run ⟨orders, portfolio, []⟩ before) f with
      ⟨full, _⟩ | ⟨_, longer⟩
    · exact full
    · rw [same] at longer
      have length := congrArg List.length longer
      rw [List.length_append, List.length_singleton] at length
      omega
  · intro full
    refine ⟨?_, ?_⟩
    · induction es using List.reverseRecOn with
      | nil => exact .nil
      | append_singleton es e ih =>
        have before := ih fun before f reached =>
          full before f (reached.trans (List.prefix_append es [e]))
        rw [FillBook.run_snoc]
        cases e with
        | meanwhile orders' portfolio' => exact before
        | deliver f =>
          rcases FillBook.deliver_cases (FillBook.run ⟨orders, portfolio, []⟩ es) f with
            ⟨_, same⟩ | ⟨room, longer⟩
          · show List.Pairwise _ (FillBook.deliver _ f).booked
            rw [same]
            exact before
          · show List.Pairwise _ (FillBook.deliver _ f).booked
            rw [longer]
            refine List.pairwise_append.mpr ⟨before, List.pairwise_singleton _ _, ?_⟩
            intro g mem f' only same
            rw [List.mem_singleton.mp only] at same
            exact room (full es f (List.prefix_refl _) ⟨g, mem, same⟩)
    · intro before f reached booked
      rcases FillBook.deliver_cases (FillBook.run ⟨orders, portfolio, []⟩ before) f with
        ⟨_, same⟩ | ⟨room, _⟩
      · exact same
      · exact absurd (full before f reached booked) room

def FillBook.deliverAll (s : FillBook) (fills : List Fill) : FillBook :=
  s.run (fills.map .deliver)

/-- A book update delivers the fills that it returns. -/
theorem PaperSession.bookUpdate_delivers {G : Type} (rng : Rng G) (s : PaperSession G)
    (book : OrderBook) (cs : List (OrderId × RestingOrder)) (now : DateTime) :
    let left := FillBook.deliverAll ⟨s.orders, s.portfolio.markBook book now, []⟩
      (s.paper.onBookUpdate rng book cs now).1
    (s.bookUpdate rng book cs now).orders = left.orders ∧
      (s.bookUpdate rng book cs now).portfolio = left.portfolio := by
  have settled : ∀ (fills : List Fill) (paper : PaperExecution G) (b : FillBook),
      fills.foldl PaperSession.settle ⟨paper, b.orders, b.portfolio⟩ =
        ⟨paper, (b.deliverAll fills).orders, (b.deliverAll fills).portfolio⟩ := by
    intro fills
    induction fills with
    | nil => exact fun paper b => rfl
    | cons f fills ih =>
      intro paper b
      have one : PaperSession.settle ⟨paper, b.orders, b.portfolio⟩ f =
          ⟨paper, (b.deliver f).orders, (b.deliver f).portfolio⟩ := by
        unfold PaperSession.settle FillBook.deliver
        cases b.orders.applyExternalFill f <;> rfl
      rw [List.foldl_cons, one, ih paper (b.deliver f)]
      rfl
  unfold PaperSession.bookUpdate PaperSession.cacheBook
  simp only
  have all := settled (s.paper.onBookUpdate rng book cs now).1
    (s.paper.onBookUpdate rng book cs now).2 ⟨s.orders, s.portfolio.markBook book now, []⟩
  rw [all]
  exact ⟨rfl, rfl⟩

/-- The fills that a book update returned are polled as well. -/
theorem PaperExecution.polled_again {G : Type} (rng : Rng G) (p : PaperExecution G)
    (book : OrderBook) (cs : List (OrderId × RestingOrder)) (now : DateTime) :
    (p.onBookUpdate rng book cs now).2.pollFills.1 =
      p.pendingFills ++ (p.onBookUpdate rng book cs now).1 := by
  unfold onBookUpdate pollFills
  simp only [(hits_frame rng book now cs (p, [])).2.2]

/-- A resting order of 20 is hit for 10: the returned fill is booked, and again when it is polled. -/
theorem polled_fill_booked_twice : ¬ ∀ (es : List SessionEvent) (s : PaperSession Unit)
    (book : OrderBook) (cs : List (OrderId × RestingOrder)) (now : DateTime),
    Run (PaperSession.step .steady) Anywhere (.start .new .plain 0 0 () 1000 0) es s →
    s.paper.Candidates book cs →
    let (returned, paper) := s.paper.onBookUpdate .steady book cs now
    FillBook.OnceEach ⟨s.orders, s.portfolio, []⟩
      ((returned ++ paper.pollFills.1).map .deliver) := by
  intro claim
  let cs : List (OrderId × RestingOrder) := [(⟨0⟩, ⟨.sample .gtc, ⟨20, by norm_num⟩⟩)]
  have ran : ((restAndFill.take 3).foldlM (fun s e => if Anywhere s e then
      PaperSession.step Rng.steady s e else none) (.start .new .plain 0 0 () 1000 0)).any (fun s =>
        s.paper.Candidates .sample cs ∧
          ¬(FillBook.deliverAll ⟨s.orders, s.portfolio, []⟩
            ((s.paper.onBookUpdate .steady .sample cs 0).1 ++
              (s.paper.onBookUpdate .steady .sample cs 0).2.pollFills.1)).booked.Pairwise
                fun f g => ¬f.Same g) = true := by
    decide +kernel
  obtain ⟨s, executed, found⟩ := (Option.any_eq_true _ _).mp ran
  obtain ⟨candidates, twice⟩ := of_decide_eq_true found
  exact twice (claim _ s .sample cs 0 (run_of_foldlM executed) candidates).distinct

end CopyTrading
