import CopyTrading.PaperReplay

namespace CopyTrading

open DrawOrder StepRun

/-- A limit that reaches nothing beyond `bound`. -/
def Stricter (side : Side) (limit bound : Price) : Prop :=
  match side with
  | .buy => limit.get ≤ bound.get
  | .sell => bound.get ≤ limit.get

instance (side : Side) (limit bound : Price) : Decidable (Stricter side limit bound) := by
  unfold Stricter
  cases side <;> infer_instance

def RestingOrder.Within (r : RestingOrder) (side : Side) (bound : Price) : Prop :=
  r.request.side = side ∧ Stricter side r.request.limitPrice bound

instance (r : RestingOrder) (side : Side) (bound : Price) : Decidable (r.Within side bound) :=
  inferInstanceAs (Decidable (_ ∧ _))

/-- The total filled over all resting orders of a side whose limit is `bound` or stricter. -/
def filledWithin (resting : AList fun _ : OrderId => RestingOrder) (fills : List Fill)
    (side : Side) (bound : Price) : Decimal :=
  (fills.map fun f => if (resting.lookup f.orderId).any fun r => r.Within side bound then
    f.quantity.get else 0).sum

/-- No book update fills more than the book offers, on either side and within any limit. -/
def SpendsOnce (resting : AList fun _ : OrderId => RestingOrder) (book : OrderBook)
    (params : MatchParams) : Prop :=
  ∀ (G : Type) (rng : Rng G), rng.Lawful → ∀ (p : PaperExecution G) cs now, p.resting = resting →
    p.params = params → p.Candidates book cs → ∀ side bound,
      filledWithin resting (p.onBookUpdate rng book cs now).1 side bound ≤
        (book.liquidityWithin side bound).get

/-- What one candidate reaches of the book within a limit, if it can be filled at all. -/
def RestingOrder.claim (book : OrderBook) (params : MatchParams) (side : Side) (bound : Price)
    (r : RestingOrder) : Decimal :=
  if r.Within side bound ∧ Fillable book params r then r.reach book else 0

/-- What the fillable orders of a side reach together within a limit, were each of them alone. -/
def claimedWithin (resting : AList fun _ : OrderId => RestingOrder) (book : OrderBook)
    (params : MatchParams) (side : Side) (bound : Price) : Decimal :=
  ((resting.entries.filter fun e => e.2.request.tokenId = book.tokenId).map fun e =>
    e.2.claim book params side bound).sum

/-- Every order is rejected, or the book covers all the fillable orders together. -/
def Covered (resting : AList fun _ : OrderId => RestingOrder) (book : OrderBook)
    (params : MatchParams) : Prop :=
  1 ≤ params.rejectProbability ∨ ∀ side bound,
    claimedWithin resting book params side bound ≤ (book.liquidityWithin side bound).get

/-- Each resting order is held under its own id. -/
def Keyed (resting : AList fun _ : OrderId => RestingOrder) : Prop :=
  ∀ id r, resting.lookup id = some r → r.request.orderId = id

theorem Keyed.insert {m : AList fun _ : OrderId => RestingOrder} (h : Keyed m) {id : OrderId}
    {r : RestingOrder} (own : r.request.orderId = id) : Keyed (m.insert id r) := by
  intro j s held
  by_cases here : j = id
  · rw [here, AList.lookup_insert] at held
    cases held
    exact own.trans here.symm
  · rw [AList.lookup_insert_ne here] at held
    exact h j s held

theorem Keyed.erase {m : AList fun _ : OrderId => RestingOrder} (h : Keyed m) (id : OrderId) :
    Keyed (m.erase id) := by
  intro j s held
  by_cases here : j = id
  · rw [here, AList.lookup_erase] at held
    cases held
  · rw [AList.lookup_erase_ne here] at held
    exact h j s held

theorem Keyed.hitMap {m : AList fun _ : OrderId => RestingOrder} (h : Keyed m) {id : OrderId}
    {r : RestingOrder} (held : m.lookup id = some r) (qty : Qty) : Keyed (hitMap m id r qty) := by
  unfold CopyTrading.hitMap
  split
  · exact h.erase id
  · split
    · exact h.insert (h id r held)
    · exact h

theorem Keyed.step {G : Type} {rng : Rng G} {s s' : PaperRun G} {e : VenueEvent}
    (h : Keyed s.paper.resting) (moved : s.step rng e = some s') : Keyed s'.paper.resting := by
  cases e with
  | submit order now =>
    cases moved
    show Keyed (s.paper.submit rng order now).2.resting
    rcases s.paper.submit_cases rng order now with ⟨_, _, _, eq⟩ | ⟨_, _, _, _, _, eq⟩ |
      ⟨_, _, _, _, _, _, _, _, _, _, _, _, eq⟩
    · rw [eq]
      exact h
    · rw [eq]
      exact h.insert rfl
    · rw [eq]
      show Keyed (if _ then _ else _)
      split
      · exact h.insert rfl
      · exact h
  | cancel id =>
    cases moved
    show Keyed (s.paper.cancel rng id).2.resting
    rcases s.paper.cancel_cases rng id with ⟨_, _, _, eq⟩ | ⟨_, _, eq⟩
    · rw [eq]
      exact h.erase id
    · rw [eq]
      exact h
  | bookUpdate book cs now =>
    obtain ⟨candidates, rfl⟩ := PaperRun.step_bookUpdate moved
    let P : PaperExecution G → List Fill → Prop := fun p _ => Keyed p.resting
    have start : P s.paper [] := h
    have kept : P (cs.foldl (PaperExecution.hitResting rng book now) (s.paper, [])).1
        (cs.foldl (PaperExecution.hitResting rng book now) (s.paper, [])).2 :=
      PaperExecution.hits_keep rng book now (fun _ _ _ h => h)
        (fun _ _ _ _ _ _ _ h held _ _ => Keyed.hitMap h held _) cs candidates.held.1
        candidates.held.2 start
    exact kept

/-- So it is in every run of a venue that starts out with nothing resting. -/
theorem Keyed.run {G : Type} {rng : Rng G} {s s' : PaperRun G} {es : List VenueEvent}
    (h : Keyed s.paper.resting) (ran : Run (PaperRun.step rng) Anywhere s es s') :
    Keyed s'.paper.resting :=
  ran.keeps (I := fun s => Keyed s.paper.resting) (fun _ _ _ h _ moved => h.step moved) h

theorem filledWithin_content (resting : AList fun _ : OrderId => RestingOrder)
    (fills : List Fill) (side : Side) (bound : Price) :
    filledWithin resting (fills.map Fill.content) side bound =
      filledWithin resting fills side bound := by
  unfold filledWithin
  rw [List.map_map]
  rfl

/-- The fills of a pass add up to what the candidates within the limit got. -/
theorem filledWithin_contents {resting : AList fun _ : OrderId => RestingOrder}
    {outcomes : List ((OrderId × RestingOrder) × Option Hit)}
    (held : ∀ x ∈ outcomes, resting.lookup x.1.2.request.orderId = some x.1.2) (side : Side)
    (bound : Price) : filledWithin resting (contents outcomes) side bound =
      (outcomes.map fun x => if x.1.2.Within side bound then Hit.amount x.2 else 0).sum := by
  induction outcomes with
  | nil => rfl
  | cons x outcomes ih =>
    have here := held x List.mem_cons_self
    have rest := ih fun y mem => held y (List.mem_cons_of_mem _ mem)
    rw [List.map_cons, List.sum_cons, ← rest]
    obtain ⟨c, got⟩ := x
    cases got with
    | none =>
      have none_ : contents ((c, none) :: outcomes) = contents outcomes := rfl
      rw [none_]
      simp [Hit.amount]
    | some h =>
      have some_ : contents ((c, some h) :: outcomes) =
        h.content c.2.request :: contents outcomes := rfl
      have order : (h.content c.2.request).orderId = c.2.request.orderId := rfl
      rw [some_]
      unfold filledWithin
      rw [List.map_cons, List.sum_cons, order, here]
      simp only [Option.any_some, decide_eq_true_eq]
      rfl

section Spending

variable {G : Type} {rng : Rng G}

/-- What a book update fills within a limit, candidate by candidate. -/
theorem PaperExecution.filled_eq (rng : Rng G) {p : PaperExecution G} {book : OrderBook}
    {cs : List (OrderId × RestingOrder)} (candidates : p.Candidates book cs)
    (keyed : Keyed p.resting) (now : DateTime) (side : Side) (bound : Price) :
    filledWithin p.resting (p.onBookUpdate rng book cs now).1 side bound =
      ((runAll (hitOf rng book p.params) cs p.rng).1.map fun x =>
        if x.1.2.Within side bound then Hit.amount x.2 else 0).sum := by
  obtain ⟨_, _, content⟩ := onBookUpdate_spec rng candidates now
  rw [← filledWithin_content, content]
  apply filledWithin_contents
  intro x mem
  have held := candidates.held.1 x.1 (runAll_mem mem).1
  rw [keyed _ _ held]
  exact held

theorem PaperExecution.claimed_eq {p : PaperExecution G} {book : OrderBook}
    {cs : List (OrderId × RestingOrder)} (candidates : p.Candidates book cs) (params : MatchParams)
    (side : Side) (bound : Price) : claimedWithin p.resting book params side bound =
      (cs.map fun c => c.2.claim book params side bound).sum := by
  let v := fun c : OrderId × RestingOrder => c.2.claim book params side bound
  have listed := (List.Perm.map v candidates).sum_eq
  rw [listed, List.map_map]
  rfl

theorem sum_runAll {f : OrderId × RestingOrder → G → Option Hit × G}
    (cs : List (OrderId × RestingOrder)) (g : G) (v : OrderId × RestingOrder → Decimal) :
    ((runAll f cs g).1.map fun x => v x.1).sum = (cs.map v).sum := by
  have asked := congrArg (List.map v) (runAll_fst (f := f) cs g)
  rw [List.map_map] at asked
  exact congrArg List.sum asked

/-- No candidate gets more than it claims. -/
theorem filled_le_claim (book : OrderBook) (params : MatchParams) (c : OrderId × RestingOrder)
    (g : G) (side : Side) (bound : Price) :
    (if c.2.Within side bound then Hit.amount (hitOf rng book params c g).1 else 0) ≤
      c.2.claim book params side bound := by
  have most := (amount_hitOf rng book params c g).2
  unfold RestingOrder.claim
  by_cases within : c.2.Within side bound
  · rw [if_pos within]
    by_cases fillable : Fillable book params c.2
    · rw [if_pos fillable] at most
      rw [if_pos ⟨within, fillable⟩]
      exact most
    · rw [if_neg fillable] at most
      rw [if_neg fun both => fillable both.2]
      exact most
  · rw [if_neg within, if_neg fun both => within both.1]

theorem Covered.spendsOnce {resting : AList fun _ : OrderId => RestingOrder} {book : OrderBook}
    {params : MatchParams} (keyed : Keyed resting) (covered : Covered resting book params) :
    SpendsOnce resting book params := by
  rintro G rng lawful p cs now rfl rfl candidates side bound
  rw [p.filled_eq rng candidates keyed]
  rcases covered with rejecting | covers
  · have nothing : ((runAll (hitOf rng book p.params) cs p.rng).1.map fun x =>
        if x.1.2.Within side bound then Hit.amount x.2 else 0).sum ≤
        ((runAll (hitOf rng book p.params) cs p.rng).1.map fun _ => (0 : Decimal)).sum := by
      apply List.sum_le_sum
      intro x mem
      obtain ⟨_, g, answered⟩ := runAll_mem mem
      rw [answered, hitOf_of_rejecting lawful rejecting]
      split
      · exact le_rfl
      · exact le_rfl
    refine nothing.trans ?_
    rw [List.map_const', List.sum_replicate, smul_zero]
    exact Qty.nonneg _
  · refine le_trans ?_ (covers side bound)
    rw [p.claimed_eq candidates, ← sum_runAll (f := hitOf rng book p.params) cs p.rng]
    apply List.sum_le_sum
    intro x mem
    obtain ⟨_, g, answered⟩ := runAll_mem mem
    rw [answered]
    exact filled_le_claim book p.params x.1 g side bound

end Spending

/-- The draws after which the state is `l` and a candidate has got all it could. -/
theorem exists_draws (book : OrderBook) {params : MatchParams}
    (checked : 0 ≤ params.fillProbability) (mayAccept : params.rejectProbability < 1)
    (c : OrderId × RestingOrder) (l : List {x : ℚ // 0 ≤ x ∧ x < 1}) :
    ∃ g, Hit.amount (hitOf .scripted book params c g).1 =
        (if Fillable book params c.2 then c.2.reach book else 0) ∧
      (hitOf .scripted book params c g).2 = l := by
  let low : {x : ℚ // 0 ≤ x ∧ x < 1} := ⟨0, le_rfl, one_pos⟩
  let passes : {x : ℚ // 0 ≤ x ∧ x < 1} :=
    ⟨max params.rejectProbability 0, le_max_right _ _, max_lt mayAccept one_pos⟩
  have accepted : ¬passes.1 < params.rejectProbability := not_lt.mpr (le_max_left _ _)
  by_cases fillable : Fillable book params c.2
  · rw [if_pos fillable]
    obtain ⟨available, price, _, hits⟩ := hitOf_fillable .scripted fillable
    by_cases risky : params.fillProbability < 1
    · have first : ¬(Rng.scripted.unit (passes :: low :: l)).1 < params.rejectProbability := by
        rw [Rng.scripted_unit]
        exact accepted
      have second : (Rng.scripted.unit (low :: l)).1 ≤ params.fillProbability := by
        rw [Rng.scripted_unit]
        exact checked
      refine ⟨passes :: low :: l, amount_whole _ fillable first ?_, ?_⟩
      · rw [Rng.scripted_unit]
        exact second
      · rw [hits _ first, Rng.scripted_unit, queueRisk_calm risky second, Rng.scripted_unit]
    · have first : ¬(Rng.scripted.unit (passes :: l)).1 < params.rejectProbability := by
        rw [Rng.scripted_unit]
        exact accepted
      refine ⟨passes :: l, amount_whole _ fillable first ?_, ?_⟩
      · exact (Rng.scripted_lawful _).2.le.trans (not_lt.mp risky)
      · rw [hits _ first, Rng.scripted_unit, queueRisk_certain (not_lt.mp risky)]
  · rw [if_neg fillable]
    by_cases crosses : isMarketable c.2.request book = true
    · refine ⟨low :: l, ?_, ?_⟩
      · rw [hitOf_unfillable _ crosses fillable]
        rfl
      · rw [hitOf_unfillable _ crosses fillable]
        rfl
    · rw [Bool.not_eq_true] at crosses
      refine ⟨l, ?_, ?_⟩
      · rw [hitOf_idle _ crosses]
        rfl
      · rw [hitOf_idle _ crosses]

/-- Some stream of draws has every candidate get all it could. -/
theorem exists_stream (book : OrderBook) {params : MatchParams}
    (checked : 0 ≤ params.fillProbability) (mayAccept : params.rejectProbability < 1)
    (cs : List (OrderId × RestingOrder)) :
    ∃ g, ∀ x ∈ (runAll (hitOf .scripted book params) cs g).1,
      Hit.amount x.2 = if Fillable book params x.1.2 then x.1.2.reach book else 0 := by
  induction cs with
  | nil =>
    refine ⟨[], ?_⟩
    intro x mem
    cases mem
  | cons c cs ih =>
    obtain ⟨l, rest⟩ := ih
    obtain ⟨g, whole, state⟩ := exists_draws book checked mayAccept c l
    refine ⟨g, ?_⟩
    rw [runAll_cons, state]
    intro x mem
    rcases List.mem_cons.mp mem with rfl | mem
    · exact whole
    · exact rest x mem

theorem SpendsOnce.covered {resting : AList fun _ : OrderId => RestingOrder} {book : OrderBook}
    {params : MatchParams} (checked : 0 ≤ params.fillProbability) (keyed : Keyed resting)
    (once : SpendsOnce resting book params) : Covered resting book params := by
  by_cases mayAccept : params.rejectProbability < 1
  · right
    intro side bound
    let all := (resting.entries.filter fun e => e.2.request.tokenId = book.tokenId).map
      fun e => (e.1, e.2)
    obtain ⟨g, whole⟩ := exists_stream book checked mayAccept all
    let p : PaperExecution (List {x : ℚ // 0 ≤ x ∧ x < 1}) :=
      ⟨.new, params, 0, 0, g, resting, ∅, [], 0, 0⟩
    have listing : p.Candidates book all := .refl _
    have within := once _ .scripted Rng.scripted_lawful p all 0 rfl rfl listing side bound
    have claimed := p.claimed_eq listing params side bound
    have spent := p.filled_eq .scripted listing keyed 0 side bound
    have same : (runAll (hitOf .scripted book params) all g).1.map
          (fun x => if x.1.2.Within side bound then Hit.amount x.2 else 0) =
        (runAll (hitOf .scripted book params) all g).1.map
          (fun x => x.1.2.claim book params side bound) := by
      apply List.map_congr_left
      intro x mem
      rw [whole x mem]
      unfold RestingOrder.claim
      rw [← ite_and]
    have total := congrArg List.sum same
    rw [sum_runAll all g fun c => c.2.claim book params side bound] at total
    calc claimedWithin resting book params side bound
        = (all.map fun c => c.2.claim book params side bound).sum := claimed
      _ = _ := total.symm
      _ = filledWithin resting (p.onBookUpdate .scripted book all 0).1 side bound := spent.symm
      _ ≤ _ := within
  · exact .inl (not_lt.mp mayAccept)

theorem Stricter.within {side : Side} {limit bound : Price} (h : Stricter side limit bound)
    {l : Level} (within : l.within side limit = true) : l.within side bound = true := by
  unfold Level.within at within ⊢
  cases side with
  | buy => exact decide_eq_true ((of_decide_eq_true within).trans h)
  | sell => exact decide_eq_true (h.trans (of_decide_eq_true within))

/-- A stricter limit reaches no more of the book. -/
theorem Stricter.liquidityWithin {side : Side} {limit bound : Price} (book : OrderBook)
    (h : Stricter side limit bound) :
    (book.liquidityWithin side limit).get ≤ (book.liquidityWithin side bound).get := by
  rw [OrderBook.liquidityWithin_get, OrderBook.liquidityWithin_get]
  have prefix_ : (book.takingSide side).takeWhile (·.within side limit) =
      ((book.takingSide side).takeWhile (·.within side bound)).takeWhile
        (·.within side limit) := by
    rw [List.takeWhile_takeWhile]
    congr 1
    funext l
    rw [Bool.eq_iff_iff, decide_eq_true_eq]
    exact ⟨fun within => ⟨within, h.within within⟩, And.left⟩
  rw [prefix_]
  apply List.Sublist.sum_le_sum ((List.takeWhile_sublist _).map _)
  intro x mem
  obtain ⟨l, _, rfl⟩ := List.mem_map.mp mem
  exact l.size.nonneg

/-- One order alone never claims more than the book offers. -/
theorem RestingOrder.claim_le (r : RestingOrder) (book : OrderBook) (params : MatchParams)
    (side : Side) (bound : Price) :
    r.claim book params side bound ≤ (book.liquidityWithin side bound).get := by
  unfold claim
  split
  next within =>
    obtain ⟨⟨rfl, stricter⟩, _⟩ := within
    exact (min_le_right _ _).trans (stricter.liquidityWithin book)
  next => exact Qty.nonneg _

end CopyTrading
