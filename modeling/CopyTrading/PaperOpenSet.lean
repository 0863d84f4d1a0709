import CopyTrading.PaperSteps

namespace CopyTrading

open StepRun

variable {G : Type}

/-- Every submitted order that is still open is resting, or is owed a fill of `ahead`. -/
def OpenRests (p : PaperExecution G) (om : OrderManager) (ahead : List Fill) : Prop :=
  ∀ id o, om.get id = some o → o.wasSubmitted → o.state.isOpen →
    (p.resting.lookup id).isSome ∨ ∃ f ∈ ahead, f.orderId = id

/-- Writing one order, with the venue's resting map changed at most there. -/
theorem OpenRests.update {p q : PaperExecution G} {om om' : OrderManager} {id : OrderId}
    {o : Order} (h : OpenRests p om []) (orders : om'.orders = om.orders.insert id o)
    (others : ∀ j, j ≠ id → q.resting.lookup j = p.resting.lookup j)
    (here : o.wasSubmitted → o.state.isOpen → (q.resting.lookup id).isSome) :
    OpenRests q om' [] := by
  intro j o' hj submitted open_
  rw [OrderManager.get_insert orders] at hj
  split at hj
  next same =>
    cases hj
    rw [same]
    exact .inl (here submitted open_)
  next other =>
    rw [others j other]
    exact h j o' hj submitted open_

section Exact

variable {rng : Rng G} {kinds : Operands → Prop} [DecidablePred kinds]
  {E : AList.Enumeration TokenId Position} {s s' : PaperSession G}

/-- A hit takes an order off the resting map only with a fill to show for it. -/
theorem OpenRests.hits (exact_ : kinds .sizes) {p p' : PaperExecution G} {om : OrderManager}
    (matched : OrdersMatch p om []) (h : OpenRests p om []) {book : OrderBook}
    {cs : List (OrderId × RestingOrder)} (candidates : p.Candidates book cs) {now : DateTime}
    {fills : List Fill}
    (ran : (Calc.PaperExecution.onBookUpdate rng p book cs now).run (Calc.guarded kinds) =
      some (fills, p')) : OpenRests p' om fills := by
  refine (Calc.PaperExecution.onBookUpdate_keeps exact_
    (P := fun q fills => OrdersMatch q om fills ∧ OpenRests q om fills)
    (fun _ _ _ h => ⟨h.1.of_resting rfl, h.2⟩) ?_ (fun _ _ _ h => ⟨h.1.of_resting rfl, h.2⟩)
    candidates ⟨matched, h⟩ ran).2
  rintro q fills id r f g n ⟨matched, h⟩ held fill fits
  refine ⟨matched.filled held fill fits rfl, ?_⟩
  obtain ⟨_, o, stored, same, _, _⟩ := matched.rests id r held
  have key : f.orderId = id := by
    rw [fill.order, ← same]
    exact matched.ids id o stored
  intro j o' hj submitted open_
  by_cases here : j = id
  · right
    exact ⟨f, List.mem_append_right _ List.mem_cons_self, key.trans here.symm⟩
  · rcases h j o' hj submitted open_ with resting | ⟨f', mem, eq⟩
    · left
      rw [lookup_hitMap_ne _ _ _ here]
      exact resting
    · exact .inr ⟨f', List.mem_append_left _ mem, eq⟩

/-- A fill that is handed over leaves its order closed, or resting, or owed another. -/
theorem OpenRests.settle (exact_ : kinds .sizes) {f : Fill} {ahead : List Fill}
    (matched : OrdersMatch s.paper s.orders (f :: ahead))
    (h : OpenRests s.paper s.orders (f :: ahead))
    (ran : (Calc.PaperSession.settle E s f).run (Calc.guarded kinds) = some s') :
    OpenRests s'.paper s'.orders ahead := by
  obtain ⟨o, o', _, _, _, took, orders, paper, _, left⟩ := matched.accepts exact_ ran
  rw [paper]
  intro j p hj submitted open_
  rw [OrderManager.get_insert orders] at hj
  split at hj
  next same =>
    cases hj
    by_contra neither
    obtain ⟨gone, paid⟩ := not_or.mp neither
    have none : s.paper.resting.lookup f.orderId = none := by
      rw [same] at gone
      exact Option.not_isSome_iff_eq_none.mp gone
    have nothing : owed ahead f.orderId = 0 := by
      refine List.sum_eq_zero ?_
      intro x hx
      obtain ⟨f', mem, rfl⟩ := List.mem_map.mp hx
      exact if_neg fun eq => paid ⟨f', mem, eq.trans same.symm⟩
    rw [PaperExecution.restOf_none none, nothing, add_zero] at left
    rw [took.state, if_pos (Qty.isZero_iff.mpr left)] at open_
    cases open_
  next other =>
    rcases h j p hj submitted open_ with resting | ⟨f', mem, eq⟩
    · exact .inl resting
    · rcases List.mem_cons.mp mem with rfl | later
      · exact absurd eq.symm other
      · exact .inr ⟨f', later, eq⟩

/-- The two books of open orders agree between steps. -/
structure OpenMatch (s : PaperSession G) : Prop where
  orders : OrdersMatch s.paper s.orders []
  rests : OpenRests s.paper s.orders []

variable (rng) in
/-- The step neither leaves the remainder of an order that cannot rest, nor clears resting
orders under the order manager. -/
def Tidy (s : PaperSession G) : SessionEvent → Prop
  | .submit id _ _ _ => ∀ o ∈ s.orders.get id, o.state = .validated →
      o.request.timeInForce ≠ .gtc → ∀ book ∈ s.paper.books.get o.request.tokenId,
      ¬LeavesRemainder rng o.request book s.paper.params (s.paper.simulateLatency rng).rng
  | .paperReset _ => s.paper.resting = ∅
  | _ => True

instance (s : PaperSession G) (e : SessionEvent) : Decidable (Tidy rng s e) := by
  cases e <;> unfold Tidy <;> infer_instance

theorem OpenMatch.submit (exact_ : kinds .sizes) (h : OpenMatch s) {id : OrderId}
    {outcomeName : String} {now at_ : DateTime}
    (tidy : Tidy rng s (.submit id outcomeName now at_))
    (ran : (Calc.PaperSession.submit rng E s id outcomeName now at_).run (Calc.guarded kinds) =
      some s') : OpenMatch s' := by
  refine ⟨h.orders.submit exact_ ran, ?_⟩
  rcases PaperSession.submit_cases exact_ h.orders ran with rfl |
    ⟨o, o', stored, validated, request, orders, answered⟩
  · exact h.rests
  have place : o.request.orderId = id := h.orders.ids id o stored
  obtain ⟨unfilled, _⟩ := h.orders.unsent id o stored validated
  cases answered with
  | refused resting _ closed =>
    refine h.rests.update orders ?_ ?_
    · intro j _
      rw [resting]
    · intro _ open_
      rw [closed] at open_
      cases open_
  | rested resting =>
    refine h.rests.update orders ?_ ?_
    · intro j other
      rw [resting, place]
      exact AList.lookup_insert_ne other
    · intro _ _
      rw [resting, place, AList.lookup_insert]
      rfl
  | filled p f book isMaker g asked none _ fill fits cached matched took _ resting =>
    have all : p.remaining.get = o.request.quantity.get := by
      rw [Order.remaining_of_unfilled (none.trans unfilled), asked]
    refine h.rests.update orders ?_ ?_
    · intro j other
      rw [resting, place]
      split
      · exact AList.lookup_insert_ne other
      · rfl
    · intro _ open_
      by_cases less : f.quantity.get < o.request.quantity.get
      · -- what can be filled in part here is good til cancelled, so the remainder rests
        have gtc : o.request.timeInForce = .gtc := by
          by_contra other
          refine tidy o stored validated other book cached ?_
          obtain ⟨_, _, by_⟩ := Calc.matchOrder_filled matched
          exact by_.leavesRemainder exact_ less
        rw [resting, if_pos ⟨less, gtc⟩, place, AList.lookup_insert]
        rfl
      · exfalso
        have whole : o'.remaining.isZero := by
          rw [Qty.isZero_iff, took.remaining, all]
          linarith
        rw [took.state, if_pos whole] at open_
        cases open_

variable (rng) in
theorem OpenMatch.cancel (h : OpenMatch s) (id : OrderId) (now at_ : DateTime) :
    OpenMatch (s.cancel rng id now at_) := by
  refine ⟨h.orders.cancel id now at_, ?_⟩
  rcases PaperSession.cancel_cases rng h.orders id now at_ with same |
    ⟨o, g, stored, _, orders, paper, _⟩
  · rw [same]
    exact h.rests
  · rw [paper]
    refine h.rests.update orders ?_ ?_
    · intro j other
      exact AList.lookup_erase_ne other
    · intro _ open_
      cases open_

theorem OpenMatch.bookUpdate (exact_ : kinds .sizes) (h : OpenMatch s) {book : OrderBook}
    {cs : List (OrderId × RestingOrder)} (candidates : s.paper.Candidates book cs)
    {now : DateTime}
    (ran : (Calc.PaperSession.bookUpdate rng E s book cs now).run (Calc.guarded kinds) =
      some s') : OpenMatch s' := by
  obtain ⟨t, orders, rests, rfl⟩ := OrdersMatch.bookUpdate exact_
    (P := fun t ahead => OpenRests t.paper t.orders ahead)
    (fun _ _ _ _ matched before ran => before.settle exact_ matched ran) h.orders candidates
    (fun _ _ _ _ hits => h.rests.hits exact_ h.orders candidates hits) ran
  exact ⟨orders.of_resting rfl, rests⟩

theorem OpenMatch.register (h : OpenMatch s) {om : OrderManager}
    {req : OrderRequest} {latency : LatencyStamps} {now : DateTime} {id : OrderId}
    (fresh : s.orders.get req.orderId = none)
    (registered : s.orders.registerValidated req latency now = .ok (id, om)) :
    OpenMatch { s with orders := om } := by
  refine ⟨h.orders.register fresh registered, ?_⟩
  obtain ⟨o, _, _, validated, _, _, _, _, rfl, _⟩ := OrderManager.registerValidated_ok registered
  refine h.rests.update (s.orders.store_orders o) (fun _ _ => rfl) ?_
  intro submitted _
  simp [Order.wasSubmitted, validated] at submitted

theorem OpenMatch.reset (h : OpenMatch s) (empty : s.paper.resting = ∅)
    (now : DateTime) :
    OpenMatch { s with paper := s.paper.reset, portfolio := s.portfolio.reset now } := by
  have same : s.paper.reset.resting = s.paper.resting := empty.symm
  refine ⟨h.orders.of_resting same, ?_⟩
  intro id o stored submitted open_
  have := h.rests id o stored submitted open_
  rw [← same] at this
  exact this

theorem OpenMatch.step (exact_ : kinds .sizes) (h : OpenMatch s) {e : SessionEvent}
    (tidy : Tidy rng s e) (held : Calc.PaperSession.Exact rng E kinds s e)
    (taken : Calc.PaperSession.step rng E s e = some s') : OpenMatch s' := by
  have ran := Calc.PaperSession.step_guarded held taken
  cases e with
  | register req latency now =>
    obtain ⟨fresh, rfl | ⟨order, orders, registered, rfl⟩⟩ := PaperSession.step_cases ran
    · exact h
    · exact h.register fresh registered
  | submit id outcomeName now at_ => exact h.submit exact_ tidy ran
  | cancel id now at_ =>
    cases PaperSession.step_cases ran
    exact h.cancel rng id now at_
  | bookUpdate book cs now => exact h.bookUpdate exact_ ran.1 ran.2
  | fetchBook book =>
    cases PaperSession.step_cases ran
    exact ⟨h.orders.of_resting rfl, h.rests⟩
  | paperReset now =>
    cases PaperSession.step_cases ran
    exact h.reset tidy now

end Exact

theorem OpenMatch.start (books : BookCache) (params : MatchParams) (latencyMs jitterMs : Nat)
    (seeded : G) (startingCash : Usd) (now : DateTime) :
    OpenMatch (PaperSession.start books params latencyMs jitterMs seeded startingCash now) := by
  refine ⟨⟨?_, ?_, ?_, ?_⟩, ?_⟩
  · intro id o stored
    cases stored
  · intro id o stored
    cases stored
  · intro id r resting
    cases resting
  · intro f mem
    cases mem
  · intro id o stored
    cases stored

/-- Where every step is tidy and rounds no sum of quantities, the submitted orders that are open
are those that rest. -/
theorem open_iff_resting {rng : Rng G} {E : AList.Enumeration TokenId Position}
    {books : BookCache} {params : MatchParams} {latencyMs jitterMs : Nat} {seeded : G}
    {startingCash : Usd} {now : DateTime} {es : List SessionEvent} {s : PaperSession G}
    (run : Run (Calc.PaperSession.step rng E)
      (fun s e => Tidy rng s e ∧ Calc.PaperSession.Exact rng E (· = .sizes) s e)
      (.start books params latencyMs jitterMs seeded startingCash now) es s) (id : OrderId) :
    (∃ o, s.orders.get id = some o ∧ o.wasSubmitted ∧ o.state.isOpen) ↔
      (s.paper.resting.lookup id).isSome := by
  have invariant : OpenMatch s := run.keeps
    (fun s e s' h ok taken => h.step (by rfl) ok.1 ok.2 taken)
    (.start books params latencyMs jitterMs seeded startingCash now)
  constructor
  · rintro ⟨o, stored, submitted, open_⟩
    rcases invariant.rests id o stored submitted open_ with resting | ⟨f, mem, _⟩
    · exact resting
    · cases mem
  · intro some_
    obtain ⟨r, resting⟩ := Option.isSome_iff_exists.mp some_
    obtain ⟨_, o, stored, _, working, _⟩ := invariant.orders.rests id r resting
    refine ⟨o, stored, ?_, ?_⟩
    · rcases working with eq | eq <;> simp [Order.wasSubmitted, eq]
    · exact OrderState.Working.isOpen working

theorem open_iff_resting_restAndFill : ∃ s, Run (Calc.PaperSession.step .steady .own)
      (fun s e => Tidy .steady s e ∧ Calc.PaperSession.Exact .steady .own (· = .sizes) s e)
      (.start .new .plain 0 0 () 1000 0) restAndFill s ∧
    (s.paper.resting.lookup ⟨0⟩).isSome ∧
    ∃ o, s.orders.get ⟨0⟩ = some o ∧ o.wasSubmitted ∧ o.state.isOpen := by
  have ran : (restAndFill.foldlM (fun s e =>
      if Tidy .steady s e ∧ Calc.PaperSession.Exact .steady .own (· = .sizes) s e then
        Calc.PaperSession.step .steady .own s e else none)
      (.start .new .plain 0 0 () 1000 0)).map
        (fun s => (s.paper.resting.lookup ⟨0⟩).isSome) = some true := by
    decide +kernel
  obtain ⟨s, executed, held⟩ := Option.map_eq_some_iff.mp ran
  have run := run_of_foldlM executed
  exact ⟨s, run, held, (open_iff_resting run ⟨0⟩).mpr held⟩

/-- An immediate-or-cancel buy of 30 against the 10 on offer. -/
def partlyFilledIoc : List SessionEvent :=
  [.fetchBook .sample, .register (.sample .ioc) (.begin 0) 0, .submit ⟨0⟩ "Yes" 0 0]

/-- The order manager keeps a partly filled order open, of which the venue has nothing. In a run of
tidy steps it does so with an order whose last fill is a digit too large for it. -/
theorem open_not_resting :
    (¬ ∀ s, Run (Calc.PaperSession.step .steady .own) Anywhere (.start .new .plain 0 0 () 1000 0)
        partlyFilledIoc s →
      ∀ id, (∃ o, s.orders.get id = some o ∧ o.wasSubmitted ∧ o.state.isOpen) ↔
        (s.paper.resting.lookup id).isSome) ∧
    ¬ ∀ s, Run (Calc.PaperSession.step .cutsTwice .own) (Tidy .cutsTwice)
        (.start .new .risky 0 0 0 1000 0) restAndCut s →
      ∀ id, (∃ o, s.orders.get id = some o ∧ o.wasSubmitted ∧ o.state.isOpen) ↔
        (s.paper.resting.lookup id).isSome := by
  constructor
  · intro claim
    have ran : (partlyFilledIoc.foldlM (fun s e => if Anywhere s e then
        Calc.PaperSession.step .steady .own s e else none) (.start .new .plain 0 0 () 1000 0)).map
          (fun s => ((s.orders.get ⟨0⟩).any fun o => o.wasSubmitted && o.state.isOpen,
            (s.paper.resting.lookup ⟨0⟩).isSome)) = some (true, false) := by
      decide +kernel
    obtain ⟨s, executed, held⟩ := Option.map_eq_some_iff.mp ran
    obtain ⟨open_, gone⟩ := Prod.mk.inj held
    obtain ⟨o, stored, state⟩ := (Option.any_eq_true _ _).mp open_
    have resting := (claim s (run_of_foldlM executed) ⟨0⟩).mp
      ⟨o, stored, Bool.and_eq_true_iff.mp state⟩
    rw [gone] at resting
    cases resting
  · intro claim
    have ran : (restAndCut.foldlM (fun s e => if Tidy .cutsTwice s e then
        Calc.PaperSession.step .cutsTwice .own s e else none)
        (.start .new .risky 0 0 0 1000 0)).map
          (fun s => ((s.orders.get ⟨0⟩).any fun o => o.wasSubmitted && o.state.isOpen,
            (s.paper.resting.lookup ⟨0⟩).isSome)) = some (true, false) := by
      decide +kernel
    obtain ⟨s, executed, held⟩ := Option.map_eq_some_iff.mp ran
    obtain ⟨open_, gone⟩ := Prod.mk.inj held
    obtain ⟨o, stored, state⟩ := (Option.any_eq_true _ _).mp open_
    have resting := (claim s (run_of_foldlM executed) ⟨0⟩).mp
      ⟨o, stored, Bool.and_eq_true_iff.mp state⟩
    rw [gone] at resting
    cases resting

end CopyTrading
