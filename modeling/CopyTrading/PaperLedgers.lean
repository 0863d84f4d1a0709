import CopyTrading.PaperSteps

namespace CopyTrading

open StepRun

variable {G : Type}

def Fill.movesOf (t : TokenId) (f : Fill) : Decimal := if f.tokenId = t then f.signedQty else 0

/-- The three ledgers agree, up to the fills the venue is ahead with. -/
structure BooksMatch (s : PaperSession G) (ahead : List Fill) : Prop where
  positions : ∀ t, s.paper.position t - (ahead.map (Fill.movesOf t)).sum =
    s.orders.orders.total (Order.signedFilled t)
  net : ∀ t, s.portfolio.netQuantity t = s.orders.orders.total (Order.signedFilled t)
  fees : s.portfolio.fees = s.orders.totalFees

/-- Storing a changed order moves the order manager's sums by the change. -/
theorem total_replaced {M : Type} [AddCommGroup M] (g : Order → M) {om om' : OrderManager}
    {o o' : Order} {id : OrderId} {x : M} (stored : om.get id = some o)
    (orders : om'.orders = om.orders.insert id o') (change : g o' = g o + x) :
    om'.orders.total g = om.orders.total g + x := by
  have moved := AList.total_insert_of_lookup (f := g) o' stored
  rw [change, add_comm (g o) x, ← add_assoc] at moved
  rw [orders]
  exact add_right_cancel moved

/-- What a fill of an order moves in the venue's positions. -/
theorem position_upsert {p q : PaperExecution G} {r : OrderRequest} {f : Fill}
    (fill : FillOf r f) (positions : q.positions =
      p.positions.upsert r.tokenId 0 (· + r.side.sign * f.quantity.get)) (t : TokenId) :
    q.position t = p.position t + f.movesOf t := by
  unfold PaperExecution.position Fill.movesOf Fill.signedQty
  rw [positions, fill.token, fill.side]
  by_cases same : r.tokenId = t
  · subst same
    rw [AList.lookup_upsert, if_pos rfl, Option.getD_some]
  · rw [AList.lookup_upsert_ne _ _ (Ne.symm same), if_neg same, add_zero]

section Exact

variable {rng : Rng G} {kinds : Operands → Prop} [DecidablePred kinds]
  {E : AList.Enumeration TokenId Position} {s s' : PaperSession G}

omit [DecidablePred kinds] in
/-- A fill booked on an order moves the order's shares of the sums by the fill. -/
theorem Calc.Took.moves {o o' : Order} {f : Fill} (took : Took kinds o f o')
    (token : o.request.tokenId = f.tokenId) (side : o.request.side = f.side) (t : TokenId) :
    o'.signedFilled t = o.signedFilled t + f.movesOf t := by
  unfold Order.signedFilled Fill.movesOf Fill.signedQty
  rw [took.request, took.filled, token, side, Qty.add_get]
  split
  · rw [mul_add]
  · rw [add_zero]

theorem BooksMatch.settle (amounts : kinds .sizes) (charges : kinds .fees) {f : Fill}
    {ahead : List Fill} (matched : OrdersMatch s.paper s.orders (f :: ahead))
    (h : BooksMatch s (f :: ahead))
    (ran : (Calc.PaperSession.settle E s f).run (Calc.guarded kinds) = some s') :
    BooksMatch s' ahead := by
  obtain ⟨o, o', stored, token, side, took, orders, paper, ⟨_, _, _, filled⟩, _⟩ :=
    matched.accepts amounts ran
  have exposure : ∀ t, s'.orders.orders.total (Order.signedFilled t) =
      s.orders.orders.total (Order.signedFilled t) + f.movesOf t :=
    fun t => total_replaced _ stored orders (took.moves token side t)
  have fees : s'.orders.totalFees = s.orders.totalFees + f.fee :=
    total_replaced _ stored orders (took.fees charges)
  refine ⟨?_, ?_, ?_⟩
  · intro t
    have before := h.positions t
    rw [List.map_cons, List.sum_cons] at before
    rw [paper, exposure t]
    linarith
  · intro t
    rw [exposure t, filled.netQuantity amounts t, h.net t]
    rfl
  · rw [fees, filled.paid charges, h.fees]

/-- What the venue's positions gain in a pass over the candidates is what its fills move. -/
theorem onBookUpdate_position (amounts : kinds .sizes) {p p' : PaperExecution G}
    {book : OrderBook} {cs : List (OrderId × RestingOrder)} (candidates : p.Candidates book cs)
    {now : DateTime} {fills : List Fill}
    (ran : (Calc.PaperExecution.onBookUpdate rng p book cs now).run (Calc.guarded kinds) =
      some (fills, p')) (t : TokenId) :
    p'.position t - (fills.map (Fill.movesOf t)).sum = p.position t := by
  refine Calc.PaperExecution.onBookUpdate_keeps amounts
    (P := fun q fills => q.position t - (fills.map (Fill.movesOf t)).sum = p.position t)
    (fun _ _ _ h => h) ?_ (fun _ _ _ h => h) candidates ?_ ran
  · intro q fills id r f g n h _ fill _
    rw [List.map_append, List.sum_append, List.map_singleton, List.sum_singleton, ← h,
      position_upsert fill rfl t]
    ring
  · rw [List.map_nil, List.sum_nil, sub_zero]

/-- What ties the venue, the order manager and the portfolio together between steps. -/
structure InStep (s : PaperSession G) : Prop where
  orders : OrdersMatch s.paper s.orders []
  books : BooksMatch s []

theorem InStep.bookUpdate (amounts : kinds .sizes) (charges : kinds .fees) (h : InStep s)
    {book : OrderBook} {cs : List (OrderId × RestingOrder)}
    (candidates : s.paper.Candidates book cs) {now : DateTime}
    (ran : (Calc.PaperSession.bookUpdate rng E s book cs now).run (Calc.guarded kinds) =
      some s') : InStep s' := by
  have start : ∀ portfolio paper fills,
      (Calc.PaperSession.markBook E s.portfolio book now).run (Calc.guarded kinds) =
        some portfolio →
      (Calc.PaperExecution.onBookUpdate rng s.paper book cs now).run (Calc.guarded kinds) =
        some (fills, paper) → BooksMatch ⟨paper, s.orders, portfolio⟩ fills := by
    intro portfolio paper fills marks hits
    obtain ⟨quantities, fees⟩ := Calc.PaperSession.markBook_guarded marks
    refine ⟨?_, ?_, fees.trans h.books.fees⟩
    · intro t
      rw [onBookUpdate_position amounts candidates hits t, ← h.books.positions t]
      exact (sub_zero _).symm
    · exact fun t => (quantities t).trans (h.books.net t)
  obtain ⟨t, orders, books, rfl⟩ := OrdersMatch.bookUpdate amounts
    (fun _ _ _ _ matched before ran => before.settle amounts charges matched ran) h.orders
    candidates start ran
  exact ⟨orders.of_resting rfl, books.positions, books.net, books.fees⟩

theorem InStep.submit (amounts : kinds .sizes) (charges : kinds .fees) (h : InStep s)
    {id : OrderId} {outcomeName : String} {now at_ : DateTime}
    (ran : (Calc.PaperSession.submit rng E s id outcomeName now at_).run (Calc.guarded kinds) =
      some s') : InStep s' := by
  refine ⟨h.orders.submit amounts ran, ?_⟩
  rcases PaperSession.submit_cases amounts h.orders ran with rfl |
    ⟨o, o', stored, _, request, orders, answered⟩
  · exact h.books
  -- an answer without a fill leaves all three ledgers as they were
  have unfilled : s'.paper.positions = s.paper.positions → o'.filledQty = o.filledQty →
      o'.feesPaid = o.feesPaid → s'.portfolio = s.portfolio → BooksMatch s' [] := by
    intro positions filled fees portfolio
    have exposure : ∀ t, s'.orders.orders.total (Order.signedFilled t) =
        s.orders.orders.total (Order.signedFilled t) + 0 := by
      intro t
      refine total_replaced _ stored orders ?_
      unfold Order.signedFilled
      rw [request, filled, add_zero]
    have paid : s'.orders.totalFees = s.orders.totalFees + 0 :=
      total_replaced _ stored orders (by rw [fees, add_zero])
    refine ⟨?_, ?_, ?_⟩
    · intro t
      rw [exposure t, add_zero, ← h.books.positions t]
      unfold PaperExecution.position
      rw [positions]
    · intro t
      rw [exposure t, add_zero, portfolio, h.books.net t]
    · rw [paid, add_zero, portfolio, h.books.fees]
  cases answered with
  | refused _ positions _ filled fees portfolio =>
    exact unfilled positions filled fees portfolio
  | rested _ positions _ filled fees portfolio =>
    exact unfilled positions filled fees portfolio
  | filled p f _ _ _ asked none unpaid fill _ _ _ took positions _ booked =>
    obtain ⟨_, _, _, booked⟩ := booked
    have token : p.request.tokenId = f.tokenId := by rw [asked, fill.token]
    have side : p.request.side = f.side := by rw [asked, fill.side]
    have exposure : ∀ t, s'.orders.orders.total (Order.signedFilled t) =
        s.orders.orders.total (Order.signedFilled t) + f.movesOf t := by
      intro t
      refine total_replaced _ stored orders ?_
      rw [took.moves token side]
      unfold Order.signedFilled
      rw [asked, none]
    have paid : s'.orders.totalFees = s.orders.totalFees + f.fee := by
      refine total_replaced _ stored orders ?_
      rw [took.fees charges, unpaid]
    refine ⟨?_, ?_, ?_⟩
    · intro t
      rw [exposure t, ← h.books.positions t, position_upsert fill positions t]
      show _ - 0 = _ - 0 + _
      ring
    · intro t
      rw [exposure t, booked.netQuantity amounts t, h.books.net t]
      rfl
    · rw [paid, booked.paid charges, h.books.fees]

theorem InStep.cancel (h : InStep s) (id : OrderId) (now at_ : DateTime) :
    InStep (s.cancel rng id now at_) := by
  refine ⟨h.orders.cancel id now at_, ?_⟩
  rcases PaperSession.cancel_cases rng h.orders id now at_ with same |
    ⟨o, g, stored, _, orders, paper, portfolio⟩
  · rw [same]
    exact h.books
  · have exposure : ∀ t, (s.cancel rng id now at_).orders.orders.total (Order.signedFilled t) =
        s.orders.orders.total (Order.signedFilled t) + 0 :=
      fun t => total_replaced _ stored orders (add_zero _).symm
    have paid : (s.cancel rng id now at_).orders.totalFees = s.orders.totalFees + 0 :=
      total_replaced _ stored orders (add_zero _).symm
    refine ⟨?_, ?_, ?_⟩
    · intro t
      rw [exposure t, add_zero, ← h.books.positions t, paper]
      rfl
    · intro t
      rw [exposure t, add_zero, portfolio, h.books.net t]
    · rw [paid, add_zero, portfolio, h.books.fees]

theorem InStep.register (h : InStep s) {om : OrderManager}
    {req : OrderRequest} {latency : LatencyStamps} {now : DateTime} {id : OrderId}
    (fresh : s.orders.get req.orderId = none)
    (registered : s.orders.registerValidated req latency now = .ok (id, om)) :
    InStep { s with orders := om } := by
  refine ⟨h.orders.register fresh registered, ?_⟩
  obtain ⟨o, key, _, _, unfilled, unpaid, _, _, rfl, _⟩ :=
    OrderManager.registerValidated_ok registered
  have absent : s.orders.orders.lookup o.id = none := by rw [key]; exact fresh
  have exposure : ∀ t, (s.orders.store o).orders.total (Order.signedFilled t) =
      s.orders.orders.total (Order.signedFilled t) := by
    intro t
    refine AList.total_insert_same ?_
    rw [absent, Option.elim_none]
    unfold Order.signedFilled
    rw [unfilled]
    split
    · exact mul_zero _
    · rfl
  have paid : (s.orders.store o).totalFees = s.orders.totalFees := by
    refine AList.total_insert_same ?_
    rw [absent, Option.elim_none, unpaid]
  refine ⟨?_, ?_, ?_⟩
  · exact fun t => (h.books.positions t).trans (exposure t).symm
  · exact fun t => (h.books.net t).trans (exposure t).symm
  · exact h.books.fees.trans paid.symm

def SessionEvent.isReset : SessionEvent → Bool
  | .paperReset _ => true
  | _ => false

theorem InStep.step (amounts : kinds .sizes) (charges : kinds .fees) (h : InStep s)
    {e : SessionEvent} (keeps : e.isReset = false)
    (exact_ : Calc.PaperSession.Exact rng E kinds s e)
    (taken : Calc.PaperSession.step rng E s e = some s') : InStep s' := by
  have ran := Calc.PaperSession.step_guarded exact_ taken
  cases e with
  | register req latency now =>
    obtain ⟨fresh, rfl | ⟨order, orders, registered, rfl⟩⟩ := PaperSession.step_cases ran
    · exact h
    · exact h.register fresh registered
  | submit id outcomeName now at_ => exact h.submit amounts charges ran
  | cancel id now at_ =>
    cases PaperSession.step_cases ran
    exact h.cancel id now at_
  | bookUpdate book cs now => exact h.bookUpdate amounts charges ran.1 ran.2
  | fetchBook book =>
    cases PaperSession.step_cases ran
    exact ⟨h.orders.of_resting rfl, h.books.positions, h.books.net, h.books.fees⟩
  | paperReset now => cases keeps

end Exact

theorem InStep.start (books : BookCache) (params : MatchParams) (latencyMs jitterMs : Nat)
    (seeded : G) (startingCash : Usd) (now : DateTime) :
    InStep (PaperSession.start books params latencyMs jitterMs seeded startingCash now) := by
  refine ⟨⟨?_, ?_, ?_, ?_⟩, ⟨fun t => ?_, fun t => ?_, ?_⟩⟩
  · intro id o stored
    cases stored
  · intro id o stored
    cases stored
  · intro id r resting
    cases resting
  · intro f mem
    cases mem
  · exact sub_zero 0
  · rfl
  · rfl

/-- The sums that the three ledgers are made of. -/
def Calc.OfLedgers : Operands → Prop
  | .sizes | .fees => True
  | _ => False

instance : DecidablePred Calc.OfLedgers
  | .sizes | .fees => isTrue trivial
  | .profits | .account | .other => isFalse not_false

/-- In a run without a reset that rounds no quantity and no fee, the venue's position, the order
manager's exposure and the portfolio's quantity agree, so do the resting remainders and the fees,
as far as reading them off rounds nothing. -/
theorem quantities_agree {rng : Rng G} {E : AList.Enumeration TokenId Position}
    {F : AList.Enumeration OrderId Order} {books : BookCache} {params : MatchParams}
    {latencyMs jitterMs : Nat} {seeded : G} {startingCash : Usd} {now : DateTime}
    {es : List SessionEvent} {s : PaperSession G}
    (run : Run (Calc.PaperSession.step rng E)
      (fun s e => e.isReset = false ∧ Calc.PaperSession.Exact rng E Calc.OfLedgers s e)
      (.start books params latencyMs jitterMs seeded startingCash now) es s) :
    (∀ held, (Calc.filledExposure F s.orders).Keeps Calc.OfLedgers →
      (Calc.filledExposure F s.orders).run Calc.rounded = some held →
      ∀ t, s.paper.position t = (held.lookup t).getD 0 ∧
        s.portfolio.netQuantity t = (held.lookup t).getD 0) ∧
    (∀ id r, s.paper.resting.lookup id = some r → ∃ o, s.orders.get id = some o ∧
      ∀ left, (Calc.remaining o).Keeps Calc.OfLedgers →
        (Calc.remaining o).run Calc.rounded = some left → left = r.remaining) ∧
    (∀ total, (Calc.totalFees F s.orders).Keeps Calc.OfLedgers →
      (Calc.totalFees F s.orders).run Calc.rounded = some total → total = s.portfolio.fees) := by
  have invariant : InStep s := run.keeps
    (fun s e s' h ok taken => h.step (by trivial) (by trivial) ok.1 ok.2 taken)
    (.start books params latencyMs jitterMs seeded startingCash now)
  refine ⟨?_, ?_, ?_⟩
  · intro held exact_ sums t
    rw [exact_.run] at sums
    rw [Calc.filledExposure_guarded trivial sums t]
    exact ⟨(sub_zero _).symm.trans (invariant.books.positions t), invariant.books.net t⟩
  · intro id r resting
    obtain ⟨_, o, stored, _, _, remaining⟩ := invariant.orders.rests id r resting
    refine ⟨o, stored, ?_⟩
    intro left exact_ subtracts
    rw [exact_.run] at subtracts
    rw [Calc.remaining_guarded trivial subtracts]
    exact Qty.ext (remaining.trans (add_zero _))
  · intro total exact_ sums
    rw [exact_.run] at sums
    rw [Calc.totalFees_guarded trivial sums, invariant.books.fees]

theorem quantities_agree_restAndFill : ∃ s held total,
    Run (Calc.PaperSession.step .steady .own)
      (fun s e => e.isReset = false ∧ Calc.PaperSession.Exact .steady .own Calc.OfLedgers s e)
      (.start .new { MatchParams.plain with feeBps := 100 } 0 0 () 1000 0) restAndFill s ∧
    (Calc.filledExposure .own s.orders).run Calc.rounded = some held ∧
    (Calc.totalFees .own s.orders).run Calc.rounded = some total ∧
    s.paper.position .zero = 20 ∧ (held.lookup .zero).getD 0 = 20 ∧
    s.portfolio.netQuantity .zero = 20 ∧ total = s.portfolio.fees ∧ total = 1 / 10 := by
  have ran : (restAndFill.foldlM (fun s e =>
      if e.isReset = false ∧ Calc.PaperSession.Exact .steady .own Calc.OfLedgers s e then
        Calc.PaperSession.step .steady .own s e else none)
      (.start .new { MatchParams.plain with feeBps := 100 } 0 0 () 1000 0)).any (fun s =>
        (Calc.filledExposure .own s.orders).Keeps Calc.OfLedgers ∧
        (Calc.totalFees .own s.orders).Keeps Calc.OfLedgers ∧
        (((Calc.filledExposure .own s.orders).run Calc.rounded).map fun held =>
          (held.lookup .zero).getD 0) = some 20 ∧
        (Calc.totalFees .own s.orders).run Calc.rounded = some (1 / 10)) = true := by
    decide +kernel
  obtain ⟨s, executed, reads⟩ := (Option.any_eq_true _ _).mp ran
  obtain ⟨exposed, charged, exposure, fees⟩ := of_decide_eq_true reads
  obtain ⟨held, sums, twenty⟩ := Option.map_eq_some_iff.mp exposure
  have run := run_of_foldlM executed
  obtain ⟨quantities, _, paid⟩ := quantities_agree (F := .own) run
  obtain ⟨position, net⟩ := quantities held exposed sums .zero
  exact ⟨s, held, 1 / 10, run, sums, fees, position.trans twenty, twenty, net.trans twenty,
    paid _ charged fees, rfl⟩

/-- Two fills of a resting order are added up with a digit less than they have, so that its
remainder at the venue is another one than in the order manager. The fill of the remainder is then
refused, and the ledgers part. -/
theorem ledgers_part :
    (∃ s o r, Run (Calc.PaperSession.step .cutsTwice .own) (fun _ e => e.isReset = false)
        (.start .new .risky 0 0 0 1000 0) (restAndCut.take 5) s ∧
      s.orders.get ⟨0⟩ = some o ∧ s.paper.resting.lookup ⟨0⟩ = some r ∧
      (Calc.remaining o).run Calc.rounded ≠ some r.remaining) ∧
    ∃ s held, Run (Calc.PaperSession.step .cutsTwice .own) (fun _ e => e.isReset = false)
        (.start .new .risky 0 0 0 1000 0) restAndCut s ∧
      (Calc.filledExposure .own s.orders).run Calc.rounded = some held ∧
      s.paper.position .zero ≠ (held.lookup .zero).getD 0 := by
  constructor
  · have ran : ((restAndCut.take 5).foldlM (fun s e => if SessionEvent.isReset e = false then
        Calc.PaperSession.step .cutsTwice .own s e else none)
        (.start .new .risky 0 0 0 1000 0)).any (fun s =>
          (s.orders.get ⟨0⟩).any fun o => (s.paper.resting.lookup ⟨0⟩).any fun r =>
            (Calc.remaining o).run Calc.rounded ≠ some r.remaining) = true := by
      decide +kernel
    obtain ⟨s, executed, reads⟩ := (Option.any_eq_true _ _).mp ran
    obtain ⟨o, stored, reads⟩ := (Option.any_eq_true _ _).mp reads
    obtain ⟨r, rests, differ⟩ := (Option.any_eq_true _ _).mp reads
    exact ⟨s, o, r, run_of_foldlM executed, stored, rests, of_decide_eq_true differ⟩
  · have ran : (restAndCut.foldlM (fun s e => if SessionEvent.isReset e = false then
        Calc.PaperSession.step .cutsTwice .own s e else none)
        (.start .new .risky 0 0 0 1000 0)).any (fun s =>
          ((Calc.filledExposure .own s.orders).run Calc.rounded).any fun held =>
            s.paper.position .zero ≠ (held.lookup .zero).getD 0) = true := by
      decide +kernel
    obtain ⟨s, executed, reads⟩ := (Option.any_eq_true _ _).mp ran
    obtain ⟨held, sums, differ⟩ := (Option.any_eq_true _ _).mp reads
    exact ⟨s, held, run_of_foldlM executed, sums, of_decide_eq_true differ⟩

end CopyTrading
