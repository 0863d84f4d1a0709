import CopyTrading.CalcPaper

namespace CopyTrading

variable {G : Type}

/-- What is owed to an order of the fills the venue is ahead with. -/
def owed (ahead : List Fill) (id : OrderId) : Decimal :=
  (ahead.map fun f => if f.orderId = id then f.quantity.get else 0).sum

def PaperExecution.restOf (p : PaperExecution G) (id : OrderId) : Decimal :=
  (p.resting.lookup id).elim 0 fun r => r.remaining.get

/-- The venue's resting orders and the order manager's agree, up to the fills `ahead` that the
order manager has yet to see. -/
structure OrdersMatch (p : PaperExecution G) (om : OrderManager) (ahead : List Fill) : Prop where
  ids : ∀ id o, om.get id = some o → o.id = id
  unsent : ∀ id o, om.get id = some o → o.state = .validated →
    o.filledQty = .zero ∧ 0 < o.request.quantity.get
  rests : ∀ id r, p.resting.lookup id = some r → 0 < r.remaining.get ∧
    ∃ o, om.get id = some o ∧ o.request = r.request ∧ o.state.Working ∧
      o.remaining.get = r.remaining.get + owed ahead id
  fills : ∀ f ∈ ahead, 0 < f.quantity.get ∧
    ∃ o, om.get f.orderId = some o ∧ o.request.tokenId = f.tokenId ∧
      o.request.side = f.side ∧ o.state.Working ∧
      o.remaining.get = p.restOf f.orderId + owed ahead f.orderId

theorem owed_nonneg (ahead : List Fill) (id : OrderId) : 0 ≤ owed ahead id := by
  apply List.sum_nonneg
  intro x hx
  obtain ⟨f, _, rfl⟩ := List.mem_map.mp hx
  split
  · exact f.quantity.nonneg
  · exact le_rfl

theorem owed_pos {ahead : List Fill} {f : Fill} (mem : f ∈ ahead) (pos : 0 < f.quantity.get) :
    0 < owed ahead f.orderId := by
  have each : ∀ x ∈ ahead.map (fun g => if g.orderId = f.orderId then g.quantity.get else 0),
      0 ≤ x := by
    intro x hx
    obtain ⟨g, _, rfl⟩ := List.mem_map.mp hx
    split
    · exact g.quantity.nonneg
    · exact le_rfl
  have one : f.quantity.get ≤ owed ahead f.orderId :=
    List.single_le_sum each _ (List.mem_map.mpr ⟨f, mem, if_pos rfl⟩)
  linarith

theorem owed_append (ahead : List Fill) (f : Fill) (id : OrderId) :
    owed (ahead ++ [f]) id = owed ahead id + if f.orderId = id then f.quantity.get else 0 := by
  simp [owed]

theorem owed_cons (ahead : List Fill) (f : Fill) (id : OrderId) :
    owed (f :: ahead) id = (if f.orderId = id then f.quantity.get else 0) + owed ahead id := rfl

theorem PaperExecution.restOf_nonneg (p : PaperExecution G) (id : OrderId) : 0 ≤ p.restOf id := by
  unfold restOf
  cases p.resting.lookup id with
  | none => exact le_rfl
  | some r => exact r.remaining.nonneg

theorem PaperExecution.restOf_some {p : PaperExecution G} {id : OrderId} {r : RestingOrder}
    (h : p.resting.lookup id = some r) : p.restOf id = r.remaining.get := by
  unfold restOf
  rw [h, Option.elim_some]

theorem PaperExecution.restOf_none {p : PaperExecution G} {id : OrderId}
    (h : p.resting.lookup id = none) : p.restOf id = 0 := by
  unfold restOf
  rw [h, Option.elim_none]

theorem OrdersMatch.of_resting {p q : PaperExecution G} {om : OrderManager} {ahead : List Fill}
    (h : OrdersMatch p om ahead) (resting : q.resting = p.resting) : OrdersMatch q om ahead := by
  refine ⟨h.ids, h.unsent, ?_, ?_⟩
  · rw [resting]
    exact h.rests
  · intro f mem
    have := h.fills f mem
    unfold PaperExecution.restOf at this ⊢
    rw [resting]
    exact this

theorem OrdersMatch.filled {p q : PaperExecution G} {om : OrderManager} {ahead : List Fill}
    (h : OrdersMatch p om ahead) {id : OrderId} {r : RestingOrder} {f : Fill}
    (held : p.resting.lookup id = some r) (fill : FillOf r.request f)
    (fits : f.quantity.get ≤ r.remaining.get)
    (resting : q.resting = hitMap p.resting id r f.quantity) :
    OrdersMatch q om (ahead ++ [f]) := by
  obtain ⟨_, o, stored, same, working, remaining⟩ := h.rests id r held
  have key : f.orderId = id := by
    rw [fill.order, ← same]
    exact h.ids id o stored
  have owes : owed (ahead ++ [f]) id = owed ahead id + f.quantity.get := by
    rw [owed_append, if_pos key]
  have others : ∀ j, j ≠ id → q.resting.lookup j = p.resting.lookup j ∧
      owed (ahead ++ [f]) j = owed ahead j := by
    intro j other
    refine ⟨by rw [resting]; exact lookup_hitMap_ne _ _ _ other, ?_⟩
    rw [owed_append, key, if_neg (Ne.symm other), add_zero]
  have rest : q.restOf id = r.remaining.get - f.quantity.get := by
    rcases lookup_hitMap held fits with ⟨none, whole⟩ | ⟨left, some_, eq, _⟩
    · rw [PaperExecution.restOf_none (by rw [resting]; exact none)]
      linarith
    · rw [PaperExecution.restOf_some (by rw [resting]; exact some_)]
      exact eq
  refine ⟨h.ids, h.unsent, ?_, ?_⟩
  · intro j r' here
    by_cases at_id : j = id
    · subst at_id
      rcases lookup_hitMap held fits with ⟨none, _⟩ | ⟨left, some_, eq, pos⟩
      · rw [resting, none] at here
        cases here
      · rw [resting, some_] at here
        cases here
        refine ⟨pos, o, stored, same, working, ?_⟩
        rw [owes, remaining]
        show _ = left.get + _
        linarith
    · obtain ⟨lookup, owed'⟩ := others j at_id
      rw [lookup] at here
      rw [owed']
      exact h.rests j r' here
  · intro f' mem
    rcases List.mem_append.mp mem with old | new
    · obtain ⟨pos, o', stored', token, side, working', remaining'⟩ := h.fills f' old
      refine ⟨pos, o', stored', token, side, working', ?_⟩
      by_cases at_id : f'.orderId = id
      · rw [at_id, owes, rest, remaining', at_id, PaperExecution.restOf_some held]
        ring
      · obtain ⟨lookup, owed'⟩ := others f'.orderId at_id
        rw [owed', remaining']
        unfold PaperExecution.restOf
        rw [lookup]
    · rw [List.mem_singleton] at new
      subst new
      refine ⟨fill.pos, o, by rw [key]; exact stored, by rw [same, fill.token],
        by rw [same, fill.side], working, ?_⟩
      rw [key, owes, remaining, rest]
      ring

variable {rng : Rng G} {kinds : Operands → Prop} [DecidablePred kinds]
  {E : AList.Enumeration TokenId Position}

/-- A pass over the candidates moves the venue ahead by the fills it makes. -/
theorem OrdersMatch.hits (exact_ : kinds .sizes) {p p' : PaperExecution G} {om : OrderManager}
    (h : OrdersMatch p om []) {book : OrderBook} {cs : List (OrderId × RestingOrder)}
    (candidates : p.Candidates book cs) {now : DateTime} {fills : List Fill}
    (ran : (Calc.PaperExecution.onBookUpdate rng p book cs now).run (Calc.guarded kinds) =
      some (fills, p')) : OrdersMatch p' om fills :=
  Calc.PaperExecution.onBookUpdate_keeps exact_ (P := fun p fills => OrdersMatch p om fills)
    (fun _ _ _ h => h.of_resting rfl)
    (fun _ _ _ _ _ _ _ h held fill fits => h.filled held fill fits rfl)
    (fun _ _ _ h => h.of_resting rfl) candidates h ran

/-- Taking the fill `f` off the list of those the venue is ahead with: the order `o` that it is
booked on, as `o'`, and the session `s'` after it. -/
structure Accepted (kinds : Operands → Prop) [DecidablePred kinds]
    (E : AList.Enumeration TokenId Position) (s : PaperSession G) (f : Fill) (ahead : List Fill)
    (o o' : Order) (s' : PaperSession G) : Prop where
  stored : s.orders.get f.orderId = some o
  token : o.request.tokenId = f.tokenId
  side : o.request.side = f.side
  took : Calc.Took kinds o f o'
  orders : s'.orders.orders = s.orders.orders.insert f.orderId o'
  paper : s'.paper = s.paper
  booked : ∃ gain booked q, Calc.Portfolio.FilledBy (Calc.guarded kinds) E s.portfolio f "" gain
    booked q s'.portfolio
  left : o'.remaining.get = s.paper.restOf f.orderId + owed ahead f.orderId

/-- The order manager accepts the next fill the venue is ahead with. -/
theorem OrdersMatch.accepts (exact_ : kinds .sizes) {s s' : PaperSession G} {f : Fill}
    {ahead : List Fill} (h : OrdersMatch s.paper s.orders (f :: ahead))
    (ran : (Calc.PaperSession.settle E s f).run (Calc.guarded kinds) = some s') :
    ∃ o o', Accepted kinds E s f ahead o o' s' := by
  obtain ⟨pos, o, stored, token, side, working, remaining⟩ := h.fills f List.mem_cons_self
  rw [owed_cons, if_pos rfl] at remaining
  have rest := s.paper.restOf_nonneg f.orderId
  have later := owed_nonneg ahead f.orderId
  have fits : f.quantity.get ≤ o.remaining.get := by linarith
  unfold Calc.PaperSession.settle at ran
  rw [Calculation.run_bind] at ran
  obtain ⟨answer, applies, ran⟩ := Option.bind_eq_some_iff.mp ran
  obtain ⟨om, rfl⟩ :=
    Calc.applyExternalFill_accepts exact_ stored working.mayHaveExecuted fits applies
  obtain ⟨o', took, orders⟩ := Calc.applyExternalFill_took exact_ stored applies
  rw [h.ids f.orderId o stored] at orders
  simp only [Calculation.run_bind] at ran
  obtain ⟨⟨q, portfolio⟩, books, ran⟩ := Option.bind_eq_some_iff.mp ran
  cases ran
  obtain ⟨gain, booked, filled⟩ := Calc.Portfolio.applyFill_run books
  refine ⟨o, o', stored, token, side, took, orders, rfl, ⟨gain, booked, q, filled⟩, ?_⟩
  rw [took.remaining, remaining]
  ring

theorem OrdersMatch.settle (exact_ : kinds .sizes) {s s' : PaperSession G} {f : Fill}
    {ahead : List Fill} (h : OrdersMatch s.paper s.orders (f :: ahead))
    (ran : (Calc.PaperSession.settle E s f).run (Calc.guarded kinds) = some s') :
    OrdersMatch s'.paper s'.orders ahead := by
  obtain ⟨o, o', stored, _, _, took, orders, paper, _, left⟩ := h.accepts exact_ ran
  have get_ := OrderManager.get_insert orders
  have key := h.ids f.orderId o stored
  have rest := s.paper.restOf_nonneg f.orderId
  have later := owed_nonneg ahead f.orderId
  rw [paper]
  refine ⟨?_, ?_, ?_, ?_⟩
  · intro j p hj
    rw [get_] at hj
    split at hj
    next same =>
      cases hj
      rw [took.id, key, same]
    next => exact h.ids j p hj
  · intro j p hj validated
    rw [get_] at hj
    split at hj
    next =>
      cases hj
      rw [took.state] at validated
      split at validated <;> cases validated
    next => exact h.unsent j p hj validated
  · intro j r resting
    obtain ⟨some_, p, hp, request, working, remaining⟩ := h.rests j r resting
    refine ⟨some_, ?_⟩
    rw [get_]
    split
    next same =>
      subst same
      cases stored.symm.trans hp
      rw [PaperExecution.restOf_some resting] at left
      have still : 0 < o'.remaining.get := by linarith
      exact ⟨o', rfl, took.request.trans request, took.working still, left⟩
    next other =>
      rw [owed_cons, if_neg (Ne.symm other), zero_add] at remaining
      exact ⟨p, hp, request, working, remaining⟩
  · intro f' mem
    obtain ⟨pos, p, hp, token, side, working, remaining⟩ :=
      h.fills f' (List.mem_cons_of_mem _ mem)
    refine ⟨pos, ?_⟩
    rw [get_]
    split
    next same =>
      rw [same] at hp
      cases stored.symm.trans hp
      have owes := owed_pos mem pos
      rw [same] at owes ⊢
      have still : 0 < o'.remaining.get := by linarith
      exact ⟨o', rfl, by rw [took.request]; exact token, by rw [took.request]; exact side,
        took.working still, left⟩
    next other =>
      rw [owed_cons, if_neg (Ne.symm other), zero_add] at remaining
      exact ⟨p, hp, token, side, working, remaining⟩

/-- What handing over one fill keeps, handing over all of them keeps. -/
theorem settle_all (exact_ : kinds .sizes) {P : PaperSession G → List Fill → Prop}
    (keep : ∀ s f ahead s', OrdersMatch s.paper s.orders (f :: ahead) → P s (f :: ahead) →
      (Calc.PaperSession.settle E s f).run (Calc.guarded kinds) = some s' → P s' ahead)
    {ahead : List Fill} {s s' : PaperSession G} (orders : OrdersMatch s.paper s.orders ahead)
    (h : P s ahead)
    (ran : (ahead.foldlM (Calc.PaperSession.settle E) s).run (Calc.guarded kinds) = some s') :
    OrdersMatch s'.paper s'.orders [] ∧ P s' [] := by
  induction ahead generalizing s with
  | nil =>
    cases ran
    exact ⟨orders, h⟩
  | cons f ahead ih =>
    rw [List.foldlM_cons, Calculation.run_bind] at ran
    obtain ⟨t, one, ran⟩ := Option.bind_eq_some_iff.mp ran
    exact ih (orders.settle exact_ one) (keep s f ahead t orders h one) ran

/-- Writing one order, with the venue's resting map changed at most there. -/
theorem OrdersMatch.update {p q : PaperExecution G} {om om' : OrderManager} {id : OrderId}
    {o : Order} (h : OrdersMatch p om []) (key : o.id = id)
    (orders : om'.orders = om.orders.insert id o)
    (unsent : o.state = .validated → o.filledQty = .zero ∧ 0 < o.request.quantity.get)
    (others : ∀ j, j ≠ id → q.resting.lookup j = p.resting.lookup j)
    (here : ∀ r, q.resting.lookup id = some r → 0 < r.remaining.get ∧ o.request = r.request ∧
      o.state.Working ∧ o.remaining.get = r.remaining.get) : OrdersMatch q om' [] := by
  have get_ := OrderManager.get_insert orders
  refine ⟨?_, ?_, ?_, by intro f mem; cases mem⟩
  · intro j o' hj
    rw [get_] at hj
    split at hj
    next same => cases hj; exact key.trans same.symm
    next => exact h.ids j o' hj
  · intro j o' hj validated
    rw [get_] at hj
    split at hj
    next => cases hj; exact unsent validated
    next => exact h.unsent j o' hj validated
  · intro j r resting
    rw [get_]
    split
    next same =>
      rw [same] at resting
      obtain ⟨pos, request, working, remaining⟩ := here r resting
      exact ⟨pos, o, rfl, request, working, by rw [remaining]; exact (add_zero _).symm⟩
    next other =>
      rw [others j other] at resting
      exact h.rests j r resting

/-- An order that is not working is not resting. -/
theorem OrdersMatch.not_resting {p : PaperExecution G} {om : OrderManager} {id : OrderId}
    (h : OrdersMatch p om []) (idle : ∀ o, om.get id = some o → ¬o.state.Working) :
    p.resting.lookup id = none := by
  by_contra some_
  obtain ⟨r, resting⟩ := Option.ne_none_iff_exists'.mp some_
  obtain ⟨_, o, stored, _, working, _⟩ := h.rests id r resting
  exact idle o stored working

end CopyTrading
