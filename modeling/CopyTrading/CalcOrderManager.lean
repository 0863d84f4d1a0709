import CopyTrading.CalcOrder
import CopyTrading.OrderManager

namespace CopyTrading

namespace Calc

/-- One fill of an acknowledgement: booked, or the order is flagged. -/
def receiveFill (now : DateTime) (acc : Order × List Fill) (f : Fill) :
    Calc (Order × List Fill) := do
  let order := acc.1.stampFill f.filledAt
  match ← applyFill order f.quantity f.price f.fee f.filledAt with
  | .ok order => pure (order, acc.2 ++ [f])
  | .error _ => pure (order.tryTransition .unknown now, acc.2)

def acknowledge (order : Order) (ack : Acknowledgement) (now : DateTime) :
    Calc (Order × List Fill) :=
  let order := { order with
    latency := { order.latency with ack := some now }
    venueOrderId := ack.venueOrderId }
  ack.immediateFills.foldlM (receiveFill now) (order.tryTransition .acknowledged now, [])

/-- The part of a submission after the adapter has answered; it writes back the order it sent. -/
def submitFinish (om : OrderManager) (order : Order)
    (response : Except ExecutionError Acknowledgement) (now : DateTime) :
    Calc (SubmitOutcome × OrderManager) := do
  let id := order.id
  let corr := order.request.correlationId
  match response with
  | .ok ack => do
    let om := om.emit (.orderAcknowledged id corr ack.venueOrderId now)
    let (order, applied) ← acknowledge order ack now
    let om := om.store order
    pure (.acknowledged id applied, applied.foldl (fun om f =>
      om.emit (fillEvent order.state id corr f)) om)
  | .error e =>
    if e.requiresReconciliation then
      -- an order may exist at the venue
      pure (.ambiguous id e, om.store (order.refused .unknown e now))
    else
      pure (.rejected id (.venue e),
        (om.store (order.refused .rejected e now)).emit (.orderRejected id corr e now))

def applyExternalFill (om : OrderManager) (f : Fill) : Calc (Except OrderRefusal OrderManager) :=
  match om.get f.orderId with
  | none => pure (.error .unknownOrder)
  | some o => do
    match ← applyFill (o.stampFill f.filledAt) f.quantity f.price f.fee f.filledAt with
    | .error e => pure (.error (.order e))
    | .ok o => pure (.ok ((om.store o).emit
        (fillEvent o.state f.orderId o.request.correlationId f)))

/-- The net filled shares of each token, over the orders as the map lists them. -/
def filledExposure (E : AList.Enumeration OrderId Order) (om : OrderManager) :
    Calc (AList fun _ : TokenId => Decimal) :=
  (E.list om.orders).foldlM (fun m o =>
    if o.filledQty.isZero then pure m
    else do
      let held ← sizes ((m.lookup o.request.tokenId).getD 0 +
        o.request.side.sign * o.filledQty.get)
      pure (m.insert o.request.tokenId held)) ∅

def totalFees (E : AList.Enumeration OrderId Order) (om : OrderManager) : Calc Usd :=
  (E.list om.orders).foldlM (fun total o => fees (total + o.feesPaid)) 0

variable {kinds : Operands → Prop} {o o' : Order} {f : Fill}

/-- A fill that is accepted where no quantity has to be rounded. -/
structure Took (kinds : Operands → Prop) (o : Order) (f : Fill) (o' : Order) : Prop where
  may : o.state.mayHaveExecuted
  fits : f.quantity.get ≤ o.remaining.get
  request : o'.request = o.request
  filled : o'.filledQty = o.filledQty.add f.quantity
  state : o'.state = if o'.remaining.isZero then .filled else .partiallyFilled
  fees : kinds .fees → o'.feesPaid = o.feesPaid + f.fee

theorem Took.id (h : Took kinds o f o') : o'.id = o.id := congrArg OrderRequest.orderId h.request

theorem Took.remaining (h : Took kinds o f o') :
    o'.remaining.get = o.remaining.get - f.quantity.get := by
  have same : o'.remaining = o.remaining.saturatingSub f.quantity := by
    refine Qty.ext ?_
    show max (o'.request.quantity.get - o'.filledQty.get) 0 =
      max (max (o.request.quantity.get - o.filledQty.get) 0 - f.quantity.get) 0
    rw [h.request, h.filled, Qty.add_get]
    have some_ := f.quantity.nonneg
    rcases le_total (o.request.quantity.get - o.filledQty.get) 0 with none_ | room
    · rw [max_eq_right none_, max_eq_right (by linarith), max_eq_right (by linarith)]
    · rw [max_eq_left room]
      congr 1
      ring
  rw [same, Qty.saturatingSub_get h.fits]

theorem Took.working (h : Took kinds o f o') (left : 0 < o'.remaining.get) :
    o'.state.Working := by
  rw [h.state, if_neg]
  · exact .inr rfl
  · rw [Qty.isZero_iff]
    exact ne_of_gt left

variable [DecidablePred kinds]

theorem remaining_guarded (exact_ : kinds .sizes) {left : Qty}
    (h : (remaining o).run (guarded kinds) = some left) : left = o.remaining :=
  (saturatingSub_guarded exact_ h).1

theorem applyFill_took (exact_ : kinds .sizes)
    (h : (applyFill (o.stampFill f.filledAt) f.quantity f.price f.fee f.filledAt).run
      (guarded kinds) = some (.ok o')) : Took kinds o f o' := by
  obtain ⟨latency, stamped⟩ := o.stampFill_eq f.filledAt
  rw [stamped] at h
  obtain ⟨may, ⟨left, remains, fits⟩, books⟩ := applyFill_run h
  obtain ⟨left', remains', state⟩ := books.left
  have charged := books.fees
  unfold Calc.fees at charged
  rw [Calculation.run_lift] at charged
  refine ⟨may, ?_, ?_, (addQty_guarded exact_ books.quantity).1, ?_, ?_⟩
  · rw [remaining_guarded exact_ remains] at fits
    exact fits
  · rw [books.rest]
  · rw [state, remaining_guarded exact_ remains']
  · exact (guarded_eq_some charged).2

/-- A fill with room is accepted. -/
theorem applyFill_accepts (exact_ : kinds .sizes) (may : o.state.mayHaveExecuted)
    (fits : f.quantity.get ≤ o.remaining.get) {r : Except OrderError Order}
    (h : (applyFill (o.stampFill f.filledAt) f.quantity f.price f.fee f.filledAt).run
      (guarded kinds) = some r) : ∃ o', r = .ok o' := by
  obtain ⟨latency, stamped⟩ := o.stampFill_eq f.filledAt
  rw [stamped] at h
  unfold applyFill at h
  split at h
  next no =>
    rw [Bool.not_eq_true'] at no
    exact absurd may (by rw [no]; exact Bool.false_ne_true)
  next =>
    rw [Calculation.run_bind] at h
    obtain ⟨left, remains, h⟩ := Option.bind_eq_some_iff.mp h
    split at h
    next more =>
      rw [remaining_guarded exact_ remains] at more
      exact absurd fits (not_le.mpr more)
    next =>
      rw [Calculation.run_bind] at h
      obtain ⟨o', _, h⟩ := Option.bind_eq_some_iff.mp h
      cases h
      exact ⟨o', rfl⟩

section Receive

variable {now : DateTime} {acc acc' : Order × List Fill}

theorem receiveFill_guarded (exact_ : kinds .sizes)
    (h : (receiveFill now acc f).run (guarded kinds) = some acc') :
    (Took kinds acc.1 f acc'.1 ∧ acc'.2 = acc.2 ++ [f]) ∨
      ¬(acc.1.state.mayHaveExecuted ∧ f.quantity.get ≤ acc.1.remaining.get) ∧
      acc' = ((acc.1.stampFill f.filledAt).tryTransition .unknown now, acc.2) := by
  unfold receiveFill at h
  rw [Calculation.run_bind] at h
  obtain ⟨r, applies, h⟩ := Option.bind_eq_some_iff.mp h
  cases r with
  | ok o' =>
    cases h
    exact .inl ⟨applyFill_took exact_ applies, rfl⟩
  | error e =>
    cases h
    refine .inr ⟨?_, rfl⟩
    rintro ⟨may, fits⟩
    obtain ⟨_, accepted⟩ := applyFill_accepts exact_ may fits applies
    cases accepted

theorem acknowledge_eq (sent : o.state = .submitted) (ack : Acknowledgement) (now : DateTime) :
    acknowledge o ack now = ack.immediateFills.foldlM (receiveFill now) (o.acked ack now, []) := by
  unfold acknowledge
  simp only [Order.tryTransition_eq, sent]
  rfl

theorem acknowledge_request {ack : Acknowledgement} (exact_ : kinds .sizes)
    (h : (acknowledge o ack now).run (guarded kinds) = some acc) : acc.1.request = o.request := by
  unfold acknowledge at h
  refine Calculation.run_foldlM_keeps
    (P := fun acc : Order × List Fill => acc.1.request = o.request) ?_ ?_ h
  · intro acc f _ acc' same turn
    rcases receiveFill_guarded exact_ turn with ⟨took, _⟩ | ⟨_, rfl⟩
    · rw [took.request, same]
    · rw [Order.tryTransition_request, Order.stampFill_request, same]
  · rw [Order.tryTransition_request]

end Receive

variable {om om' : OrderManager}

/-- What a submission writes back, and the fills it hands on. -/
theorem submitFinish_run {response : Except ExecutionError Acknowledgement} {now : DateTime}
    {outcome : SubmitOutcome} (exact_ : kinds .sizes)
    (h : (submitFinish om o response now).run (guarded kinds) = some (outcome, om')) :
    match response with
    | .ok ack => ∃ o' fills, (acknowledge o ack now).run (guarded kinds) = some (o', fills) ∧
        om'.orders = om.orders.insert o.id o' ∧ outcome.fills = fills
    | .error e => om'.orders = om.orders.insert o.id (o.answered (.error e) now) ∧
        outcome.fills = [] := by
  unfold submitFinish at h
  cases response with
  | ok ack =>
    simp only [Calculation.run_bind] at h
    obtain ⟨⟨o', fills⟩, acks, h⟩ := Option.bind_eq_some_iff.mp h
    cases h
    refine ⟨o', fills, acks, ?_, rfl⟩
    have same : o'.id = o.id := congrArg OrderRequest.orderId (acknowledge_request exact_ acks)
    rw [OrderManager.foldl_emit_orders, OrderManager.store_orders, OrderManager.emit_orders, same]
  | error e =>
    have same := o.answered_id (.error e) now
    simp only [Order.answered] at same ⊢
    simp only at h
    split at h
    next ambiguous =>
      cases h
      rw [if_pos ambiguous] at same ⊢
      rw [OrderManager.store_orders, same]
      exact ⟨rfl, rfl⟩
    next refused =>
      cases h
      rw [if_neg refused] at same ⊢
      rw [OrderManager.emit_orders, OrderManager.store_orders, same]
      exact ⟨rfl, rfl⟩

theorem applyExternalFill_took (exact_ : kinds .sizes) (stored : om.get f.orderId = some o)
    (h : (applyExternalFill om f).run (guarded kinds) = some (.ok om')) :
    ∃ o', Took kinds o f o' ∧ om'.orders = om.orders.insert o.id o' := by
  unfold applyExternalFill at h
  rw [stored] at h
  simp only [Calculation.run_bind] at h
  obtain ⟨r, applies, h⟩ := Option.bind_eq_some_iff.mp h
  cases r with
  | error e => cases h
  | ok o' =>
    cases h
    have took := applyFill_took exact_ applies
    exact ⟨o', took, by rw [OrderManager.emit_orders, OrderManager.store_orders, took.id]⟩

theorem applyExternalFill_accepts (exact_ : kinds .sizes) (stored : om.get f.orderId = some o)
    (may : o.state.mayHaveExecuted) (fits : f.quantity.get ≤ o.remaining.get)
    {r : Except OrderRefusal OrderManager}
    (h : (applyExternalFill om f).run (guarded kinds) = some r) : ∃ om', r = .ok om' := by
  unfold applyExternalFill at h
  rw [stored] at h
  simp only [Calculation.run_bind] at h
  obtain ⟨applied, applies, h⟩ := Option.bind_eq_some_iff.mp h
  obtain ⟨o', rfl⟩ := applyFill_accepts exact_ may fits applies
  cases h
  exact ⟨_, rfl⟩

/-- What every order fills of a token, where the sum is exact. -/
theorem filledExposure_guarded {E : AList.Enumeration OrderId Order} (exact_ : kinds .sizes)
    {held : AList fun _ : TokenId => Decimal}
    (h : (filledExposure E om).run (guarded kinds) = some held) (t : TokenId) :
    (held.lookup t).getD 0 = om.orders.total (Order.signedFilled t) := by
  have sum := Calculation.run_foldlM_sum
    (fun m : AList fun _ : TokenId => Decimal => (m.lookup t).getD 0) (Order.signedFilled t) ?_ h
  · rw [sum, AList.lookup_empty, Option.getD_none, zero_add]
    exact ((E.perm om.orders).map _).sum_eq
  · intro m o m' turn
    unfold Order.signedFilled
    split at turn
    next zero =>
      cases turn
      rw [Qty.isZero_iff.mp zero, mul_zero, ite_self, add_zero]
    next =>
      rw [Calculation.run_bind] at turn
      obtain ⟨more, adds, turn⟩ := Option.bind_eq_some_iff.mp turn
      cases turn
      rw [sizes_guarded exact_ adds]
      by_cases same : o.request.tokenId = t
      · subst same
        rw [AList.lookup_insert, if_pos rfl, Option.getD_some]
      · rw [AList.lookup_insert_ne (Ne.symm same), if_neg same, add_zero]

theorem totalFees_guarded {E : AList.Enumeration OrderId Order} (exact_ : kinds .fees)
    {total : Usd} (h : (totalFees E om).run (guarded kinds) = some total) :
    total = om.totalFees := by
  have sum := Calculation.run_foldlM_sum id Order.feesPaid
    (fun _ _ _ turn => fees_guarded exact_ turn) h
  rw [id, id, zero_add] at sum
  rw [sum]
  exact ((E.perm om.orders).map _).sum_eq

end Calc

end CopyTrading
