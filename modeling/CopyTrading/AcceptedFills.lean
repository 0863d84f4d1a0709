import CopyTrading.OrderManager

namespace CopyTrading

def acceptedTotal (g : Fill → Decimal) (accepted : List (OrderId × Fill)) (id : OrderId) :
    Decimal :=
  (accepted.map fun a => if a.1 = id then g a.2 else 0).sum

/-- The order's figures are the sums over the fills accepted for it. -/
structure Order.Counts (o : Order) (accepted : List (OrderId × Fill)) (id : OrderId) : Prop where
  quantity : o.filledQty.get = acceptedTotal (fun f => f.quantity.get) accepted id
  notional : o.filledNotional = acceptedTotal Fill.notional accepted id
  fees : o.feesPaid = acceptedTotal Fill.fee accepted id

theorem acceptedTotal_append (g : Fill → Decimal) (accepted : List (OrderId × Fill))
    (id j : OrderId) (fs : List Fill) :
    acceptedTotal g (accepted ++ fs.map fun f => (id, f)) j =
      acceptedTotal g accepted j + if id = j then (fs.map g).sum else 0 := by
  unfold acceptedTotal
  rw [List.map_append, List.sum_append, List.map_map]
  congr 1
  split
  next same => simp [Function.comp_def, same]
  next other => simp [Function.comp_def, other]

theorem Order.Counts.append_other {o : Order} {accepted : List (OrderId × Fill)} {id j : OrderId}
    (h : o.Counts accepted j) (other : j ≠ id) (fs : List Fill) :
    o.Counts (accepted ++ fs.map fun f => (id, f)) j := by
  refine ⟨?_, ?_, ?_⟩ <;> rw [acceptedTotal_append, if_neg (Ne.symm other), add_zero]
  · exact h.quantity
  · exact h.notional
  · exact h.fees

theorem Order.Counts.withFill {o : Order} {accepted : List (OrderId × Fill)} {id : OrderId}
    (h : o.Counts accepted id) (f : Fill) :
    (o.withFill f).Counts (accepted ++ [f].map fun f => (id, f)) id := by
  refine ⟨?_, ?_, ?_⟩ <;> rw [acceptedTotal_append, if_pos rfl, List.map_singleton,
    List.sum_singleton]
  · rw [withFill_filledQty, Qty.add_get, h.quantity]
  · rw [withFill_filledNotional, h.notional]
  · rw [withFill_feesPaid, h.fees]

theorem Order.Counts.tryTransition {o : Order} {accepted : List (OrderId × Fill)} {id : OrderId}
    (h : o.Counts accepted id) (next : OrderState) (at_ : DateTime) :
    (o.tryTransition next at_).Counts accepted id := by
  rw [tryTransition_eq]
  split
  · exact ⟨h.quantity, h.notional, h.fees⟩
  · exact h

/-- The fills of an acknowledgement count exactly where they are reported as applied. -/
theorem Order.Counts.acknowledge {o : Order} {accepted : List (OrderId × Fill)} {id : OrderId}
    (h : o.Counts accepted id) (ack : Acknowledgement) (now : DateTime) :
    (o.acknowledge ack now).1.Counts
      (accepted ++ (o.acknowledge ack now).2.map fun f => (id, f)) id := by
  have fold : ∀ (fs : List Fill) (acc : Order × List Fill),
      acc.1.Counts (accepted ++ acc.2.map fun f => (id, f)) id →
      (fs.foldl (receiveFill now) acc).1.Counts
        (accepted ++ (fs.foldl (receiveFill now) acc).2.map fun f => (id, f)) id := by
    intro fs
    induction fs with
    | nil => exact fun _ counts => counts
    | cons f fs ih =>
      intro acc counts
      refine ih _ ?_
      unfold receiveFill
      simp only
      split
      next o' taken =>
        obtain ⟨_, _, rfl⟩ := (acc.1.stamped_applyFill_ok_iff f).mp taken
        rw [List.map_append, ← List.append_assoc]
        exact counts.withFill f
      next =>
        obtain ⟨_, eq⟩ := acc.1.stampFill_eq f.filledAt
        refine tryTransition ?_ _ _
        rw [eq]
        exact ⟨counts.quantity, counts.notional, counts.fees⟩
  refine fold ack.immediateFills _ (tryTransition ?_ _ _)
  rw [List.map_nil, List.append_nil]
  exact ⟨h.quantity, h.notional, h.fees⟩

theorem Order.Counts.answered {o : Order} {accepted : List (OrderId × Fill)} {id : OrderId}
    (h : o.Counts accepted id) (response : Except ExecutionError Acknowledgement)
    (now : DateTime) : (o.answered response now).Counts
      (accepted ++ (o.appliedFills response now).map fun f => (id, f)) id := by
  cases response with
  | ok ack => exact h.acknowledge ack now
  | error e =>
    have moved := h.tryTransition (if e.requiresReconciliation then .unknown else .rejected) now
    rw [show o.appliedFills (.error e) now = [] from rfl, List.map_nil, List.append_nil]
    exact ⟨moved.quantity, moved.notional, moved.fees⟩

/-- A filled order has nothing left to fill. -/
def Order.FilledUp (o : Order) : Prop := o.state = .filled → o.remaining.isZero

theorem Order.FilledUp.of_state {o : Order} (h : o.state ≠ .filled) : o.FilledUp :=
  fun filled => absurd filled h

theorem Order.withFill_filledUp (o : Order) (f : Fill) : (o.withFill f).FilledUp := by
  intro filled
  rw [withFill_state] at filled
  split at filled
  next none => exact none
  next => cases filled

theorem Order.FilledUp.tryTransition {o : Order} (h : o.FilledUp) {next : OrderState}
    (other : next ≠ .filled) (at_ : DateTime) : (o.tryTransition next at_).FilledUp := by
  rw [tryTransition_eq]
  split
  · exact of_state other
  · exact h

theorem Order.FilledUp.answered {o : Order} (h : o.FilledUp)
    (response : Except ExecutionError Acknowledgement) (now : DateTime) :
    (o.answered response now).FilledUp := by
  have fold : ∀ (fs : List Fill) (acc : Order × List Fill), acc.1.FilledUp →
      (fs.foldl (receiveFill now) acc).1.FilledUp := by
    intro fs
    induction fs with
    | nil => exact fun _ full => full
    | cons f fs ih =>
      intro acc full
      refine ih _ ?_
      unfold receiveFill
      simp only
      split
      next o' taken =>
        obtain ⟨_, _, rfl⟩ := (acc.1.stamped_applyFill_ok_iff f).mp taken
        exact acc.1.withFill_filledUp f
      next =>
        obtain ⟨_, eq⟩ := acc.1.stampFill_eq f.filledAt
        refine tryTransition ?_ (by intro eq; cases eq) _
        rw [eq]
        exact full
  cases response with
  | ok ack =>
    refine fold ack.immediateFills _ (tryTransition ?_ ?_ _)
    · exact h
    · intro eq
      cases eq
  | error e =>
    refine tryTransition h ?_ now
    split <;> intro eq <;> cases eq

theorem Order.withFill_of_terminal {o : Order} {f : Fill} (full : o.FilledUp)
    (may : o.state.mayHaveExecuted) (fits : f.quantity.get ≤ o.remaining.get)
    (terminal : o.state.isTerminal) : (o.withFill f).state = o.state := by
  have filled : o.state = .filled := by
    cases state : o.state <;> rw [state] at may terminal <;>
      first | rfl | exact absurd terminal (by decide) | exact absurd may (by decide)
  have none := Qty.isZero_iff.mp (full filled)
  have quantity := f.quantity.nonneg
  rw [filled, withFill_state, if_pos]
  rw [Qty.isZero_iff, withFill_remaining, Qty.saturatingSub_get fits]
  linarith

end CopyTrading
