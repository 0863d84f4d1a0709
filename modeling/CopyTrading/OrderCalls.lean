import CopyTrading.Order
namespace CopyTrading
/-- A method that takes the order by mutable reference: an error does not undo what it has
already written. -/
abbrev OrderM := ExceptT OrderError (StateM Order)

namespace OrderM

def transition (next : OrderState) (at_ : DateTime) : OrderM Unit := do
  if !(← get).state.canTransitionTo next then
    throw (.illegalTransition (← get).state next)
  modify fun o => { o with state := next }
  modify fun o => { o with updatedAt := at_ }

def applyFill (qty : Qty) (price : Price) (fee : Usd) (at_ : DateTime) : OrderM Unit := do
  if !(← get).state.mayHaveExecuted then
    throw (.illegalTransition (← get).state .partiallyFilled)
  if qty.get > (← get).remaining.get then
    throw (.overfill (← get).id qty (← get).remaining)
  modify fun o => { o with filledQty := o.filledQty.add qty }
  modify fun o => { o with filledNotional := o.filledNotional + qty.notional price }
  modify fun o => { o with feesPaid := o.feesPaid + fee }
  let next := if (← get).remaining.isZero then .filled else .partiallyFilled
  modify fun o => { o with state := next }
  modify fun o => { o with updatedAt := at_ }

def on (m : OrderM Unit) (o : Order) : Except OrderError Unit × Order := m.run o

section Run

variable (o : Order)

@[simp] theorem on_get (f : Order → OrderM Unit) : (get >>= f).on o = (f o).on o := rfl

@[simp] theorem on_modify_bind (g : Order → Order) (m : OrderM Unit) :
    (modify g >>= fun _ => m).on o = m.on (g o) := rfl

@[simp] theorem on_modify (g : Order → Order) :
    OrderM.on (modify g) o = (.ok (), g o) := rfl

@[simp] theorem on_throw (e : OrderError) : OrderM.on (throw e) o = (.error e, o) := rfl

@[simp] theorem on_ite (c : Prop) [Decidable c] (m m' : OrderM Unit) :
    (if c then m else m').on o = if c then m.on o else m'.on o := by
  split <;> rfl

end Run

/-- What is left of an order by a call that has or has not been refused. -/
def left (o : Order) : Except OrderError Order → Except OrderError Unit × Order
  | .ok o' => (.ok (), o')
  | .error e => (.error e, o)

/-- The checks come before the first write. -/
theorem transition_on (next : OrderState) (at_ : DateTime) (o : Order) :
    (transition next at_).on o = left o (o.transition next at_) := by
  unfold Order.transition
  cases can : o.state.canTransitionTo next with
  | true => simp [transition, can, left]
  | false => simp [transition, can, left]

theorem applyFill_on (qty : Qty) (price : Price) (fee : Usd) (at_ : DateTime) (o : Order) :
    (applyFill qty price fee at_).on o = left o (o.applyFill qty price fee at_) := by
  unfold Order.applyFill
  cases may : o.state.mayHaveExecuted with
  | false => simp [applyFill, may, left]
  | true =>
    by_cases beyond : qty.get > o.remaining.get
    · simp [applyFill, may, left, beyond]
    · simp [applyFill, may, left, beyond, Order.booked]

end OrderM

inductive OrderCall
  | transition (next : OrderState) (at_ : DateTime)
  | applyFill (qty : Qty) (price : Price) (fee : Usd) (at_ : DateTime)

/-- A fill that an order has accepted. -/
structure BookedFill where
  quantity : Qty
  price : Price
  fee : Usd
  deriving DecidableEq

def BookedFill.notional (f : BookedFill) : Usd := f.quantity.notional f.price

namespace OrderCall

def exec : OrderCall → OrderM Unit
  | transition next at_ => OrderM.transition next at_
  | applyFill qty price fee at_ => OrderM.applyFill qty price fee at_

/-- The same call on an order that is passed by value. -/
def result (o : Order) : OrderCall → Except OrderError Order
  | transition next at_ => o.transition next at_
  | applyFill qty price fee at_ => o.applyFill qty price fee at_

def fills : OrderCall → List BookedFill
  | transition .. => []
  | applyFill qty price fee _ => [⟨qty, price, fee⟩]

theorem exec_on (c : OrderCall) (o : Order) : c.exec.on o = OrderM.left o (c.result o) := by
  cases c with
  | transition next at_ => exact OrderM.transition_on next at_ o
  | applyFill qty price fee at_ => exact OrderM.applyFill_on qty price fee at_ o

theorem exec_error {c : OrderCall} {o o' : Order} {e : OrderError}
    (h : c.exec.on o = (.error e, o')) : o' = o := by
  rw [exec_on] at h
  cases result : c.result o with
  | ok _ =>
    rw [result] at h
    cases h
  | error _ =>
    rw [result] at h
    cases h
    rfl

/-- A call, with what has been accepted so far. -/
def call (s : Order × List BookedFill) (c : OrderCall) : Order × List BookedFill :=
  match c.exec.on s.1 with
  | (.ok (), o) => (o, s.2 ++ c.fills)
  | (.error _, o) => (o, s.2)

end OrderCall

/-- The order after a sequence of calls, with the fills it has accepted. -/
def Order.after (o : Order) (cs : List OrderCall) : Order × List BookedFill :=
  cs.foldl OrderCall.call (o, [])

/-- True average price, over what is filled. -/
def Order.avgFillPrice (o : Order) : Option Price :=
  if o.filledQty.isZero then none else Price.ofDecimal? (o.filledNotional / o.filledQty.get)

/-- The figures of an order are the sums over the fills it has accepted, within its quantity. -/
structure Order.Accounts (o : Order) (request : OrderRequest) (fs : List BookedFill) : Prop where
  request : o.request = request
  quantity : o.filledQty.get = (fs.map fun f => f.quantity.get).sum
  notional : o.filledNotional = (fs.map BookedFill.notional).sum
  fees : o.feesPaid = (fs.map BookedFill.fee).sum
  within : o.filledQty.get ≤ o.request.quantity.get

namespace Order.Accounts

variable {o : Order} {request : OrderRequest} {fs : List BookedFill}

theorem new {latency : LatencyStamps} (made : Order.new request latency = .ok o) :
    o.Accounts request [] := by
  unfold Order.new at made
  split at made
  next => cases made
  next =>
    cases made
    exact ⟨rfl, rfl, rfl, rfl, request.quantity.nonneg⟩

theorem remaining_get (h : o.Accounts request fs) :
    o.remaining.get = request.quantity.get - o.filledQty.get := by
  unfold remaining
  rw [Qty.saturatingSub_get h.within, h.request]

theorem booked (h : o.Accounts request fs) {qty : Qty} (fits : qty.get ≤ o.remaining.get)
    (price : Price) (fee : Usd) (at_ : DateTime) :
    (o.booked qty price fee at_).Accounts request (fs ++ [⟨qty, price, fee⟩]) := by
  rw [h.remaining_get] at fits
  have room := h.request
  refine ⟨h.request, ?_, ?_, ?_, ?_⟩
  · rw [booked_filledQty, Qty.add_get, h.quantity]
    simp
  · have figure : (o.booked qty price fee at_).filledNotional =
        o.filledNotional + qty.notional price := rfl
    rw [figure, h.notional]
    simp [BookedFill.notional]
  · rw [booked_feesPaid, h.fees]
    simp
  · rw [booked_filledQty, booked_request, Qty.add_get, room]
    linarith

/-- A call that is refused changes nothing; one that is accepted counts what it booked. -/
theorem call (h : o.Accounts request fs) (c : OrderCall) :
    (OrderCall.call (o, fs) c).1.Accounts request (OrderCall.call (o, fs) c).2 := by
  unfold OrderCall.call
  simp only [c.exec_on o]
  cases result : c.result o with
  | error e => exact h
  | ok o' =>
    cases c with
    | transition next at_ =>
      obtain ⟨_, rfl⟩ := transition_ok_iff.mp result
      simp only [OrderM.left, OrderCall.fills, List.append_nil]
      exact ⟨h.request, h.quantity, h.notional, h.fees, h.within⟩
    | applyFill qty price fee at_ =>
      obtain ⟨_, fits, rfl⟩ := applyFill_ok_iff.mp result
      exact h.booked fits price fee at_

theorem after (h : o.Accounts request []) (cs : List OrderCall) :
    (o.after cs).1.Accounts request (o.after cs).2 := by
  have run : ∀ (cs : List OrderCall) (s : Order × List BookedFill), s.1.Accounts request s.2 →
      (cs.foldl OrderCall.call s).1.Accounts request (cs.foldl OrderCall.call s).2 := by
    intro cs
    induction cs with
    | nil => exact fun _ counts => counts
    | cons c cs ih => exact fun s counts => ih _ (counts.call c)
  exact run cs (o, []) h

end Order.Accounts

end CopyTrading
