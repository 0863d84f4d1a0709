import CopyTrading.CalcMoney
import CopyTrading.OrderCalls

namespace CopyTrading

namespace Calc

def remaining (o : Order) : Calc Qty := saturatingSub o.request.quantity o.filledQty

/-- True average price, over what is filled. -/
def avgFillPrice (o : Order) : Calc (Option Price) :=
  if o.filledQty.isZero then pure none
  else do
    let average ← op (o.filledNotional / o.filledQty.get)
    pure (Price.ofDecimal? average)

/-- The order with a fill booked, in the state its remainder calls for. -/
def booked (o : Order) (qty : Qty) (price : Price) (fee : Usd) (at_ : DateTime) : Calc Order := do
  let filled ← addQty o.filledQty qty
  let paid ← notional qty price
  let total ← op (o.filledNotional + paid)
  let charged ← fees (o.feesPaid + fee)
  let o := { o with filledQty := filled, filledNotional := total, feesPaid := charged }
  let left ← remaining o
  pure { o with
    state := if left.isZero then .filled else .partiallyFilled
    updatedAt := at_ }

def applyFill (o : Order) (qty : Qty) (price : Price) (fee : Usd) (at_ : DateTime) :
    Calc (Except OrderError Order) :=
  if !o.state.mayHaveExecuted then pure (.error (.illegalTransition o.state .partiallyFilled))
  else do
    let left ← remaining o
    if qty.get > left.get then pure (.error (.overfill o.id qty left))
    else do
      let o ← booked o qty price fee at_
      pure (.ok o)

/-- A method that takes the order by mutable reference: an error does not undo what it has
already written. -/
abbrev OrderM := ExceptT OrderError (StateT Order Calc)

namespace OrderM

/-- An operator in the body of a method. -/
def ofCalc {α : Type} (p : Calc α) : OrderM α := ExceptT.lift (StateT.lift p)

def transition (next : OrderState) (at_ : DateTime) : OrderM Unit := do
  if !(← get).state.canTransitionTo next then
    throw (.illegalTransition (← get).state next)
  modify fun o => { o with state := next }
  modify fun o => { o with updatedAt := at_ }

def applyFill (qty : Qty) (price : Price) (fee : Usd) (at_ : DateTime) : OrderM Unit := do
  if !(← get).state.mayHaveExecuted then
    throw (.illegalTransition (← get).state .partiallyFilled)
  let left ← ofCalc (remaining (← get))
  if qty.get > left.get then
    throw (.overfill (← get).id qty left)
  let filled ← ofCalc (addQty (← get).filledQty qty)
  modify fun o => { o with filledQty := filled }
  let paid ← ofCalc (notional qty price)
  let total ← ofCalc (op ((← get).filledNotional + paid))
  modify fun o => { o with filledNotional := total }
  let charged ← ofCalc (fees ((← get).feesPaid + fee))
  modify fun o => { o with feesPaid := charged }
  let left ← ofCalc (remaining (← get))
  modify fun o => { o with state := if left.isZero then .filled else .partiallyFilled }
  modify fun o => { o with updatedAt := at_ }

def on (m : OrderM Unit) (o : Order) : Calc (Except OrderError Unit × Order) := m.run o

section Run

variable (o : Order)

@[simp] theorem on_get (f : Order → OrderM Unit) : (get >>= f).on o = (f o).on o := rfl

@[simp] theorem on_modify_bind (g : Order → Order) (m : OrderM Unit) :
    (modify g >>= fun _ => m).on o = m.on (g o) := rfl

@[simp] theorem on_modify (g : Order → Order) :
    OrderM.on (modify g) o = pure (.ok (), g o) := rfl

@[simp] theorem on_throw (e : OrderError) : OrderM.on (throw e) o = pure (.error e, o) := rfl

@[simp] theorem on_throw_bind (e : OrderError) (m : OrderM Unit) :
    OrderM.on ((throw e : OrderM Unit) >>= fun _ => m) o = pure (.error e, o) := rfl

@[simp] theorem on_ofCalc {α : Type} (p : Calc α) (f : α → OrderM Unit) :
    (ofCalc p >>= f).on o = (p >>= fun a => (f a).on o) := by
  induction p with
  | done a => rfl
  | op k x next ih => exact congrArg (Calculation.op k x) (funext ih)

@[simp] theorem on_ite (c : Prop) [Decidable c] (m m' : OrderM Unit) :
    (if c then m else m').on o = if c then m.on o else m'.on o := by
  split <;> rfl

end Run

/-- What is left of an order by a call that has or has not been refused. -/
def left (o : Order) : Except OrderError Order → Except OrderError Unit × Order
  | .ok o' => (.ok (), o')
  | .error e => (.error e, o)

/-- The checks come before the first write. -/
theorem transition_on (next : OrderState) (at_ : DateTime) (o : Order) :
    (transition next at_).on o = pure (left o (o.transition next at_)) := by
  unfold Order.transition
  cases can : o.state.canTransitionTo next with
  | true => simp [transition, can, left]
  | false => simp [transition, can, left]

theorem applyFill_on (qty : Qty) (price : Price) (fee : Usd) (at_ : DateTime) (o : Order) :
    (applyFill qty price fee at_).on o = left o <$> Calc.applyFill o qty price fee at_ := by
  unfold Calc.applyFill
  cases may : o.state.mayHaveExecuted with
  | false => simp [applyFill, may, left]
  | true =>
    simp only [applyFill, may, booked, on_get, on_ofCalc, on_ite, on_throw_bind, on_modify_bind,
      on_modify, Bool.not_true, Bool.false_eq_true, if_false, map_bind]
    refine bind_congr fun left_ => ?_
    split
    next => rfl
    next => simp [left]

end OrderM

variable {machine : Operands → Decimal → Option Decimal} {o o' : Order} {qty : Qty} {price : Price}
  {fee : Usd} {at_ : DateTime}

/-- What a machine makes of a fill that is booked. -/
structure BookedBy (machine : Operands → Decimal → Option Decimal) (o : Order) (qty : Qty)
    (price : Price) (fee : Usd) (at_ : DateTime) (o' : Order) : Prop where
  quantity : (addQty o.filledQty qty).run machine = some o'.filledQty
  notional : (do
    let paid ← notional qty price
    op (o.filledNotional + paid)).run machine = some o'.filledNotional
  fees : (Calc.fees (o.feesPaid + fee)).run machine = some o'.feesPaid
  left : ∃ left, (remaining o').run machine = some left ∧
    o'.state = if left.isZero then .filled else .partiallyFilled
  rest : o' = { o with
    filledQty := o'.filledQty
    filledNotional := o'.filledNotional
    feesPaid := o'.feesPaid
    state := o'.state
    updatedAt := at_ }

theorem booked_run (h : (booked o qty price fee at_).run machine = some o') :
    BookedBy machine o qty price fee at_ o' := by
  unfold booked at h
  rw [Calculation.run_bind] at h
  obtain ⟨filled, adds, h⟩ := Option.bind_eq_some_iff.mp h
  rw [Calculation.run_bind] at h
  obtain ⟨paid, costs, h⟩ := Option.bind_eq_some_iff.mp h
  rw [Calculation.run_bind] at h
  obtain ⟨total, sums, h⟩ := Option.bind_eq_some_iff.mp h
  rw [Calculation.run_bind] at h
  obtain ⟨charged, charges, h⟩ := Option.bind_eq_some_iff.mp h
  rw [Calculation.run_bind] at h
  obtain ⟨left, remains, h⟩ := Option.bind_eq_some_iff.mp h
  cases h
  refine ⟨adds, ?_, charges, ⟨left, remains, rfl⟩, rfl⟩
  rw [Calculation.run_bind, costs]
  exact sums

/-- A fill is accepted exactly when its order may have executed and has room for it. -/
theorem applyFill_run (h : (applyFill o qty price fee at_).run machine = some (.ok o')) :
    o.state.mayHaveExecuted ∧ (∃ left, (remaining o).run machine = some left ∧
      qty.get ≤ left.get) ∧ BookedBy machine o qty price fee at_ o' := by
  unfold applyFill at h
  split at h
  next => cases h
  next may =>
    rw [Calculation.run_bind] at h
    obtain ⟨left, remains, h⟩ := Option.bind_eq_some_iff.mp h
    split at h
    next => cases h
    next fits =>
      rw [Calculation.run_bind] at h
      obtain ⟨o'', books, h⟩ := Option.bind_eq_some_iff.mp h
      cases h
      exact ⟨by simpa using may, ⟨left, remains, not_lt.mp fits⟩, booked_run books⟩

end Calc

end CopyTrading
