import CopyTrading.Trade

namespace CopyTrading

inductive OrderState
  | created
  | validated
  | submitted
  | acknowledged
  | partiallyFilled
  | filled
  | cancelRequested
  | cancelled
  | rejected
  | failed
  /-- Submitted, but the outcome cannot be determined. -/
  | unknown
  deriving DecidableEq

namespace OrderState

def isTerminal : OrderState → Bool
  | filled | cancelled | rejected | failed => true
  | _ => false

/-- Still consuming risk budget and an open-order slot. -/
def isOpen : OrderState → Bool
  | created | validated | submitted | acknowledged | partiallyFilled | cancelRequested
  | unknown => true
  | _ => false

def mayHaveExecuted : OrderState → Bool
  | submitted | acknowledged | partiallyFilled | filled | cancelRequested | unknown => true
  | _ => false

def canTransitionTo : OrderState → OrderState → Bool
  | filled, _ | cancelled, _ | rejected, _ | failed, _ => false
  | _, unknown => true
  | unknown, acknowledged | unknown, partiallyFilled | unknown, filled | unknown, cancelled
  | unknown, rejected | unknown, failed => true
  | created, validated | created, rejected | created, failed => true
  | validated, submitted | validated, rejected | validated, failed => true
  | submitted, acknowledged | submitted, partiallyFilled | submitted, filled | submitted, rejected
  | submitted, failed | submitted, cancelled => true
  | acknowledged, partiallyFilled | acknowledged, filled | acknowledged, cancelRequested
  | acknowledged, cancelled | acknowledged, rejected => true
  | partiallyFilled, partiallyFilled | partiallyFilled, filled
  | partiallyFilled, cancelRequested | partiallyFilled, cancelled => true
  | cancelRequested, cancelled | cancelRequested, filled
  | cancelRequested, partiallyFilled => true
  | _, _ => false

theorem isOpen_eq_not_isTerminal (s : OrderState) : s.isOpen = !s.isTerminal := by
  cases s <;> rfl

/-- Nothing leaves a terminal state. -/
theorem canTransitionTo_terminal {s : OrderState} (h : s.isTerminal) (next : OrderState) :
    s.canTransitionTo next = false := by
  cases s <;> first | rfl | cases h

end OrderState

inductive OrderError
  | illegalTransition (source target : OrderState)
  | overfill (order : OrderId) (fill remaining : Qty)
  | zeroQuantity
  deriving DecidableEq

inductive OrderType
  /-- Executes against resting liquidity, under a protective limit. -/
  | market
  /-- Rests at its price. -/
  | limit
  deriving DecidableEq

inductive TimeInForce
  | gtc
  | ioc
  | fok
  deriving DecidableEq

structure OrderRequest where
  orderId : OrderId
  correlationId : CorrelationId
  signalId : Option SignalId
  marketId : MarketId
  tokenId : TokenId
  side : Side
  orderType : OrderType
  timeInForce : TimeInForce
  quantity : Qty
  limitPrice : Price
  referencePrice : Price
  tickSize : Decimal
  createdAt : DateTime
  deriving DecidableEq

def OrderRequest.sample (timeInForce : TimeInForce) : OrderRequest where
  orderId := ⟨0⟩
  correlationId := ⟨0⟩
  signalId := none
  marketId := .zero
  tokenId := .zero
  side := .buy
  orderType := .limit
  timeInForce := timeInForce
  quantity := ⟨30, by norm_num⟩
  limitPrice := ⟨3 / 5, by norm_num, by norm_num⟩
  referencePrice := ⟨3 / 5, by norm_num, by norm_num⟩
  tickSize := 1 / 100
  createdAt := 0

def OrderRequest.notional (r : OrderRequest) : Usd := r.quantity.notional r.limitPrice

inductive ExecutionError
  | rejected (reason : String)
  | transport (detail : String)
  | auth (detail : String)
  | notReady (detail : String)
  /-- An order may or may not exist at the venue. -/
  | ambiguous (detail : String)
  | unknownOrder (order : OrderId)
  | unsupported (detail : String)
  deriving DecidableEq

def ExecutionError.requiresReconciliation : ExecutionError → Bool
  | .ambiguous _ | .transport _ => true
  | _ => false

structure Order where
  request : OrderRequest
  state : OrderState
  venueOrderId : Option String
  filledQty : Qty
  filledNotional : Usd
  feesPaid : Usd
  rejectReason : Option ExecutionError
  latency : LatencyStamps
  updatedAt : DateTime
  deriving DecidableEq

def Order.new (request : OrderRequest) (latency : LatencyStamps) : Except OrderError Order :=
  if request.quantity.isZero then .error .zeroQuantity
  else .ok {
    request := request
    state := .created
    venueOrderId := none
    filledQty := .zero
    filledNotional := 0
    feesPaid := 0
    rejectReason := none
    latency := latency
    updatedAt := request.createdAt }

def Order.id (o : Order) : OrderId := o.request.orderId

def Order.remaining (o : Order) : Qty := o.request.quantity.saturatingSub o.filledQty

def Order.transition (o : Order) (next : OrderState) (at_ : DateTime) : Except OrderError Order :=
  if o.state.canTransitionTo next then .ok { o with state := next, updatedAt := at_ }
  else .error (.illegalTransition o.state next)

/-- `let _ = order.transition(next, at)`: an illegal transition leaves the order as it is. -/
def Order.tryTransition (o : Order) (next : OrderState) (at_ : DateTime) : Order :=
  match o.transition next at_ with
  | .ok o' => o'
  | .error _ => o

/-- The order with a fill booked, in the state its remainder calls for. -/
def Order.booked (o : Order) (qty : Qty) (price : Price) (fee : Usd) (at_ : DateTime) : Order :=
  let o := { o with
    filledQty := o.filledQty.add qty
    filledNotional := o.filledNotional + qty.notional price
    feesPaid := o.feesPaid + fee }
  { o with
    state := if o.remaining.isZero then .filled else .partiallyFilled
    updatedAt := at_ }

def Order.applyFill (o : Order) (qty : Qty) (price : Price) (fee : Usd) (at_ : DateTime) :
    Except OrderError Order :=
  if !o.state.mayHaveExecuted then .error (.illegalTransition o.state .partiallyFilled)
  else if qty.get > o.remaining.get then .error (.overfill o.id qty o.remaining)
  else .ok (o.booked qty price fee at_)

def Order.stampFill (o : Order) (at_ : DateTime) : Order :=
  if o.latency.fill.isNone then { o with latency := { o.latency with fill := some at_ } } else o

theorem Order.applyFill_ok_iff {o o' : Order} {qty : Qty} {price : Price} {fee : Usd}
    {at_ : DateTime} : o.applyFill qty price fee at_ = .ok o' ↔
      o.state.mayHaveExecuted ∧ qty.get ≤ o.remaining.get ∧ o' = o.booked qty price fee at_ := by
  unfold applyFill
  constructor
  · intro h
    split at h
    next => cases h
    next may =>
      split at h
      next => cases h
      next fits =>
        cases h
        exact ⟨by simpa using may, not_lt.mp fits, rfl⟩
  · rintro ⟨may, fits, rfl⟩
    simp [may, not_lt.mpr fits]

theorem Order.transition_ok_iff {o o' : Order} {next : OrderState} {at_ : DateTime} :
    o.transition next at_ = .ok o' ↔
      o.state.canTransitionTo next ∧ o' = { o with state := next, updatedAt := at_ } := by
  unfold transition
  constructor
  · intro h
    split at h
    next can => cases h; exact ⟨can, rfl⟩
    next => cases h
  · rintro ⟨can, rfl⟩
    rw [if_pos can]

theorem Order.booked_remaining (o : Order) (qty : Qty) (price : Price) (fee : Usd)
    (at_ : DateTime) :
    (o.booked qty price fee at_).remaining = o.remaining.saturatingSub qty := by
  ext
  show max (o.request.quantity.get - (o.filledQty.get + qty.get)) 0 =
    max (o.remaining.get - qty.get) 0
  have rest : o.remaining.get = max (o.request.quantity.get - o.filledQty.get) 0 := rfl
  rw [rest]
  rcases le_total (o.request.quantity.get - o.filledQty.get) 0 with none | some_
  · rw [max_eq_right none]
    have := qty.nonneg
    rw [max_eq_right (by linarith), max_eq_right (by linarith)]
  · rw [max_eq_left some_]
    congr 1
    ring

@[simp] theorem Order.booked_request (o : Order) (qty : Qty) (price : Price) (fee : Usd)
    (at_ : DateTime) : (o.booked qty price fee at_).request = o.request := rfl

@[simp] theorem Order.booked_filledQty (o : Order) (qty : Qty) (price : Price) (fee : Usd)
    (at_ : DateTime) : (o.booked qty price fee at_).filledQty = o.filledQty.add qty := rfl

@[simp] theorem Order.booked_feesPaid (o : Order) (qty : Qty) (price : Price) (fee : Usd)
    (at_ : DateTime) : (o.booked qty price fee at_).feesPaid = o.feesPaid + fee := rfl

theorem Order.stampFill_eq (o : Order) (at_ : DateTime) :
    ∃ latency, o.stampFill at_ = { o with latency := latency } := by
  unfold stampFill
  split
  · exact ⟨_, rfl⟩
  · exact ⟨o.latency, rfl⟩

def Order.withFill (o : Order) (f : Fill) : Order :=
  (o.stampFill f.filledAt).booked f.quantity f.price f.fee f.filledAt

section WithFill

variable (o : Order) (f : Fill)

@[simp] theorem Order.stampFill_request (at_ : DateTime) :
    (o.stampFill at_).request = o.request := by
  obtain ⟨_, eq⟩ := o.stampFill_eq at_
  rw [eq]

@[simp] theorem Order.withFill_request : (o.withFill f).request = o.request := by
  obtain ⟨_, eq⟩ := o.stampFill_eq f.filledAt
  rw [withFill, booked_request, eq]

@[simp] theorem Order.withFill_id : (o.withFill f).id = o.id := by
  rw [Order.id, withFill_request, Order.id]

@[simp] theorem Order.withFill_filledQty :
    (o.withFill f).filledQty = o.filledQty.add f.quantity := by
  obtain ⟨_, eq⟩ := o.stampFill_eq f.filledAt
  rw [withFill, booked_filledQty, eq]

@[simp] theorem Order.withFill_filledNotional :
    (o.withFill f).filledNotional = o.filledNotional + f.notional := by
  obtain ⟨_, eq⟩ := o.stampFill_eq f.filledAt
  unfold withFill
  rw [eq]
  rfl

@[simp] theorem Order.withFill_feesPaid : (o.withFill f).feesPaid = o.feesPaid + f.fee := by
  obtain ⟨_, eq⟩ := o.stampFill_eq f.filledAt
  rw [withFill, booked_feesPaid, eq]

theorem Order.withFill_remaining :
    (o.withFill f).remaining = o.remaining.saturatingSub f.quantity := by
  obtain ⟨_, eq⟩ := o.stampFill_eq f.filledAt
  rw [withFill, booked_remaining, eq]
  rfl

theorem Order.withFill_state : (o.withFill f).state =
    if (o.withFill f).remaining.isZero then .filled else .partiallyFilled := by
  obtain ⟨_, eq⟩ := o.stampFill_eq f.filledAt
  unfold withFill
  rw [eq]
  rfl

/-- A stamped order accepts a fill exactly when the order may have executed and has room. -/
theorem Order.stamped_applyFill_ok_iff {o' : Order} :
    (o.stampFill f.filledAt).applyFill f.quantity f.price f.fee f.filledAt = .ok o' ↔
      o.state.mayHaveExecuted ∧ f.quantity.get ≤ o.remaining.get ∧ o' = o.withFill f := by
  obtain ⟨_, eq⟩ := o.stampFill_eq f.filledAt
  rw [applyFill_ok_iff, withFill, eq]
  rfl

end WithFill

/-- An order the venue may still fill. -/
def OrderState.Working (st : OrderState) : Prop := st = .acknowledged ∨ st = .partiallyFilled

theorem OrderState.Working.mayHaveExecuted {st : OrderState} (h : st.Working) :
    st.mayHaveExecuted := by
  rcases h with rfl | rfl <;> rfl

theorem OrderState.Working.isOpen {st : OrderState} (h : st.Working) : st.isOpen := by
  rcases h with rfl | rfl <;> rfl

theorem OrderState.Working.ne {st st' : OrderState} (h : st.Working) (idle : ¬st'.Working) :
    st ≠ st' := by
  intro same
  rw [same] at h
  exact idle h

theorem Order.transition_cancelRequested {o : Order} (working : o.state.Working) (now : DateTime) :
    o.transition .cancelRequested now =
      .ok { o with state := .cancelRequested, updatedAt := now } := by
  refine transition_ok_iff.mpr ⟨?_, rfl⟩
  rcases working with eq | eq <;> rw [eq] <;> rfl

theorem Order.remaining_of_unfilled {o : Order} (h : o.filledQty = .zero) :
    o.remaining.get = o.request.quantity.get := by
  unfold remaining
  rw [h, Qty.saturatingSub_get o.request.quantity.nonneg]
  exact sub_zero _

theorem Order.id_of_request {o o' : Order} (h : o'.request = o.request) : o'.id = o.id := by
  unfold id
  rw [h]

end CopyTrading
