import CopyTrading.AssocSum
import CopyTrading.Events

namespace CopyTrading

structure Acknowledgement where
  orderId : OrderId
  venueOrderId : Option String
  acceptedAt : DateTime
  /-- Fills that came back on the same round trip. -/
  immediateFills : List Fill
  /-- The venue considers the order finished already. -/
  terminal : Bool

/-- The seam between the order manager and a venue, whose own state is `A`. -/
structure ExecutionAdapter (A : Type) where
  submit : A → OrderRequest → Except ExecutionError Acknowledgement × A
  cancel : A → OrderId → Option String → Except ExecutionError Unit × A

inductive OrderRefusal
  | unknownOrder
  | order (e : OrderError)
  | venue (e : ExecutionError)
  deriving DecidableEq

inductive SubmitOutcome
  | acknowledged (orderId : OrderId) (fills : List Fill)
  | rejected (orderId : OrderId) (reason : OrderRefusal)
  /-- Requires reconciliation before the position can be trusted. -/
  | ambiguous (orderId : OrderId) (detail : ExecutionError)

structure OrderManager where
  orders : AList fun _ : OrderId => Order
  events : List SystemEvent

def OrderManager.new : OrderManager := ⟨∅, []⟩

def OrderManager.emit (om : OrderManager) (e : SystemEvent) : OrderManager :=
  { om with events := om.events ++ [e] }

def OrderManager.get (om : OrderManager) (id : OrderId) : Option Order := om.orders.lookup id

def OrderManager.store (om : OrderManager) (o : Order) : OrderManager :=
  { om with orders := om.orders.insert o.id o }

def OrderManager.openOrders (om : OrderManager) : List Order :=
  om.orders.values.filter fun o => o.state.isOpen

def OrderManager.openCount (om : OrderManager) : Nat := om.openOrders.length

/-- The orders whose outcome reconciliation has to resolve. -/
def OrderManager.unknownOrders (om : OrderManager) : List Order :=
  om.orders.values.filter fun o => o.state = .unknown

/-- Net signed exposure per token, from filled quantity only. -/
def OrderManager.filledExposure (om : OrderManager) : AList fun _ : TokenId => Decimal :=
  om.orders.values.foldl (fun m o =>
    if o.filledQty.isZero then m
    else m.upsert o.request.tokenId 0 (· + o.request.side.sign * o.filledQty.get)) ∅

def OrderManager.totalFees (om : OrderManager) : Usd := om.orders.total Order.feesPaid

/-- Registers a risk-approved order; only `validated` makes it eligible for submission. -/
def OrderManager.registerValidated (om : OrderManager) (req : OrderRequest)
    (latency : LatencyStamps) (now : DateTime) : Except OrderError (OrderId × OrderManager) := do
  let o ← Order.new req latency
  let o ← o.transition .validated now
  pure (o.id, om.store o)

/-- The part of a submission before the adapter is awaited: the order it sends, and the manager
that has stored it. -/
def OrderManager.submitBegin (om : OrderManager) (id : OrderId) (now : DateTime) :
    Except SubmitOutcome (Order × OrderManager) :=
  match om.get id with
  | none => .error (.rejected id .unknownOrder)
  | some order =>
    match order.transition .submitted now with
    | .error e => .error (.rejected id (.order e))
    | .ok order =>
      let order := { order with latency := { order.latency with submission := some now } }
      .ok (order, (om.store order).emit (.orderSubmitted id order.request.correlationId now))

/-- One fill of an acknowledgement: booked, or the order is flagged. -/
def receiveFill (now : DateTime) (acc : Order × List Fill) (f : Fill) : Order × List Fill :=
  let order := acc.1.stampFill f.filledAt
  match order.applyFill f.quantity f.price f.fee f.filledAt with
  | .ok order => (order, acc.2 ++ [f])
  | .error _ => (order.tryTransition .unknown now, acc.2)

/-- An acknowledgement applied to the submitted order, with the fills that were booked. -/
def Order.acknowledge (order : Order) (ack : Acknowledgement) (now : DateTime) :
    Order × List Fill :=
  let order := { order with
    latency := { order.latency with ack := some now }
    venueOrderId := ack.venueOrderId }
  ack.immediateFills.foldl (receiveFill now) (order.tryTransition .acknowledged now, [])

def Order.refused (order : Order) (next : OrderState) (e : ExecutionError) (now : DateTime) :
    Order :=
  { order.tryTransition next now with rejectReason := some e }

def fillEvent (state : OrderState) (id : OrderId) (corr : CorrelationId) (f : Fill) :
    SystemEvent :=
  if state = .filled then .orderFilled id corr f else .orderPartiallyFilled id corr f

/-- The part of a submission after the adapter has answered; it writes back the order it sent. -/
def OrderManager.submitFinish (om : OrderManager) (order : Order)
    (response : Except ExecutionError Acknowledgement) (now : DateTime) :
    SubmitOutcome × OrderManager :=
  let id := order.id
  let corr := order.request.correlationId
  match response with
  | .ok ack =>
    let om := om.emit (.orderAcknowledged id corr ack.venueOrderId now)
    let (order, applied) := order.acknowledge ack now
    let om := om.store order
    (.acknowledged id applied, applied.foldl (fun om f =>
      om.emit (fillEvent order.state id corr f)) om)
  | .error e =>
    if e.requiresReconciliation then
      -- an order may exist at the venue
      (.ambiguous id e, om.store (order.refused .unknown e now))
    else
      (.rejected id (.venue e),
        (om.store (order.refused .rejected e now)).emit (.orderRejected id corr e now))

def OrderManager.applyExternalFill (om : OrderManager) (f : Fill) :
    Except OrderRefusal OrderManager :=
  match om.get f.orderId with
  | none => .error .unknownOrder
  | some o =>
    match (o.stampFill f.filledAt).applyFill f.quantity f.price f.fee f.filledAt with
    | .error e => .error (.order e)
    | .ok o => .ok ((om.store o).emit
        (fillEvent o.state f.orderId o.request.correlationId f))

def OrderManager.cancelBegin (om : OrderManager) (id : OrderId) (now : DateTime) :
    Except OrderRefusal (Order × OrderManager) :=
  match om.get id with
  | none => .error .unknownOrder
  | some o =>
    match o.transition .cancelRequested now with
    | .error e => .error (.order e)
    | .ok o => .ok (o, om.store o)

def OrderManager.cancelFinish (om : OrderManager) (o : Order)
    (response : Except ExecutionError Unit) (now : DateTime) :
    Except OrderRefusal Unit × OrderManager :=
  match response with
  | .ok () =>
    match o.transition .cancelled now with
    | .ok o => (.ok (), (om.store o).emit (.orderCancelled o.id o.request.correlationId now))
    | .error _ => (.ok (), om)
  | .error (.unknownOrder _) =>
    -- already gone at the venue
    match o.transition .cancelled now with
    | .ok o => (.ok (), om.store o)
    | .error _ => (.ok (), om)
  | .error e => (.error (.venue e), om)

section RunToCompletion

variable {A : Type} (adapter : ExecutionAdapter A)

def OrderManager.submit (om : OrderManager) (a : A) (id : OrderId) (now at_ : DateTime) :
    SubmitOutcome × OrderManager × A :=
  match om.submitBegin id now with
  | .error outcome => (outcome, om, a)
  | .ok (order, om) =>
    let (response, a) := adapter.submit a order.request
    let (outcome, om) := om.submitFinish order response at_
    (outcome, om, a)

def OrderManager.cancel (om : OrderManager) (a : A) (id : OrderId) (now at_ : DateTime) :
    Except OrderRefusal Unit × OrderManager × A :=
  match om.cancelBegin id now with
  | .error e => (.error e, om, a)
  | .ok (o, om) =>
    let (response, a) := adapter.cancel a id o.venueOrderId
    let (result, om) := om.cancelFinish o response at_
    (result, om, a)

/-- Cancels every open order in turn; the counts are of the successes and the failures. Each
cancellation has its own two times. -/
def OrderManager.cancelAll (om : OrderManager) (a : A) (now at_ : OrderId → DateTime) :
    (Nat × Nat) × OrderManager × A :=
  om.openOrders.foldl (fun acc o =>
    match acc.2.1.cancel adapter acc.2.2 o.id (now o.id) (at_ o.id) with
    | (.ok (), om, a) => ((acc.1.1 + 1, acc.1.2), om, a)
    | (.error _, om, a) => ((acc.1.1, acc.1.2 + 1), om, a)) ((0, 0), om, a)

end RunToCompletion

@[simp] theorem OrderManager.emit_orders (om : OrderManager) (e : SystemEvent) :
    (om.emit e).orders = om.orders := rfl

@[simp] theorem OrderManager.store_orders (om : OrderManager) (o : Order) :
    (om.store o).orders = om.orders.insert o.id o := rfl

/-- Orders in different states are stored under different ids. -/
theorem OrderManager.ne_of_get {om : OrderManager} {id id' : OrderId} {o o' : Order}
    (stored : om.get id = some o) (stored' : om.get id' = some o') (differ : o.state ≠ o'.state) :
    id ≠ id' := by
  rintro rfl
  rw [stored] at stored'
  cases stored'
  exact differ rfl

theorem OrderManager.get_insert {om om' : OrderManager} {id : OrderId} {o : Order}
    (orders : om'.orders = om.orders.insert id o) (j : OrderId) :
    om'.get j = if j = id then some o else om.get j := by
  unfold get
  rw [orders]
  split
  next same => rw [same, AList.lookup_insert]
  next other => rw [AList.lookup_insert_ne other]

theorem OrderManager.foldl_emit_orders (om : OrderManager) (fs : List Fill)
    (e : Fill → SystemEvent) : (fs.foldl (fun om f => om.emit (e f)) om).orders = om.orders := by
  induction fs generalizing om with
  | nil => rfl
  | cons f fs ih => exact ih (om.emit (e f))

/-- The order was handed to the venue at some point. -/
def Order.wasSubmitted (o : Order) : Bool := o.state ≠ .created ∧ o.state ≠ .validated

/-- The copy of a validated order that is handed to the adapter. -/
def Order.sent (o : Order) (now : DateTime) : Order :=
  { o with
    state := .submitted
    updatedAt := now
    latency := { o.latency with submission := some now } }

/-- What the adapter's answer makes of the order that was sent. -/
def Order.answered (order : Order) (response : Except ExecutionError Acknowledgement)
    (now : DateTime) : Order :=
  match response with
  | .ok ack => (order.acknowledge ack now).1
  | .error e => order.refused (if e.requiresReconciliation then .unknown else .rejected) e now

def SubmitOutcome.fills : SubmitOutcome → List Fill
  | .acknowledged _ fills => fills
  | .rejected .. => []
  | .ambiguous .. => []

theorem Order.tryTransition_eq (o : Order) (next : OrderState) (at_ : DateTime) :
    o.tryTransition next at_ = if o.state.canTransitionTo next then
      { o with state := next, updatedAt := at_ } else o := by
  unfold tryTransition transition
  split
  next eq => split at eq <;> cases eq; rw [if_pos ‹_›]
  next eq => split at eq <;> cases eq; rw [if_neg ‹_›]

@[simp] theorem Order.tryTransition_request (o : Order) (next : OrderState) (at_ : DateTime) :
    (o.tryTransition next at_).request = o.request := by
  rw [tryTransition_eq]
  split <;> rfl

theorem receiveFill_request (now : DateTime) (acc : Order × List Fill) (f : Fill) :
    (receiveFill now acc f).1.request = acc.1.request := by
  unfold receiveFill
  simp only
  split
  next o accepted =>
    obtain ⟨_, _, rfl⟩ := (acc.1.stamped_applyFill_ok_iff f).mp accepted
    exact acc.1.withFill_request f
  next => rw [Order.tryTransition_request, Order.stampFill_request]

theorem Order.answered_request (o : Order) (response : Except ExecutionError Acknowledgement)
    (now : DateTime) : (o.answered response now).request = o.request := by
  have fold : ∀ (fs : List Fill) (acc : Order × List Fill),
      (fs.foldl (receiveFill now) acc).1.request = acc.1.request := by
    intro fs
    induction fs with
    | nil => exact fun _ => rfl
    | cons f fs ih => exact fun acc => (ih _).trans (receiveFill_request now acc f)
  cases response with
  | ok ack =>
    refine (fold ack.immediateFills _).trans ?_
    rw [tryTransition_request]
  | error e => exact o.tryTransition_request _ now

theorem Order.answered_id (o : Order) (response : Except ExecutionError Acknowledgement)
    (now : DateTime) : (o.answered response now).id = o.id := by
  unfold id
  rw [answered_request]

theorem OrderManager.registerValidated_ok {om om' : OrderManager} {req : OrderRequest}
    {latency : LatencyStamps} {now : DateTime} {id : OrderId}
    (h : om.registerValidated req latency now = .ok (id, om')) :
    ∃ o, o.id = req.orderId ∧ o.request = req ∧ o.state = .validated ∧ o.filledQty = .zero ∧
      o.feesPaid = 0 ∧ o.filledNotional = 0 ∧ 0 < req.quantity.get ∧ om' = om.store o ∧ id = o.id := by
  unfold registerValidated Order.new at h
  split at h
  next => cases h
  next some_ =>
    cases h
    refine ⟨_, rfl, rfl, rfl, rfl, rfl, rfl, ?_, rfl, rfl⟩
    exact Qty.isZero_false_iff.mp (Bool.eq_false_of_not_eq_true some_)

theorem OrderManager.submitBegin_ok {om om' : OrderManager} {id : OrderId} {now : DateTime}
    {order : Order} (h : om.submitBegin id now = .ok (order, om')) :
    ∃ o, om.get id = some o ∧ o.state = .validated ∧ order = o.sent now ∧
      om'.orders = om.orders.insert order.id order := by
  unfold submitBegin at h
  split at h
  next => cases h
  next o held =>
    split at h
    next => cases h
    next o' moved =>
      cases h
      obtain ⟨can, rfl⟩ := Order.transition_ok_iff.mp moved
      refine ⟨o, held, ?_, rfl, rfl⟩
      cases state : o.state <;> rw [state] at can <;> first | rfl | cases can

theorem OrderManager.submitBegin_of {om : OrderManager} {id : OrderId} {o : Order}
    (stored : om.get id = some o) (validated : o.state = .validated) (now : DateTime) :
    om.submitBegin id now = .ok (o.sent now,
      (om.store (o.sent now)).emit (.orderSubmitted id o.request.correlationId now)) := by
  have moves : o.transition .submitted now = .ok { o with state := .submitted, updatedAt := now } :=
    Order.transition_ok_iff.mpr ⟨by rw [validated]; rfl, rfl⟩
  unfold submitBegin
  simp only [stored, moves]
  rfl

theorem OrderManager.registerValidated_of (om : OrderManager) {req : OrderRequest}
    (some_ : req.quantity.isZero = false) (latency : LatencyStamps) (now : DateTime) :
    ∃ o, om.registerValidated req latency now = .ok (req.orderId, om.store o) ∧
      o.request = req ∧ o.state = .validated ∧ o.filledQty = .zero := by
  unfold registerValidated Order.new
  rw [some_]
  exact ⟨_, rfl, rfl, rfl, rfl⟩

theorem OrderManager.submitFinish_orders (om : OrderManager) (order : Order)
    (response : Except ExecutionError Acknowledgement) (now : DateTime) :
    (om.submitFinish order response now).2.orders =
      om.orders.insert order.id (order.answered response now) := by
  have key := order.answered_id response now
  cases response with
  | ok ack =>
    have fold := foldl_emit_orders
      ((om.emit (.orderAcknowledged order.id order.request.correlationId ack.venueOrderId
        now)).store (order.acknowledge ack now).1) (order.acknowledge ack now).2
      (fillEvent (order.acknowledge ack now).1.state order.id order.request.correlationId)
    refine fold.trans ?_
    rw [store_orders, emit_orders, show (order.acknowledge ack now).1.id = order.id from key]
    rfl
  | error e =>
    simp only [Order.answered] at key ⊢
    unfold submitFinish
    simp only
    split
    next ambiguous =>
      rw [if_pos ambiguous] at key
      rw [store_orders, key]
    next refused =>
      rw [if_neg refused] at key
      rw [emit_orders, store_orders, key]

theorem OrderManager.submitFinish_fills (om : OrderManager) (order : Order)
    (response : Except ExecutionError Acknowledgement) (now : DateTime) :
    (om.submitFinish order response now).1.fills =
      match response with
      | .ok ack => (order.acknowledge ack now).2
      | .error _ => [] := by
  cases response with
  | ok ack => rfl
  | error e =>
    unfold submitFinish
    simp only
    split <;> rfl

theorem OrderManager.cancelBegin_ok {om om' : OrderManager} {id : OrderId} {now : DateTime}
    {order : Order} (h : om.cancelBegin id now = .ok (order, om')) :
    ∃ o, om.get id = some o ∧ (o.state = .acknowledged ∨ o.state = .partiallyFilled) ∧
      order = { o with state := .cancelRequested, updatedAt := now } ∧
      om' = om.store order := by
  unfold cancelBegin at h
  split at h
  next => cases h
  next o held =>
    split at h
    next => cases h
    next o' moved =>
      cases h
      obtain ⟨can, rfl⟩ := Order.transition_ok_iff.mp moved
      refine ⟨o, held, ?_, rfl, rfl⟩
      cases state : o.state <;> rw [state] at can <;> first | exact .inl rfl | exact .inr rfl |
        cases can

theorem OrderManager.cancelBegin_error {om : OrderManager} {id : OrderId} {now : DateTime}
    {o : Order} {e : OrderRefusal} (h : om.cancelBegin id now = .error e)
    (stored : om.get id = some o) : ¬o.state.Working := by
  intro working
  have moves := Order.transition_cancelRequested working now
  unfold cancelBegin at h
  simp only [stored, moves] at h
  cases h

/-- The adapter has no such order any more, or has taken the cancellation. -/
def Gone : Except ExecutionError Unit → Prop
  | .ok () => True
  | .error (.unknownOrder _) => True
  | .error _ => False

instance (response : Except ExecutionError Unit) : Decidable (Gone response) := by
  unfold Gone; split <;> infer_instance

theorem OrderManager.cancelFinish_orders (om : OrderManager) {order : Order}
    (requested : order.state = .cancelRequested) (response : Except ExecutionError Unit)
    (now : DateTime) :
    (Gone response ∧ (om.cancelFinish order response now).2.orders =
      om.orders.insert order.id { order with state := .cancelled, updatedAt := now }) ∨
    (¬Gone response ∧ (om.cancelFinish order response now).2 = om) := by
  have moves : order.transition .cancelled now =
      .ok { order with state := .cancelled, updatedAt := now } :=
    Order.transition_ok_iff.mpr ⟨by rw [requested]; rfl, rfl⟩
  cases response with
  | ok _ =>
    refine .inl ⟨trivial, ?_⟩
    simp only [cancelFinish, moves]
    rfl
  | error e =>
    cases e with
    | unknownOrder _ =>
      refine .inl ⟨trivial, ?_⟩
      simp only [cancelFinish, moves]
      rfl
    | _ => exact .inr ⟨not_false, rfl⟩

/-- A fill is accepted exactly when its order may have executed and has room for it. -/
theorem OrderManager.applyExternalFill_ok {om om' : OrderManager} {f : Fill}
    (h : om.applyExternalFill f = .ok om') :
    ∃ o, om.get f.orderId = some o ∧ o.state.mayHaveExecuted ∧
      f.quantity.get ≤ o.remaining.get ∧ om'.orders = om.orders.insert o.id (o.withFill f) := by
  unfold applyExternalFill at h
  split at h
  next => cases h
  next o held =>
    split at h
    next => cases h
    next o' accepted =>
      cases h
      obtain ⟨may, fits, rfl⟩ := (o.stamped_applyFill_ok_iff f).mp accepted
      exact ⟨o, held, may, fits, by rw [emit_orders, store_orders, o.withFill_id f]⟩

theorem OrderManager.applyExternalFill_of {om : OrderManager} {f : Fill} {o : Order}
    (held : om.get f.orderId = some o) (may : o.state.mayHaveExecuted)
    (fits : f.quantity.get ≤ o.remaining.get) :
    ∃ om', om.applyExternalFill f = .ok om' := by
  have accepted := (o.stamped_applyFill_ok_iff f).mpr ⟨may, fits, rfl⟩
  unfold applyExternalFill
  simp only [held, accepted]
  exact ⟨_, rfl⟩

def Order.acked (o : Order) (ack : Acknowledgement) (now : DateTime) : Order :=
  { o with
    state := .acknowledged
    updatedAt := now
    venueOrderId := ack.venueOrderId
    latency := { o.latency with ack := some now } }

theorem Order.acknowledge_eq {o : Order} (h : o.state = .submitted) (ack : Acknowledgement)
    (now : DateTime) : o.acknowledge ack now =
      ack.immediateFills.foldl (receiveFill now) (o.acked ack now, []) := by
  unfold acknowledge
  simp only [tryTransition_eq, h]
  rfl

/-- The states that an acknowledgement can leave the order it answers in. -/
theorem Order.acknowledge_state {o : Order} (h : o.state = .submitted) (ack : Acknowledgement)
    (now : DateTime) : (o.acknowledge ack now).1.state = .acknowledged ∨
      (o.acknowledge ack now).1.state = .partiallyFilled ∨
      (o.acknowledge ack now).1.state = .filled ∨
      (o.acknowledge ack now).1.state = .unknown := by
  let Reached (st : OrderState) : Prop :=
    st = .acknowledged ∨ st = .partiallyFilled ∨ st = .filled ∨ st = .unknown
  have one : ∀ (f : Fill) (acc : Order × List Fill), Reached acc.1.state →
      Reached (receiveFill now acc f).1.state := by
    intro f acc reached
    unfold receiveFill
    simp only
    split
    next o' taken =>
      obtain ⟨_, _, rfl⟩ := (acc.1.stamped_applyFill_ok_iff f).mp taken
      rw [withFill_state]
      split
      · exact .inr (.inr (.inl rfl))
      · exact .inr (.inl rfl)
    next =>
      obtain ⟨_, eq⟩ := acc.1.stampFill_eq f.filledAt
      rw [tryTransition_eq]
      split
      · exact .inr (.inr (.inr rfl))
      · rw [eq]
        exact reached
  have fold : ∀ (fs : List Fill) (acc : Order × List Fill), Reached acc.1.state →
      Reached (fs.foldl (receiveFill now) acc).1.state := by
    intro fs
    induction fs with
    | nil => exact fun _ reached => reached
    | cons f fs ih => exact fun acc reached => ih _ (one f acc reached)
  rw [acknowledge_eq h]
  exact fold ack.immediateFills _ (.inl rfl)

/-- A failed submission ends in `unknown` when it may have reached the venue. -/
theorem Order.refused_state {o : Order} (h : o.state = .submitted) (e : ExecutionError)
    (now : DateTime) :
    (o.refused (if e.requiresReconciliation then .unknown else .rejected) e now).state =
      if e.requiresReconciliation then .unknown else .rejected := by
  have moves : ∀ next : OrderState, OrderState.submitted.canTransitionTo next = true →
      (o.tryTransition next now).state = next := by
    intro next admits
    rw [tryTransition_eq, h, if_pos admits]
  apply moves
  split <;> rfl

theorem receiveFill_of {o : Order} {f : Fill} (now : DateTime) (fs : List Fill)
    (may : o.state.mayHaveExecuted) (fits : f.quantity.get ≤ o.remaining.get) :
    receiveFill now (o, fs) f = (o.withFill f, fs ++ [f]) := by
  have accepted := (o.stamped_applyFill_ok_iff f).mpr ⟨may, fits, rfl⟩
  unfold receiveFill
  simp only [accepted]

def Order.signedFilled (t : TokenId) (o : Order) : Decimal :=
  if o.request.tokenId = t then o.request.side.sign * o.filledQty.get else 0

/-- The fills of an answer that are booked on the order that was sent. -/
def Order.appliedFills (order : Order) (response : Except ExecutionError Acknowledgement)
    (now : DateTime) : List Fill :=
  match response with
  | .ok ack => (order.acknowledge ack now).2
  | .error _ => []

theorem Order.answered_error (o : Order) (e : ExecutionError) (now at_ : DateTime) :
    ((o.sent now).answered (.error e) at_).state =
        (if e.requiresReconciliation then .unknown else .rejected) ∧
      ((o.sent now).answered (.error e) at_).filledQty = o.filledQty ∧
      ((o.sent now).answered (.error e) at_).feesPaid = o.feesPaid := by
  simp only [answered, refused, tryTransition_eq]
  split <;> exact ⟨rfl, rfl, rfl⟩

theorem Order.answered_nil (o : Order) {ack : Acknowledgement} (now at_ : DateTime)
    (none : ack.immediateFills = []) :
    (o.sent now).answered (.ok ack) at_ = (o.sent now).acked ack at_ ∧
      (o.sent now).appliedFills (.ok ack) at_ = [] := by
  have sent : (o.sent now).state = .submitted := rfl
  simp only [answered, appliedFills, acknowledge_eq sent, none]
  exact ⟨rfl, rfl⟩

section RunToCompletion

variable {A : Type} (adapter : ExecutionAdapter A) {om : OrderManager} (a : A) {id : OrderId}
  (now at_ : DateTime) {o : Order}

theorem OrderManager.submit_of_not_validated
    (h : ∀ o, om.get id = some o → o.state ≠ .validated) :
    (om.submit adapter a id now at_).1.fills = [] ∧
      (om.submit adapter a id now at_).2 = (om, a) := by
  unfold submit
  cases begin_ : om.submitBegin id now with
  | ok started =>
    obtain ⟨o, stored, validated, _⟩ := submitBegin_ok begin_
    exact absurd validated (h o stored)
  | error outcome =>
    refine ⟨?_, rfl⟩
    unfold submitBegin at begin_
    split at begin_
    next => cases begin_; rfl
    next =>
      split at begin_
      next => cases begin_; rfl
      next => cases begin_

/-- A submission in one piece: what the adapter's answer makes of the order is what is stored. -/
theorem OrderManager.submit_of_validated (stored : om.get id = some o)
    (validated : o.state = .validated) (key : o.id = id) :
    (om.submit adapter a id now at_).1.fills =
        (o.sent now).appliedFills (adapter.submit a o.request).1 at_ ∧
      (om.submit adapter a id now at_).2.1.orders = om.orders.insert id
        ((o.sent now).answered (adapter.submit a o.request).1 at_) ∧
      (om.submit adapter a id now at_).2.2 = (adapter.submit a o.request).2 := by
  have begin_ := submitBegin_of stored validated now
  have same : (o.sent now).id = id := key
  unfold submit
  simp only [begin_]
  refine ⟨submitFinish_fills _ _ _ _, ?_, rfl⟩
  rw [submitFinish_orders, emit_orders, store_orders, same, AList.insert_insert]
  rfl

theorem OrderManager.cancel_of_not_working
    (h : ∀ o, om.get id = some o → ¬(o.state = .acknowledged ∨ o.state = .partiallyFilled)) :
    (om.cancel adapter a id now at_).2 = (om, a) := by
  unfold cancel
  cases begin_ : om.cancelBegin id now with
  | ok started =>
    obtain ⟨o, stored, working, _⟩ := cancelBegin_ok begin_
    exact absurd working (h o stored)
  | error e => rfl

theorem OrderManager.cancel_of_working (stored : om.get id = some o)
    (working : o.state = .acknowledged ∨ o.state = .partiallyFilled) (key : o.id = id) :
    (om.cancel adapter a id now at_).2.2 = (adapter.cancel a id o.venueOrderId).2 ∧
      (Gone (adapter.cancel a id o.venueOrderId).1 →
        (om.cancel adapter a id now at_).2.1.orders = om.orders.insert id
          { o with state := .cancelled, updatedAt := at_ }) ∧
      (¬Gone (adapter.cancel a id o.venueOrderId).1 →
        (om.cancel adapter a id now at_).2.1.orders = om.orders.insert id
          { o with state := .cancelRequested, updatedAt := now }) := by
  have moves := Order.transition_cancelRequested working now
  have begin_ : om.cancelBegin id now =
      .ok ({ o with state := .cancelRequested, updatedAt := now },
        om.store { o with state := .cancelRequested, updatedAt := now }) := by
    unfold cancelBegin
    simp only [stored, moves]
  have same : Order.id { o with state := .cancelRequested, updatedAt := now } = id := key
  unfold cancel
  simp only [begin_]
  have requested : Order.state { o with state := .cancelRequested, updatedAt := now } =
    .cancelRequested := rfl
  have finish := (om.store { o with state := .cancelRequested, updatedAt := now }).cancelFinish_orders
    requested (adapter.cancel a id o.venueOrderId).1 at_
  rw [same] at finish
  refine ⟨trivial, ?_, ?_⟩
  · intro gone
    rcases finish with ⟨_, orders⟩ | ⟨stays, _⟩
    · rw [orders, store_orders, same, AList.insert_insert]
    · exact absurd gone stays
  · intro stays
    rcases finish with ⟨gone, _⟩ | ⟨_, eq⟩
    · exact absurd gone stays
    · rw [eq, store_orders, same]

end RunToCompletion

end CopyTrading
