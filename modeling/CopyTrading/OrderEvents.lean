import CopyTrading.OrderManager
import CopyTrading.StepRun

namespace CopyTrading

open StepRun

/-- An order as `registerValidated` stores it. -/
def Order.NewlyValidated (o : Order) (req : OrderRequest) : Prop :=
  ∃ latency o₀ now, Order.new req latency = .ok o₀ ∧ o₀.transition .validated now = .ok o

theorem Order.NewlyValidated.fields {o : Order} {req : OrderRequest} (h : o.NewlyValidated req) :
    o.state = .validated ∧ o.request = req ∧ o.filledQty = .zero ∧ o.venueOrderId = none ∧
      0 < req.quantity.get := by
  obtain ⟨latency, o₀, now, made, moved⟩ := h
  unfold Order.new at made
  split at made
  next => cases made
  next some_ =>
    cases made
    obtain ⟨_, rfl⟩ := transition_ok_iff.mp moved
    exact ⟨rfl, rfl, rfl, rfl, Qty.isZero_false_iff.mp (Bool.eq_false_of_not_eq_true some_)⟩

theorem Order.NewlyValidated.id_eq {o : Order} {req : OrderRequest} (h : o.NewlyValidated req) :
    o.id = req.orderId :=
  congrArg OrderRequest.orderId h.fields.2.1

theorem OrderManager.get_written {om om' : OrderManager} {id : OrderId} {o : Order}
    (orders : om'.orders = om.orders.insert id o) : om'.get id = some o := by
  rw [get_insert orders, if_pos rfl]

theorem OrderManager.registerValidated_stores {om om' : OrderManager} {req : OrderRequest}
    {latency : LatencyStamps} {now : DateTime} {id : OrderId}
    (h : om.registerValidated req latency now = .ok (id, om')) :
    ∃ o : Order, o.NewlyValidated req ∧ id = req.orderId ∧
      om'.orders = om.orders.insert req.orderId o := by
  unfold registerValidated at h
  cases made : Order.new req latency with
  | error e =>
    rw [made] at h
    cases h
  | ok o₀ =>
    rw [made] at h
    cases moved : o₀.transition .validated now with
    | error e =>
      simp only [bind, Except.bind, moved] at h
      cases h
    | ok o =>
      simp only [bind, Except.bind, moved] at h
      cases h
      have validated : o.NewlyValidated req := ⟨latency, o₀, now, made, moved⟩
      exact ⟨o, validated, validated.id_eq, by rw [store_orders, validated.id_eq]⟩

/-- The calls on the order manager that write orders, each run to completion. -/
inductive OrderEvent
  | register (req : OrderRequest) (latency : LatencyStamps) (now : DateTime)
  | submit (id : OrderId) (now at_ : DateTime)
  | externalFill (f : Fill)
  | cancel (id : OrderId) (now at_ : DateTime)

def OrderEvent.target : OrderEvent → OrderId
  | register req _ _ => req.orderId
  | submit id _ _ => id
  | externalFill f => f.orderId
  | cancel id _ _ => id

variable {A : Type} (adapter : ExecutionAdapter A)

def OrderEvent.step (s : OrderManager × A) : OrderEvent → Option (OrderManager × A)
  | register req latency now =>
    -- order ids are freshly drawn
    if (s.1.get req.orderId).isSome then none
    else match s.1.registerValidated req latency now with
      | .ok (_, om) => some (om, s.2)
      | .error _ => some s
  | submit id now at_ => some (s.1.submit adapter s.2 id now at_).2
  | externalFill f =>
    match s.1.applyExternalFill f with
    | .ok om => some (om, s.2)
    | .error _ => some s
  | cancel id now at_ => some (s.1.cancel adapter s.2 id now at_).2

/-- Every order is stored under its own id. -/
def OrderManager.Keyed (om : OrderManager) : Prop := ∀ id o, om.get id = some o → o.id = id

/-- A call that finds nothing to do. -/
def OrderEvent.Idle (om : OrderManager) : OrderEvent → Prop
  | register .. => True
  | submit id _ _ => ∀ o, om.get id = some o → o.state ≠ .validated
  | externalFill f => ∀ o, om.get f.orderId = some o → o.state.mayHaveExecuted →
      o.remaining.get < f.quantity.get
  | cancel id _ _ => ∀ o, om.get id = some o → ¬o.state.Working

/-- What a step can do: one order is written, or the call finds nothing to do. -/
inductive OrderEffect (s : OrderManager × A) : OrderEvent → OrderManager × A → Prop
  | kept {e : OrderEvent} (idle : e.Idle s.1) : OrderEffect s e s
  | registered {om : OrderManager} {req : OrderRequest} {latency : LatencyStamps} {now : DateTime}
      {o : Order} (fresh : s.1.get req.orderId = none) (validated : o.NewlyValidated req)
      (orders : om.orders = s.1.orders.insert req.orderId o) :
      OrderEffect s (.register req latency now) (om, s.2)
  | submitted {om : OrderManager} {id : OrderId} {now at_ : DateTime} {o : Order}
      (stored : s.1.get id = some o) (validated : o.state = .validated)
      (orders : om.orders = s.1.orders.insert id
        ((o.sent now).answered (adapter.submit s.2 o.request).1 at_)) :
      OrderEffect s (.submit id now at_) (om, (adapter.submit s.2 o.request).2)
  | filled {om : OrderManager} {f : Fill} {o : Order} (stored : s.1.get f.orderId = some o)
      (may : o.state.mayHaveExecuted) (fits : f.quantity.get ≤ o.remaining.get)
      (orders : om.orders = s.1.orders.insert f.orderId (o.withFill f)) :
      OrderEffect s (.externalFill f) (om, s.2)
  | cancelled {om : OrderManager} {id : OrderId} {now at_ : DateTime} {o : Order}
      (stored : s.1.get id = some o) (working : o.state.Working)
      (gone : Gone (adapter.cancel s.2 id o.venueOrderId).1)
      (orders : om.orders = s.1.orders.insert id
        { o with state := .cancelled, updatedAt := at_ }) :
      OrderEffect s (.cancel id now at_) (om, (adapter.cancel s.2 id o.venueOrderId).2)
  | requested {om : OrderManager} {id : OrderId} {now at_ : DateTime} {o : Order}
      (stored : s.1.get id = some o) (working : o.state.Working)
      (refused : ¬Gone (adapter.cancel s.2 id o.venueOrderId).1)
      (orders : om.orders = s.1.orders.insert id
        { o with state := .cancelRequested, updatedAt := now }) :
      OrderEffect s (.cancel id now at_) (om, (adapter.cancel s.2 id o.venueOrderId).2)

namespace OrderEvent

variable {adapter} {s s' : OrderManager × A}

theorem effect_submit (adapter : ExecutionAdapter A) (keyed : s.1.Keyed) (id : OrderId)
    (now at_ : DateTime) :
    OrderEffect adapter s (.submit id now at_) (s.1.submit adapter s.2 id now at_).2 := by
  by_cases h : ∃ o, s.1.get id = some o ∧ o.state = .validated
  · obtain ⟨o, stored, validated⟩ := h
    obtain ⟨_, orders, venue⟩ := OrderManager.submit_of_validated adapter s.2 now at_ stored
      validated (keyed id o stored)
    have effect : OrderEffect adapter s (.submit id now at_)
        ((s.1.submit adapter s.2 id now at_).2.1, (adapter.submit s.2 o.request).2) :=
      .submitted stored validated orders
    rw [← venue] at effect
    exact effect
  · have idle : ∀ o, s.1.get id = some o → o.state ≠ .validated :=
      fun o stored validated => h ⟨o, stored, validated⟩
    rw [(OrderManager.submit_of_not_validated adapter s.2 now at_ idle).2]
    exact .kept idle

theorem effect_cancel (adapter : ExecutionAdapter A) (keyed : s.1.Keyed) (id : OrderId)
    (now at_ : DateTime) :
    OrderEffect adapter s (.cancel id now at_) (s.1.cancel adapter s.2 id now at_).2 := by
  by_cases h : ∃ o, s.1.get id = some o ∧ o.state.Working
  · obtain ⟨o, stored, working⟩ := h
    obtain ⟨venue, gone_, stays_⟩ := OrderManager.cancel_of_working adapter s.2 now at_ stored
      working (keyed id o stored)
    by_cases gone : Gone (adapter.cancel s.2 id o.venueOrderId).1
    · have effect : OrderEffect adapter s (.cancel id now at_)
          ((s.1.cancel adapter s.2 id now at_).2.1, (adapter.cancel s.2 id o.venueOrderId).2) :=
        .cancelled stored working gone (gone_ gone)
      rw [← venue] at effect
      exact effect
    · have effect : OrderEffect adapter s (.cancel id now at_)
          ((s.1.cancel adapter s.2 id now at_).2.1, (adapter.cancel s.2 id o.venueOrderId).2) :=
        .requested stored working gone (stays_ gone)
      rw [← venue] at effect
      exact effect
  · have idle : ∀ o, s.1.get id = some o → ¬o.state.Working :=
      fun o stored working => h ⟨o, stored, working⟩
    rw [OrderManager.cancel_of_not_working adapter s.2 now at_ idle]
    exact .kept idle

theorem effect (keyed : s.1.Keyed) {e : OrderEvent} (h : e.step adapter s = some s') :
    OrderEffect adapter s e s' := by
  cases e with
  | register req latency now =>
    simp only [step] at h
    split at h
    next => cases h
    next fresh =>
      cases registered : s.1.registerValidated req latency now with
      | error e =>
        rw [registered] at h
        cases h
        exact .kept trivial
      | ok r =>
        rw [registered] at h
        cases h
        obtain ⟨o, validated, _, orders⟩ := OrderManager.registerValidated_stores registered
        exact .registered (by simpa using fresh) validated orders
  | submit id now at_ =>
    cases h
    exact effect_submit adapter keyed id now at_
  | externalFill f =>
    cases applied : s.1.applyExternalFill f with
    | error e =>
      simp only [step, applied] at h
      cases h
      refine .kept ?_
      intro o stored may
      by_contra fits
      obtain ⟨om, accepted⟩ := OrderManager.applyExternalFill_of stored may (not_lt.mp fits)
      rw [applied] at accepted
      cases accepted
    | ok om =>
      simp only [step, applied] at h
      cases h
      obtain ⟨o, stored, may, fits, orders⟩ := OrderManager.applyExternalFill_ok applied
      rw [keyed f.orderId o stored] at orders
      exact .filled stored may fits orders
  | cancel id now at_ =>
    cases h
    exact effect_cancel adapter keyed id now at_

end OrderEvent

namespace OrderEffect

variable {adapter} {s s' : OrderManager × A} {e : OrderEvent}

/-- Every effect writes at most the order its event is about. -/
theorem writes (h : OrderEffect adapter s e s') :
    s' = s ∨ ∃ o, s'.1.orders = s.1.orders.insert e.target o ∧
      (s.1.Keyed → o.id = e.target) := by
  cases h with
  | kept _ => exact .inl rfl
  | registered _ validated orders => exact .inr ⟨_, orders, fun _ => validated.id_eq⟩
  | @submitted _ id now at_ o stored _ orders =>
    refine .inr ⟨_, orders, fun keyed => ?_⟩
    rw [Order.answered_id]
    exact keyed id o stored
  | @filled _ f o stored _ _ orders =>
    refine .inr ⟨_, orders, fun keyed => ?_⟩
    rw [Order.withFill_id]
    exact keyed f.orderId o stored
  | @cancelled _ id now at_ o stored _ _ orders =>
    exact .inr ⟨_, orders, fun keyed => keyed id o stored⟩
  | @requested _ id now at_ o stored _ _ orders =>
    exact .inr ⟨_, orders, fun keyed => keyed id o stored⟩

theorem frame (h : OrderEffect adapter s e s') {id : OrderId} (other : id ≠ e.target) :
    s'.1.get id = s.1.get id := by
  rcases h.writes with rfl | ⟨o, orders, _⟩
  · rfl
  · rw [OrderManager.get_insert orders, if_neg other]

theorem keyed (h : OrderEffect adapter s e s') (before : s.1.Keyed) : s'.1.Keyed := by
  rcases h.writes with rfl | ⟨o, orders, key⟩
  · exact before
  · intro id o' stored
    rw [OrderManager.get_insert orders] at stored
    split at stored
    next same =>
      cases stored
      rw [same]
      exact key before
    next => exact before id o' stored

end OrderEffect

/-- What a call makes of a stored order. -/
inductive OrderWrite (adapter : ExecutionAdapter A) (s : OrderManager × A) (o : Order) :
    OrderId → OrderEvent → Order → Prop
  | other {id : OrderId} {e : OrderEvent} (other : id ≠ e.target) : OrderWrite adapter s o id e o
  | idle {id : OrderId} {e : OrderEvent} (idle : e.Idle s.1) : OrderWrite adapter s o id e o
  | submitted {id : OrderId} {now at_ : DateTime} (validated : o.state = .validated) :
      OrderWrite adapter s o id (.submit id now at_)
        ((o.sent now).answered (adapter.submit s.2 o.request).1 at_)
  | filled {f : Fill} (may : o.state.mayHaveExecuted) (fits : f.quantity.get ≤ o.remaining.get) :
      OrderWrite adapter s o f.orderId (.externalFill f) (o.withFill f)
  | cancelled {id : OrderId} {now at_ : DateTime} (working : o.state.Working)
      (gone : Gone (adapter.cancel s.2 id o.venueOrderId).1) :
      OrderWrite adapter s o id (.cancel id now at_)
        { o with state := .cancelled, updatedAt := at_ }
  | requested {id : OrderId} {now at_ : DateTime} (working : o.state.Working)
      (refused : ¬Gone (adapter.cancel s.2 id o.venueOrderId).1) :
      OrderWrite adapter s o id (.cancel id now at_)
        { o with state := .cancelRequested, updatedAt := now }

/-- A stored order stays stored, and is written as the effect says. -/
theorem OrderEffect.write {adapter : ExecutionAdapter A} {s s' : OrderManager × A}
    {e : OrderEvent} (h : OrderEffect adapter s e s') {id : OrderId} {o : Order}
    (stored : s.1.get id = some o) :
    ∃ o', s'.1.get id = some o' ∧ OrderWrite adapter s o id e o' := by
  by_cases about : id = e.target
  · cases h with
    | kept idle => exact ⟨o, stored, .idle idle⟩
    | @registered _ req _ _ _ fresh =>
      have here : id = req.orderId := about
      rw [here, fresh] at stored
      cases stored
    | @submitted _ id' _ _ _ stored' validated orders =>
      have here : id = id' := about
      subst here
      rw [stored] at stored'
      cases stored'
      exact ⟨_, OrderManager.get_written orders, .submitted validated⟩
    | @filled _ f _ stored' may fits orders =>
      have here : id = f.orderId := about
      subst here
      rw [stored] at stored'
      cases stored'
      exact ⟨_, OrderManager.get_written orders, .filled may fits⟩
    | @cancelled _ id' _ _ _ stored' working gone orders =>
      have here : id = id' := about
      subst here
      rw [stored] at stored'
      cases stored'
      exact ⟨_, OrderManager.get_written orders, .cancelled working gone⟩
    | @requested _ id' _ _ _ stored' working refused orders =>
      have here : id = id' := about
      subst here
      rw [stored] at stored'
      cases stored'
      exact ⟨_, OrderManager.get_written orders, .requested working refused⟩
  · exact ⟨o, by rw [h.frame about, stored], .other about⟩

theorem OrderManager.keyed_new : OrderManager.new.Keyed := by
  intro id o stored
  cases stored

theorem OrderManager.keyed_of_run {ok : OrderManager × A → OrderEvent → Prop}
    {s t : OrderManager × A} {es : List OrderEvent}
    (keyed : s.1.Keyed) (run : Run (OrderEvent.step adapter) ok s es t) : t.1.Keyed :=
  run.keeps (I := fun t => t.1.Keyed)
    (fun _ _ _ before _ taken => (OrderEvent.effect before taken).keyed before) keyed

theorem OrderManager.cancelAll_eq (om : OrderManager) (a : A) (now at_ : OrderId → DateTime) :
    (om.cancelAll adapter a now at_).2 = om.openOrders.foldl
      (fun s o => (s.1.cancel adapter s.2 o.id (now o.id) (at_ o.id)).2) (om, a) := by
  unfold cancelAll
  refine (List.foldl_hom Prod.snd ?_).symm
  intro acc o
  rcases acc.2.1.cancel adapter acc.2.2 o.id (now o.id) (at_ o.id) with ⟨_ | _, om, a⟩
  · rfl
  · rfl

/-- Cancelling every open order is a run of cancellations. -/
theorem OrderManager.cancelAll_run (om : OrderManager) (a : A) (now at_ : OrderId → DateTime) :
    Run (OrderEvent.step adapter) Anywhere (om, a)
      (om.openOrders.map fun o => .cancel o.id (now o.id) (at_ o.id))
      (om.cancelAll adapter a now at_).2 := by
  rw [cancelAll_eq]
  have fold : ∀ (os : List Order) (s : OrderManager × A),
      Run (OrderEvent.step adapter) Anywhere s
        (os.map fun o => .cancel o.id (now o.id) (at_ o.id))
        (os.foldl (fun s o => (s.1.cancel adapter s.2 o.id (now o.id) (at_ o.id)).2) s) := by
    intro os
    induction os with
    | nil => exact fun _ => .nil
    | cons o os ih =>
      intro s
      have one : Run (OrderEvent.step adapter) Anywhere s [.cancel o.id (now o.id) (at_ o.id)]
          (s.1.cancel adapter s.2 o.id (now o.id) (at_ o.id)).2 := .single trivial rfl
      exact one.append (ih _)
  exact fold om.openOrders (om, a)

end CopyTrading
