import CopyTrading.AcceptedFills
import CopyTrading.StepRun

namespace CopyTrading

open StepRun

/-- A call that awaits the adapter, with the copy of the order it will write back. -/
inductive Flight
  | submit (order : Order)
  | cancel (order : Order)

/-- The order manager between the awaits of its callers. -/
structure OrderRace where
  orders : OrderManager
  inFlight : List Flight
  /-- The fills that were accepted, each with the order it was accepted for. -/
  accepted : List (OrderId × Fill)

inductive RaceEvent
  | register (req : OrderRequest) (latency : LatencyStamps) (now : DateTime)
  | submitBegin (id : OrderId) (now : DateTime)
  /-- The adapter answers the submission at position `i`. -/
  | submitEnd (i : Nat) (response : Except ExecutionError Acknowledgement) (now : DateTime)
  | cancelBegin (id : OrderId) (now : DateTime)
  | cancelEnd (i : Nat) (response : Except ExecutionError Unit) (now : DateTime)
  | externalFill (f : Fill)

def OrderRace.start : OrderRace := ⟨.new, [], []⟩

def OrderRace.submitting (s : OrderRace) (i : Nat) : Option Order :=
  match s.inFlight[i]? with
  | some (.submit order) => some order
  | _ => none

def OrderRace.cancelling (s : OrderRace) (i : Nat) : Option Order :=
  match s.inFlight[i]? with
  | some (.cancel order) => some order
  | _ => none

/-- One segment between awaits of one of the callers. -/
def OrderRace.step (s : OrderRace) : RaceEvent → Option OrderRace
  | .register req latency now =>
    if (s.orders.get req.orderId).isSome then none
    else match s.orders.registerValidated req latency now with
      | .ok (_, om) => some { s with orders := om }
      | .error _ => some s
  | .submitBegin id now =>
    match s.orders.submitBegin id now with
    | .ok (order, om) => some { s with orders := om, inFlight := s.inFlight ++ [.submit order] }
    | .error _ => some s
  | .submitEnd i response now =>
    match s.submitting i with
    | some order =>
      let (outcome, om) := s.orders.submitFinish order response now
      some {
        orders := om
        inFlight := s.inFlight.eraseIdx i
        accepted := s.accepted ++ outcome.fills.map fun f => (order.id, f) }
    | none => none
  | .cancelBegin id now =>
    match s.orders.cancelBegin id now with
    | .ok (order, om) => some { s with orders := om, inFlight := s.inFlight ++ [.cancel order] }
    | .error _ => some s
  | .cancelEnd i response now =>
    match s.cancelling i with
    | some order => some { s with
        orders := (s.orders.cancelFinish order response now).2
        inFlight := s.inFlight.eraseIdx i }
    | none => none
  | .externalFill f =>
    match s.orders.applyExternalFill f with
    | .ok om => some { s with orders := om, accepted := s.accepted ++ [(f.orderId, f)] }
    | .error _ => some s

/-- A call writes back only while the stored order is the copy it stored before its await. -/
def CopyCurrent (s : OrderRace) : RaceEvent → Prop
  | .submitEnd i _ _ => ∀ order ∈ s.submitting i, s.orders.get order.id = some order
  | .cancelEnd i response _ => ∀ order ∈ s.cancelling i, Gone response →
      s.orders.get order.id = some order
  | _ => True

instance (s : OrderRace) (e : RaceEvent) : Decidable (CopyCurrent s e) := by
  cases e <;> unfold CopyCurrent <;> infer_instance

theorem OrderRace.mem_of_submitting {s : OrderRace} {i : Nat} {order : Order}
    (h : s.submitting i = some order) : .submit order ∈ s.inFlight := by
  unfold submitting at h
  split at h
  next flying => cases h; exact List.mem_of_getElem? flying
  next => cases h

theorem OrderRace.mem_of_cancelling {s : OrderRace} {i : Nat} {order : Order}
    (h : s.cancelling i = some order) : .cancel order ∈ s.inFlight := by
  unfold cancelling at h
  split at h
  next flying => cases h; exact List.mem_of_getElem? flying
  next => cases h

/-- Every stored order counts the fills accepted for it, and the copies in flight are in the
states their calls gave them. -/
structure RaceInv (s : OrderRace) : Prop where
  ids : ∀ id o, s.orders.get id = some o → o.id = id
  counts : ∀ id o, s.orders.get id = some o → o.Counts s.accepted id
  full : ∀ id o, s.orders.get id = some o → o.FilledUp
  fresh : ∀ id, s.orders.get id = none → ∀ g, acceptedTotal g s.accepted id = 0
  submitted : ∀ o, .submit o ∈ s.inFlight → o.state = .submitted
  requested : ∀ o, .cancel o ∈ s.inFlight → o.state = .cancelRequested

/-- One order was written, and `fs` were accepted for it. -/
structure Wrote (s s' : OrderRace) (id : OrderId) (o : Order) (fs : List Fill) : Prop where
  orders : s'.orders.orders = s.orders.orders.insert id o
  accepted : s'.accepted = s.accepted ++ fs.map fun f => (id, f)
  key : o.id = id
  counts : o.Counts s'.accepted id
  full : o.FilledUp
  keeps : ∀ old, s.orders.get id = some old → old.state.isTerminal → o.state = old.state

/-- What a step does to the orders and to the calls in flight. -/
structure Stepped (s s' : OrderRace) : Prop where
  writes : s'.orders.orders = s.orders.orders ∧ s'.accepted = s.accepted ∨
    ∃ id o fs, Wrote s s' id o fs
  submitted : ∀ o, .submit o ∈ s'.inFlight → .submit o ∈ s.inFlight ∨ o.state = .submitted
  requested : ∀ o, .cancel o ∈ s'.inFlight → .cancel o ∈ s.inFlight ∨ o.state = .cancelRequested

theorem RaceInv.register {s : OrderRace} (h : RaceInv s) {om : OrderManager} {req : OrderRequest}
    {latency : LatencyStamps} {now : DateTime} {id : OrderId}
    (fresh : s.orders.get req.orderId = none)
    (registered : s.orders.registerValidated req latency now = .ok (id, om)) :
    Stepped s { s with orders := om } := by
  obtain ⟨o, key, _, validated, unfilled, unpaid, unnotional, _, rfl, _⟩ :=
    OrderManager.registerValidated_ok registered
  have none : acceptedTotal (fun f => f.quantity.get) s.accepted o.id = 0 ∧
      acceptedTotal Fill.notional s.accepted o.id = 0 ∧
      acceptedTotal Fill.fee s.accepted o.id = 0 := by
    rw [key]
    exact ⟨h.fresh _ fresh _, h.fresh _ fresh _, h.fresh _ fresh _⟩
  refine ⟨.inr ⟨o.id, o, [], rfl, (List.append_nil _).symm, rfl, ?_, ?_, ?_⟩,
    fun _ mem => .inl mem, fun _ mem => .inl mem⟩
  · refine ⟨?_, ?_, ?_⟩
    · rw [none.1, unfilled]
      rfl
    · rw [none.2.1, unnotional]
    · rw [none.2.2, unpaid]
  · exact .of_state (by rw [validated]; intro eq; cases eq)
  · intro old held
    rw [key, fresh] at held
    cases held

theorem RaceInv.submitBegin {s : OrderRace} (h : RaceInv s) {om : OrderManager} {id : OrderId}
    {now : DateTime} {order : Order} (begun : s.orders.submitBegin id now = .ok (order, om)) :
    Stepped s { s with orders := om, inFlight := s.inFlight ++ [.submit order] } := by
  obtain ⟨o, stored, validated, rfl, orders⟩ := OrderManager.submitBegin_ok begun
  have key : (o.sent now).id = id := h.ids id o stored
  rw [key] at orders
  have before := h.counts id o stored
  refine ⟨.inr ⟨id, o.sent now, [], orders, (List.append_nil _).symm, key, ?_, ?_, ?_⟩, ?_, ?_⟩
  · exact ⟨before.quantity, before.notional, before.fees⟩
  · exact .of_state (by intro eq; cases eq)
  · intro old held terminal
    cases stored.symm.trans held
    rw [validated] at terminal
    cases terminal
  · intro o' mem
    rcases List.mem_append.mp mem with old | new
    · exact .inl old
    · cases List.mem_singleton.mp new
      exact .inr rfl
  · intro o' mem
    rcases List.mem_append.mp mem with old | new
    · exact .inl old
    · cases List.mem_singleton.mp new

/-- The write-back of a submission whose copy is current. -/
theorem RaceInv.submitEnd {s : OrderRace} (h : RaceInv s) {i : Nat} {order : Order}
    (flying : s.submitting i = some order) (current : s.orders.get order.id = some order)
    (response : Except ExecutionError Acknowledgement) (now : DateTime) :
    Stepped s {
      orders := (s.orders.submitFinish order response now).2
      inFlight := s.inFlight.eraseIdx i
      accepted := s.accepted ++
        (s.orders.submitFinish order response now).1.fills.map fun f => (order.id, f) } := by
  have orders := s.orders.submitFinish_orders order response now
  have fills : (s.orders.submitFinish order response now).1.fills =
      order.appliedFills response now := s.orders.submitFinish_fills order response now
  have open_ := h.submitted order (OrderRace.mem_of_submitting flying)
  rw [fills]
  refine ⟨.inr ⟨order.id, _, _, orders, rfl, order.answered_id response now, ?_, ?_, ?_⟩, ?_, ?_⟩
  · exact (h.counts _ _ current).answered response now
  · exact (h.full _ _ current).answered response now
  · intro old held terminal
    cases current.symm.trans held
    rw [open_] at terminal
    cases terminal
  · exact fun o mem => .inl (List.mem_of_mem_eraseIdx mem)
  · exact fun o mem => .inl (List.mem_of_mem_eraseIdx mem)

theorem RaceInv.cancelBegin {s : OrderRace} (h : RaceInv s) {om : OrderManager} {id : OrderId}
    {now : DateTime} {order : Order} (begun : s.orders.cancelBegin id now = .ok (order, om)) :
    Stepped s { s with orders := om, inFlight := s.inFlight ++ [.cancel order] } := by
  obtain ⟨o, stored, working, rfl, rfl⟩ := OrderManager.cancelBegin_ok begun
  have before := h.counts id o stored
  refine ⟨.inr ⟨id, { o with state := .cancelRequested, updatedAt := now }, [], ?_,
    (List.append_nil _).symm, h.ids id o stored, ?_, ?_, ?_⟩, ?_, ?_⟩
  · rw [OrderManager.store_orders]
    congr 1
    exact h.ids id o stored
  · exact ⟨before.quantity, before.notional, before.fees⟩
  · exact .of_state (by intro eq; cases eq)
  · intro old held terminal
    cases stored.symm.trans held
    rcases working with eq | eq <;> rw [eq] at terminal <;> cases terminal
  · intro o' mem
    rcases List.mem_append.mp mem with old | new
    · exact .inl old
    · cases List.mem_singleton.mp new
  · intro o' mem
    rcases List.mem_append.mp mem with old | new
    · exact .inl old
    · cases List.mem_singleton.mp new
      exact .inr rfl

/-- The write-back of a cancellation whose copy is current. -/
theorem RaceInv.cancelEnd {s : OrderRace} (h : RaceInv s) {i : Nat} {order : Order}
    {response : Except ExecutionError Unit} (flying : s.cancelling i = some order)
    (current : Gone response → s.orders.get order.id = some order) (now : DateTime) :
    Stepped s { s with
      orders := (s.orders.cancelFinish order response now).2
      inFlight := s.inFlight.eraseIdx i } := by
  have requested := h.requested order (OrderRace.mem_of_cancelling flying)
  refine ⟨?_, fun o mem => .inl (List.mem_of_mem_eraseIdx mem),
    fun o mem => .inl (List.mem_of_mem_eraseIdx mem)⟩
  rcases s.orders.cancelFinish_orders requested response now with ⟨gone, orders⟩ | ⟨_, same⟩
  · have stored := current gone
    have before := h.counts _ _ stored
    refine .inr ⟨order.id, { order with state := .cancelled, updatedAt := now }, [], orders,
      (List.append_nil _).symm, rfl, ?_, ?_, ?_⟩
    · exact ⟨before.quantity, before.notional, before.fees⟩
    · exact .of_state (by intro eq; cases eq)
    · intro old held terminal
      cases stored.symm.trans held
      rw [requested] at terminal
      cases terminal
  · left
    exact ⟨congrArg OrderManager.orders same, rfl⟩

theorem RaceInv.externalFill {s : OrderRace} (h : RaceInv s) {f : Fill} {om : OrderManager}
    (accepted : s.orders.applyExternalFill f = .ok om) :
    Stepped s { s with orders := om, accepted := s.accepted ++ [(f.orderId, f)] } := by
  obtain ⟨o, stored, may, fits, orders⟩ := OrderManager.applyExternalFill_ok accepted
  have key := h.ids _ _ stored
  rw [key] at orders
  refine ⟨.inr ⟨f.orderId, o.withFill f, [f], orders, rfl, ?_, ?_, o.withFill_filledUp f, ?_⟩,
    fun _ mem => .inl mem, fun _ mem => .inl mem⟩
  · rw [Order.withFill_id, key]
  · exact (h.counts _ _ stored).withFill f
  · intro old held terminal
    cases stored.symm.trans held
    exact Order.withFill_of_terminal (h.full _ _ stored) may fits terminal

theorem OrderRace.stepped {s s' : OrderRace} {e : RaceEvent} (h : RaceInv s)
    (current : CopyCurrent s e) (taken : s.step e = some s') : Stepped s s' := by
  have idle : Stepped s s := ⟨.inl ⟨rfl, rfl⟩, fun _ mem => .inl mem, fun _ mem => .inl mem⟩
  cases e with
  | register req latency now =>
    simp only [step] at taken
    split at taken
    next => cases taken
    next absent =>
      split at taken
      next registered => cases taken; exact h.register (by simpa using absent) registered
      next => cases taken; exact idle
  | submitBegin id now =>
    simp only [step] at taken
    split at taken
    next begun => cases taken; exact h.submitBegin begun
    next => cases taken; exact idle
  | submitEnd i response now =>
    simp only [step] at taken
    split at taken
    next order flying => cases taken; exact h.submitEnd flying (current order flying) response now
    next => cases taken
  | cancelBegin id now =>
    simp only [step] at taken
    split at taken
    next begun => cases taken; exact h.cancelBegin begun
    next => cases taken; exact idle
  | cancelEnd i response now =>
    simp only [step] at taken
    split at taken
    next order flying => cases taken; exact h.cancelEnd flying (current order flying) now
    next => cases taken
  | externalFill f =>
    simp only [step] at taken
    split at taken
    next accepted => cases taken; exact h.externalFill accepted
    next => cases taken; exact idle

theorem Stepped.inv {s s' : OrderRace} (h : RaceInv s) (step : Stepped s s') : RaceInv s' := by
  obtain ⟨writes, submitted, requested⟩ := step
  have submitted' : ∀ o, .submit o ∈ s'.inFlight → o.state = .submitted :=
    fun o mem => (submitted o mem).elim (h.submitted o) id
  have requested' : ∀ o, .cancel o ∈ s'.inFlight → o.state = .cancelRequested :=
    fun o mem => (requested o mem).elim (h.requested o) id
  rcases writes with ⟨orders, accepted⟩ | ⟨id, o, fs, orders, accepted, key, counts, full, _⟩
  · have get_ : ∀ j, s'.orders.get j = s.orders.get j := fun j => congrArg (AList.lookup j) orders
    refine ⟨?_, ?_, ?_, ?_, submitted', requested'⟩
    · exact fun j o hj => h.ids j o (get_ j ▸ hj)
    · rw [accepted]
      exact fun j o hj => h.counts j o (get_ j ▸ hj)
    · exact fun j o hj => h.full j o (get_ j ▸ hj)
    · rw [accepted]
      exact fun j hj => h.fresh j (get_ j ▸ hj)
  · have get_ := OrderManager.get_insert orders
    refine ⟨?_, ?_, ?_, ?_, submitted', requested'⟩
    · intro j p hj
      rw [get_] at hj
      split at hj
      next same => cases hj; exact key.trans same.symm
      next => exact h.ids j p hj
    · intro j p hj
      rw [get_] at hj
      split at hj
      next same => cases hj; rw [same]; exact counts
      next other =>
        rw [accepted]
        exact (h.counts j p hj).append_other other fs
    · intro j p hj
      rw [get_] at hj
      split at hj
      next => cases hj; exact full
      next => exact h.full j p hj
    · intro j hj g
      rw [get_] at hj
      split at hj
      next => cases hj
      next other =>
        rw [accepted, acceptedTotal_append, if_neg (Ne.symm other), add_zero]
        exact h.fresh j hj g

/-- A terminal order keeps its state. -/
theorem Stepped.keeps {s s' : OrderRace} (step : Stepped s s') {id : OrderId} {o : Order}
    (stored : s.orders.get id = some o) (terminal : o.state.isTerminal) :
    ∃ o', s'.orders.get id = some o' ∧ o'.state = o.state := by
  rcases step.writes with ⟨orders, _⟩ | ⟨j, o', fs, wrote⟩
  · exact ⟨o, (congrArg (AList.lookup id) orders).trans stored, rfl⟩
  · rw [OrderManager.get_insert wrote.orders]
    split
    next same =>
      subst same
      exact ⟨o', rfl, wrote.keeps o stored terminal⟩
    next => exact ⟨o, stored, rfl⟩

theorem RaceInv.start : RaceInv .start := by
  refine ⟨?_, ?_, ?_, fun _ _ _ => rfl, ?_, ?_⟩
  · intro id o stored
    cases stored
  · intro id o stored
    cases stored
  · intro id o stored
    cases stored
  · intro o mem
    cases mem
  · intro o mem
    cases mem

def Fill.sample : Fill where
  fillId := ⟨0⟩
  orderId := ⟨0⟩
  correlationId := ⟨0⟩
  marketId := .zero
  tokenId := .zero
  side := .buy
  quantity := (OrderRequest.sample .gtc).quantity
  price := .half
  fee := 1
  venueFillId := none
  isMaker := false
  filledAt := 0

def Acknowledgement.sample : Acknowledgement := ⟨⟨0⟩, none, 0, [], false⟩

def fillAfterAck : List RaceEvent :=
  [.register (.sample .gtc) (.begin 0) 0, .submitBegin ⟨0⟩ 0, .submitEnd 0 (.ok .sample) 0,
    .externalFill .sample]

/-- The fill comes while the submission still awaits the acknowledgement. -/
def fillBeforeAck : List RaceEvent :=
  [.register (.sample .gtc) (.begin 0) 0, .submitBegin ⟨0⟩ 0, .externalFill .sample,
    .submitEnd 0 (.ok .sample) 0]

end CopyTrading
