import CopyTrading.OrderRace

namespace CopyTrading

open StepRun

/-- The order manager's callers, calls of `cancel_all` included, with a log of what was sent. -/
structure VenueLog where
  race : OrderRace
  /-- The orders that each call of `cancel_all` has yet to cancel. -/
  sweeps : List (List OrderId)
  registered : List OrderId
  /-- The ids for which the adapter's `submit` was invoked. -/
  sent : List OrderId

inductive LogEvent
  | call (e : RaceEvent)
  | cancelAll (open_ : List OrderId)
  /-- The call of `cancel_all` at position `k` requests its next cancellation. -/
  | cancelNext (k : Nat) (now : DateTime)

def VenueLog.start : VenueLog := ⟨.start, [], [], []⟩

/-- The id that a segment registers. -/
def OrderRace.registers (s : OrderRace) : RaceEvent → List OrderId
  | .register req latency now =>
    match s.orders.registerValidated req latency now with
    | .ok (id, _) => [id]
    | .error _ => []
  | _ => []

/-- The id of the order that a segment hands to the adapter. -/
def OrderRace.sends (s : OrderRace) : RaceEvent → List OrderId
  | .submitBegin id now =>
    match s.orders.submitBegin id now with
    | .ok (order, _) => [order.request.orderId]
    | .error _ => []
  | _ => []

def VenueLog.step (s : VenueLog) : LogEvent → Option VenueLog
  | .call e => (s.race.step e).map fun race => { s with
      race := race
      registered := s.registered ++ s.race.registers e
      sent := s.sent ++ s.race.sends e }
  | .cancelAll open_ =>
    if open_.Perm (s.race.orders.openOrders.map Order.id) then
      some { s with sweeps := s.sweeps ++ [open_] }
    else none
  | .cancelNext k now =>
    match s.sweeps[k]? with
    | some (id :: rest) => (s.race.step (.cancelBegin id now)).map fun race => { s with
        race := race
        sweeps := s.sweeps.set k rest }
    | _ => none

/-- Whatever is stored, or will be written back, past validation never comes back to it. -/
structure SentInv (s : VenueLog) : Prop where
  ids : ∀ id o, s.race.orders.get id = some o → o.id = id
  registered : ∀ id o, s.race.orders.get id = some o → id ∈ s.registered
  submitted : ∀ o, .submit o ∈ s.race.inFlight → o.state = .submitted ∧ o.id ∈ s.registered
  requested : ∀ o, .cancel o ∈ s.race.inFlight → o.state = .cancelRequested ∧
    o.id ∈ s.registered
  past : ∀ id ∈ s.sent, ∃ o, s.race.orders.get id = some o ∧ o.wasSubmitted
  once : s.sent.Nodup

/-- One order past validation is written, or nothing is. -/
structure WritesPast (s s' : OrderRace) (known : List OrderId) : Prop where
  orders : s'.orders.orders = s.orders.orders ∨ ∃ o, o.wasSubmitted ∧ o.id ∈ known ∧
    s'.orders.orders = s.orders.orders.insert o.id o
  submitted : ∀ o, .submit o ∈ s'.inFlight → .submit o ∈ s.inFlight ∨
    o.state = .submitted ∧ o.id ∈ known
  requested : ∀ o, .cancel o ∈ s'.inFlight → .cancel o ∈ s.inFlight ∨
    o.state = .cancelRequested ∧ o.id ∈ known

theorem SentInv.start : SentInv .start := by
  refine ⟨?_, ?_, ?_, ?_, ?_, List.nodup_nil⟩
  · intro id o stored
    cases stored
  · intro id o stored
    cases stored
  · intro o mem
    cases mem
  · intro o mem
    cases mem
  · intro id mem
    cases mem

theorem SentInv.writes {s : VenueLog} (h : SentInv s) {race : OrderRace}
    (w : WritesPast s.race race s.registered) (sweeps : List (List OrderId)) :
    SentInv { s with race := race, sweeps := sweeps } := by
  have flights : (∀ o, .submit o ∈ race.inFlight → o.state = .submitted ∧ o.id ∈ s.registered) ∧
      (∀ o, .cancel o ∈ race.inFlight → o.state = .cancelRequested ∧ o.id ∈ s.registered) := by
    constructor
    · intro o mem
      rcases w.submitted o mem with old | new
      · exact h.submitted o old
      · exact new
    · intro o mem
      rcases w.requested o mem with old | new
      · exact h.requested o old
      · exact new
  rcases w.orders with same | ⟨o, past, known, written⟩
  · have get_ : ∀ id, race.orders.get id = s.race.orders.get id :=
      fun id => congrArg (AList.lookup id) same
    refine ⟨?_, ?_, flights.1, flights.2, ?_, h.once⟩
    · intro id o stored
      exact h.ids id o ((get_ id).symm.trans stored)
    · intro id o stored
      exact h.registered id o ((get_ id).symm.trans stored)
    · intro id mem
      obtain ⟨o, stored, past⟩ := h.past id mem
      exact ⟨o, (get_ id).trans stored, past⟩
  · have get_ := OrderManager.get_insert written
    refine ⟨?_, ?_, flights.1, flights.2, ?_, h.once⟩
    · intro id o' stored
      rw [get_] at stored
      split at stored
      next eq => cases stored; exact eq.symm
      next => exact h.ids id o' stored
    · intro id o' stored
      rw [get_] at stored
      split at stored
      next eq => rw [eq]; exact known
      next => exact h.registered id o' stored
    · intro id mem
      rw [get_]
      split
      next => exact ⟨o, rfl, past⟩
      next => exact h.past id mem

theorem Order.wasSubmitted_of {o : Order} (st : OrderState) (h : o.state = st)
    (created : st ≠ .created) (validated : st ≠ .validated) : o.wasSubmitted := by
  unfold wasSubmitted
  rw [h]
  exact decide_eq_true ⟨created, validated⟩

/-- What the adapter's answer leaves was handed to it. -/
theorem Order.answered_wasSubmitted {o : Order} (h : o.state = .submitted)
    (response : Except ExecutionError Acknowledgement) (now : DateTime) :
    (o.answered response now).wasSubmitted := by
  cases response with
  | ok ack =>
    rcases o.acknowledge_state h ack now with eq | eq | eq | eq
    · exact wasSubmitted_of _ eq nofun nofun
    · exact wasSubmitted_of _ eq nofun nofun
    · exact wasSubmitted_of _ eq nofun nofun
    · exact wasSubmitted_of _ eq nofun nofun
  | error e =>
    refine wasSubmitted_of _ (Order.refused_state h e now) ?_ ?_
    · split <;> exact nofun
    · split <;> exact nofun

theorem Order.withFill_wasSubmitted (o : Order) (f : Fill) : (o.withFill f).wasSubmitted := by
  refine wasSubmitted_of _ (o.withFill_state f) ?_ ?_
  · split <;> exact nofun
  · split <;> exact nofun

section Segments

variable {s : VenueLog} (h : SentInv s)
include h

theorem SentInv.submitEnd {i : Nat} {order : Order} (flying : s.race.submitting i = some order)
    (response : Except ExecutionError Acknowledgement) (now : DateTime)
    (accepted : List (OrderId × Fill)) : WritesPast s.race {
      orders := (s.race.orders.submitFinish order response now).2
      inFlight := s.race.inFlight.eraseIdx i
      accepted := accepted } s.registered := by
  obtain ⟨submitted, known⟩ := h.submitted order (OrderRace.mem_of_submitting flying)
  have orders := s.race.orders.submitFinish_orders order response now
  have key := order.answered_id response now
  refine ⟨.inr ⟨order.answered response now, Order.answered_wasSubmitted submitted response now,
    ?_, ?_⟩, fun o mem => .inl (List.mem_of_mem_eraseIdx mem),
    fun o mem => .inl (List.mem_of_mem_eraseIdx mem)⟩
  · rw [key]
    exact known
  · rw [key]
    exact orders

theorem SentInv.cancelBegin {id : OrderId} {now : DateTime} {race : OrderRace}
    (taken : s.race.step (.cancelBegin id now) = some race) :
    WritesPast s.race race s.registered := by
  simp only [OrderRace.step] at taken
  split at taken
  next begun =>
    cases taken
    obtain ⟨o, stored, _, rfl, rfl⟩ := OrderManager.cancelBegin_ok begun
    have known : o.id ∈ s.registered := by
      rw [h.ids id o stored]
      exact h.registered id o stored
    let copy : Order := { o with state := .cancelRequested, updatedAt := now }
    have past : copy.wasSubmitted :=
      Order.wasSubmitted_of .cancelRequested rfl (by simp) (by simp)
    refine ⟨.inr ⟨copy, past, known, rfl⟩, ?_, ?_⟩
    · intro o' mem
      rcases List.mem_append.mp mem with old | new
      · exact .inl old
      · cases List.mem_singleton.mp new
    · intro o' mem
      rcases List.mem_append.mp mem with old | new
      · exact .inl old
      · cases List.mem_singleton.mp new
        exact .inr ⟨rfl, known⟩
  next =>
    cases taken
    exact ⟨.inl rfl, fun _ mem => .inl mem, fun _ mem => .inl mem⟩

theorem SentInv.cancelEnd {i : Nat} {order : Order} (flying : s.race.cancelling i = some order)
    (response : Except ExecutionError Unit) (now : DateTime) : WritesPast s.race { s.race with
      orders := (s.race.orders.cancelFinish order response now).2
      inFlight := s.race.inFlight.eraseIdx i } s.registered := by
  obtain ⟨requested, known⟩ := h.requested order (OrderRace.mem_of_cancelling flying)
  refine ⟨?_, fun o mem => .inl (List.mem_of_mem_eraseIdx mem),
    fun o mem => .inl (List.mem_of_mem_eraseIdx mem)⟩
  rcases s.race.orders.cancelFinish_orders requested response now with ⟨_, eq⟩ | ⟨_, eq⟩
  · refine .inr ⟨{ order with state := .cancelled, updatedAt := now }, ?_, known, eq⟩
    exact Order.wasSubmitted_of .cancelled rfl (by simp) (by simp)
  · exact .inl (congrArg OrderManager.orders eq)

theorem SentInv.externalFill {f : Fill} {om : OrderManager} (accepted : List (OrderId × Fill))
    (taken : s.race.orders.applyExternalFill f = .ok om) :
    WritesPast s.race { s.race with orders := om, accepted := accepted } s.registered := by
  obtain ⟨o, stored, _, _, orders⟩ := OrderManager.applyExternalFill_ok taken
  refine ⟨.inr ⟨o.withFill f, o.withFill_wasSubmitted f, ?_, ?_⟩, fun _ mem => .inl mem,
    fun _ mem => .inl mem⟩
  · rw [Order.withFill_id, h.ids _ o stored]
    exact h.registered _ o stored
  · rw [Order.withFill_id]
    exact orders

/-- A fresh id is registered: nothing of it was sent before. -/
theorem SentInv.register {req : OrderRequest} {latency : LatencyStamps} {now : DateTime}
    {id : OrderId} {om : OrderManager} (fresh : s.race.orders.get req.orderId = none)
    (taken : s.race.orders.registerValidated req latency now = .ok (id, om)) :
    SentInv { s with
      race := { s.race with orders := om }
      registered := s.registered ++ [id] } := by
  obtain ⟨o, key, _, _, _, _, _, _, rfl, rfl⟩ := OrderManager.registerValidated_ok taken
  have get_ : ∀ j, (s.race.orders.store o).get j = if j = o.id then some o
      else s.race.orders.get j := OrderManager.get_insert rfl
  refine ⟨?_, ?_, ?_, ?_, ?_, h.once⟩
  · intro j o' stored
    rw [get_] at stored
    split at stored
    next eq => cases stored; exact eq.symm
    next => exact h.ids j o' stored
  · intro j o' stored
    rw [get_] at stored
    split at stored
    next eq => rw [eq]; exact List.mem_append_right _ List.mem_cons_self
    next => exact List.mem_append_left _ (h.registered j o' stored)
  · intro o' mem
    obtain ⟨state, known⟩ := h.submitted o' mem
    exact ⟨state, List.mem_append_left _ known⟩
  · intro o' mem
    obtain ⟨state, known⟩ := h.requested o' mem
    exact ⟨state, List.mem_append_left _ known⟩
  · intro j mem
    obtain ⟨o', stored, past⟩ := h.past j mem
    have other : j ≠ o.id := by
      intro same
      rw [same, key, fresh] at stored
      cases stored
    exact ⟨o', (get_ j).trans ((if_neg other).trans stored), past⟩

/-- A submission starts from `validated`, so its id is not among those sent. -/
theorem SentInv.submitBegin {id : OrderId} {now : DateTime} {order : Order} {om : OrderManager}
    (begun : s.race.orders.submitBegin id now = .ok (order, om)) :
    SentInv { s with
      race := { s.race with orders := om, inFlight := s.race.inFlight ++ [.submit order] }
      sent := s.sent ++ [order.request.orderId] } := by
  obtain ⟨o, stored, validated, rfl, orders⟩ := OrderManager.submitBegin_ok begun
  have key : (o.sent now).id = id := h.ids id o stored
  have known : (o.sent now).id ∈ s.registered := by
    rw [key]
    exact h.registered id o stored
  have past : (o.sent now).wasSubmitted :=
    Order.wasSubmitted_of .submitted rfl (by simp) (by simp)
  have written : WritesPast s.race { s.race with
      orders := om
      inFlight := s.race.inFlight ++ [.submit (o.sent now)] } s.registered := by
    refine ⟨.inr ⟨o.sent now, past, known, orders⟩, ?_, ?_⟩
    · intro o' mem
      rcases List.mem_append.mp mem with old | new
      · exact .inl old
      · cases List.mem_singleton.mp new
        exact .inr ⟨rfl, known⟩
    · intro o' mem
      rcases List.mem_append.mp mem with old | new
      · exact .inl old
      · cases List.mem_singleton.mp new
  have kept := h.writes written s.sweeps
  refine ⟨kept.ids, kept.registered, kept.submitted, kept.requested, ?_, ?_⟩
  · intro j mem
    rcases List.mem_append.mp mem with old | new
    · exact kept.past j old
    · have same : j = id := (List.mem_singleton.mp new).trans key
      refine ⟨o.sent now, ?_, past⟩
      rw [same]
      exact (OrderManager.get_insert orders id).trans (if_pos key.symm)
  · refine List.nodup_append.mpr ⟨h.once, List.nodup_singleton _, ?_⟩
    intro j old k new same
    have here : j = id := (same.trans (List.mem_singleton.mp new)).trans key
    obtain ⟨o', held, earlier⟩ := h.past j old
    rw [here, stored] at held
    cases held
    unfold Order.wasSubmitted at earlier
    exact (of_decide_eq_true earlier).2 validated

end Segments

theorem SentInv.call {s : VenueLog} (h : SentInv s) {e : RaceEvent} {race : OrderRace}
    (taken : s.race.step e = some race) : SentInv { s with
      race := race
      registered := s.registered ++ s.race.registers e
      sent := s.sent ++ s.race.sends e } := by
  have quiet : WritesPast s.race race s.registered → s.race.registers e = [] →
      s.race.sends e = [] → SentInv { s with
        race := race
        registered := s.registered ++ s.race.registers e
        sent := s.sent ++ s.race.sends e } := by
    intro written unregistered unsent
    rw [unregistered, unsent, List.append_nil, List.append_nil]
    exact h.writes written s.sweeps
  cases e with
  | register req latency now =>
    simp only [OrderRace.step] at taken
    split at taken
    next => cases taken
    next absent =>
      simp only [OrderRace.registers, OrderRace.sends, List.append_nil]
      cases registered : s.race.orders.registerValidated req latency now with
      | ok started =>
        rw [registered] at taken
        cases taken
        exact h.register (by simpa using absent) registered
      | error refused =>
        rw [registered] at taken
        cases taken
        rw [List.append_nil]
        exact h
  | submitBegin id now =>
    simp only [OrderRace.step] at taken
    simp only [OrderRace.registers, OrderRace.sends, List.append_nil]
    cases begun : s.race.orders.submitBegin id now with
    | ok started =>
      rw [begun] at taken
      cases taken
      exact h.submitBegin begun
    | error refused =>
      rw [begun] at taken
      cases taken
      rw [List.append_nil]
      exact h
  | submitEnd i response now =>
    simp only [OrderRace.step] at taken
    split at taken
    next order flying =>
      cases taken
      exact quiet (h.submitEnd flying response now _) rfl rfl
    next => cases taken
  | cancelBegin id now => exact quiet (h.cancelBegin taken) rfl rfl
  | cancelEnd i response now =>
    simp only [OrderRace.step] at taken
    split at taken
    next order flying =>
      cases taken
      exact quiet (h.cancelEnd flying response now) rfl rfl
    next => cases taken
  | externalFill f =>
    simp only [OrderRace.step] at taken
    split at taken
    next accepted =>
      cases taken
      exact quiet (h.externalFill _ accepted) rfl rfl
    next =>
      cases taken
      exact quiet ⟨.inl rfl, fun _ mem => .inl mem, fun _ mem => .inl mem⟩ rfl rfl

theorem SentInv.step {s s' : VenueLog} {e : LogEvent} (h : SentInv s)
    (taken : s.step e = some s') : SentInv s' := by
  cases e with
  | call e =>
    obtain ⟨race, moved, eq⟩ := Option.map_eq_some_iff.mp taken
    cases eq
    exact h.call moved
  | cancelAll open_ =>
    obtain ⟨_, eq⟩ := Option.ite_none_right_eq_some.mp taken
    cases eq
    exact ⟨h.ids, h.registered, h.submitted, h.requested, h.past, h.once⟩
  | cancelNext k now =>
    simp only [VenueLog.step] at taken
    split at taken
    next id rest _ =>
      obtain ⟨race, moved, eq⟩ := Option.map_eq_some_iff.mp taken
      cases eq
      exact h.writes (h.cancelBegin moved) _
    next => cases taken

/-- Over every interleaving, an id is sent to the venue at most once, and only after its order
was registered. -/
theorem sent_once {es : List LogEvent} {s : VenueLog}
    (run : Run VenueLog.step Anywhere .start es s) :
    s.sent.Nodup ∧ ∀ id ∈ s.sent, id ∈ s.registered := by
  have inv : SentInv s := run.keeps (fun _ _ _ h _ taken => h.step taken) .start
  refine ⟨inv.once, ?_⟩
  intro id mem
  obtain ⟨o, stored, _⟩ := inv.past id mem
  exact inv.registered id o stored

/-- Two submissions of one order, and a call of `cancel_all` between them. -/
def submittedTwice : List LogEvent :=
  [.call (.register (.sample .gtc) (.begin 0) 0), .call (.submitBegin ⟨0⟩ 0), .cancelAll [⟨0⟩],
    .call (.submitEnd 0 (.ok .sample) 0), .cancelNext 0 0, .call (.submitBegin ⟨0⟩ 0),
    .call (.cancelEnd 0 (.ok ()) 0)]

theorem sent_once_submittedTwice : ∃ s, Run VenueLog.step Anywhere .start submittedTwice s ∧
    s.sent = [⟨0⟩] ∧ s.sent.Nodup ∧ ∀ id ∈ s.sent, id ∈ s.registered := by
  have ran : (submittedTwice.foldlM (fun s e => if Anywhere s e then VenueLog.step s e else none)
      .start).map VenueLog.sent = some [⟨0⟩] := by
    decide +kernel
  obtain ⟨s, executed, sent⟩ := Option.map_eq_some_iff.mp ran
  have run := run_of_foldlM executed
  exact ⟨s, run, sent, sent_once run⟩

end CopyTrading
