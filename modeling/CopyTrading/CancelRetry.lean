import CopyTrading.OrderEvents
import CopyTrading.OrderRace

namespace CopyTrading

open StepRun

variable {A : Type}

/-- The adapter, with a record of the orders it has been asked to cancel. -/
def ExecutionAdapter.recording (adapter : ExecutionAdapter A) :
    ExecutionAdapter (A × List OrderId) where
  submit v req := ((adapter.submit v.1 req).1, (adapter.submit v.1 req).2, v.2)
  cancel v id vid := ((adapter.cancel v.1 id vid).1, (adapter.cancel v.1 id vid).2, v.2 ++ [id])

/-- Between the two records the adapter was asked to cancel the order. -/
def Asked (before after : List OrderId) (id : OrderId) : Prop :=
  ∃ asked, after = before ++ asked ∧ id ∈ asked

theorem asked_append {before asked : List OrderId} {id : OrderId} :
    Asked before (before ++ asked) id ↔ id ∈ asked := by
  constructor
  · rintro ⟨asked', eq, mem⟩
    rw [List.append_cancel_left eq]
    exact mem
  · exact fun mem => ⟨asked, rfl, mem⟩

section Recording

variable (adapter : ExecutionAdapter A) {s : OrderManager × A × List OrderId}

/-- A cancellation asks the adapter exactly if the stored order is working. -/
theorem OrderManager.cancel_asks (keyed : s.1.Keyed) (id : OrderId) (now at_ : DateTime) :
    ∃ asked, (s.1.cancel adapter.recording s.2 id now at_).2.2.2 = s.2.2 ++ asked ∧
      ∀ j, j ∈ asked ↔ j = id ∧ ∃ o, s.1.get id = some o ∧ o.state.Working := by
  by_cases h : ∃ o, s.1.get id = some o ∧ o.state.Working
  · obtain ⟨o, stored, working⟩ := h
    have venue := (cancel_of_working adapter.recording s.2 now at_ stored working
      (keyed id o stored)).1
    refine ⟨[id], ?_, ?_⟩
    · rw [venue]
      rfl
    · intro j
      rw [List.mem_singleton]
      exact ⟨fun same => ⟨same, o, stored, working⟩, And.left⟩
  · have same := cancel_of_not_working adapter.recording s.2 now at_
      fun o stored working => h ⟨o, stored, working⟩
    refine ⟨[], ?_, ?_⟩
    · rw [same, List.append_nil]
    · exact fun j => iff_of_false List.not_mem_nil fun both => h both.2

/-- A sweep asks for the working ones among its orders. -/
theorem OrderManager.sweep_asks (keyed : s.1.Keyed) (now at_ : OrderId → DateTime)
    (os : List Order) (distinct : (os.map Order.id).Nodup) :
    ∃ asked, (os.foldl (fun s o => (s.1.cancel adapter.recording s.2 o.id (now o.id)
        (at_ o.id)).2) s).2.2 = s.2.2 ++ asked ∧
      ∀ j, j ∈ asked ↔ j ∈ os.map Order.id ∧ ∃ o, s.1.get j = some o ∧ o.state.Working := by
  induction os generalizing s with
  | nil => exact ⟨[], (List.append_nil _).symm, fun j => by simp⟩
  | cons o os ih =>
    obtain ⟨fresh, rest⟩ := List.nodup_cons.mp distinct
    have effect := OrderEvent.effect_cancel adapter.recording keyed o.id (now o.id)
      (at_ o.id)
    obtain ⟨first, eq, head⟩ := cancel_asks adapter keyed o.id (now o.id) (at_ o.id)
    obtain ⟨others, eq', tail⟩ := ih (effect.keyed keyed) rest
    refine ⟨first ++ others, ?_, ?_⟩
    · rw [List.foldl_cons, eq', eq, List.append_assoc]
    · intro j
      rw [List.mem_append, head, tail, List.map_cons, List.mem_cons]
      by_cases same : j = o.id
      · subst same
        simp [fresh]
      · rw [effect.frame same]
        simp [same]

theorem OrderManager.cancelAll_asks (keyed : s.1.Keyed) (now at_ : OrderId → DateTime) :
    ∃ asked, (s.1.cancelAll adapter.recording s.2 now at_).2.2.2 = s.2.2 ++ asked ∧
      ∀ j, j ∈ asked ↔ ∃ o, s.1.get j = some o ∧ o.state.Working := by
  have distinct : (s.1.openOrders.map Order.id).Nodup := AList.nodup_map_key keyed _
  obtain ⟨asked, eq, mem⟩ := sweep_asks adapter keyed now at_ s.1.openOrders distinct
  rw [cancelAll_eq]
  refine ⟨asked, eq, fun j => ?_⟩
  rw [mem]
  constructor
  · exact And.right
  · rintro ⟨o, stored, working⟩
    exact ⟨(AList.mem_map_key keyed).mpr ⟨o, stored, working.isOpen⟩, o, stored, working⟩

end Recording

section Retry

variable {adapter : ExecutionAdapter A} {s t : OrderManager × A} {id : OrderId}
  {es : List OrderEvent}

/-- A fill of the order was accepted, and its cancellation was not called for again after it. -/
inductive FilledSince (adapter : ExecutionAdapter A) (s : OrderManager × A) (id : OrderId) :
    List OrderEvent → Prop
  | fill {es : List OrderEvent} {t : OrderManager × A} {f : Fill} {om : OrderManager}
      (run : Run (OrderEvent.step adapter) Anywhere s es t) (here : f.orderId = id)
      (accepted : t.1.applyExternalFill f = .ok om) :
      FilledSince adapter s id (es ++ [.externalFill f])
  | next {es : List OrderEvent} {e : OrderEvent} (before : FilledSince adapter s id es)
      (other : ∀ now at_, e ≠ .cancel id now at_) : FilledSince adapter s id (es ++ [e])

theorem FilledSince.last {e : OrderEvent} (h : FilledSince adapter s id (es ++ [e]))
    (run : Run (OrderEvent.step adapter) Anywhere s es t) :
    (∃ f om, e = .externalFill f ∧ f.orderId = id ∧ t.1.applyExternalFill f = .ok om) ∨
      (FilledSince adapter s id es ∧ ∀ now at_, e ≠ .cancel id now at_) := by
  generalize eq : es ++ [e] = whole at h
  cases h with
  | fill run' here accepted =>
    obtain ⟨rfl, same⟩ := List.append_inj' eq rfl
    cases same
    cases run.unique run'
    exact .inl ⟨_, _, rfl, here, accepted⟩
  | next before other =>
    obtain ⟨rfl, same⟩ := List.append_inj' eq rfl
    cases same
    exact .inr ⟨before, other⟩

theorem FilledSince.nil : ¬FilledSince adapter s id [] := by
  intro h
  generalize eq : ([] : List OrderEvent) = whole at h
  cases h with
  | fill => simp at eq
  | next => simp at eq

/-- What the calls since a failed cancellation can have made of the order. -/
inductive SinceFailure (adapter : ExecutionAdapter A) (s : OrderManager × A) (id : OrderId)
    (es : List OrderEvent) : OrderState → Prop
  | requested (none_ : ¬FilledSince adapter s id es) : SinceFailure adapter s id es .cancelRequested
  | partly (some_ : FilledSince adapter s id es) : SinceFailure adapter s id es .partiallyFilled
  | filled : SinceFailure adapter s id es .filled
  | cancelled : SinceFailure adapter s id es .cancelled

/-- A call that neither fills the order nor cancels it leaves the question as it is. -/
theorem FilledSince.other_iff {e : OrderEvent}
    (run : Run (OrderEvent.step adapter) Anywhere s es t)
    (unfilled : ∀ f om, e = .externalFill f → f.orderId = id →
      t.1.applyExternalFill f ≠ .ok om)
    (other : ∀ now at_, e ≠ .cancel id now at_) :
    FilledSince adapter s id (es ++ [e]) ↔ FilledSince adapter s id es := by
  constructor
  · intro h
    rcases h.last run with ⟨f, om, eq, here, accepted⟩ | ⟨before, _⟩
    · exact absurd accepted (unfilled f om eq here)
    · exact before
  · exact fun before => before.next other

theorem FilledSince.not_cancel (run : Run (OrderEvent.step adapter) Anywhere s es t)
    (now at_ : DateTime) : ¬FilledSince adapter s id (es ++ [.cancel id now at_]) := by
  intro h
  rcases h.last run with ⟨f, om, eq, _⟩ | ⟨_, other⟩
  · cases eq
  · exact other now at_ rfl

theorem SinceFailure.same {st : OrderState} {es' : List OrderEvent}
    (h : SinceFailure adapter s id es st)
    (same : FilledSince adapter s id es' ↔ FilledSince adapter s id es) :
    SinceFailure adapter s id es' st := by
  cases h with
  | requested none_ => exact .requested fun some_ => none_ (same.mp some_)
  | partly some_ => exact .partly (same.mpr some_)
  | filled => exact .filled
  | cancelled => exact .cancelled

/-- One call after a failed cancellation, by what it does to the order it is about. -/
theorem SinceFailure.step {e : OrderEvent} {u : OrderManager × A} {o : Order}
    (run : Run (OrderEvent.step adapter) Anywhere s es t) (stored : t.1.get id = some o)
    (h : SinceFailure adapter s id es o.state) (effect : OrderEffect adapter t e u) :
    ∃ o', u.1.get id = some o' ∧ SinceFailure adapter s id (es ++ [e]) o'.state := by
  obtain ⟨o', stored', write⟩ := effect.write stored
  refine ⟨o', stored', ?_⟩
  cases write with
  | other other =>
    refine h.same (FilledSince.other_iff run ?_ ?_)
    · rintro f om rfl here
      exact absurd here.symm other
    · rintro now at_ rfl
      exact other rfl
  | idle idle =>
    cases e with
    | register =>
      refine h.same (FilledSince.other_iff run ?_ ?_)
      · intro f om same
        cases same
      · intro now at_ same
        cases same
    | submit =>
      refine h.same (FilledSince.other_iff run ?_ ?_)
      · intro f om same
        cases same
      · intro now at_ same
        cases same
    | externalFill f =>
      refine h.same (FilledSince.other_iff run ?_ ?_)
      · intro f' om same here accepted
        cases same
        obtain ⟨o', stored', may, fits, _⟩ := OrderManager.applyExternalFill_ok accepted
        exact absurd fits (not_le.mpr (idle o' stored' may))
      · intro now at_ same
        cases same
    | cancel id' now at_ =>
      by_cases here : id' = id
      · subst here
        cases state : o.state with
        | cancelRequested => exact .requested (FilledSince.not_cancel run now at_)
        | filled => exact .filled
        | cancelled => exact .cancelled
        | partiallyFilled => exact absurd (.inr state) (idle o stored)
        | _ =>
          rw [state] at h
          cases h
      · refine h.same (FilledSince.other_iff run ?_ ?_)
        · intro f om same
          cases same
        · intro now' at' same
          cases same
          exact here rfl
  | submitted validated =>
    rw [validated] at h
    cases h
  | @filled f may fits =>
    obtain ⟨om, accepted⟩ := OrderManager.applyExternalFill_of stored may fits
    have some_ : FilledSince adapter s f.orderId (es ++ [.externalFill f]) := .fill run rfl accepted
    rw [Order.withFill_state]
    split
    · exact .filled
    · exact .partly some_
  | cancelled => exact .cancelled
  | requested => exact .requested (FilledSince.not_cancel run _ _)

/-- A run after a failed cancellation, by induction on its calls. -/
theorem SinceFailure.run {o : Order} (keyed : s.1.Keyed) (stored : s.1.get id = some o)
    (requested : o.state = .cancelRequested)
    (run : Run (OrderEvent.step adapter) Anywhere s es t) :
    t.1.Keyed ∧ ∃ o', t.1.get id = some o' ∧ SinceFailure adapter s id es o'.state := by
  induction run with
  | nil => exact ⟨keyed, o, stored, requested ▸ .requested FilledSince.nil⟩
  | snoc before _ taken ih =>
    obtain ⟨keyed', o', stored', since⟩ := ih
    have effect := OrderEvent.effect keyed' taken
    exact ⟨effect.keyed keyed', since.step before stored' effect⟩

end Retry

/-- A cancellation that the adapter has confirmed does not return an error. -/
theorem OrderManager.cancelFinish_gone (om : OrderManager) (o : Order)
    {response : Except ExecutionError Unit} (gone : Gone response) (now : DateTime) :
    (om.cancelFinish o response now).1 = .ok () := by
  cases response with
  | ok _ =>
    unfold cancelFinish
    simp only
    split <;> rfl
  | error e =>
    cases e with
    | unknownOrder _ =>
      unfold cancelFinish
      simp only
      split <;> rfl
    | _ => cases gone

/-- The result of a cancellation of a working order is what its second half makes of the answer. -/
theorem OrderManager.cancel_result (adapter : ExecutionAdapter A) {om : OrderManager} (a : A)
    {id : OrderId} {o : Order} (stored : om.get id = some o) (working : o.state.Working)
    (now at_ : DateTime) : ∃ om' o', (om.cancel adapter a id now at_).1 =
      (cancelFinish om' o' (adapter.cancel a id o.venueOrderId).1 at_).1 := by
  have moves := Order.transition_cancelRequested working now
  unfold cancel cancelBegin
  simp only [stored, moves]
  exact ⟨_, _, rfl⟩

theorem OrderManager.cancel_failed {adapter : ExecutionAdapter A} {om : OrderManager} {a : A}
    {id : OrderId} {now at_ : DateTime} {o : Order} {r : OrderRefusal}
    (stored : om.get id = some o) (working : o.state.Working)
    (failed : (om.cancel adapter a id now at_).1 = .error r) :
    ¬Gone (adapter.cancel a id o.venueOrderId).1 := by
  intro gone
  obtain ⟨om', o', result⟩ := cancel_result adapter a stored working now at_
  rw [result, cancelFinish_gone om' o' gone] at failed
  cases failed

/-- After a failed cancellation, an order that is neither filled nor cancelled is asked for again
exactly if a fill of it has come since the adapter was last called. -/
theorem OrderManager.cancel_retried_iff (adapter : ExecutionAdapter A)
    {s t : OrderManager × A × List OrderId} (keyed : s.1.Keyed) {id : OrderId} {o : Order}
    (stored : s.1.get id = some o) (working : o.state.Working) {now at_ : DateTime}
    {r : OrderRefusal} (failed : (s.1.cancel adapter.recording s.2 id now at_).1 = .error r)
    {es : List OrderEvent}
    (run : Run (OrderEvent.step adapter.recording) Anywhere
      (s.1.cancel adapter.recording s.2 id now at_).2 es t)
    {o' : Order} (later : t.1.get id = some o') (unfilled : o'.state ≠ .filled)
    (uncancelled : o'.state ≠ .cancelled) :
    (∀ now' at', Asked t.2.2 (t.1.cancel adapter.recording t.2 id now' at').2.2.2 id ↔
      FilledSince adapter.recording (s.1.cancel adapter.recording s.2 id now at_).2 id es) ∧
    ∀ now' at', Asked t.2.2 (t.1.cancelAll adapter.recording t.2 now' at').2.2.2 id ↔
      FilledSince adapter.recording (s.1.cancel adapter.recording s.2 id now at_).2 id es := by
  have refused := cancel_failed stored working failed
  have orders := (cancel_of_working adapter.recording s.2 now at_ stored working
    (keyed id o stored)).2.2 refused
  have effect := OrderEvent.effect_cancel adapter.recording keyed id now at_
  have requested := get_written orders
  obtain ⟨keyed', o₂, stored₂, since⟩ := SinceFailure.run (effect.keyed keyed) requested rfl run
  rw [later] at stored₂
  cases stored₂
  have working_iff : (∃ o, t.1.get id = some o ∧ o.state.Working) ↔
      FilledSince adapter.recording (s.1.cancel adapter.recording s.2 id now at_).2 id es := by
    constructor
    · rintro ⟨o₂, stored₂, working₂⟩
      rw [later] at stored₂
      cases stored₂
      rcases working₂ with state | state
      · rw [state] at since
        cases since
      · rw [state] at since
        cases since with
        | partly some_ => exact some_
    · intro some_
      cases state : o'.state with
      | partiallyFilled => exact ⟨o', later, .inr state⟩
      | cancelRequested =>
        rw [state] at since
        cases since with
        | requested none_ => exact absurd some_ none_
      | filled => exact absurd state unfilled
      | cancelled => exact absurd state uncancelled
      | _ =>
        rw [state] at since
        cases since
  constructor
  · intro now' at'
    obtain ⟨asked, eq, mem⟩ := cancel_asks adapter keyed' id now' at'
    rw [eq, asked_append, mem, ← working_iff]
    exact ⟨And.right, fun both => ⟨rfl, both⟩⟩
  · intro now' at'
    obtain ⟨asked, eq, mem⟩ := cancelAll_asks adapter keyed' now' at'
    rw [eq, asked_append, mem, ← working_iff]

/-- A venue that acknowledges every order and whose connection breaks on every cancellation. -/
def brokenCancel : ExecutionAdapter Unit where
  submit _ _ := (.ok .sample, ())
  cancel _ _ _ := (.error (.transport "connection reset"), ())

/-- An order that this venue has acknowledged. -/
theorem brokenCancel_acknowledged :
    ∃ (s : OrderManager × Unit × List OrderId) (o : Order),
      Run (OrderEvent.step brokenCancel.recording) Anywhere (.new, (), [])
        [.register (.sample .gtc) (.begin 0) 1, .submit ⟨0⟩ 2 3] s ∧
      s.1.Keyed ∧ s.1.get ⟨0⟩ = some o ∧ o.state = .acknowledged := by
  have start : Run (OrderEvent.step brokenCancel.recording) Anywhere
      ((OrderManager.new, (), []) : OrderManager × Unit × List OrderId) [] _ := .nil
  have registered := start.snoc (a := .register (.sample .gtc) (.begin 0) 1) trivial rfl
  have submitted := registered.snoc (a := .submit ⟨0⟩ 2 3) trivial rfl
  have keyed := OrderManager.keyed_of_run _ OrderManager.keyed_new submitted
  exact ⟨_, _, submitted, keyed, rfl, rfl⟩

theorem brokenCancel_fails {s : OrderManager × Unit × List OrderId} {o : Order}
    (stored : s.1.get ⟨0⟩ = some o) (acknowledged : o.state = .acknowledged) :
    (s.1.cancel brokenCancel.recording s.2 ⟨0⟩ 4 5).1 =
      .error (.venue (.transport "connection reset")) := by
  obtain ⟨om', o', result⟩ := OrderManager.cancel_result brokenCancel.recording s.2
    stored (.inl acknowledged) 4 5
  rw [result]
  rfl

/-- The cancellation fails, and no cancellation after it gets to the venue. -/
theorem OrderManager.cancel_retried_broken :
    ∃ (s : OrderManager × Unit × List OrderId) (o : Order),
      s.1.get ⟨0⟩ = some o ∧ o.state = .acknowledged ∧
      ∃ t : OrderManager × Unit × List OrderId,
        (s.1.cancel brokenCancel.recording s.2 ⟨0⟩ 4 5).2 = t ∧
        ∀ now at_, ¬Asked t.2.2 (t.1.cancel brokenCancel.recording t.2 ⟨0⟩ now at_).2.2.2 ⟨0⟩ := by
  obtain ⟨s, o, _, keyed, stored, acknowledged⟩ := brokenCancel_acknowledged
  refine ⟨s, o, stored, acknowledged, _, rfl, ?_⟩
  intro now at_ asked
  have failed := brokenCancel_fails stored acknowledged
  have orders := (cancel_of_working brokenCancel.recording s.2 4 5 stored (.inl acknowledged)
    (keyed _ o stored)).2.2 (cancel_failed stored (.inl acknowledged) failed)
  have exact_ := cancel_retried_iff brokenCancel keyed stored (.inl acknowledged) failed .nil
    (get_written orders) (by intro eq; cases eq) (by intro eq; cases eq)
  exact FilledSince.nil ((exact_.1 now at_).mp asked)

/-- The order stays in its intermediate state, where neither `cancel` nor `cancelAll` asks. -/
theorem OrderManager.cancel_not_retried :
    ∃ (s t : OrderManager × Unit × List OrderId) (o o' : Order),
      Run (OrderEvent.step brokenCancel.recording) Anywhere (.new, (), [])
        [.register (.sample .gtc) (.begin 0) 1, .submit ⟨0⟩ 2 3] s ∧
      s.1.get ⟨0⟩ = some o ∧ o.state = .acknowledged ∧
      s.1.cancel brokenCancel.recording s.2 ⟨0⟩ 4 5 =
        (.error (.venue (.transport "connection reset")), t) ∧
      t.1.get ⟨0⟩ = some o' ∧ o'.state = .cancelRequested ∧
      (∀ now at_, ¬Asked t.2.2 (t.1.cancel brokenCancel.recording t.2 ⟨0⟩ now at_).2.2.2 ⟨0⟩) ∧
      ∀ now at_, ¬Asked t.2.2 (t.1.cancelAll brokenCancel.recording t.2 now at_).2.2.2 ⟨0⟩ := by
  obtain ⟨s, o, run, keyed, stored, acknowledged⟩ := brokenCancel_acknowledged
  have failed := brokenCancel_fails stored acknowledged
  have orders := (cancel_of_working brokenCancel.recording s.2 4 5 stored (.inl acknowledged)
    (keyed _ o stored)).2.2 (cancel_failed stored (.inl acknowledged) failed)
  have requested := get_written orders
  have effect := OrderEvent.effect_cancel brokenCancel.recording keyed ⟨0⟩ 4 5
  have keyed' := effect.keyed keyed
  have idle : ¬∃ o, (s.1.cancel brokenCancel.recording s.2 ⟨0⟩ 4 5).2.1.get ⟨0⟩ = some o ∧
      o.state.Working := by
    rintro ⟨o', stored', working⟩
    rw [requested] at stored'
    cases stored'
    rcases working with state | state <;> cases state
  refine ⟨s, _, o, _, run, stored, acknowledged, Prod.ext failed rfl, requested, rfl, ?_, ?_⟩
  · intro now at_
    obtain ⟨asked, eq, mem⟩ := cancel_asks brokenCancel keyed' ⟨0⟩ now at_
    rw [eq, asked_append, mem]
    exact fun both => idle both.2
  · intro now at_
    obtain ⟨asked, eq, mem⟩ := cancelAll_asks brokenCancel keyed' now at_
    rw [eq, asked_append, mem]
    exact idle

end CopyTrading
