import CopyTrading.Holders
import CopyTrading.KillSwitchRace

namespace CopyTrading

open Holders

def Handler.rest : Handler → List OrderId
  | .sweeping rest _ _ => rest
  | .awaiting _ rest _ _ => rest
  | _ => []

def Handler.awaited : Handler → Option Order
  | .awaiting order _ _ _ => some order
  | _ => none

def Handler.beforeSweep : Handler → Bool
  | .idle | .auditing => true
  | _ => false

def Handler.failed : Handler → Nat
  | .sweeping _ _ fail | .awaiting _ _ _ fail | .finished _ fail => fail
  | _ => 0

/-- The states an order can be in once its acknowledgement was received. -/
def OrderState.Received (st : OrderState) : Prop :=
  st = .acknowledged ∨ st = .partiallyFilled ∨ st = .filled ∨ st = .unknown ∨
    st = .cancelRequested

/-- The adapter has the order, or has it acknowledged as unfinished. -/
def HaltRace.Tracked (s : HaltRace) (id : OrderId) : Prop :=
  id ∈ s.acked ∨ ∃ i o, heldAt Stage.pending s.runs i = some o ∧ o.id = id

/-- The sweep has the order before it, or its state has refused the cancellation. -/
def HaltRace.Swept (s : HaltRace) (id : OrderId) : Prop :=
  s.handler.beforeSweep ∨ id ∈ s.handler.rest ∨
    (∃ o, s.handler.awaited = some o ∧ o.id = id) ∨
    ∃ st, (id, some st) ∈ s.refused ∧ (st = .submitted ∨ st = .unknown)

def HaltRace.FilledAt (s : HaltRace) (id : OrderId) : Prop :=
  ∃ o, s.app.orders.get id = some o ∧ o.state = .filled

/-- What holds of the orders, the calls and the sweep at every await. -/
structure HaltInv (s : HaltRace) : Prop where
  ids : ∀ id o, s.app.orders.get id = some o → o.id = id
  halted : s.handler.isIdle = false → s.app.killSwitch.engaged
  late : s.late = []
  pending : ∀ i o, heldAt Stage.pending s.runs i = some o →
    s.app.orders.get o.id = some o ∧ o.state = .submitted
  apart : Apart Stage.pending Order.id s.runs
  acked : ∀ id ∈ s.acked, ∃ o, s.app.orders.get id = some o ∧ o.state.Received
  awaited : ∀ o, s.handler.awaited = some o →
    s.app.orders.get o.id = some o ∧ o.state = .cancelRequested ∧ o.id ∉ s.handler.rest
  untouched : ∀ id o, s.Tracked id → s.handler.beforeSweep ∨ id ∈ s.handler.rest →
    s.app.orders.get id = some o → o.state ≠ .cancelRequested
  nodup : s.handler.rest.Nodup
  swept : ∀ id, s.Tracked id → s.Swept id ∨ s.FilledAt id
  counted : s.refused.length ≤ s.handler.failed

theorem HaltInv.start {app : AppState}
    (keyed : ∀ id o, app.orders.get id = some o → o.id = id) : HaltInv (.start app) := by
  have untracked : ∀ id, ¬(HaltRace.start app).Tracked id := by
    rintro id (mem | ⟨i, o, pending, _⟩)
    · cases mem
    · cases pending
  refine ⟨keyed, ?_, rfl, ?_, ?_, ?_, ?_, ?_, List.nodup_nil, ?_, le_rfl⟩
  · intro h
    cases h
  · intro i o h
    cases h
  · intro i j o o' h
    cases h
  · intro id h
    cases h
  · intro o h
    cases h
  · intro id o tracked
    exact absurd tracked (untracked id)
  · intro id tracked
    exact absurd tracked (untracked id)

/-- A change that leaves the orders, the sweep and the orders in flight as they are. -/
theorem HaltInv.quiet {s : HaltRace} (h : HaltInv s) {app : AppState} {runs : List Stage}
    (quiet : AppState.Quiet s.app app)
    (fewer : ∀ i o, heldAt Stage.pending runs i = some o → heldAt Stage.pending s.runs i = some o) :
    HaltInv { s with app := app, runs := runs } := by
  have get_ : ∀ id, app.orders.get id = s.app.orders.get id :=
    fun id => congrArg (AList.lookup id) quiet.orders
  have before : ∀ id, { s with app := app, runs := runs }.Tracked id → s.Tracked id := by
    rintro id (mem | ⟨i, o, pending, key⟩)
    · exact .inl mem
    · exact .inr ⟨i, o, fewer i o pending, key⟩
  refine ⟨?_, fun h' => quiet.halted (h.halted h'), h.late, ?_, ?_, ?_, ?_, ?_, h.nodup, ?_,
    h.counted⟩
  · intro id o stored
    exact h.ids id o ((get_ id).symm.trans stored)
  · intro i o pending
    rw [get_]
    exact h.pending i o (fewer i o pending)
  · intro i j o o' hi hj
    exact h.apart i j o o' (fewer i o hi) (fewer j o' hj)
  · intro id mem
    rw [get_]
    exact h.acked id mem
  · intro o waits
    rw [get_]
    exact h.awaited o waits
  · intro id o tracked ahead stored
    exact h.untouched id o (before id tracked) ahead ((get_ id).symm.trans stored)
  · intro id tracked
    rcases h.swept id (before id tracked) with swept | ⟨o, stored, filled⟩
    · exact .inl swept
    · exact .inr ⟨o, (get_ id).trans stored, filled⟩

/-- An order is handed over, which only happens before the kill switch is engaged. -/
theorem HaltInv.handOver {s : HaltRace} (h : HaltInv s) {app : AppState} {i : Nat}
    {old new : Stage} {order : Order} (here : s.runs[i]? = some old)
    (handed : new.pending = some order) (idle : s.handler.isIdle)
    (state : order.state = .submitted) (fresh : s.app.orders.get order.id = none)
    (orders : app.orders.orders = s.app.orders.orders.insert order.id order) :
    HaltInv { s with app := app, runs := s.runs.set i new } := by
  have get_ := OrderManager.get_insert orders
  have pending_ := heldAt_set (f := Stage.pending) here new
  have handler : s.handler = .idle := by
    cases eq : s.handler <;> rw [eq] at idle <;> first | rfl | cases idle
  have other : ∀ j o, heldAt Stage.pending s.runs j = some o → o.id ≠ order.id := by
    intro j o pending same
    have stored := (h.pending j o pending).1
    rw [same, fresh] at stored
    cases stored
  refine ⟨?_, ?_, h.late, ?_, ?_, ?_, ?_, ?_, h.nodup, ?_, h.counted⟩
  · intro id o stored
    rw [get_] at stored
    split at stored
    next same => cases stored; exact same.symm
    next => exact h.ids id o stored
  · intro engaged
    rw [idle] at engaged
    cases engaged
  · intro j o pending
    rw [pending_] at pending
    rw [get_]
    split at pending
    next =>
      rw [handed] at pending
      cases pending
      rw [if_pos rfl]
      exact ⟨rfl, state⟩
    next =>
      rw [if_neg (other j o pending)]
      exact h.pending j o pending
  · intro j k o o' hj hk same
    rw [pending_] at hj hk
    split at hj <;> split at hk
    next eq eq' => exact eq.symm.trans eq'
    next =>
      rw [handed] at hj
      cases hj
      exact absurd same.symm (other k o' hk)
    next =>
      rw [handed] at hk
      cases hk
      exact absurd same (other j o hj)
    next => exact h.apart j k o o' hj hk same
  · intro id mem
    obtain ⟨o, stored, received⟩ := h.acked id mem
    have different : id ≠ order.id := by
      rintro rfl
      rw [fresh] at stored
      cases stored
    rw [get_, if_neg different]
    exact ⟨o, stored, received⟩
  · intro o waits
    rw [handler] at waits
    cases waits
  · intro id o tracked ahead stored
    rw [get_] at stored
    split at stored
    next =>
      cases stored
      rw [state]
      intro eq
      cases eq
    next other =>
      refine h.untouched id o ?_ ahead stored
      rcases tracked with mem | ⟨j, o', pending, key⟩
      · exact .inl mem
      · rw [pending_] at pending
        split at pending
        next =>
          rw [handed] at pending
          cases pending
          exact absurd key.symm other
        next => exact .inr ⟨j, o', pending, key⟩
  · intro id _
    refine .inl (.inl ?_)
    show s.handler.beforeSweep
    rw [handler]
    rfl

theorem HaltInv.advance {cfg : StrategyConfig} {s s' : HaltRace} (h : HaltInv s) {i : Nat}
    {env : CallEnv} (taken : s.advance cfg i env = some s') : HaltInv s' := by
  unfold HaltRace.advance at taken
  split at taken
  next => cases taken
  next absent =>
    obtain ⟨old, here, taken⟩ := Option.bind_eq_some_iff.mp taken
    obtain ⟨⟨app, new⟩, advanced, taken⟩ := Option.bind_eq_some_iff.mp taken
    cases taken
    rcases AppState.advance_cases advanced with ⟨idle, quiet⟩ |
      ⟨order, handed, disengaged, state, key, orders⟩
    · have none : (if s.handler.isIdle then [] else (new.pending.map Order.id).toList) = [] := by
        rw [idle]
        split <;> rfl
      rw [none, List.append_nil]
      refine h.quiet quiet ?_
      intro j o pending
      exact (heldAt_set_idle here idle pending).2
    · have before : s.handler.isIdle = true := by
        cases idle : s.handler.isIdle with
        | true => rfl
        | false =>
          have engaged := h.halted idle
          rw [disengaged] at engaged
          cases engaged
      have fresh : s.app.orders.get order.id = none := by
        rw [key]
        simpa using absent
      rw [before, if_pos rfl, List.append_nil]
      exact h.handOver here handed before state fresh (by rw [key]; exact orders)

theorem Order.answered_received {o : Order} (h : o.state = .submitted)
    (response : Except ExecutionError Acknowledgement) (now : DateTime) :
    (o.answered response now).state ≠ .cancelRequested ∧
      (ackedBy o.id response ≠ [] → (o.answered response now).state.Received) := by
  cases response with
  | ok ack =>
    show (o.acknowledge ack now).1.state ≠ _ ∧ (_ → (o.acknowledge ack now).1.state.Received)
    rcases o.acknowledge_state h ack now with eq | eq | eq | eq
    · rw [eq]
      exact ⟨nofun, fun _ => .inl rfl⟩
    · rw [eq]
      exact ⟨nofun, fun _ => .inr (.inl rfl)⟩
    · rw [eq]
      exact ⟨nofun, fun _ => .inr (.inr (.inl rfl))⟩
    · rw [eq]
      exact ⟨nofun, fun _ => .inr (.inr (.inr (.inl rfl)))⟩
  | error e =>
    refine ⟨?_, fun some_ => absurd rfl some_⟩
    show (o.refused _ e now).state ≠ _
    rw [Order.refused_state h e now]
    split
    · exact nofun
    · exact nofun

theorem mem_ackedBy {id j : OrderId} {response : Except ExecutionError Acknowledgement}
    (h : j ∈ ackedBy id response) : j = id := by
  unfold ackedBy at h
  split at h
  · split at h
    · cases h
    · exact List.mem_singleton.mp h
  · cases h

theorem AppState.answer_spec (app : AppState) (signal : CopySignal) (order : Order)
    (response : Except ExecutionError Acknowledgement) (now : DateTime) :
    (app.answer signal order response now).2.pending = none ∧
      (app.answer signal order response now).1.killSwitch = app.killSwitch ∧
      (app.answer signal order response now).1.orders.orders =
        app.orders.orders.insert order.id (order.answered response now) := by
  have orders := app.orders.submitFinish_orders order response now
  unfold answer answered
  simp only
  split
  next eq =>
    obtain ⟨_, rfl⟩ := Prod.mk.inj eq
    exact ⟨rfl, rfl, orders⟩
  next eq =>
    obtain ⟨_, rfl⟩ := Prod.mk.inj eq
    exact ⟨rfl, rfl, orders⟩

theorem HaltInv.answered {s : HaltRace} (h : HaltInv s) {i : Nat} {signal : CopySignal}
    {order : Order} {app : AppState} {new : Stage} (now : DateTime)
    (response : Except ExecutionError Acknowledgement)
    (here : s.runs[i]? = some (.submitting signal order)) (idle : new.pending = none)
    (kill : app.killSwitch = s.app.killSwitch)
    (orders : app.orders.orders =
      s.app.orders.orders.insert order.id (order.answered response now)) :
    HaltInv { s with
      app := app
      runs := s.runs.set i new
      acked := s.acked ++ ackedBy order.id response } := by
  have get_ := OrderManager.get_insert orders
  have waiting : heldAt Stage.pending s.runs i = some order := heldAt_of_get here
  obtain ⟨stored, submitted⟩ := h.pending i order waiting
  obtain ⟨state, received⟩ := Order.answered_received submitted response now
  have pending_ : ∀ j o, heldAt Stage.pending (s.runs.set i new) j = some o →
      heldAt Stage.pending s.runs j = some o ∧ o.id ≠ order.id := by
    intro j o pending
    obtain ⟨apart, before⟩ := heldAt_set_idle here idle pending
    exact ⟨before, fun same => apart (h.apart i j order o waiting before same.symm)⟩
  have before : ∀ id, { s with
      app := app
      runs := s.runs.set i new
      acked := s.acked ++ ackedBy order.id response }.Tracked id → s.Tracked id := by
    rintro id (mem | ⟨j, o, pending, key⟩)
    · rcases List.mem_append.mp mem with old | fresh
      · exact .inl old
      · exact .inr ⟨i, order, waiting, (mem_ackedBy fresh).symm⟩
    · exact .inr ⟨j, o, (pending_ j o pending).1, key⟩
  refine ⟨?_, ?_, h.late, ?_, ?_, ?_, ?_, ?_, h.nodup, ?_, h.counted⟩
  · intro id o held
    rw [get_] at held
    split at held
    next same => cases held; exact (order.answered_id response now).trans same.symm
    next => exact h.ids id o held
  · intro engaged
    rw [kill]
    exact h.halted engaged
  · intro j o pending
    obtain ⟨before, other⟩ := pending_ j o pending
    rw [get_, if_neg other]
    exact h.pending j o before
  · intro j k o o' hj hk
    exact h.apart j k o o' (pending_ j o hj).1 (pending_ k o' hk).1
  · intro id mem
    rw [get_]
    split
    next same =>
      refine ⟨_, rfl, received ?_⟩
      rcases List.mem_append.mp mem with old | new
      · obtain ⟨o, held, state⟩ := h.acked id old
        rw [same, stored] at held
        cases held
        rw [submitted] at state
        rcases state with eq | eq | eq | eq | eq <;> cases eq
      · exact List.ne_nil_of_mem new
    next other =>
      refine h.acked id ?_
      rcases List.mem_append.mp mem with old | new
      · exact old
      · exact absurd (mem_ackedBy new) other
  · intro o waits
    obtain ⟨held, requested, later⟩ := h.awaited o waits
    have other : o.id ≠ order.id := by
      refine OrderManager.ne_of_get held stored ?_
      rw [requested, submitted]
      intro eq
      cases eq
    rw [get_, if_neg other]
    exact ⟨held, requested, later⟩
  · intro id o tracked ahead held
    rw [get_] at held
    split at held
    next => cases held; exact state
    next => exact h.untouched id o (before id tracked) ahead held
  · intro id tracked
    rcases h.swept id (before id tracked) with swept | ⟨o, held, filled⟩
    · exact .inl swept
    · right
      have other : id ≠ order.id := by
        refine OrderManager.ne_of_get held stored ?_
        rw [filled, submitted]
        intro eq
        cases eq
      exact ⟨o, (get_ id).trans ((if_neg other).trans held), filled⟩

theorem HaltInv.answer {s s' : HaltRace} (h : HaltInv s) {i : Nat}
    {response : Except ExecutionError Acknowledgement} {now : DateTime}
    (taken : s.answer i response now = some s') : HaltInv s' := by
  unfold HaltRace.answer at taken
  split at taken
  next signal order here =>
    cases taken
    obtain ⟨idle, kill, orders⟩ := s.app.answer_spec signal order response now
    exact h.answered now response here idle kill orders
  next => cases taken

end CopyTrading
