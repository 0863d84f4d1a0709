import CopyTrading.BoundedBroadcast
import CopyTrading.OutcomeEvents

namespace CopyTrading

open StepRun BoundedBroadcast

namespace SystemEvent

/-- Stable topic name. -/
def kind : SystemEvent → String
  | .marketUpdated .. => "market_updated"
  | .sourceTradeDetected .. => "source_trade_detected"
  | .sourceTradeSkipped .. => "source_trade_skipped"
  | .copySignalGenerated .. => "copy_signal_generated"
  | .orderRiskApproved .. => "order_risk_approved"
  | .orderRiskRejected .. => "order_risk_rejected"
  | .orderSubmitted .. => "order_submitted"
  | .orderAcknowledged .. => "order_acknowledged"
  | .orderPartiallyFilled .. => "order_partially_filled"
  | .orderFilled .. => "order_filled"
  | .orderCancelled .. => "order_cancelled"
  | .orderRejected .. => "order_rejected"
  | .orderStateChanged .. => "order_state_changed"
  | .positionUpdated .. => "position_updated"
  | .pnlUpdated .. => "pnl_updated"
  | .riskLimitBreached .. => "risk_limit_breached"
  | .killSwitchActivated .. => "kill_switch_activated"
  | .killSwitchReset .. => "kill_switch_reset"
  | .reconciliationMismatch .. => "reconciliation_mismatch"
  | .healthChanged .. => "health_changed"
  | .feedDisconnected .. => "feed_disconnected"
  | .feedReconnected .. => "feed_reconnected"

/-- Events an operator must not miss. -/
def isCritical : SystemEvent → Bool
  | .riskLimitBreached .. | .killSwitchActivated .. | .reconciliationMismatch ..
  | .feedDisconnected .. => true
  | _ => false

/-- What the event log keeps of the bus. -/
def isLogged (e : SystemEvent) : Bool :=
  e.isCritical || e.kind ∈ ["kill_switch_reset", "health_changed", "feed_reconnected"]

end SystemEvent

structure SystemEventRow where
  kind : String
  critical : Bool
  payload : SystemEvent
  deriving DecidableEq

def SystemEvent.row (e : SystemEvent) : SystemEventRow := ⟨e.kind, e.isCritical, e⟩

/-- The event log's task between two of its steps, with the bus it reads and the table it writes.
An event is known by its position on the bus. -/
structure EventLog where
  bus : Bus SystemEvent
  /-- How many events had been sent when shutdown was signalled. -/
  shutdownAt : Option Nat
  writing : Option (Nat × SystemEvent)
  stopped : Bool
  rows : List (Nat × SystemEventRow)

inductive LogStep
  /-- Any other task sends. -/
  | send (e : SystemEvent)
  | recv
  /-- The insert that the task awaits succeeds. -/
  | inserted
  | shutdown
  /-- The task sees the shutdown and returns, whatever is left to read. -/
  | stop

namespace EventLog

def start : EventLog := ⟨⟨[], 0⟩, none, none, false, []⟩

/-- The task is at its `select!`. -/
def Idle (s : EventLog) : Prop := s.stopped = false ∧ s.writing = none

instance (s : EventLog) : Decidable s.Idle := inferInstanceAs (Decidable (_ ∧ _))

def step (capacity : Nat) (s : EventLog) : LogStep → Option EventLog
  | .send e => some { s with bus := s.bus.send e }
  | .recv =>
    if s.Idle then
      match s.bus.recv capacity with
      | none => none
      | some (.lagged _, bus) => some { s with bus := bus }
      | some (.message i e, bus) =>
        some { s with bus := bus, writing := if e.isLogged then some (i, e) else none }
    else none
  | .inserted =>
    match s.writing with
    | some (i, e) => some { s with writing := none, rows := s.rows ++ [(i, e.row)] }
    | none => none
  | .shutdown =>
    if s.shutdownAt = none then some { s with shutdownAt := some s.bus.sent.length } else none
  | .stop => if s.Idle ∧ s.shutdownAt ≠ none then some { s with stopped := true } else none

/-- A critical event that was sent before the shutdown. -/
structure Owed (s : EventLog) (i : Nat) (e : SystemEvent) : Prop where
  sent : s.bus.sent[i]? = some e
  critical : e.isCritical = true
  before : ∀ n, s.shutdownAt = some n → i < n

def Recorded (s : EventLog) : Prop := ∀ i e, s.Owed i e → s.rows.count (i, e.row) = 1

/-- The task has returned, or waits with everything read and written. -/
def Settled (s : EventLog) : Prop :=
  s.writing = none ∧ (s.stopped = true ∨ s.bus.next = s.bus.sent.length)

/-- The step takes an unread message away from the task. -/
def Loses (capacity : Nat) (s : EventLog) (a : LogStep) (i : Nat) : Prop :=
  s.bus.Pending capacity i ∧
    match a with
    | .send _ => i + capacity = s.bus.sent.length
    | .stop => True
    | _ => False

def Spares (capacity : Nat) (s : EventLog) (a : LogStep) : Prop :=
  ∀ i e, s.Owed i e → ¬ s.Loses capacity a i

/-- The rows written, and the one being written. -/
def taken (s : EventLog) : List (Nat × SystemEventRow) :=
  s.rows ++ (s.writing.map fun w => (w.1, w.2.row)).toList

structure Wf (s : EventLog) : Prop where
  within : s.bus.next ≤ s.bus.sent.length
  ascending : s.taken.Pairwise fun r t => r.1 < t.1
  read : ∀ r ∈ s.taken, r.1 < s.bus.next
  closed : ∀ n, s.shutdownAt = some n → n ≤ s.bus.sent.length
  stops : s.stopped = true → s.shutdownAt ≠ none

/-- Whatever is owed has been taken, or can still be received. -/
def Kept (capacity : Nat) (s : EventLog) : Prop :=
  ∀ i e, s.Owed i e → (i, e.row) ∈ s.taken ∨ s.stopped = false ∧ s.bus.Pending capacity i

variable {capacity : Nat} {s t u : EventLog} {a : LogStep} {i : Nat} {e : SystemEvent}

theorem start_wf : start.Wf := by
  refine ⟨le_rfl, .nil, fun _ mem => absurd mem List.not_mem_nil, ?_, ?_⟩
  · intro n none_
    cases none_
  · intro stopped
    cases stopped

theorem start_kept : start.Kept capacity := by
  intro i e owed
  have none_ := owed.sent
  simp [start] at none_

theorem taken_of_writing (idle : s.writing = none) : s.taken = s.rows := by
  unfold taken
  rw [idle, Option.map_none, Option.toList_none, List.append_nil]

/-- What `recv` does to the task. -/
theorem recv_cases (h : s.step capacity .recv = some t) : s.Idle ∧
    ((∃ n bus, s.bus.recv capacity = some (.lagged n, bus) ∧ t = { s with bus := bus }) ∨
    ∃ i e bus, s.bus.recv capacity = some (.message i e, bus) ∧
      t = { s with bus := bus, writing := if e.isLogged then some (i, e) else none }) := by
  simp only [step] at h
  split at h
  next idle =>
    refine ⟨idle, ?_⟩
    split at h
    next => cases h
    next n bus lagged =>
      cases h
      exact .inl ⟨n, bus, lagged, rfl⟩
    next i e bus message =>
      cases h
      exact .inr ⟨i, e, bus, message, rfl⟩
  next => cases h

/-- What is taken by receiving a message is that message, if it is logged. -/
theorem taken_recv (idle : s.writing = none) (bus : Bus SystemEvent) (i : Nat) (e : SystemEvent) :
    taken { s with bus := bus, writing := if e.isLogged then some (i, e) else none } =
      s.taken ++ if e.isLogged then [(i, e.row)] else [] := by
  rw [taken_of_writing idle]
  unfold taken
  cases e.isLogged with
  | true => rfl
  | false => rfl

theorem taken_inserted {w : Nat × SystemEvent} (writing : s.writing = some w) :
    taken { s with writing := none, rows := s.rows ++ [(w.1, w.2.row)] } = s.taken := by
  unfold taken
  rw [writing]
  simp

theorem Wf.send (h : s.Wf) (e : SystemEvent) : Wf { s with bus := s.bus.send e } := by
  have length : (s.bus.send e).sent.length = s.bus.sent.length + 1 := by simp [Bus.send]
  refine ⟨?_, h.ascending, h.read, ?_, h.stops⟩
  · show s.bus.next ≤ (s.bus.send e).sent.length
    rw [length]
    exact h.within.trans (Nat.le_succ _)
  · intro n at_
    show n ≤ (s.bus.send e).sent.length
    rw [length]
    exact (h.closed n at_).trans (Nat.le_succ _)

theorem Wf.lagged (h : s.Wf) {n : Nat} {bus : Bus SystemEvent}
    (lagged : s.bus.recv capacity = some (.lagged n, bus)) : Wf { s with bus := bus } := by
  obtain ⟨sent, further, within, _⟩ := Bus.recv_lagged lagged
  refine ⟨?_, h.ascending, fun r mem => (h.read r mem).trans further, ?_, h.stops⟩
  · show bus.next ≤ bus.sent.length
    rw [sent]
    exact within
  · intro n at_
    show n ≤ bus.sent.length
    rw [sent]
    exact h.closed n at_

/-- A message is taken behind everything read before it. -/
theorem Wf.received (h : s.Wf) (idle : s.writing = none) {bus : Bus SystemEvent}
    (message : s.bus.recv capacity = some (.message i e, bus)) :
    Wf { s with bus := bus, writing := if e.isLogged then some (i, e) else none } := by
  obtain ⟨here, held, sent, further, _, _⟩ := Bus.recv_message message
  have present : i < s.bus.sent.length := (List.getElem?_eq_some_iff.mp held).1
  refine ⟨?_, ?_, ?_, ?_, h.stops⟩
  · show bus.next ≤ bus.sent.length
    rw [sent, further]
    exact present
  · rw [taken_recv idle]
    refine List.pairwise_append.mpr ⟨h.ascending, ?_, ?_⟩
    · split
      · exact List.pairwise_singleton _ _
      · exact .nil
    · intro r mem w mem'
      split at mem'
      · rw [List.mem_singleton.mp mem', here]
        exact h.read r mem
      · cases mem'
  · intro r mem
    show r.1 < bus.next
    rw [taken_recv idle] at mem
    rw [further]
    rcases List.mem_append.mp mem with old | new
    · have read := h.read r old
      omega
    · split at new
      · rw [List.mem_singleton.mp new]
        exact Nat.lt_succ_self i
      · cases new
  · intro n at_
    show n ≤ bus.sent.length
    rw [sent]
    exact h.closed n at_

theorem Wf.step (h : s.Wf) (moved : s.step capacity a = some t) : t.Wf := by
  cases a with
  | send e =>
    cases moved
    exact h.send e
  | recv =>
    obtain ⟨idle, ⟨n, bus, lagged, rfl⟩ | ⟨i, e, bus, message, rfl⟩⟩ := recv_cases moved
    · exact h.lagged lagged
    · exact h.received idle.2 message
  | inserted =>
    simp only [EventLog.step] at moved
    split at moved
    next i e writing =>
      cases moved
      have same := taken_inserted writing
      exact ⟨h.within, same ▸ h.ascending, same ▸ h.read, h.closed, h.stops⟩
    next => cases moved
  | shutdown =>
    simp only [EventLog.step] at moved
    split at moved
    next =>
      cases moved
      refine ⟨h.within, h.ascending, h.read, ?_, fun _ none_ => by cases none_⟩
      intro n at_
      cases at_
      exact le_rfl
    next => cases moved
  | stop =>
    simp only [EventLog.step] at moved
    split at moved
    next ready =>
      cases moved
      exact ⟨h.within, h.ascending, h.read, h.closed, fun _ => ready.2⟩
    next => cases moved

/-- An event that is pending has not been taken. -/
theorem Wf.not_pending (h : s.Wf) {r : SystemEventRow} (mem : (i, r) ∈ s.taken) :
    ¬ s.bus.Pending capacity i := by
  intro pending
  exact absurd pending.1 (not_le.mpr (h.read _ mem))

theorem owed_send_iff (e' : SystemEvent) (old : i < s.bus.sent.length) :
    Owed { s with bus := s.bus.send e' } i e ↔ s.Owed i e := by
  have same : (s.bus.send e').sent[i]? = s.bus.sent[i]? := List.getElem?_append_left old
  constructor
  · rintro ⟨sent, critical, before⟩
    exact ⟨same ▸ sent, critical, before⟩
  · rintro ⟨sent, critical, before⟩
    exact ⟨same ▸ sent, critical, before⟩

theorem Owed.lt (h : s.Owed i e) : i < s.bus.sent.length := (List.getElem?_eq_some_iff.mp h.sent).1

theorem isLogged_of_critical (critical : e.isCritical = true) : e.isLogged = true := by
  unfold SystemEvent.isLogged
  rw [critical, Bool.true_or]

theorem kept_send_iff (pos : 0 < capacity) (h : s.Wf) (e' : SystemEvent) :
    Kept capacity { s with bus := s.bus.send e' } ↔
      s.Kept capacity ∧ s.Spares capacity (.send e') := by
  constructor
  · intro kept
    refine ⟨?_, ?_⟩
    · intro i e owed
      rcases kept i e ((owed_send_iff e' owed.lt).mpr owed) with mem | ⟨runs, pending⟩
      · exact .inl mem
      · exact .inr ⟨runs, (Bus.pending_send_iff.mp pending).1⟩
    · rintro i e owed ⟨pending, overwritten⟩
      rcases kept i e ((owed_send_iff e' owed.lt).mpr owed) with mem | ⟨_, pending'⟩
      · exact h.not_pending mem pending
      · exact (Bus.pending_send_iff.mp pending').2 overwritten
  · rintro ⟨kept, spares⟩ i e owed
    have length : (s.bus.send e').sent.length = s.bus.sent.length + 1 := by simp [Bus.send]
    have bound := owed.lt
    rw [length] at bound
    rcases Nat.lt_succ_iff_lt_or_eq.mp bound with old | new
    · have owed' := (owed_send_iff e' old).mp owed
      rcases kept i e owed' with mem | ⟨runs, pending⟩
      · exact .inl mem
      · refine .inr ⟨runs, Bus.pending_send_iff.mpr ⟨pending, ?_⟩⟩
        exact fun overwritten => spares i e owed' ⟨pending, overwritten⟩
    · right
      rw [new]
      refine ⟨?_, Bus.pending_sent pos h.within⟩
      -- nothing sent after the shutdown is owed
      cases stopped : s.stopped with
      | false => rfl
      | true =>
        obtain ⟨n, at_⟩ := Option.ne_none_iff_exists'.mp (h.stops stopped)
        have before := owed.before n at_
        have closed := h.closed n at_
        omega

/-- What is owed is fixed by what was sent, and by when the shutdown came. -/
theorem owed_congr (sent : t.bus.sent = s.bus.sent) (shutdown : t.shutdownAt = s.shutdownAt) :
    t.Owed i e ↔ s.Owed i e := by
  constructor
  · intro owed
    exact ⟨sent ▸ owed.sent, owed.critical, shutdown ▸ owed.before⟩
  · intro owed
    exact ⟨sent.symm ▸ owed.sent, owed.critical, shutdown.symm ▸ owed.before⟩

theorem kept_lagged_iff {n : Nat} {bus : Bus SystemEvent}
    (lagged : s.bus.recv capacity = some (.lagged n, bus)) :
    Kept capacity { s with bus := bus } ↔ s.Kept capacity := by
  obtain ⟨sent, _, _, pending⟩ := Bus.recv_lagged lagged
  refine forall_congr' fun i => forall_congr' fun e => imp_congr (owed_congr sent rfl) ?_
  exact or_congr Iff.rfl (and_congr Iff.rfl (pending i))

theorem kept_received_iff (idle : s.Idle) {j : Nat} {e' : SystemEvent} {bus : Bus SystemEvent}
    (message : s.bus.recv capacity = some (.message j e', bus)) :
    Kept capacity { s with bus := bus, writing := if e'.isLogged then some (j, e') else none } ↔
      s.Kept capacity := by
  obtain ⟨_, held, sent, _, _, pending⟩ := Bus.recv_message message
  refine forall_congr' fun i => forall_congr' fun e =>
    imp_congr_ctx (owed_congr sent rfl) fun owed => ?_
  rw [taken_recv idle.2, List.mem_append]
  constructor
  · rintro ((old | new) | ⟨runs, later⟩)
    · exact .inl old
    · refine .inr ⟨idle.1, (pending i).mpr (.inl ?_)⟩
      split at new
      · exact congrArg Prod.fst (List.mem_singleton.mp new)
      · cases new
    · exact .inr ⟨runs, (pending i).mpr (.inr later)⟩
  · rintro (old | ⟨runs, here⟩)
    · exact .inl (.inl old)
    · rcases (pending i).mp here with rfl | later
      · left
        right
        have same := owed.sent
        rw [held] at same
        cases same
        rw [if_pos (isLogged_of_critical owed.critical)]
        exact List.mem_singleton_self _
      · exact .inr ⟨runs, later⟩

theorem kept_recv_iff (moved : s.step capacity .recv = some t) :
    t.Kept capacity ↔ s.Kept capacity := by
  obtain ⟨idle, ⟨n, bus, lagged, rfl⟩ | ⟨j, e', bus, message, rfl⟩⟩ := recv_cases moved
  · exact kept_lagged_iff lagged
  · exact kept_received_iff idle message

/-- Whatever is owed stays kept exactly if the step spares it. -/
theorem kept_step_iff (pos : 0 < capacity) (h : s.Wf) (moved : s.step capacity a = some t) :
    t.Kept capacity ↔ s.Kept capacity ∧ s.Spares capacity a := by
  cases a with
  | send e' =>
    cases moved
    exact kept_send_iff pos h e'
  | recv =>
    rw [kept_recv_iff moved]
    exact (and_iff_left fun _ _ _ loses => loses.2).symm
  | inserted =>
    simp only [step] at moved
    split at moved
    next j e' writing =>
      cases moved
      have same := taken_inserted writing
      have spares : s.Spares capacity .inserted := fun _ _ _ loses => loses.2
      rw [and_iff_left spares]
      refine forall_congr' fun i => forall_congr' fun e => imp_congr (owed_congr rfl rfl) ?_
      rw [same]
    next => cases moved
  | shutdown =>
    simp only [step] at moved
    split at moved
    next open_ =>
      cases moved
      have spares : s.Spares capacity .shutdown := fun _ _ _ loses => loses.2
      rw [and_iff_left spares]
      refine forall_congr' fun i => forall_congr' fun e => imp_congr ?_ Iff.rfl
      constructor
      · intro owed
        refine ⟨owed.sent, owed.critical, ?_⟩
        intro n at_
        rw [open_] at at_
        cases at_
      · intro owed
        refine ⟨owed.sent, owed.critical, ?_⟩
        intro n at_
        cases at_
        exact owed.lt
    next => cases moved
  | stop =>
    simp only [step] at moved
    split at moved
    next ready =>
      cases moved
      have owes : ∀ i e, Owed { s with stopped := true } i e ↔ s.Owed i e := by
        intro i e
        exact ⟨fun o => ⟨o.sent, o.critical, o.before⟩, fun o => ⟨o.sent, o.critical, o.before⟩⟩
      constructor
      · intro kept
        have all : ∀ i e, s.Owed i e → (i, e.row) ∈ s.taken := by
          intro i e owed
          rcases kept i e ((owes i e).mpr owed) with mem | ⟨runs, _⟩
          · exact mem
          · cases runs
        refine ⟨fun i e owed => .inl (all i e owed), ?_⟩
        rintro i e owed ⟨pending, _⟩
        exact h.not_pending (all i e owed) pending
      · rintro ⟨kept, spares⟩ i e owed
        rcases kept i e ((owes i e).mp owed) with mem | ⟨_, pending⟩
        · exact .inl mem
        · exact absurd ⟨pending, trivial⟩ (spares i e ((owes i e).mp owed))
    next => cases moved

theorem kept_run_iff (pos : 0 < capacity) {as : List LogStep}
    (h : Run (step capacity) Anywhere start as s) :
    s.Kept capacity ↔ Run (step capacity) (Spares capacity) start as s :=
  h.iff_admitted (fun _ _ _ formed => formed.step) (fun _ _ _ formed => kept_step_iff pos formed)
    start_wf start_kept

/-- In a settled state, whatever is kept has its one row. -/
theorem recorded_iff_kept (h : s.Wf) (settled : s.Settled) : s.Recorded ↔ s.Kept capacity := by
  have rows := taken_of_writing settled.1
  constructor
  · intro recorded i e owed
    left
    rw [rows]
    have one := recorded i e owed
    exact List.count_pos_iff.mp (one ▸ Nat.one_pos)
  · intro kept i e owed
    have mem : (i, e.row) ∈ s.rows := by
      rcases kept i e owed with mem | ⟨runs, pending⟩
      · exact rows ▸ mem
      · rcases settled.2 with stopped | caught
        · rw [runs] at stopped
          cases stopped
        · have present := owed.lt
          have unread := pending.1
          omega
    have distinct : s.rows.Nodup := by
      have ascending := h.ascending
      rw [rows] at ascending
      refine ascending.imp ?_
      intro r w less same
      rw [same] at less
      exact absurd less (lt_irrefl _)
    exact List.count_eq_one_of_mem distinct mem

/-- A bounded channel of this capacity, as `main` opens it. -/
def busCapacity : Nat := 4096

/-- Once the task has settled, every critical event from before the shutdown has its one row
exactly if no step took one from it unread. -/
theorem critical_recorded_iff {as : List LogStep} (h : Run (step busCapacity) Anywhere start as s)
    (settled : s.Settled) :
    s.Recorded ↔ Run (step busCapacity) (Spares busCapacity) start as s := by
  have formed := h.keeps (fun _ _ _ formed _ => formed.step) start_wf
  exact (recorded_iff_kept formed settled).trans (kept_run_iff (by decide) h)

/-- The kill switch goes off, and the task is quick enough. -/
def sampleLog : List LogStep := [.send (.killSwitchActivated "manual" "api" 0), .recv, .inserted]

def sampleLogged : EventLog :=
  ⟨⟨[.killSwitchActivated "manual" "api" 0], 1⟩, none, none, false,
    [(0, SystemEvent.row (.killSwitchActivated "manual" "api" 0))]⟩

theorem critical_recorded_sample : sampleLogged.Recorded := by
  have sent : Run (step busCapacity) (Spares busCapacity) start
      [.send (.killSwitchActivated "manual" "api" 0)]
      ⟨⟨[.killSwitchActivated "manual" "api" 0], 0⟩, none, none, false, []⟩ := by
    refine Run.single ?_ rfl
    intro i e owed
    have none_ := owed.sent
    simp [start] at none_
  have received := sent.snoc (a := .recv) (fun _ _ _ loses => loses.2) rfl
  have run : Run (step busCapacity) (Spares busCapacity) start sampleLog sampleLogged :=
    received.snoc (fun _ _ _ loses => loses.2) rfl
  exact (critical_recorded_iff (run.mono fun _ _ _ => trivial) ⟨rfl, .inr rfl⟩).mpr run

theorem run_sends (capacity : Nat) (s : EventLog) (es : List SystemEvent) :
    Run (step capacity) Anywhere s (es.map .send)
      { s with bus := { s.bus with sent := s.bus.sent ++ es } } := by
  induction es using List.reverseRecOn with
  | nil =>
    rw [List.append_nil]
    exact .nil
  | append_singleton es e ih =>
    rw [List.map_append, ← List.append_assoc]
    exact ih.snoc trivial rfl

/-- Events that are not logged are read one after the other. -/
theorem run_recvs {capacity : Nat} (idle : s.Idle) (n : Nat)
    (routine : ∀ i, s.bus.next ≤ i → i < s.bus.next + n → s.bus.oldest capacity ≤ i ∧
      ∃ e, s.bus.sent[i]? = some e ∧ e.isLogged = false) :
    Run (step capacity) Anywhere s (List.replicate n .recv)
      { s with bus := { s.bus with next := s.bus.next + n } } := by
  induction n with
  | zero => exact .nil
  | succ n ih =>
    have before := ih fun i low high => routine i low (by omega)
    obtain ⟨kept, e, held, skipped⟩ := routine (s.bus.next + n) (by omega) (by omega)
    have received : Bus.recv capacity { s.bus with next := s.bus.next + n } =
        some (.message (s.bus.next + n) e, { s.bus with next := s.bus.next + n + 1 }) :=
      Bus.recv_of_pending held kept
    rw [List.replicate_succ']
    refine before.snoc trivial ?_
    have idle' : Idle { s with bus := { s.bus with next := s.bus.next + n } } := idle
    simp only [step, if_pos idle', received, skipped, Bool.false_eq_true, if_false]
    rw [← idle.2]
    rfl

/-- The kill switch goes off, and the whole capacity of routine events follows at once. -/
def floodedLog : List LogStep :=
  ((.killSwitchActivated "manual" "api" 0 ::
      List.replicate busCapacity (.orderSubmitted ⟨0⟩ ⟨0⟩ 0)).map .send ++ [.recv]) ++
    List.replicate busCapacity .recv

/-- The task lags behind by one, which was the event that mattered; it has then read everything
else, and its table is empty. -/
theorem critical_lost : ¬ ∀ (as : List LogStep) (s : EventLog),
    Run (step busCapacity) Anywhere start as s → s.Settled → s.Recorded := by
  intro claim
  let sent : List SystemEvent := .killSwitchActivated "manual" "api" 0 ::
    List.replicate busCapacity (.orderSubmitted ⟨0⟩ ⟨0⟩ 0)
  have length : sent.length = busCapacity + 1 := by simp [sent]
  have flooded := run_sends busCapacity start sent
  have oldest : Bus.oldest busCapacity ⟨sent, 0⟩ = 1 := by
    show sent.length - busCapacity = 1
    omega
  have lagged : Bus.recv busCapacity ⟨sent, 0⟩ = some (.lagged 1, ⟨sent, 1⟩) := by
    unfold Bus.recv
    rw [oldest]
    rfl
  have behind : step busCapacity ⟨⟨sent, 0⟩, none, none, false, []⟩ .recv =
      some ⟨⟨sent, 1⟩, none, none, false, []⟩ := by
    have idle : Idle ⟨⟨sent, 0⟩, none, none, false, []⟩ := ⟨rfl, rfl⟩
    simp only [step, if_pos idle, lagged]
  have jumped := flooded.snoc trivial behind
  have routine : ∀ i, 1 ≤ i → i < 1 + busCapacity → Bus.oldest busCapacity ⟨sent, 1⟩ ≤ i ∧
      ∃ e, sent[i]? = some e ∧ e.isLogged = false := by
    intro i low high
    refine ⟨oldest.trans_le low, .orderSubmitted ⟨0⟩ ⟨0⟩ 0, ?_, rfl⟩
    obtain ⟨j, rfl⟩ := Nat.exists_eq_add_of_le' low
    show sent[j + 1]? = _
    rw [List.getElem?_cons_succ, List.getElem?_replicate, if_pos]
    omega
  have rest := run_recvs (s := ⟨⟨sent, 1⟩, none, none, false, []⟩) ⟨rfl, rfl⟩ busCapacity routine
  have whole : Run (step busCapacity) Anywhere start floodedLog _ := jumped.append rest
  have settled : Settled ⟨⟨sent, 1 + busCapacity⟩, none, none, false, []⟩ := by
    refine ⟨rfl, .inr ?_⟩
    show 1 + busCapacity = sent.length
    omega
  have owed : Owed ⟨⟨sent, 1 + busCapacity⟩, none, none, false, []⟩ 0
      (.killSwitchActivated "manual" "api" 0) := by
    refine ⟨rfl, rfl, ?_⟩
    intro n none_
    cases none_
  have one := claim _ _ whole settled 0 _ owed
  simp at one

end EventLog

end CopyTrading
