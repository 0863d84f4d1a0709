import CopyTrading.EventLog
import CopyTrading.ReceiverLog

namespace CopyTrading

open StepRun BoundedBroadcast

/-- Overall system health, assembled from components. -/
structure HealthReport where
  state : HealthState
  components : List ComponentStatus
  mode : AppMode
  at_ : DateTime

/-- The worst component determines the whole. -/
def HealthMonitor.report (h : HealthMonitor) (mode : AppMode) (now : DateTime) : HealthReport where
  state :=
    if h.components.any fun c => c.state = .down then .down
    else if h.components.any fun c => c.state = .degraded then .degraded
    else .healthy
  components := h.components
  mode := mode
  at_ := now

/-- What a dashboard is shown first. -/
structure DashboardSnapshot where
  mode : AppMode
  realMoney : Bool
  killSwitch : KillSwitch
  pnl : PnlSnapshot
  health : HealthReport

/-- A text message to the client. -/
inductive Frame
  | snapshot (at_ : DateTime) (payload : DashboardSnapshot)
  | event (kind : String) (critical : Bool) (at_ : DateTime) (payload : SystemEvent)
  | lagged (at_ : DateTime) (skipped : Nat)

/-- What the client is told of the events that were sent, one by one. -/
def Frame.unroll : Frame → List (Option SystemEvent)
  | .snapshot .. => []
  | .event _ _ _ payload => [some payload]
  | .lagged _ skipped => List.replicate skipped none

def Frame.ofReceived (now : DateTime) : Received SystemEvent → Frame
  | .message _ e => .event e.kind e.isCritical now e
  | .lagged skipped => .lagged now skipped

inductive SocketPhase
  /-- Subscribed, the snapshot is on its way. -/
  | greeting
  | running
  | closed
  deriving DecidableEq

/-- The task behind one connected dashboard, with what was sent since it subscribed and what its
client got. -/
structure DashboardSocket where
  phase : SocketPhase
  bus : Bus SystemEvent
  frames : List Frame

namespace DashboardSocket

def subscribe : DashboardSocket := ⟨.greeting, ⟨[], 0⟩, []⟩

variable (w : DashboardSocket)

/-- A send to a client that is gone ends the task. -/
def put (f : Frame) (delivered : Bool) (next : SocketPhase) : DashboardSocket :=
  if delivered then { w with phase := next, frames := w.frames ++ [f] }
  else { w with phase := .closed }

/-- The receiver of a task that ended is gone. -/
def emit (e : SystemEvent) : DashboardSocket :=
  if w.phase = .closed then w else { w with bus := w.bus.send e }

def greet (payload : DashboardSnapshot) (now : DateTime) (delivered : Bool) :
    Option DashboardSocket :=
  if w.phase = .greeting then some (w.put (.snapshot now payload) delivered .running) else none

def recv (capacity : Nat) (now : DateTime) (delivered : Bool) : Option DashboardSocket :=
  if w.phase = .running then
    (w.bus.recv capacity).map fun (r, bus) =>
      { w with bus := bus }.put (Frame.ofReceived now r) delivered .running
  else none

/-- The client says something, or closes, or its connection fails. -/
def incoming (closes : Bool) : Option DashboardSocket :=
  if w.phase = .running then some (if closes then { w with phase := .closed } else w) else none

end DashboardSocket

/-- The event bus and the dashboards that ever connected, each with its own task. -/
structure DashboardHub where
  sent : List SystemEvent
  sockets : List DashboardSocket

inductive HubEvent
  | emit (e : SystemEvent)
  | connect
  | greet (i : Nat) (payload : DashboardSnapshot) (now : DateTime) (delivered : Bool)
  | recv (i : Nat) (now : DateTime) (delivered : Bool)
  | incoming (i : Nat) (closes : Bool)

namespace DashboardHub

def start : DashboardHub := ⟨[], []⟩

variable (capacity : Nat) (s : DashboardHub)

def update (i : Nat) (f : DashboardSocket → Option DashboardSocket) : Option DashboardHub :=
  match s.sockets[i]? with
  | none => none
  | some w => (f w).map fun w' => { s with sockets := s.sockets.set i w' }

def step : HubEvent → Option DashboardHub
  | .emit e => some ⟨s.sent ++ [e], s.sockets.map fun w => w.emit e⟩
  | .connect => some { s with sockets := s.sockets ++ [.subscribe] }
  | .greet i payload now delivered => s.update i fun w => w.greet payload now delivered
  | .recv i now delivered => s.update i fun w => w.recv capacity now delivered
  | .incoming i closes => s.update i fun w => w.incoming closes

end DashboardHub

/-- What the client was told of the events, one by one. -/
def DashboardSocket.told (w : DashboardSocket) : List (Option SystemEvent) :=
  w.frames.flatMap Frame.unroll

namespace Frame

/-- The envelope says what is in it. -/
def Labelled : Frame → Prop
  | .event kind critical _ payload => kind = payload.kind ∧ critical = payload.isCritical
  | .lagged _ skipped => 0 < skipped
  | .snapshot .. => True

theorem unroll_ofReceived (now : DateTime) (r : Received SystemEvent) :
    (ofReceived now r).unroll = r.unroll := by
  cases r with
  | message => rfl
  | lagged => rfl

end Frame

namespace DashboardSocket

/-- The snapshot comes first, and once. -/
inductive Greeted : List Frame → Prop
  | intro {now : DateTime} {payload : DashboardSnapshot} {frames : List Frame}
      (once : ∀ f ∈ frames, ∀ now' payload', f ≠ .snapshot now' payload') :
      Greeted (.snapshot now payload :: frames)

/-- What holds of the task behind every dashboard. -/
structure Wf (capacity : Nat) (sent : List SystemEvent) (w : DashboardSocket) : Prop where
  labelled : ∀ f ∈ w.frames, f.Labelled
  ungreeted : w.phase = .greeting → w.frames = []
  greeted : w.frames ≠ [] → Greeted w.frames
  running : w.phase = .running → w.frames ≠ []
  copies : Copies ⟨w.bus.sent, w.told.length⟩ w.told
  complete : Complete capacity w.bus w.told
  reads : w.phase ≠ .closed → w.told.length = w.bus.next
  since : w.phase ≠ .closed → w.bus.sent <:+ sent
  placed : w.bus.sent <:+: sent

variable {capacity : Nat} {sent : List SystemEvent} {w w' : DashboardSocket}

theorem Greeted.concat {fs : List Frame} (h : Greeted fs) (now : DateTime)
    (r : Received SystemEvent) : Greeted (fs ++ [Frame.ofReceived now r]) := by
  cases h with
  | intro once =>
    refine .intro ?_
    intro f mem now' payload'
    rcases List.mem_append.mp mem with old | new
    · exact once f old now' payload'
    · rw [List.mem_singleton.mp new]
      cases r with
      | message => exact Frame.noConfusion
      | lagged => exact Frame.noConfusion

theorem labelled_ofReceived {b b' : Bus SystemEvent} {r : Received SystemEvent} (now : DateTime)
    (received : b.recv capacity = some (r, b')) : (Frame.ofReceived now r).Labelled := by
  cases r with
  | message => exact ⟨rfl, rfl⟩
  | lagged skipped =>
    have ahead := (Bus.recv_lagged received).2.1
    have jumped := (Bus.recv_skipped received).1
    show 0 < skipped
    omega

theorem Wf.subscribe : Wf capacity sent subscribe := by
  refine ⟨List.forall_mem_nil _, fun _ => rfl, fun some_ => absurd rfl some_, ?_, .start, ?_,
    fun _ => rfl, fun _ => List.nil_suffix, List.nil_infix⟩
  · intro running
    cases running
  · intro _
    exact List.not_mem_nil

theorem Wf.emit (h : Wf capacity sent w) (e : SystemEvent) :
    Wf capacity (sent ++ [e]) (w.emit e) := by
  unfold DashboardSocket.emit
  split
  next closed =>
    exact ⟨h.labelled, h.ungreeted, h.greeted, h.running, h.copies, h.complete, h.reads,
      fun open_ => absurd closed open_, h.placed.trans (List.prefix_append sent [e]).isInfix⟩
  next open_ =>
    have since : (w.bus.send e).sent <:+ sent ++ [e] := by
      obtain ⟨before, eq⟩ := h.since open_
      refine ⟨before, ?_⟩
      rw [← eq, List.append_assoc]
      rfl
    exact ⟨h.labelled, h.ungreeted, h.greeted, h.running, h.copies.send e, h.complete.send e,
      h.reads, fun _ => since, since.isInfix⟩

/-- Whatever it has received by then, a task may end. -/
theorem Wf.close_on (h : Wf capacity sent w) {b : Bus SystemEvent} (same : b.sent = w.bus.sent) :
    Wf capacity sent { w with phase := .closed, bus := b } := by
  obtain ⟨read, next⟩ := b
  cases same
  refine ⟨h.labelled, ?_, h.greeted, ?_, h.copies, h.complete, ?_, ?_, h.placed⟩
  · intro greeting
    cases greeting
  · intro running
    cases running
  · intro open_
    exact absurd rfl open_
  · intro open_
    exact absurd rfl open_

theorem told_concat (w : DashboardSocket) (b : Bus SystemEvent) (f : Frame) (p : SocketPhase) :
    told ⟨p, b, w.frames ++ [f]⟩ = w.told ++ f.unroll := by
  simp [told]

/-- A frame that agrees with what the receiver has read is handed on, or the task ends. -/
theorem Wf.put (h : Wf capacity sent w) {b : Bus SystemEvent} {f : Frame}
    (open_ : w.phase ≠ .closed) (same : b.sent = w.bus.sent) (labelled : f.Labelled)
    (greeted : Greeted (w.frames ++ [f])) (copies : Copies b (w.told ++ f.unroll))
    (complete : Complete capacity b (w.told ++ f.unroll)) (delivered : Bool) :
    Wf capacity sent ({ w with bus := b }.put f delivered .running) := by
  cases delivered with
  | false => exact h.close_on same
  | true =>
    have since : b.sent <:+ sent := same ▸ h.since open_
    have told := told_concat w b f .running
    show Wf capacity sent ⟨.running, b, w.frames ++ [f]⟩
    refine ⟨?_, ?_, fun _ => greeted, ?_, ?_, ?_, ?_, fun _ => since, since.isInfix⟩
    · intro g mem
      rcases List.mem_append.mp mem with old | new
      · exact h.labelled g old
      · rw [List.mem_singleton.mp new]
        exact labelled
    · intro greeting
      cases greeting
    · intro _
      exact List.append_ne_nil_of_right_ne_nil _ (List.cons_ne_nil _ _)
    · rw [told, copies.length]
      exact copies
    · rw [told]
      exact complete
    · intro _
      rw [told]
      exact copies.length

/-- The bus of a task that has not ended is where its client has been told of everything. -/
theorem Wf.copies_bus (h : Wf capacity sent w) (open_ : w.phase ≠ .closed) :
    Copies w.bus w.told := by
  have copies := h.copies
  rw [h.reads open_] at copies
  exact copies

theorem Wf.greet (h : Wf capacity sent w) {payload : DashboardSnapshot} {now : DateTime}
    {delivered : Bool} (taken : w.greet payload now delivered = some w') :
    Wf capacity sent w' := by
  unfold DashboardSocket.greet at taken
  split at taken
  next greeting =>
    cases taken
    have open_ : w.phase ≠ .closed := by simp [greeting]
    have first : Greeted (w.frames ++ [.snapshot now payload]) := by
      rw [h.ungreeted greeting]
      exact .intro (List.forall_mem_nil _)
    refine h.put (f := .snapshot now payload) open_ rfl trivial first ?_ ?_ delivered
    · rw [Frame.unroll, List.append_nil]
      exact h.copies_bus open_
    · rw [Frame.unroll, List.append_nil]
      exact h.complete
  next => cases taken

theorem Wf.recv (h : Wf capacity sent w) {now : DateTime} {delivered : Bool}
    (taken : w.recv capacity now delivered = some w') : Wf capacity sent w' := by
  unfold DashboardSocket.recv at taken
  split at taken
  next running =>
    obtain ⟨⟨r, b⟩, received, eq⟩ := Option.map_eq_some_iff.mp taken
    cases eq
    have open_ : w.phase ≠ .closed := by simp [running]
    have same : b.sent = w.bus.sent := Bus.recv_sent received
    have greeted := (h.greeted (h.running running)).concat now r
    refine h.put open_ same (labelled_ofReceived now received) greeted ?_ ?_ delivered
    · rw [Frame.unroll_ofReceived]
      exact (h.copies_bus open_).recv received
    · rw [Frame.unroll_ofReceived]
      exact h.complete.recv received
  next => cases taken

theorem Wf.incoming (h : Wf capacity sent w) {closes : Bool}
    (taken : w.incoming closes = some w') : Wf capacity sent w' := by
  unfold DashboardSocket.incoming at taken
  split at taken
  next =>
    cases taken
    cases closes with
    | false => exact h
    | true => exact h.close_on rfl
  next => cases taken

end DashboardSocket

namespace DashboardHub

variable {capacity : Nat} {s t : DashboardHub}

/-- What a step does to a dashboard's task keeps what holds of it. -/
theorem update_wf {sent : List SystemEvent} {i : Nat}
    {f : DashboardSocket → Option DashboardSocket}
    (keeps : ∀ w w', w.Wf capacity sent → f w = some w' → w'.Wf capacity sent)
    (h : ∀ w ∈ s.sockets, w.Wf capacity sent) (taken : s.update i f = some t) :
    t.sent = s.sent ∧ ∀ w ∈ t.sockets, w.Wf capacity sent := by
  unfold update at taken
  split at taken
  next => cases taken
  next w here =>
    obtain ⟨w', moved, eq⟩ := Option.map_eq_some_iff.mp taken
    cases eq
    refine ⟨rfl, ?_⟩
    intro v mem
    rcases List.mem_or_eq_of_mem_set mem with old | new
    · exact h v old
    · rw [new]
      exact keeps w w' (h w (List.mem_of_getElem? here)) moved

def Wf (capacity : Nat) (s : DashboardHub) : Prop := ∀ w ∈ s.sockets, w.Wf capacity s.sent

theorem Wf.step (h : s.Wf capacity) {a : HubEvent} (taken : s.step capacity a = some t) :
    t.Wf capacity := by
  have updated {i : Nat} {f : DashboardSocket → Option DashboardSocket}
      (keeps : ∀ w w', w.Wf capacity s.sent → f w = some w' → w'.Wf capacity s.sent)
      (taken : s.update i f = some t) : t.Wf capacity := by
    obtain ⟨same, kept⟩ := update_wf keeps h taken
    unfold Wf
    rw [same]
    exact kept
  cases a with
  | emit e =>
    cases taken
    intro w mem
    obtain ⟨v, old, eq⟩ := List.mem_map.mp mem
    rw [← eq]
    exact (h v old).emit e
  | connect =>
    cases taken
    intro w mem
    rcases List.mem_append.mp mem with old | new
    · exact h w old
    · rw [List.mem_singleton.mp new]
      exact .subscribe
  | greet i payload now delivered => exact updated (fun _ _ wf moved => wf.greet moved) taken
  | recv i now delivered => exact updated (fun _ _ wf moved => wf.recv moved) taken
  | incoming i closes => exact updated (fun _ _ wf moved => wf.incoming moved) taken

/-- A dashboard may skip but is never misled: after its snapshot it is given a copy of the events
since it subscribed, in their order, in which exactly the announced gaps are blank. Nothing is blank
unless more events were sent than the bus holds, and nothing is left out once it is idle. -/
theorem frames_account {es : List HubEvent} (run : Run (step capacity) Anywhere start es s)
    {i : Nat} {w : DashboardSocket} (here : s.sockets[i]? = some w) :
    (w.frames ≠ [] → DashboardSocket.Greeted w.frames) ∧
      (∀ f ∈ w.frames, f.Labelled) ∧
      w.bus.sent <:+: s.sent ∧ (w.phase ≠ .closed → w.bus.sent <:+ s.sent) ∧
      w.told.length ≤ w.bus.sent.length ∧
      (∀ (j : Nat) e, w.told[j]? = some (some e) → w.bus.sent[j]? = some e) ∧
      (w.bus.sent.length ≤ capacity → none ∉ w.told) ∧
      (w.phase = .running → w.bus.recv capacity = none →
        w.told.length = w.bus.sent.length) := by
  have wf : s.Wf capacity := by
    refine run.keeps (I := Wf capacity) ?_ (List.forall_mem_nil _)
    intro t a u kept _ taken
    exact kept.step taken
  have h := wf w (List.mem_of_getElem? here)
  refine ⟨h.greeted, h.labelled, h.placed, h.since, h.copies.within, h.copies.entry, h.complete, ?_⟩
  intro running idle
  have open_ : w.phase ≠ .closed := by simp [running]
  exact (h.copies_bus open_).length_of_idle idle

/-- A dashboard that is a message behind on a bus that holds one. -/
def oneBehind : List HubEvent :=
  [.connect, .emit (.killSwitchReset "api" 0),
    .greet 0 ⟨.paper, false, .new, (Portfolio.new 0 0).snapshot 0 0,
      HealthMonitor.new.report .paper 0⟩
      0 true,
    .emit (.killSwitchReset "api" 1), .recv 0 1 true, .recv 0 1 true]

theorem frames_account_oneBehind : ∃ s w, Run (step 1) Anywhere start oneBehind s ∧
    s.sockets[0]? = some w ∧ w.told = [none, some (.killSwitchReset "api" 1)] ∧
    w.told.length = w.bus.sent.length := by
  have ran : (oneBehind.foldlM (fun s e => if Anywhere s e then step 1 s e else none) start).any
      (fun s => s.sockets[0]?.any fun w => w.phase = .running ∧ (w.bus.recv 1).isNone ∧
        w.told = [none, some (.killSwitchReset "api" 1)]) = true := by decide +kernel
  obtain ⟨s, executed, connected⟩ := (Option.any_eq_true _ _).mp ran
  obtain ⟨w, here, seen⟩ := (Option.any_eq_true _ _).mp connected
  obtain ⟨running, idle, told⟩ := of_decide_eq_true seen
  have run := run_of_foldlM executed
  obtain ⟨_, _, _, _, _, _, _, caughtUp⟩ := frames_account run here
  exact ⟨s, w, run, here, told, caughtUp running (Option.isNone_iff_eq_none.mp idle)⟩

end DashboardHub

end CopyTrading
