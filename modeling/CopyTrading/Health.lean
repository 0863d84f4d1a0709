import CopyTrading.Clock

namespace CopyTrading

inductive HealthState
  | healthy
  | degraded
  | down
  deriving DecidableEq

structure ComponentStatus where
  name : String
  state : HealthState
  detail : String
  lastOk : Option DateTime
  lastChange : DateTime
  deriving DecidableEq

def ComponentStatus.update (c : ComponentStatus) (state : HealthState) (detail : String)
    (now : DateTime) : ComponentStatus :=
  { c with
    lastChange := if c.state ≠ state then now else c.lastChange
    state := state
    detail := detail
    lastOk := if state = .healthy then some now else c.lastOk }

/-- A healthy component that has not been so for long is degraded. -/
def ComponentStatus.expire (c : ComponentStatus) (staleAfter : Int) (now : DateTime) :
    ComponentStatus :=
  match c.state, c.lastOk with
  | .healthy, some ok =>
    if now - ok > staleAfter then
      { c with
        state := .degraded
        detail := "no update for " ++ toString ((now - ok).tdiv 1000000000) ++ "s"
        lastChange := now }
    else c
  | _, _ => c

theorem ComponentStatus.expire_down (c : ComponentStatus) (staleAfter : Int)
    (now : DateTime) : (c.expire staleAfter now).name = c.name ∧
      ((c.expire staleAfter now).state = .down ↔ c.state = .down) := by
  unfold expire
  split
  next healthy _ =>
    split
    · rw [healthy]
      exact ⟨rfl, by simp⟩
    · exact ⟨rfl, Iff.rfl⟩
  next => exact ⟨rfl, Iff.rfl⟩

structure HealthMonitor where
  components : List ComponentStatus

namespace HealthMonitor

def new : HealthMonitor := ⟨[]⟩

/-- Updates the first component of that name, or adds it. -/
def setIn (name : String) (state : HealthState) (detail : String) (now : DateTime) :
    List ComponentStatus → List ComponentStatus
  | [] => [⟨name, state, detail, if state = .healthy then some now else none, now⟩]
  | c :: cs =>
    if c.name = name then c.update state detail now :: cs else c :: setIn name state detail now cs

def set (h : HealthMonitor) (name : String) (state : HealthState) (detail : String)
    (now : DateTime) : HealthMonitor :=
  { h with components := setIn name state detail now h.components }

def get (h : HealthMonitor) (name : String) : Option ComponentStatus :=
  h.components.find? fun c => c.name = name

/-- A feed that stopped delivering without disconnecting is otherwise invisible. -/
def expireStale (h : HealthMonitor) (staleAfter : Int) (now : DateTime) : HealthMonitor :=
  { h with components := h.components.map fun c => c.expire staleAfter now }

def stateOf (h : HealthMonitor) (name : String) : Option HealthState :=
  (h.get name).map ComponentStatus.state

def isDown (h : HealthMonitor) (name : String) : Bool := h.stateOf name = some .down

/-- What was set last is what is held. -/
theorem stateOf_set (h : HealthMonitor) (name other : String) (state : HealthState)
    (detail : String) (now : DateTime) :
    (h.set name state detail now).stateOf other =
      if other = name then some state else h.stateOf other := by
  unfold stateOf get set
  simp only
  induction h.components with
  | nil =>
    unfold setIn
    by_cases same : other = name
    · simp [same]
    · simp [same, Ne.symm same]
  | cons c cs ih =>
    unfold setIn
    by_cases here : c.name = name
    · rw [if_pos here]
      by_cases same : other = name
      · have found : (c.update state detail now).name = other := here.trans same.symm
        rw [List.find?_cons_of_pos (by simpa using found), if_pos same]
        rfl
      · have missed : (c.update state detail now).name ≠ other :=
          fun eq => same (eq.symm.trans here)
        have missed' : c.name ≠ other := missed
        rw [List.find?_cons_of_neg (by simpa using missed), if_neg same,
          List.find?_cons_of_neg (by simpa using missed')]
    · rw [if_neg here]
      by_cases found : c.name = other
      · have same : other ≠ name := fun eq => here (found.trans eq)
        rw [List.find?_cons_of_pos (by simpa using found), if_neg same,
          List.find?_cons_of_pos (by simpa using found)]
      · rw [List.find?_cons_of_neg (by simpa using found), ih,
          List.find?_cons_of_neg (by simpa using found)]

theorem isDown_set (h : HealthMonitor) (name other : String) (state : HealthState)
    (detail : String) (now : DateTime) :
    (h.set name state detail now).isDown other =
      if other = name then decide (state = .down) else h.isDown other := by
  unfold isDown
  rw [stateOf_set]
  by_cases same : other = name
  · rw [if_pos same, if_pos same]
    simp
  · rw [if_neg same, if_neg same]

/-- Expiry brings nothing down, and nothing back up. -/
theorem isDown_expireStale (h : HealthMonitor) (staleAfter : Int) (now : DateTime)
    (name : String) : (h.expireStale staleAfter now).isDown name = h.isDown name := by
  unfold isDown stateOf get expireStale
  simp only
  induction h.components with
  | nil => rfl
  | cons c cs ih =>
    obtain ⟨same, down⟩ := c.expire_down staleAfter now
    rw [List.map_cons]
    by_cases here : c.name = name
    · rw [List.find?_cons_of_pos (by simp [same, here]),
        List.find?_cons_of_pos (by simpa using here), Option.map_some, Option.map_some]
      simp only [Option.some.injEq, down]
    · rw [List.find?_cons_of_neg (by simp [same, here]),
        List.find?_cons_of_neg (by simpa using here)]
      exact ih

end HealthMonitor

end CopyTrading
