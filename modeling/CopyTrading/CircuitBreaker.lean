import CopyTrading.Backoff

namespace CopyTrading

structure Duration where
  secs : UInt64
  nanos : Fin 1000000000
deriving DecidableEq

namespace Duration

def asMillis (d : Duration) : Nat := d.secs.toNat * 1000 + d.nanos / 1000000

def asNanos (d : Duration) : Nat := d.secs.toNat * 1000000000 + d.nanos

def fromMillis (ms : UInt64) : Duration :=
  ⟨UInt64.ofNat (ms.toNat / 1000), ⟨ms.toNat % 1000 * 1000000, by omega⟩⟩

/-- Whole milliseconds, and few enough of them for the clock of the breaker. -/
def WholeMillis (d : Duration) : Prop := d.nanos.val % 1000000 = 0 ∧ d.asMillis < 2 ^ 64

end Duration

inductive BreakerState
  | closed
  | open_
  | halfOpen
deriving DecidableEq

structure CircuitBreaker where
  failureThreshold : UInt32
  consecutiveFailures : UInt32
  cooldown : Duration
  state : BreakerState
  openedForMs : UInt64
deriving DecidableEq

namespace CircuitBreaker

def new (failureThreshold : UInt32) (cooldown : Duration) : CircuitBreaker :=
  ⟨max failureThreshold 1, 0, cooldown, .closed, 0⟩

def onSuccess (b : CircuitBreaker) : CircuitBreaker :=
  { b with consecutiveFailures := 0, state := .closed, openedForMs := 0 }

def onFailure (b : CircuitBreaker) : CircuitBreaker :=
  let b := { b with consecutiveFailures := U32.saturatingAdd b.consecutiveFailures 1 }
  if b.failureThreshold ≤ b.consecutiveFailures then { b with state := .open_, openedForMs := 0 }
  else b

/-- Advances the cooldown clock. -/
def tick (b : CircuitBreaker) (elapsed : Duration) : CircuitBreaker :=
  if b.state = .open_ then
    let b := { b with openedForMs := b.openedForMs + UInt64.ofNat elapsed.asMillis }
    if UInt64.ofNat b.cooldown.asMillis ≤ b.openedForMs then
      -- one probe is let through
      { b with state := .halfOpen }
    else b
  else b

def allowsRequest (b : CircuitBreaker) : Bool :=
  match b.state with
  | .closed | .halfOpen => true
  | .open_ => false

inductive Call
  | onSuccess
  | onFailure
  | tick (elapsed : Duration)
deriving DecidableEq

def call (b : CircuitBreaker) : Call → CircuitBreaker
  | .onSuccess => b.onSuccess
  | .onFailure => b.onFailure
  | .tick elapsed => b.tick elapsed

def run (b : CircuitBreaker) (calls : List Call) : CircuitBreaker := calls.foldl call b

def Call.elapsed : Call → Option Duration
  | .tick elapsed => some elapsed
  | _ => none

/-- Failures reported since the last success. -/
def failures (calls : List Call) : Nat :=
  (calls.reverse.takeWhile (· ≠ .onSuccess)).count .onFailure

/-- The ticks since the last failure, the latest first. -/
def ticks (calls : List Call) : List Duration :=
  (calls.reverse.takeWhile (· ≠ .onFailure)).filterMap Call.elapsed

def tickedMs (calls : List Call) : Nat := ((ticks calls).map Duration.asMillis).sum

/-- All the time the breaker was ever told of, in nanoseconds. -/
def totalTicked (calls : List Call) : Nat :=
  ((calls.filterMap Call.elapsed).map Duration.asNanos).sum

/-- What the calls made so far say about the next request. -/
def Blocked (failureThreshold : UInt32) (cooldown : Duration) (calls : List Call) : Prop :=
  max 1 failureThreshold.toNat ≤ failures calls ∧
    (ticks calls = [] ∨ tickedMs calls * 1000000 < cooldown.asNanos)

example : (new 1 (.fromMillis 5000)).run [.onFailure, .tick (.fromMillis 2000)] =
    ⟨1, 1, .fromMillis 5000, .open_, 2000⟩ := by decide

theorem failures_success (calls : List Call) : failures (calls ++ [.onSuccess]) = 0 := by
  simp [failures]

theorem failures_failure (calls : List Call) :
    failures (calls ++ [.onFailure]) = failures calls + 1 := by
  simp [failures]

theorem failures_tick (calls : List Call) (d : Duration) :
    failures (calls ++ [.tick d]) = failures calls := by
  simp [failures]

theorem ticks_failure (calls : List Call) : ticks (calls ++ [.onFailure]) = [] := by
  simp [ticks]

theorem ticks_tick (calls : List Call) (d : Duration) :
    ticks (calls ++ [.tick d]) = d :: ticks calls := by
  simp [ticks, Call.elapsed]

theorem tickedMs_tick (calls : List Call) (d : Duration) :
    tickedMs (calls ++ [.tick d]) = d.asMillis + tickedMs calls := by
  rw [tickedMs, ticks_tick]
  rfl

theorem totalTicked_append (calls more : List Call) :
    totalTicked (calls ++ more) = totalTicked calls + totalTicked more := by
  simp [totalTicked]

theorem totalTicked_tick (d : Duration) : totalTicked [.tick d] = d.asNanos := by
  simp only [totalTicked, List.filterMap_cons, List.filterMap_nil, Call.elapsed, List.map_cons,
    List.map_nil, List.sum_cons, List.sum_nil, Nat.add_zero]

theorem asNanos_eq (d : Duration) :
    d.asNanos = d.asMillis * 1000000 + d.nanos.val % 1000000 := by
  unfold Duration.asMillis Duration.asNanos
  omega

theorem tickedMs_le (calls : List Call) : tickedMs calls * 1000000 ≤ totalTicked calls := by
  induction calls using List.reverseRecOn with
  | nil => exact Nat.le_refl 0
  | append_singleton calls c ih =>
    rw [totalTicked_append]
    cases c with
    | onSuccess =>
      have same : tickedMs (calls ++ [.onSuccess]) = tickedMs calls := by
        have skipped : ticks (calls ++ [.onSuccess]) = ticks calls := by
          simp [ticks, List.filterMap_cons, Call.elapsed]
        rw [tickedMs, skipped]
        rfl
      rw [same]
      exact Nat.le_add_right_of_le ih
    | onFailure =>
      rw [tickedMs, ticks_failure]
      exact Nat.zero_le _
    | tick d =>
      have whole : d.asMillis * 1000000 ≤ d.asNanos := by
        rw [asNanos_eq]
        exact Nat.le_add_right _ _
      rw [tickedMs_tick, totalTicked_tick, Nat.add_mul, Nat.add_comm (totalTicked calls)]
      exact Nat.add_le_add whole ih

/-- The cooldown as the breaker's clock holds it. -/
def cooldownMs (cooldown : Duration) : Nat := (UInt64.ofNat cooldown.asMillis).toNat

/-- What the calls made so far leave behind. -/
structure After (failureThreshold : UInt32) (cooldown : Duration) (calls : List Call)
    (b : CircuitBreaker) : Prop where
  threshold : b.failureThreshold.toNat = max 1 failureThreshold.toNat
  waits : b.cooldown = cooldown
  counted : b.consecutiveFailures.toNat = min (failures calls) U32_MAX
  closed : b.state = .closed ↔ failures calls < max 1 failureThreshold.toNat
  waiting : b.state = .open_ → b.openedForMs.toNat = tickedMs calls ∧
    (ticks calls = [] ∨ tickedMs calls < cooldownMs cooldown)
  probing : b.state = .halfOpen → ticks calls ≠ [] ∧ cooldownMs cooldown ≤ tickedMs calls

variable {failureThreshold : UInt32} {cooldown : Duration} {calls : List Call} {b : CircuitBreaker}

theorem after_new (failureThreshold : UInt32) (cooldown : Duration) :
    After failureThreshold cooldown [] (new failureThreshold cooldown) where
  threshold := by
    rw [new, UInt32.toNat_max, Nat.max_comm]
    rfl
  waits := rfl
  counted := rfl
  closed := by
    have fewer : failures [] < max 1 failureThreshold.toNat :=
      Nat.lt_of_lt_of_le Nat.one_pos (Nat.le_max_left _ _)
    exact iff_of_true rfl fewer
  waiting := nofun
  probing := nofun

theorem After.onSuccess (h : After failureThreshold cooldown calls b) :
    After failureThreshold cooldown (calls ++ [.onSuccess]) b.onSuccess where
  threshold := h.threshold
  waits := h.waits
  counted := by
    rw [failures_success]
    rfl
  closed := by
    rw [failures_success]
    exact iff_of_true rfl (Nat.lt_of_lt_of_le Nat.one_pos (Nat.le_max_left _ _))
  waiting := nofun
  probing := nofun

theorem After.onFailure (h : After failureThreshold cooldown calls b) :
    After failureThreshold cooldown (calls ++ [.onFailure]) b.onFailure := by
  have counted : (U32.saturatingAdd b.consecutiveFailures 1).toNat =
      min (failures (calls ++ [.onFailure])) U32_MAX := by
    rw [failures_failure]
    exact U32.saturatingAdd_one h.counted
  have fits : b.failureThreshold.toNat ≤ U32_MAX := Nat.le_pred_of_lt b.failureThreshold.toNat_lt
  have trips : b.failureThreshold ≤ U32.saturatingAdd b.consecutiveFailures 1 ↔
      max 1 failureThreshold.toNat ≤ failures (calls ++ [.onFailure]) := by
    rw [UInt32.le_iff_toNat_le, counted, h.threshold]
    have threshold := h.threshold
    omega
  rcases Classical.em (b.failureThreshold ≤ U32.saturatingAdd b.consecutiveFailures 1) with
    enough | few
  · have eq : b.onFailure = { b with
        consecutiveFailures := U32.saturatingAdd b.consecutiveFailures 1, state := .open_,
        openedForMs := 0 } := if_pos enough
    rw [eq]
    refine ⟨h.threshold, h.waits, counted, ?_, fun _ => ?_, nofun⟩
    · exact iff_of_false nofun (Nat.not_lt.mpr (trips.mp enough))
    · have none_ : tickedMs (calls ++ [.onFailure]) = 0 := by
        rw [tickedMs, ticks_failure]
        rfl
      exact ⟨none_.symm, .inl (ticks_failure calls)⟩
  · have eq : b.onFailure = { b with
        consecutiveFailures := U32.saturatingAdd b.consecutiveFailures 1 } := if_neg few
    have fewer := Nat.not_le.mp (mt trips.mpr few)
    have still : b.state = .closed := by
      rw [failures_failure] at fewer
      exact h.closed.mpr (by omega)
    rw [eq]
    refine ⟨h.threshold, h.waits, counted, iff_of_true still fewer, ?_, ?_⟩
    · intro open_
      cases still.symm.trans open_
    · intro half
      cases still.symm.trans half

theorem After.tick (h : After failureThreshold cooldown calls b) (d : Duration)
    (total : totalTicked (calls ++ [.tick d]) < 2 ^ 64 * 1000000) :
    After failureThreshold cooldown (calls ++ [.tick d]) (b.tick d) := by
  have more : ticks (calls ++ [.tick d]) ≠ [] := by
    rw [ticks_tick]
    exact List.cons_ne_nil _ _
  have fits : tickedMs (calls ++ [.tick d]) < 2 ^ 64 :=
    Nat.lt_of_mul_lt_mul_right (Nat.lt_of_le_of_lt (tickedMs_le _) total)
  have same := failures_tick calls d
  by_cases open_ : b.state = .open_
  · have added : (b.openedForMs + UInt64.ofNat d.asMillis).toNat =
        tickedMs (calls ++ [.tick d]) := by
      rw [tickedMs_tick] at fits ⊢
      rw [UInt64.toNat_add, UInt64.toNat_ofNat', (h.waiting open_).1]
      omega
    have closed : ¬ failures (calls ++ [.tick d]) < max 1 failureThreshold.toNat := by
      rw [same]
      intro fewer
      cases open_.symm.trans (h.closed.mpr fewer)
    have elapsed : UInt64.ofNat b.cooldown.asMillis ≤ b.openedForMs + UInt64.ofNat d.asMillis ↔
        cooldownMs cooldown ≤ tickedMs (calls ++ [.tick d]) := by
      rw [UInt64.le_iff_toNat_le, added, h.waits]
      exact Iff.rfl
    by_cases late : UInt64.ofNat b.cooldown.asMillis ≤ b.openedForMs + UInt64.ofNat d.asMillis
    · have eq : b.tick d = { b with
          openedForMs := b.openedForMs + UInt64.ofNat d.asMillis, state := .halfOpen } :=
        (if_pos open_).trans (if_pos late)
      rw [eq]
      exact ⟨h.threshold, h.waits, same ▸ h.counted, iff_of_false nofun closed, nofun,
        fun _ => ⟨more, elapsed.mp late⟩⟩
    · have eq : b.tick d = { b with openedForMs := b.openedForMs + UInt64.ofNat d.asMillis } :=
        (if_pos open_).trans (if_neg late)
      have early := Nat.not_le.mp (mt elapsed.mpr late)
      have shut : b.state ≠ .closed := fun closed => nomatch open_.symm.trans closed
      rw [eq]
      refine ⟨h.threshold, h.waits, same ▸ h.counted, iff_of_false shut closed,
        fun _ => ⟨added, .inr early⟩, fun half => ?_⟩
      cases open_.symm.trans half
  · have eq : b.tick d = b := if_neg open_
    rw [eq]
    refine ⟨h.threshold, h.waits, same ▸ h.counted, same ▸ h.closed, fun is => absurd is open_,
      fun half => ⟨more, ?_⟩⟩
    rw [tickedMs_tick]
    exact Nat.le_add_left_of_le (h.probing half).2

theorem After.call (h : After failureThreshold cooldown calls b) (c : Call)
    (total : totalTicked (calls ++ [c]) < 2 ^ 64 * 1000000) :
    After failureThreshold cooldown (calls ++ [c]) (b.call c) := by
  cases c with
  | onSuccess => exact h.onSuccess
  | onFailure => exact h.onFailure
  | tick d => exact h.tick d total

theorem after_run (failureThreshold : UInt32) (cooldown : Duration) (calls : List Call)
    (total : totalTicked calls < 2 ^ 64 * 1000000) :
    After failureThreshold cooldown calls ((new failureThreshold cooldown).run calls) := by
  induction calls using List.reverseRecOn with
  | nil => exact after_new failureThreshold cooldown
  | append_singleton calls c ih =>
    have before : totalTicked calls < 2 ^ 64 * 1000000 := by
      rw [totalTicked_append] at total
      exact Nat.lt_of_le_of_lt (Nat.le_add_right _ _) total
    have after := (ih before).call c total
    rwa [run, List.foldl_append]

/-- The breaker compares its clock with the whole milliseconds of the cooldown. -/
theorem After.refuses_iff (h : After failureThreshold cooldown calls b) :
    b.allowsRequest = false ↔ max 1 failureThreshold.toNat ≤ failures calls ∧
      (ticks calls = [] ∨ tickedMs calls < cooldownMs cooldown) := by
  cases state : b.state with
  | closed =>
    have fewer := h.closed.mp state
    simp only [allowsRequest, state]
    exact iff_of_false nofun fun blocked => Nat.not_le.mpr fewer blocked.1
  | open_ =>
    have shut : ¬ failures calls < max 1 failureThreshold.toNat :=
      fun fewer => nomatch state.symm.trans (h.closed.mpr fewer)
    simp only [allowsRequest, state]
    exact iff_of_true trivial ⟨Nat.not_lt.mp shut, (h.waiting state).2⟩
  | halfOpen =>
    obtain ⟨ticked, late⟩ := h.probing state
    simp only [allowsRequest, state]
    refine iff_of_false nofun fun blocked => ?_
    rcases blocked.2 with none_ | early
    · exact ticked none_
    · exact Nat.not_le.mpr early late

theorem cooldownMs_eq (d : Duration) : cooldownMs d = d.asMillis % 2 ^ 64 := UInt64.toNat_ofNat'

theorem wholeMillis_iff (d : Duration) : d.WholeMillis ↔ d.asNanos ≤ cooldownMs d * 1000000 := by
  rw [asNanos_eq, cooldownMs_eq, Duration.WholeMillis]
  omega

theorem cooldownMs_of_whole {d : Duration} (whole : d.WholeMillis) :
    cooldownMs d * 1000000 = d.asNanos := by
  rw [asNanos_eq, cooldownMs_eq, whole.1, Nat.mod_eq_of_lt whole.2, Nat.add_zero]

theorem fromMillis_asMillis (ms : UInt64) : (Duration.fromMillis ms).asMillis = ms.toNat := by
  have fits := ms.toNat_lt
  have secs : (UInt64.ofNat (ms.toNat / 1000)).toNat = ms.toNat / 1000 := by
    rw [UInt64.toNat_ofNat']
    omega
  have nanos : (Duration.fromMillis ms).nanos.val = ms.toNat % 1000 * 1000000 := rfl
  rw [Duration.asMillis, nanos]
  simp only [Duration.fromMillis, secs]
  omega

theorem fromMillis_asNanos (ms : UInt64) :
    (Duration.fromMillis ms).asNanos = ms.toNat * 1000000 := by
  have nanos : (Duration.fromMillis ms).nanos.val % 1000000 = 0 :=
    Nat.mul_mod_left (ms.toNat % 1000) 1000000
  rw [asNanos_eq, fromMillis_asMillis, nanos, Nat.add_zero]

theorem failures_replicate (n : Nat) : failures (List.replicate n .onFailure) = n := by
  induction n with
  | zero => rfl
  | succ n ih => rw [List.replicate_succ', failures_failure, ih]

/-- Enough failures to trip the breaker, and one tick of all it compares its clock with. -/
def tripAndTick (failureThreshold : UInt32) (cooldown : Duration) : List Call :=
  List.replicate (max 1 failureThreshold.toNat) .onFailure ++
    [.tick (.fromMillis (UInt64.ofNat cooldown.asMillis))]

theorem tripAndTick_failures (failureThreshold : UInt32) (cooldown : Duration) :
    failures (tripAndTick failureThreshold cooldown) = max 1 failureThreshold.toNat := by
  rw [tripAndTick, failures_tick, failures_replicate]

theorem ticks_replicate (n : Nat) : ticks (List.replicate n .onFailure) = [] := by
  cases n with
  | zero => rfl
  | succ n => rw [List.replicate_succ', ticks_failure]

theorem tripAndTick_ticked (failureThreshold : UInt32) (cooldown : Duration) :
    tickedMs (tripAndTick failureThreshold cooldown) = cooldownMs cooldown := by
  rw [tripAndTick, tickedMs_tick, tickedMs, ticks_replicate, fromMillis_asMillis]
  rfl

theorem tripAndTick_total (failureThreshold : UInt32) (cooldown : Duration) :
    totalTicked (tripAndTick failureThreshold cooldown) < 2 ^ 64 * 1000000 := by
  have failed : totalTicked (List.replicate (max 1 failureThreshold.toNat) .onFailure) = 0 := by
    simp [totalTicked, List.filterMap_replicate, Call.elapsed]
  have ticked : totalTicked [.tick (.fromMillis (UInt64.ofNat cooldown.asMillis))] =
      cooldownMs cooldown * 1000000 := by
    rw [totalTicked_tick, fromMillis_asNanos, cooldownMs]
  have fits : cooldownMs cooldown < 2 ^ 64 := UInt64.toNat_lt _
  rw [tripAndTick, totalTicked_append, failed, ticked, Nat.zero_add]
  exact Nat.mul_lt_mul_of_pos_right fits (by omega)

/-- Five hundred microseconds of the cooldown are lost. -/
theorem breaker_reopens_early : ¬ ∀ (failureThreshold : UInt32) (cooldown : Duration)
    (calls : List Call), totalTicked calls < 2 ^ 64 * 1000000 →
      (((new failureThreshold cooldown).run calls).allowsRequest = false ↔
        Blocked failureThreshold cooldown calls) := by
  intro claim
  have probes : ((new 1 ⟨0, 1500000⟩).run [.onFailure, .tick ⟨0, 1000000⟩]).allowsRequest := by
    decide
  have blocked : Blocked 1 ⟨0, 1500000⟩ [.onFailure, .tick ⟨0, 1000000⟩] := by
    unfold Blocked
    decide
  rw [(claim 1 ⟨0, 1500000⟩ [.onFailure, .tick ⟨0, 1000000⟩] (by decide)).mpr blocked] at probes
  cases probes

/-- The breaker is a function of what it was told, as long as its clock can hold the cooldown. -/
theorem breaker_follows_history_iff (failureThreshold : UInt32) (cooldown : Duration) :
    (∀ calls : List Call, totalTicked calls < 2 ^ 64 * 1000000 →
      (((new failureThreshold cooldown).run calls).allowsRequest = false ↔
        Blocked failureThreshold cooldown calls)) ↔ cooldown.WholeMillis := by
  constructor
  · intro follows
    have total := tripAndTick_total failureThreshold cooldown
    have after := after_run failureThreshold cooldown _ total
    have ticked := tripAndTick_ticked failureThreshold cooldown
    have allowed : ¬ Blocked failureThreshold cooldown (tripAndTick failureThreshold cooldown) := by
      rw [← follows _ total, after.refuses_iff]
      rintro ⟨_, none_ | early⟩
      · rw [tripAndTick, ticks_tick] at none_
        cases none_
      · exact Nat.lt_irrefl _ (ticked ▸ early)
    rw [wholeMillis_iff]
    refine Nat.not_lt.mp fun short => allowed ⟨?_, .inr ?_⟩
    · rw [tripAndTick_failures]
    · rwa [ticked]
  · intro whole calls total
    rw [(after_run failureThreshold cooldown calls total).refuses_iff, Blocked,
      ← cooldownMs_of_whole whole]
    exact and_congr_right fun _ => or_congr_right (Nat.mul_lt_mul_right (by omega)).symm

end CircuitBreaker

end CopyTrading
