import CopyTrading.HealthGate
import CopyTrading.Since

namespace CopyTrading

open StepRun

/-- When a component that is healthy was last said to be. -/
def ComponentStatus.okSince (c : ComponentStatus) : Option DateTime :=
  if c.state = .healthy then c.lastOk else none

/-- Expiry leaves healthy what was said to be so not too long ago. -/
theorem ComponentStatus.okSince_expire (c : ComponentStatus) (staleAfter : Int) (now : DateTime) :
    (c.expire staleAfter now).okSince = c.okSince.filter fun ok => now - ok ≤ staleAfter := by
  unfold expire
  split
  next ok healthy stamped =>
    have since : c.okSince = some ok := by
      unfold okSince
      rw [if_pos healthy, stamped]
    rw [since]
    split
    next stale =>
      have out : ¬now - ok ≤ staleAfter := not_le.mpr stale
      simp [okSince, Option.filter, out]
    next fresh =>
      have within : now - ok ≤ staleAfter := not_lt.mp fresh
      simp [since, Option.filter, within]
  next other =>
    have none_ : c.okSince = none := by
      unfold okSince
      split
      next healthy =>
        cases stamped : c.lastOk with
        | none => rfl
        | some ok => exact (other ok healthy stamped).elim
      next => rfl
    rw [none_]
    rfl

namespace HealthMonitor

def okSince (h : HealthMonitor) (name : String) : Option DateTime :=
  (h.get name).bind ComponentStatus.okSince

theorem get_set (h : HealthMonitor) (name other : String) (state : HealthState) (detail : String)
    (now : DateTime) : (h.set name state detail now).get other =
      if other = name then
        some (((h.get name).map fun c => c.update state detail now).getD
          ⟨name, state, detail, if state = .healthy then some now else none, now⟩)
      else h.get other := by
  unfold get set
  simp only
  induction h.components with
  | nil =>
    unfold setIn
    by_cases same : other = name
    · simp [same]
    · simp [same, Ne.symm same]
  | cons c cs ih =>
    unfold setIn
    by_cases here : c.name = name
    · rw [if_pos here]
      have kept : (c.update state detail now).name = name := here
      by_cases same : other = name
      · subst same
        simp [here, kept]
      · simp [same, Ne.symm same, here, kept]
    · rw [if_neg here]
      by_cases found : c.name = other
      · have apart : other ≠ name := fun eq => here (found.trans eq)
        simp [found, apart]
      · simp [found, ih, here]

theorem okSince_set (h : HealthMonitor) (name other : String) (state : HealthState)
    (detail : String) (now : DateTime) : (h.set name state detail now).okSince other =
      if other = name then (if state = .healthy then some now else none) else h.okSince other := by
  unfold okSince
  rw [get_set]
  split
  next =>
    cases h.get name with
    | none => cases state <;> rfl
    | some c => cases state <;> rfl
  next => rfl

theorem get_expireStale (h : HealthMonitor) (staleAfter : Int) (now : DateTime) (name : String) :
    (h.expireStale staleAfter now).get name =
      (h.get name).map fun c => c.expire staleAfter now := by
  unfold get expireStale
  simp only
  rw [List.find?_map]
  congr 2
  funext c
  simp [(c.expire_down staleAfter now).1]

theorem okSince_expireStale (h : HealthMonitor) (staleAfter : Int) (now : DateTime)
    (name : String) :
    (h.expireStale staleAfter now).okSince name =
      (h.okSince name).filter fun ok => now - ok ≤ staleAfter := by
  unfold okSince
  rw [get_expireStale]
  cases h.get name with
  | none => rfl
  | some c => exact c.okSince_expire staleAfter now

end HealthMonitor

namespace HealthMonitor

/-- Whatever is healthy was said to be so at some time. -/
def Stamped (h : HealthMonitor) : Prop := ∀ c ∈ h.components, c.state = .healthy → c.lastOk.isSome

theorem setIn_stamped (name : String) (state : HealthState) (detail : String) (now : DateTime)
    {cs : List ComponentStatus} (stamped : ∀ c ∈ cs, c.state = .healthy → c.lastOk.isSome) :
    ∀ c ∈ setIn name state detail now cs, c.state = .healthy → c.lastOk.isSome := by
  induction cs with
  | nil =>
    intro c mem healthy
    cases List.mem_singleton.mp mem
    simp only at healthy
    simp [healthy]
  | cons c cs ih =>
    have rest := ih fun d mem => stamped d (List.mem_cons_of_mem c mem)
    unfold setIn
    split
    · intro d mem healthy
      rcases List.mem_cons.mp mem with rfl | later
      · have said : state = .healthy := healthy
        simp [ComponentStatus.update, said]
      · exact stamped d (List.mem_cons_of_mem c later) healthy
    · intro d mem
      rcases List.mem_cons.mp mem with rfl | later
      · exact stamped d List.mem_cons_self
      · exact rest d later

theorem Stamped.set {h : HealthMonitor} (stamped : h.Stamped) (name : String) (state : HealthState)
    (detail : String) (now : DateTime) : (h.set name state detail now).Stamped :=
  setIn_stamped name state detail now stamped

theorem Stamped.expireStale {h : HealthMonitor} (stamped : h.Stamped) (staleAfter : Int)
    (now : DateTime) : (h.expireStale staleAfter now).Stamped := by
  intro c mem healthy
  obtain ⟨d, before, rfl⟩ := List.mem_map.mp mem
  unfold ComponentStatus.expire at healthy ⊢
  split at healthy
  next ok _ ok_ =>
    split at healthy
    next => cases healthy
    next fresh => simp only [fresh, if_false, ok_, Option.isSome_some]
  next => exact stamped d before healthy

theorem Stamped.healthy_iff {h : HealthMonitor} (stamped : h.Stamped) (name : String) :
    h.stateOf name = some .healthy ↔ (h.okSince name).isSome := by
  unfold stateOf okSince ComponentStatus.okSince
  cases found : h.get name with
  | none => simp
  | some c =>
    have kept := stamped c (List.mem_of_find?_eq_some found)
    simp only [Option.map_some, Option.some.injEq, Option.bind_some]
    split
    next healthy => exact iff_of_true healthy (kept healthy)
    next not_ => simp [not_]

end HealthMonitor

namespace HealthRun

variable {A : Type}

/-- No trade has come for too long, or none at all. -/
def isSilent (s : HealthRun A) (now : DateTime) : Bool :=
  match s.sourceDataAgeMs now with
  | some age => age > silentFeedMs
  | none => s.uptimeSeconds now > silentFeedMs / 1000

/-- Since when the source feed is shown as healthy. -/
def feedOk (s : HealthRun A) : Option DateTime := s.health.okSince "source_feed"

theorem checkSilence_feedOk (s : HealthRun A) (now : DateTime) :
    (s.checkSilence now).feedOk = if s.isSilent now then none else s.feedOk := by
  have degraded : ∀ detail, (s.set "source_feed" .degraded detail now).feedOk = none := by
    intro detail
    exact s.health.okSince_set "source_feed" "source_feed" .degraded detail now
  unfold checkSilence isSilent
  cases s.sourceDataAgeMs now with
  | some age =>
    simp only [decide_eq_true_eq]
    split
    · exact degraded _
    · rfl
  | none =>
    simp only [decide_eq_true_eq]
    split
    · exact degraded _
    · rfl

/-- The periodic task takes the feed for healthy if it was said to be in the last two minutes and
has delivered. -/
theorem tick_feedOk (s : HealthRun A) (now : DateTime) : (s.tick now).feedOk =
    if s.isSilent now then none
    else s.feedOk.filter fun ok => now - ok ≤ 120000000000 := by
  unfold tick
  simp only
  rw [checkSilence_feedOk]
  refine if_congr Iff.rfl rfl ?_
  unfold feedOk set
  simp only
  rw [HealthMonitor.okSince_expireStale, HealthMonitor.okSince_set, if_neg (by decide),
    HealthMonitor.okSince_set, if_neg (by decide)]

/-- A report that says the source feed is healthy. -/
def SaysOk (since : DateTime) : HealthEvent A → Prop
  | .update name state _ now => name = "source_feed" ∧ state = .healthy ∧ now = since
  | .feed (.connected _) _ _ now => now = since
  | _ => False

/-- No new report, and no tick that finds the last one too old or the feed silent. -/
def LeavesOk (since : DateTime) (s : HealthRun A) : HealthEvent A → Prop
  | .update name .. => name ≠ "source_feed"
  | .feed (.connected _) .. | .feed (.disconnected ..) .. => False
  | .housekeeping now => now - since ≤ 120000000000 ∧ s.isSilent now = false
  | _ => True

variable {digest : List UInt8 → String} {cfg : StrategyConfig} {adapter : ExecutionAdapter A}
  {isReady : A → Bool} {s t : HealthRun A} {e : HealthEvent A}

theorem observed_health {p : ParsedTrade} {corr : CorrelationId} {now : DateTime}
    {r : HealthRun A × Option SourceTrade} (seen : s.observed digest p corr now = r) :
    r.1.health = s.health := by
  rw [← seen]
  rfl

theorem step_feedOk (taken : s.step digest cfg adapter isReady e = some t) (since : DateTime) :
    t.feedOk = some since ↔ SaysOk since e ∨ s.feedOk = some since ∧ LeavesOk since s e := by
  cases e with
  | update name state detail now =>
    cases taken
    have set_ := s.health.okSince_set name "source_feed" state detail now
    show (s.health.set name state detail now).okSince "source_feed" = some since ↔ _
    rw [set_]
    unfold SaysOk LeavesOk
    by_cases here : name = "source_feed"
    · cases state <;> simp [here]
    · simp [here, Ne.symm here, feedOk]
  | feed m corr env now =>
    cases m with
    | connected at_ =>
      cases taken
      have set_ := s.health.okSince_set "source_feed" "source_feed" .healthy "connected" now
      show (s.health.set "source_feed" .healthy "connected" now).okSince "source_feed" = _ ↔ _
      rw [set_]
      simp [SaysOk, LeavesOk]
    | disconnected at_ lastTradeAt reason =>
      cases taken
      have set_ := s.health.okSince_set "source_feed" "source_feed" .down reason now
      show (s.health.set "source_feed" .down reason now).okSince "source_feed" = _ ↔ _
      rw [set_]
      simp [SaysOk, LeavesOk]
    | trade fill p =>
      have same : t.feedOk = s.feedOk := by
        simp only [step] at taken
        split at taken
        next seen trade eq =>
          cases taken
          exact congrArg (·.okSince "source_feed") (observed_health eq)
        next seen eq => cases taken; exact congrArg (·.okSince "source_feed") (observed_health eq)
      rw [same]
      simp [SaysOk, LeavesOk]
  | housekeeping now =>
    cases taken
    rw [tick_feedOk]
    unfold SaysOk LeavesOk
    cases silent : s.isSilent now with
    | true => simp [silent]
    | false =>
      rw [if_neg Bool.false_ne_true, Option.filter_eq_some_iff]
      simp [silent]
  | evict now => cases taken; simp [SaysOk, LeavesOk, feedOk]
  | trade env p => cases taken; simp [SaysOk, LeavesOk, feedOk, call]
  | elsewhere app venue => cases taken; simp [SaysOk, LeavesOk, feedOk]

theorem checkSilence_stamped {s : HealthRun A} (h : s.health.Stamped) (now : DateTime) :
    (s.checkSilence now).health.Stamped := by
  unfold checkSilence
  split
  · split
    · exact h.set _ _ _ _
    · exact h
  · split
    · exact h.set _ _ _ _
    · exact h

theorem step_stamped (h : s.health.Stamped) (taken : s.step digest cfg adapter isReady e = some t) :
    t.health.Stamped := by
  cases e with
  | update name state detail now => cases taken; exact h.set _ _ _ _
  | feed m corr env now =>
    cases m with
    | connected at_ => cases taken; exact h.set _ _ _ _
    | disconnected at_ lastTradeAt reason => cases taken; exact h.set _ _ _ _
    | trade fill p =>
      simp only [step] at taken
      split at taken
      next seen trade eq => cases taken; exact (observed_health eq).symm ▸ h
      next seen eq => cases taken; exact (observed_health eq).symm ▸ h
  | housekeeping now =>
    cases taken
    unfold tick
    exact checkSilence_stamped (((h.set _ _ _ _).set _ _ _ _).expireStale _ _) now
  | evict now => cases taken; exact h
  | trade env p => cases taken; exact h
  | elsewhere app venue => cases taken; exact h

/-- In every run: the source feed is shown as healthy exactly if the last report on it said so, and
every housekeeping tick since came within two minutes of that report and found the feed delivering.
The trades it delivers do not renew the report: only a new connection does. -/
theorem feed_healthy_iff {app : AppState} {venue : A} {startedAt : DateTime} {name : String}
    {es : List (HealthEvent A)}
    (run : Run (HealthRun.step digest cfg adapter isReady) Anywhere
      (.start app venue startedAt name) es s) :
    (s.health.stateOf "source_feed" = some .healthy ↔ ∃ since, s.feedOk = some since) ∧
      ∀ since, s.feedOk = some since ↔ Since.Holds (HealthRun.step digest cfg adapter isReady)
        Anywhere (fun _ e => SaysOk since e) (LeavesOk since)
        (.start app venue startedAt name) es := by
  constructor
  · have stamped : s.health.Stamped := run.keeps
      (fun _ _ _ h _ taken => step_stamped h taken) (fun c mem => nomatch mem)
    rw [stamped.healthy_iff, Option.isSome_iff_exists]
    rfl
  · intro since
    exact Since.holds_iff (fun _ _ _ _ taken => step_feedOk taken since) nofun run

/-- A feed that has been connected for 130 seconds, with a trade five seconds ago. -/
def deliveringFeed : List (HealthEvent Unit) :=
  [.feed (.connected 0) ⟨0⟩ .sample 0, .feed (.trade 0 .sample) ⟨0⟩ .sample 125000000000,
    .housekeeping 130000000000]

theorem feed_healthy_iff_deliveringFeed : ∃ s,
    Run (HealthRun.step (fun _ => "") .default acceptingVenue (fun _ => true)) Anywhere
      (.start .sample () 0 "paper") deliveringFeed s ∧
    s.sourceDataAgeMs 130000000000 = some 5000 ∧
    s.health.stateOf "source_feed" ≠ some .healthy := by
  have ran : (deliveringFeed.foldlM (fun s e => if Anywhere s e then
      HealthRun.step (fun _ => "") .default acceptingVenue (fun _ => true) s e else none)
      (.start .sample () 0 "paper")).any (fun s =>
        s.feedOk = none ∧ s.sourceDataAgeMs 130000000000 = some 5000) = true := by
    decide +kernel
  obtain ⟨s, executed, holds⟩ := (Option.any_eq_true _ _).mp ran
  obtain ⟨none_, recent⟩ := of_decide_eq_true holds
  have run := run_of_foldlM executed
  refine ⟨s, run, recent, fun healthy => ?_⟩
  obtain ⟨since, held⟩ := (feed_healthy_iff run).1.mp healthy
  cases none_.symm.trans held

end HealthRun

end CopyTrading
