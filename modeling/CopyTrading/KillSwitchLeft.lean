import CopyTrading.KillSwitchSweep

namespace CopyTrading

open Holders StepRun

theorem HaltInv.fewer {s : HaltRace} (h : HaltInv s) {acked : List OrderId}
    (fewer : ∀ id ∈ acked, id ∈ s.acked) : HaltInv { s with acked := acked } := by
  have before : ∀ id, { s with acked := acked }.Tracked id → s.Tracked id := by
    rintro id (mem | pending)
    · exact .inl (fewer id mem)
    · exact .inr pending
  refine ⟨h.ids, h.halted, h.late, h.pending, h.apart, ?_, h.awaited, ?_, h.nodup, ?_, h.counted⟩
  · intro id mem
    exact h.acked id (fewer id mem)
  · intro id o tracked
    exact h.untouched id o (before id tracked)
  · intro id tracked
    exact h.swept id (before id tracked)

theorem HaltInv.step {cfg : StrategyConfig} {s s' : HaltRace} {e : HaltEvent} (h : HaltInv s)
    (taken : s.step cfg e = some s') : HaltInv s' := by
  cases e with
  | spawn env trade =>
    cases taken
    refine h.quiet ⟨rfl, id⟩ ?_
    intro i o pending
    rw [heldAt_concat_idle rfl] at pending
    exact pending
  | advance i env => exact h.advance taken
  | answer i response now => exact h.answer taken
  | engage reason now =>
    obtain ⟨idle, taken⟩ := Option.ite_none_right_eq_some.mp taken
    cases taken
    exact h.engage idle reason now
  | sweep ids =>
    unfold HaltRace.step at taken
    simp only at taken
    split at taken
    next waits =>
      obtain ⟨all, taken⟩ := Option.ite_none_right_eq_some.mp taken
      cases taken
      exact h.sweep waits all
    next => cases taken
  | cancelNext now => exact h.cancelNext taken
  | cancelled response now => exact h.cancelled taken
  | finished id =>
    cases taken
    exact h.fewer fun _ mem => (List.mem_filter.mp mem).1

/-- Nothing is submitted after the halt, and what the sweep leaves working is what its order
states refused to cancel: it is counted as failed. -/
theorem HaltRace.left_working {cfg : StrategyConfig} {app : AppState}
    (keyed : ∀ id o, app.orders.get id = some o → o.id = id) {es : List HaltEvent} {s : HaltRace}
    (run : Run (HaltRace.step cfg) Anywhere (.start app) es s) :
    s.late = [] ∧ (s.returned → s.refused.length ≤ s.handler.failed ∧
      ∀ id ∈ s.acked, ¬s.FilledAt id →
        ∃ st, (id, some st) ∈ s.refused ∧ (st = .submitted ∨ st = .unknown)) := by
  have inv : HaltInv s := run.keeps (fun _ _ _ h _ taken => h.step taken) (.start keyed)
  refine ⟨inv.late, fun returned => ⟨inv.counted, ?_⟩⟩
  intro id mem unfilled
  have finished : ∃ ok fail, s.handler = .finished ok fail := by
    unfold HaltRace.returned at returned
    split at returned
    next ok fail ended => exact ⟨ok, fail, ended⟩
    next => cases returned
  obtain ⟨ok, fail, ended⟩ := finished
  rcases inv.swept id (.inl mem) with (before | ahead | ⟨o, awaited, _⟩ | refused) | filled
  · rw [ended] at before
    cases before
  · rw [ended] at ahead
    cases ahead
  · rw [ended] at awaited
    cases awaited
  · exact refused
  · exact absurd filled unfilled

/-- The sweep reaches an order between its submission and its acknowledgement. -/
def sweptInFlight : List HaltEvent :=
  let later := { CallEnv.sample with orderId := ⟨1⟩ }
  [.spawn .sample .sample, .advance 0 .sample, .advance 0 .sample, .advance 0 .sample,
    .engage "" 0, .sweep [⟨0⟩], .cancelNext 0, .cancelNext 0,
    .answer 0 (.ok ⟨⟨0⟩, none, 0, [], false⟩) 0, .advance 0 later]

theorem sweptInFlight_run : ∃ s, Run (HaltRace.step .default) Anywhere (.start .sample)
    sweptInFlight s ∧ s.returned ∧ s.acked = [⟨0⟩] ∧
    (s.app.orders.get ⟨0⟩).map Order.state = some .acknowledged := by
  have ran : (sweptInFlight.foldlM (fun s e => if Anywhere s e then HaltRace.step .default s e
      else none) (.start .sample)).map (fun s => (s.returned, s.acked,
        (s.app.orders.get ⟨0⟩).map Order.state)) = some (true, [⟨0⟩], some .acknowledged) := by
    decide +kernel
  obtain ⟨s, executed, figures⟩ := Option.map_eq_some_iff.mp ran
  obtain ⟨returned, rest⟩ := Prod.mk.inj figures
  obtain ⟨acked, state⟩ := Prod.mk.inj rest
  exact ⟨s, run_of_foldlM executed, returned, acked, state⟩

theorem HaltRace.left_working_sweptInFlight : ∃ s, Run (HaltRace.step .default) Anywhere
    (.start .sample) sweptInFlight s ∧ s.late = [] ∧
    ∃ st, (⟨0⟩, some st) ∈ s.refused ∧ (st = .submitted ∨ st = .unknown) := by
  obtain ⟨s, run, returned, acked, state⟩ := sweptInFlight_run
  have keyed : ∀ id o, AppState.sample.orders.get id = some o → o.id = id := by
    intro id o stored
    cases stored
  obtain ⟨late, left⟩ := HaltRace.left_working keyed run
  refine ⟨s, run, late, (left returned).2 ⟨0⟩ (by rw [acked]; exact List.mem_singleton.mpr rfl) ?_⟩
  rintro ⟨o, stored, filled⟩
  rw [stored, Option.map_some, filled] at state
  cases state

/-- An order can outlive the sweep without being filled. -/
theorem HaltRace.survives_sweep : ¬ ∀ (cfg : StrategyConfig) (app : AppState)
    (es : List HaltEvent) (s : HaltRace),
    (∀ id o, app.orders.get id = some o → o.id = id) →
    Run (HaltRace.step cfg) Anywhere (.start app) es s → s.returned →
    s.late = [] ∧ ∀ id ∈ s.acked, s.FilledAt id := by
  intro claim
  obtain ⟨s, run, returned, acked, state⟩ := sweptInFlight_run
  have keyed : ∀ id o, AppState.sample.orders.get id = some o → o.id = id := by
    intro id o stored
    cases stored
  obtain ⟨o, stored, filled⟩ := (claim .default .sample sweptInFlight s keyed run returned).2 ⟨0⟩
    (by rw [acked]; exact List.mem_singleton.mpr rfl)
  rw [stored, Option.map_some, filled] at state
  cases state

end CopyTrading
