import CopyTrading.FeedGap

namespace CopyTrading

open StepRun

variable {digest : List UInt8 → String} {wallets : List TargetWallet} {es : List FeedEvent}
  {s : FeedState}

/-- When all is quiet, a fill was put to the tracker exactly when the feed reported it or a
request covered it. -/
theorem FeedInv.offered_iff (h : FeedInv s) (drained : s.drained) {i : Nat}
    (happened : i < s.fills.length) : i ∈ s.offered ↔ i ∈ s.missed → s.Covered i := by
  have quiet : s.consumer.pending = [] ∧ s.wire = [] ∧ s.queue = [] := by
    unfold FeedState.drained at drained
    split at drained
    next idle =>
      obtain ⟨wire, queue⟩ := Bool.and_eq_true_iff.mp drained
      exact ⟨by rw [idle]; rfl, List.isEmpty_iff.mp wire, List.isEmpty_iff.mp queue⟩
    next => cases drained
  obtain ⟨pending, wire, queue⟩ := quiet
  constructor
  · intro offered missed
    exact h.sound i missed (.inr offered)
  · intro covered
    by_cases missed : i ∈ s.missed
    · rcases h.asked i (covered missed) with row | offered
      · rw [pending] at row
        cases row
      · exact offered
    · rcases h.sent i happened missed with (sent | ⟨t, queued⟩) | offered
      · rw [wire] at sent
        cases sent
      · rw [queue] at queued
        cases queued
      · exact offered

/-- No fill is lost over the gaps of a run exactly when a request covers each one that happened
without a subscription. -/
theorem FeedState.gap_offered_iff
    (run : Run (FeedState.step digest) Anywhere (.start wallets) es s) (drained : s.drained) :
    (∀ i, s.Owed i → i ∈ s.offered) ↔ ∀ i ∈ s.missed, s.Owed i → s.Covered i := by
  have inv : FeedInv s := run.keeps (fun _ _ _ h _ taken => h.step taken) (.start wallets)
  have happened : ∀ i, s.Owed i → i < s.fills.length := by
    rintro i ⟨f, held, _⟩
    exact (List.getElem?_eq_some_iff.mp held).1
  constructor
  · intro all i missed owed
    exact (inv.offered_iff drained (happened i owed)).mp (all i owed) missed
  · intro covered i owed
    exact (inv.offered_iff drained (happened i owed)).mpr fun missed => covered i missed owed

def VenueFill.sample : VenueFill := ⟨.sample, { ParsedTrade.sample with source := .restBackfill },
  0, rfl⟩

/-- A fill that the client's disconnect is late enough to cover. -/
def filledBeforeDrop : List FeedEvent :=
  [.connect 0, .consume ⟨0⟩, .end_, .happen .sample, .drop 0 "", .consume ⟨0⟩, .rest [0],
    .row ⟨0⟩, .finish 0, .connect 0, .consume ⟨0⟩]

/-- The same fill, after the disconnect was dealt with. -/
def filledBeforeReconnect : List FeedEvent :=
  [.connect 0, .consume ⟨0⟩, .end_, .drop 0 "", .consume ⟨0⟩, .rest [], .finish 0,
    .happen .sample, .connect 0, .consume ⟨0⟩]

instance (s : FeedState) (i : Nat) : Decidable (s.Owed i) :=
  match held : s.fills[i]? with
  | none => isFalse (by rintro ⟨f, eq, _⟩; rw [held] at eq; cases eq)
  | some f =>
    if rest : s.tracker.Admitted f.live ∧ s.first.any (· ≤ i) ∧ i < s.last then
      isTrue ⟨f, held, rest.1, by simpa [Option.any_eq_true] using rest.2.1, rest.2.2⟩
    else isFalse (by
      rintro ⟨g, eq, admitted, after, before⟩
      rw [held] at eq
      cases eq
      exact rest ⟨admitted, by simpa [Option.any_eq_true] using after, before⟩)

theorem FeedState.gap_offered_iff_filledBeforeDrop : ∃ s,
    Run (FeedState.step fun _ => "") Anywhere (.start [.new .zero "Target"]) filledBeforeDrop s ∧
    s.Owed 0 ∧ 0 ∈ s.missed ∧
    ((∀ i, s.Owed i → i ∈ s.offered) ↔ ∀ i ∈ s.missed, s.Owed i → s.Covered i) := by
  have ran : (filledBeforeDrop.foldlM (fun s e => if Anywhere s e then
      FeedState.step (fun _ => "") s e else none) (.start [.new .zero "Target"])).any
        (fun s => s.drained && decide (s.Owed 0 ∧ 0 ∈ s.missed)) = true := by
    decide +kernel
  obtain ⟨s, executed, figures⟩ := (Option.any_eq_true _ _).mp ran
  obtain ⟨drained, figures⟩ := Bool.and_eq_true_iff.mp figures
  obtain ⟨owed, missed⟩ := of_decide_eq_true figures
  have run := run_of_foldlM executed
  exact ⟨s, run, owed, missed, FeedState.gap_offered_iff run drained⟩

/-- A fill between the backfill and the reconnect is never put to the tracker. -/
theorem FeedState.lost_before_reconnect : ¬ ∀ (digest : List UInt8 → String)
    (wallets : List TargetWallet) (es : List FeedEvent) (s : FeedState),
    Run (FeedState.step digest) Anywhere (.start wallets) es s → s.drained →
    ∀ i, s.Owed i → i ∈ s.offered := by
  intro claim
  have ran : (filledBeforeReconnect.foldlM (fun s e => if Anywhere s e then
      FeedState.step (fun _ => "") s e else none) (.start [.new .zero "Target"])).any
        (fun s => s.drained && decide (s.Owed 0 ∧ 0 ∉ s.offered)) = true := by
    decide +kernel
  obtain ⟨s, executed, figures⟩ := (Option.any_eq_true _ _).mp ran
  obtain ⟨drained, figures⟩ := Bool.and_eq_true_iff.mp figures
  obtain ⟨owed, lost⟩ := of_decide_eq_true figures
  exact lost (claim _ _ _ s (run_of_foldlM executed) drained 0 owed)

end CopyTrading
