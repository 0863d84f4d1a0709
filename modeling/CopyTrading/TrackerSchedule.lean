import CopyTrading.StepRun
import CopyTrading.Tracker

namespace CopyTrading

/-- The events of one run: true fills, live rows, and the rows of numbered backfill batches. -/
inductive TrackerEvent
  | happen (fill : Nat)
  | live (fill : Nat) (corr : CorrelationId) (t : ParsedTrade)
  | row (batch fill : Nat) (corr : CorrelationId) (t : ParsedTrade)

/-- A backfill batch in progress: its own ordinals and the fills its rows stand for. -/
structure BatchProgress where
  ordinals : BatchOrdinals
  fills : List Nat

structure TrackerRun where
  tracker : WalletTracker
  happened : List Nat
  delivered : List Nat
  batches : AList fun _ : Nat => BatchProgress
  detections : List (ContentKey × Detection)

def TrackerRun.start (wallets : List TargetWallet) : TrackerRun := ⟨.new wallets, [], [], ∅, []⟩

def TrackerRun.batch (s : TrackerRun) (b : Nat) : BatchProgress :=
  (s.batches.lookup b).getD ⟨.new, []⟩

section Step

variable (digest : List UInt8 → String) (contentOf : Nat → ContentKey) (k : ContentKey)

/-- A fill is delivered live once, and once in each batch, after it happened. -/
def TrackerRun.Enabled (s : TrackerRun) : TrackerEvent → Prop
  | .happen f => f ∉ s.happened
  | .live f _ t => f ∈ s.happened ∧ f ∉ s.delivered ∧ t.keyOf = contentOf f
  | .row b f _ t => f ∈ s.happened ∧ f ∉ (s.batch b).fills ∧ t.keyOf = contentOf f

instance (s : TrackerRun) (e : TrackerEvent) : Decidable (s.Enabled contentOf e) := by
  cases e <;> unfold TrackerRun.Enabled <;> infer_instance

def TrackerRun.next (s : TrackerRun) : TrackerEvent → TrackerRun
  | .happen f => { s with happened := f :: s.happened }
  | .live f corr t =>
    let (detection, tracker) := s.tracker.observeLive digest corr t
    { s with
      tracker := tracker
      delivered := f :: s.delivered
      detections := (t.keyOf, detection) :: s.detections }
  | .row b f corr t =>
    let progress := s.batch b
    let (detection, tracker, ordinals) := s.tracker.observeBackfill digest corr t progress.ordinals
    { s with
      tracker := tracker
      batches := s.batches.insert b ⟨ordinals, f :: progress.fills⟩
      detections := (t.keyOf, detection) :: s.detections }

def TrackerRun.step (s : TrackerRun) (e : TrackerEvent) : Option TrackerRun :=
  if s.Enabled contentOf e then some (s.next digest e) else none

/-- The wallet configuration admits the trades of the key that are observed. -/
def AdmitsKey (s : TrackerRun) : TrackerEvent → Prop
  | .happen _ => True
  | .live _ _ t => t.keyOf = k → s.tracker.Admitted t
  | .row _ _ _ t => t.keyOf = k → s.tracker.Admitted t

instance (s : TrackerRun) (e : TrackerEvent) : Decidable (AdmitsKey k s e) := by
  cases e <;> unfold AdmitsKey <;> infer_instance

def TrackerRun.fillsOf (s : TrackerRun) : Nat :=
  s.happened.countP fun f => contentOf f = k

def TrackerRun.actionableOf (s : TrackerRun) : Nat :=
  s.detections.countP fun d => d.1 = k ∧ d.2.isActionable

end Step

def TrackerEvent.isLiveOf (k : ContentKey) : TrackerEvent → Bool
  | .live _ _ t => t.keyOf = k
  | _ => false

def TrackerEvent.isRowOf (k : ContentKey) (batch : Nat) : TrackerEvent → Bool
  | .row b _ _ t => b = batch ∧ t.keyOf = k
  | _ => false

def livesOf (k : ContentKey) (as : List TrackerEvent) : Nat := as.countP (TrackerEvent.isLiveOf k)

def batchRowsOf (k : ContentKey) (b : Nat) (as : List TrackerEvent) : Nat :=
  as.countP (TrackerEvent.isRowOf k b)

/-- No row of the key, at its position among the key's rows of its batch, is followed by so many
live rows of the key that the two exceed `n`. -/
def LateLives (k : ContentKey) (as : List TrackerEvent) (n : Nat) : Prop :=
  ∀ before after b f corr t, as = before ++ .row b f corr t :: after → t.keyOf = k →
    batchRowsOf k b before + 1 + livesOf k after ≤ n

/-- The highest ordinal the schedule claims, plus one, when no ordinal is refused; the history is
read from its latest event. -/
def peak (k : ContentKey) : List TrackerEvent → Nat
  | [] => 0
  | .happen _ :: earlier => peak k earlier
  | .live _ _ t :: earlier => if t.keyOf = k then peak k earlier + 1 else peak k earlier
  | .row b _ _ t :: earlier =>
    if t.keyOf = k then max (peak k earlier) (batchRowsOf k b earlier + 1)
    else peak k earlier

theorem livesOf_snoc (k : ContentKey) (as : List TrackerEvent) (e : TrackerEvent) :
    livesOf k (as ++ [e]) = livesOf k as + if e.isLiveOf k then 1 else 0 := by
  simp only [livesOf, List.countP_append, List.countP_singleton]

theorem batchRowsOf_snoc (k : ContentKey) (b : Nat) (as : List TrackerEvent) (e : TrackerEvent) :
    batchRowsOf k b (as ++ [e]) = batchRowsOf k b as + if e.isRowOf k b then 1 else 0 := by
  simp only [batchRowsOf, List.countP_append, List.countP_singleton]

theorem peak_happen (k : ContentKey) (as : List TrackerEvent) (f : Nat) :
    peak k (as ++ [TrackerEvent.happen f]).reverse = peak k as.reverse := by
  rw [List.reverse_append]
  rfl

theorem peak_live (k : ContentKey) (as : List TrackerEvent) (f : Nat) (corr : CorrelationId)
    (t : ParsedTrade) : peak k (as ++ [TrackerEvent.live f corr t]).reverse =
      if t.keyOf = k then peak k as.reverse + 1 else peak k as.reverse := by
  rw [List.reverse_append]
  rfl

theorem peak_row (k : ContentKey) (as : List TrackerEvent) (b f : Nat) (corr : CorrelationId)
    (t : ParsedTrade) : peak k (as ++ [TrackerEvent.row b f corr t]).reverse =
      if t.keyOf = k then max (peak k as.reverse) (batchRowsOf k b as + 1)
      else peak k as.reverse := by
  have rows : batchRowsOf k b as.reverse = batchRowsOf k b as := List.countP_reverse
  rw [List.reverse_append, ← rows]
  rfl

theorem split_snoc {α : Type} {as before after : List α} {e r : α}
    (h : as ++ [e] = before ++ r :: after) :
    (after = [] ∧ e = r ∧ as = before) ∨
      ∃ after', after = after' ++ [e] ∧ as = before ++ r :: after' := by
  rcases List.eq_nil_or_concat after with rfl | ⟨after', e', rfl⟩
  · obtain ⟨rfl, he⟩ := List.append_inj' h rfl
    exact .inl ⟨rfl, by simpa using he, rfl⟩
  · right
    rw [List.concat_eq_append, ← List.cons_append, ← List.append_assoc] at h
    obtain ⟨rfl, he⟩ := List.append_inj' h rfl
    exact ⟨after', by rw [List.singleton_inj.mp he, List.concat_eq_append], rfl⟩

theorem lateLives_snoc {k : ContentKey} {as : List TrackerEvent} {e : TrackerEvent} {n : Nat} :
    LateLives k (as ++ [e]) n ↔
      (∀ before after b f corr t, as = before ++ .row b f corr t :: after → t.keyOf = k →
        batchRowsOf k b before + 1 + livesOf k after + (if e.isLiveOf k then 1 else 0) ≤ n) ∧
      (∀ b f corr t, e = .row b f corr t → t.keyOf = k → batchRowsOf k b as + 1 ≤ n) := by
  constructor
  · intro h
    refine ⟨?_, ?_⟩
    · rintro before after b f corr t rfl key
      have last := h before (after ++ [e]) b f corr t (by simp) key
      simp only [livesOf, List.countP_append, List.countP_singleton] at last ⊢
      omega
    · rintro b f corr t rfl key
      exact h as [] b f corr t rfl key
  · rintro ⟨older, newest⟩ before after b f corr t split key
    rcases split_snoc split with ⟨rfl, rfl, rfl⟩ | ⟨after', rfl, rfl⟩
    · exact newest b f corr t rfl key
    · have last := older before after' b f corr t rfl key
      simp only [livesOf, List.countP_append, List.countP_singleton] at last ⊢
      omega

/-- The peak is within `n` exactly when the live rows are and no row is followed by too many. -/
theorem peak_le_iff (k : ContentKey) (as : List TrackerEvent) (n : Nat) :
    peak k as.reverse ≤ n ↔ livesOf k as ≤ n ∧ LateLives k as n := by
  induction as using List.reverseRecOn generalizing n with
  | nil => simp [peak, livesOf, LateLives]
  | append_singleton as e ih =>
    rw [lateLives_snoc, livesOf_snoc]
    cases e with
    | happen f =>
      rw [peak_happen, ih]
      simp [TrackerEvent.isLiveOf, LateLives]
    | live f corr t =>
      rw [peak_live]
      by_cases key : t.keyOf = k
      · rw [if_pos key]
        simp only [TrackerEvent.isLiveOf, key, decide_true, if_true, reduceCtorEq, false_implies,
          implies_true, and_true]
        cases n with
        | zero =>
          constructor
          · omega
          · intro h; omega
        | succ n =>
          rw [Nat.succ_le_succ_iff, ih, Nat.succ_le_succ_iff]
          simp only [LateLives, Nat.succ_le_succ_iff]
      · rw [if_neg key, ih]
        simp [TrackerEvent.isLiveOf, LateLives, key]
    | row b f corr t =>
      rw [peak_row]
      by_cases key : t.keyOf = k
      · rw [if_pos key, max_le_iff, ih, and_assoc]
        simp only [TrackerEvent.isLiveOf, Bool.false_eq_true, if_false, Nat.add_zero]
        refine and_congr_right fun _ => and_congr_right fun _ => ?_
        constructor
        · rintro h b' f' corr' t' ⟨⟩ _
          exact h
        · intro h
          exact h b f corr t rfl key
      · rw [if_neg key, ih]
        simp only [TrackerEvent.isLiveOf, Bool.false_eq_true, if_false, Nat.add_zero]
        refine and_congr_right fun _ => (and_iff_left ?_).symm
        rintro b' f' corr' t' ⟨⟩ key'
        exact absurd key' key

section Invariant

variable {digest : List UInt8 → String} {contentOf : Nat → ContentKey} {k : ContentKey}

/-- Where the tracker stands on one key after the events `as`. -/
structure KeyTracked (contentOf : Nat → ContentKey) (k : ContentKey) (as : List TrackerEvent)
    (s : TrackerRun) : Prop where
  count : s.tracker.dedup.count k = min 64 (peak k as.reverse)
  actionable : s.actionableOf k = s.tracker.dedup.count k
  ordinals : ∀ b, ((s.batch b).ordinals.seen.lookup k).getD 0 = batchRowsOf k b as % 2 ^ 32
  rows : ∀ b, batchRowsOf k b as ≤ peak k as.reverse
  lives : livesOf k as = s.delivered.countP fun f => contentOf f = k
  once : s.delivered.Nodup ∧ s.happened.Nodup
  after : s.delivered ⊆ s.happened

theorem KeyTracked.start (wallets : List TargetWallet) :
    KeyTracked contentOf k [] (.start wallets) where
  count := rfl
  actionable := rfl
  ordinals _ := rfl
  rows _ := Nat.zero_le _
  lives := rfl
  once := ⟨.nil, .nil⟩
  after := List.Subset.refl _

theorem KeyTracked.lives_le {as : List TrackerEvent} {s : TrackerRun}
    (h : KeyTracked contentOf k as s) : livesOf k as ≤ s.fillsOf contentOf k := by
  rw [h.lives, TrackerRun.fillsOf, List.countP_eq_length_filter, List.countP_eq_length_filter]
  have sub := h.once.1.subperm h.after
  exact (sub.filter _).length_le

theorem KeyTracked.happen {as : List TrackerEvent} {s : TrackerRun} {f : Nat}
    (h : KeyTracked contentOf k as s) (fresh : f ∉ s.happened) :
    KeyTracked contentOf k (as ++ [.happen f]) (s.next digest (.happen f)) := by
  have rows : ∀ b, batchRowsOf k b (as ++ [TrackerEvent.happen f]) = batchRowsOf k b as :=
    fun b => batchRowsOf_snoc k b as _
  refine ⟨?_, h.actionable, ?_, ?_, ?_, ⟨h.once.1, List.nodup_cons.mpr ⟨fresh, h.once.2⟩⟩, ?_⟩
  · rw [peak_happen]
    exact h.count
  · intro b
    rw [rows]
    exact h.ordinals b
  · intro b
    rw [peak_happen, rows]
    exact h.rows b
  · rw [livesOf_snoc]
    exact h.lives
  · exact fun g mem => List.mem_cons_of_mem _ (h.after mem)

theorem TrackerRun.actionableOf_live (s : TrackerRun) (f : Nat) (corr : CorrelationId)
    (t : ParsedTrade) : (s.next digest (.live f corr t)).actionableOf k = s.actionableOf k +
      if t.keyOf = k ∧ (s.tracker.observeLive digest corr t).1.isActionable then 1 else 0 := by
  show List.countP _ (_ :: _) = _
  rw [List.countP_cons]
  simp only [decide_eq_true_eq]
  rfl

/-- A live row of the key raises its count by one up to the cap, and is actionable if it does. -/
theorem KeyTracked.live_moved {as : List TrackerEvent} {s : TrackerRun}
    (h : KeyTracked contentOf k as s) (digest : List UInt8 → String) (f : Nat)
    (corr : CorrelationId) {t : ParsedTrade} (key : t.keyOf = k)
    (admitted : s.tracker.Admitted t) :
    (s.next digest (.live f corr t)).tracker.dedup.count k = min 64 (peak k as.reverse + 1) ∧
      (s.next digest (.live f corr t)).actionableOf k =
        (s.next digest (.live f corr t)).tracker.dedup.count k := by
  have before := h.count
  have cases_ := s.tracker.observeLive_count digest corr admitted
  rw [key] at cases_
  rw [TrackerRun.actionableOf_live, h.actionable]
  show (s.tracker.observeLive digest corr t).2.dedup.count k = _ ∧
    _ = (s.tracker.observeLive digest corr t).2.dedup.count k
  rcases cases_ with ⟨no, full, eq⟩ | ⟨yes, under, eq⟩
  · rw [no, eq]
    exact ⟨by omega, by simp⟩
  · rw [yes, eq]
    exact ⟨by omega, by simp [key]⟩

theorem KeyTracked.live {as : List TrackerEvent} {s : TrackerRun} {f : Nat} {corr : CorrelationId}
    {t : ParsedTrade} (h : KeyTracked contentOf k as s)
    (enabled : s.Enabled contentOf (.live f corr t)) (admits : t.keyOf = k → s.tracker.Admitted t) :
    KeyTracked contentOf k (as ++ [.live f corr t]) (s.next digest (.live f corr t)) := by
  obtain ⟨happened, undelivered, content⟩ := enabled
  have rows : ∀ b, batchRowsOf k b (as ++ [.live f corr t]) = batchRowsOf k b as :=
    fun b => batchRowsOf_snoc k b as _
  have lives : livesOf k (as ++ [.live f corr t]) =
      (f :: s.delivered).countP fun g => contentOf g = k := by
    rw [livesOf_snoc, List.countP_cons, h.lives, ← content]
    rfl
  have once : (f :: s.delivered).Nodup ∧ s.happened.Nodup :=
    ⟨List.nodup_cons.mpr ⟨undelivered, h.once.1⟩, h.once.2⟩
  have after : f :: s.delivered ⊆ s.happened := List.cons_subset.mpr ⟨happened, h.after⟩
  by_cases key : t.keyOf = k
  · have up : peak k (as ++ [TrackerEvent.live f corr t]).reverse = peak k as.reverse + 1 :=
      (peak_live ..).trans (if_pos key)
    have moved := h.live_moved digest f corr key (admits key)
    refine ⟨?_, moved.2, ?_, ?_, lives, once, after⟩
    · rw [up]
      exact moved.1
    · intro b
      rw [rows]
      exact h.ordinals b
    · intro b
      have := h.rows b
      rw [up, rows]
      omega
  · have same : peak k (as ++ [TrackerEvent.live f corr t]).reverse = peak k as.reverse :=
      (peak_live ..).trans (if_neg key)
    have frame : (s.next digest (.live f corr t)).tracker.dedup.count k =
        s.tracker.dedup.count k :=
      (s.tracker.observe_frame digest corr t none).2 k (Ne.symm key)
    refine ⟨?_, ?_, ?_, ?_, lives, once, after⟩
    · rw [same, frame]
      exact h.count
    · rw [TrackerRun.actionableOf_live, frame, h.actionable]
      simp [key]
    · intro b
      rw [rows]
      exact h.ordinals b
    · intro b
      rw [same, rows]
      exact h.rows b

theorem TrackerRun.batch_insert (s : TrackerRun) (b b' : Nat) (p : BatchProgress)
    (tracker : WalletTracker) (detections : List (ContentKey × Detection)) :
    TrackerRun.batch { s with
      tracker := tracker
      batches := s.batches.insert b p
      detections := detections } b' = if b' = b then p else s.batch b' := by
  by_cases same : b' = b
  · subst same
    simp [batch]
  · simp [batch, same, AList.lookup_insert_ne same]

theorem batchRowsOf_row (k : ContentKey) (as : List TrackerEvent) (b f : Nat)
    (corr : CorrelationId) (t : ParsedTrade) (b' : Nat) :
    batchRowsOf k b' (as ++ [.row b f corr t]) =
      batchRowsOf k b' as + if b = b' ∧ t.keyOf = k then 1 else 0 := by
  rw [batchRowsOf_snoc]
  simp only [TrackerEvent.isRowOf, decide_eq_true_eq]

/-- The next ordinal of a batch is the number of its rows, which wraps like the counter. -/
theorem KeyTracked.row_ordinals {as : List TrackerEvent} {s : TrackerRun}
    (h : KeyTracked contentOf k as s) (digest : List UInt8 → String) (b f : Nat)
    (corr : CorrelationId) (t : ParsedTrade) (b' : Nat) :
    (((s.next digest (.row b f corr t)).batch b').ordinals.seen.lookup k).getD 0 =
      batchRowsOf k b' (as ++ [.row b f corr t]) % 2 ^ 32 := by
  have seen := h.ordinals b'
  rw [batchRowsOf_row]
  simp only [TrackerRun.next, WalletTracker.observeBackfill, BatchOrdinals.next,
    TrackerRun.batch_insert]
  by_cases here : b' = b
  · subst here
    by_cases key : t.keyOf = k
    · subst key
      simp only [if_true, AList.lookup_upsert, Option.getD_some, seen, and_self]
      omega
    · simp only [if_true, AList.lookup_upsert_ne _ _ (Ne.symm key), seen, key, and_false,
        if_false, Nat.add_zero]
  · simp only [here, if_false, Ne.symm here, false_and, Nat.add_zero, seen]

theorem TrackerRun.actionableOf_row (s : TrackerRun) (b f : Nat) (corr : CorrelationId)
    (t : ParsedTrade) : (s.next digest (.row b f corr t)).actionableOf k = s.actionableOf k +
      if t.keyOf = k ∧ (s.tracker.observe digest corr t
        (some (((s.batch b).ordinals.seen.lookup t.keyOf).getD 0))).1.isActionable then 1
      else 0 := by
  show List.countP _ (_ :: _) = _
  rw [List.countP_cons]
  simp only [decide_eq_true_eq]
  rfl

/-- A batch's row of the key raises its count to the ordinal after it, up to the cap. -/
theorem KeyTracked.row_moved {as : List TrackerEvent} {s : TrackerRun}
    (h : KeyTracked contentOf k as s) (digest : List UInt8 → String) (b f : Nat)
    (corr : CorrelationId) {t : ParsedTrade} (key : t.keyOf = k)
    (admitted : s.tracker.Admitted t) :
    (s.next digest (.row b f corr t)).tracker.dedup.count k =
        min 64 (max (peak k as.reverse) (batchRowsOf k b as + 1)) ∧
      (s.next digest (.row b f corr t)).actionableOf k =
        (s.next digest (.row b f corr t)).tracker.dedup.count k := by
  have count := h.count
  have near := h.rows b
  have cases_ := s.tracker.observe_ordinal_count digest corr
    (((s.batch b).ordinals.seen.lookup t.keyOf).getD 0) admitted
  rw [TrackerRun.actionableOf_row, h.actionable]
  show (s.tracker.observe digest corr t
      (some (((s.batch b).ordinals.seen.lookup t.keyOf).getD 0))).2.dedup.count k = _ ∧
    _ = (s.tracker.observe digest corr t
      (some (((s.batch b).ordinals.seen.lookup t.keyOf).getD 0))).2.dedup.count k
  rw [key, h.ordinals b] at cases_ ⊢
  rcases cases_ with ⟨no, held, eq⟩ | ⟨yes, under, fresh, eq⟩
  · rw [no, eq]
    exact ⟨by omega, by simp⟩
  · rw [yes, eq, if_pos ⟨rfl, rfl⟩]
    exact ⟨by omega, by omega⟩

theorem KeyTracked.row {as : List TrackerEvent} {s : TrackerRun} {b f : Nat}
    {corr : CorrelationId} {t : ParsedTrade} (h : KeyTracked contentOf k as s)
    (admits : t.keyOf = k → s.tracker.Admitted t) :
    KeyTracked contentOf k (as ++ [.row b f corr t]) (s.next digest (.row b f corr t)) := by
  have pos := batchRowsOf_row k as b f corr t
  have lives : livesOf k (as ++ [TrackerEvent.row b f corr t]) =
      s.delivered.countP fun g => contentOf g = k := by
    rw [livesOf_snoc, ← h.lives]
    rfl
  have ordinals := h.row_ordinals digest b f corr t
  by_cases key : t.keyOf = k
  · have up : peak k (as ++ [TrackerEvent.row b f corr t]).reverse =
        max (peak k as.reverse) (batchRowsOf k b as + 1) :=
      (peak_row ..).trans (if_pos key)
    have moved := h.row_moved digest b f corr key (admits key)
    have near := h.rows b
    refine ⟨?_, moved.2, ordinals, ?_, lives, h.once, h.after⟩
    · rw [up]
      exact moved.1
    · intro b'
      have := h.rows b'
      rw [up, pos]
      split
      next here => obtain ⟨rfl, _⟩ := here; omega
      next => omega
  · have same : peak k (as ++ [TrackerEvent.row b f corr t]).reverse = peak k as.reverse :=
      (peak_row ..).trans (if_neg key)
    have frame : (s.next digest (.row b f corr t)).tracker.dedup.count k =
        s.tracker.dedup.count k :=
      (s.tracker.observe_frame digest corr t (some _)).2 k (Ne.symm key)
    refine ⟨?_, ?_, ordinals, ?_, lives, h.once, h.after⟩
    · rw [same, frame]
      exact h.count
    · rw [TrackerRun.actionableOf_row, frame, h.actionable]
      simp [key]
    · intro b'
      rw [same, pos]
      simp only [key, and_false, if_false, Nat.add_zero]
      exact h.rows b'

/-- Every schedule keeps the key's count at the peak of the ordinals it claims, capped. -/
theorem keyTracked_of_run {wallets : List TargetWallet} {as : List TrackerEvent} {s : TrackerRun}
    (run : StepRun.Run (TrackerRun.step digest contentOf) (AdmitsKey k) (.start wallets) as s) :
    KeyTracked contentOf k as s := by
  induction run with
  | nil => exact .start wallets
  | @snoc as s u e _ admits taken ih =>
    obtain ⟨enabled, rfl⟩ : s.Enabled contentOf e ∧ s.next digest e = u := by
      simpa [TrackerRun.step] using taken
    cases e with
    | happen f => exact ih.happen enabled
    | live f corr t => exact ih.live enabled admits
    | row b f corr t => exact ih.row admits

end Invariant

variable (digest : List UInt8 → String) (contentOf : Nat → ContentKey) (k : ContentKey)

/-- A key with at most 64 fills is copied at most once a fill exactly when it has 64 of them or
no backfilled row is followed by too many live rows. -/
theorem actionable_le_fills_iff (wallets : List TargetWallet) {as : List TrackerEvent}
    {s : TrackerRun}
    (run : StepRun.Run (TrackerRun.step digest contentOf) (AdmitsKey k) (.start wallets) as s)
    (few : s.fillsOf contentOf k ≤ 64) :
    s.actionableOf k ≤ s.fillsOf contentOf k ↔
      s.fillsOf contentOf k = 64 ∨ LateLives k as (s.fillsOf contentOf k) := by
  have h := keyTracked_of_run run
  have lives := h.lives_le
  have within := peak_le_iff k as (s.fillsOf contentOf k)
  rw [h.actionable, h.count]
  constructor
  · intro le
    by_cases full : s.fillsOf contentOf k = 64
    · exact .inl full
    · exact .inr (within.mp (by omega)).2
  · rintro (full | late)
    · omega
    · have := within.mpr ⟨lives, late⟩
      omega

def backfillThenLive : List TrackerEvent :=
  [.happen 0, .row 0 0 ⟨0⟩ .sample, .live 0 ⟨1⟩ .sample]

def liveThenBackfill : List TrackerEvent :=
  [.happen 0, .live 0 ⟨0⟩ .sample, .row 0 0 ⟨1⟩ .sample]

def sampleRun (as : List TrackerEvent) : Option TrackerRun :=
  as.foldlM (fun s e => if AdmitsKey ParsedTrade.sample.keyOf s e then
    s.step (fun _ => "") (fun _ => ParsedTrade.sample.keyOf) e else none)
    (.start [.new .zero "Target"])

theorem actionable_le_fills_liveThenBackfill : ∃ s, sampleRun liveThenBackfill = some s ∧
    (s.actionableOf ParsedTrade.sample.keyOf ≤
      s.fillsOf (fun _ => ParsedTrade.sample.keyOf) ParsedTrade.sample.keyOf ↔
    s.fillsOf (fun _ => ParsedTrade.sample.keyOf) ParsedTrade.sample.keyOf = 64 ∨
      LateLives ParsedTrade.sample.keyOf liveThenBackfill
        (s.fillsOf (fun _ => ParsedTrade.sample.keyOf) ParsedTrade.sample.keyOf)) := by
  have ran : (sampleRun liveThenBackfill).map (TrackerRun.fillsOf
      (fun _ => ParsedTrade.sample.keyOf) ParsedTrade.sample.keyOf) = some 1 := by
    decide +kernel
  obtain ⟨s, hs, fills⟩ := Option.map_eq_some_iff.mp ran
  have few : s.fillsOf (fun _ => ParsedTrade.sample.keyOf) ParsedTrade.sample.keyOf ≤ 64 := by
    omega
  exact ⟨s, hs, actionable_le_fills_iff _ _ _ _ (StepRun.run_of_foldlM hs) few⟩

/-- The fill that was backfilled first is copied again when its live row comes. -/
theorem actionable_exceeds_fills : ¬ ∀ (digest : List UInt8 → String)
    (contentOf : Nat → ContentKey) (k : ContentKey) (wallets : List TargetWallet)
    (as : List TrackerEvent) (s : TrackerRun),
    StepRun.Run (TrackerRun.step digest contentOf) (AdmitsKey k) (.start wallets) as s →
      s.fillsOf contentOf k ≤ 64 → s.actionableOf k ≤ s.fillsOf contentOf k := by
  intro claim
  have ran : (sampleRun backfillThenLive).map (fun s =>
      (s.fillsOf (fun _ => ParsedTrade.sample.keyOf) ParsedTrade.sample.keyOf,
        s.actionableOf ParsedTrade.sample.keyOf)) = some (1, 2) := by
    decide +kernel
  obtain ⟨s, hs, counts⟩ := Option.map_eq_some_iff.mp ran
  obtain ⟨fills, actionable⟩ := Prod.mk.inj counts
  have atMost := claim _ _ _ _ _ s (StepRun.run_of_foldlM hs) (by omega)
  omega

end CopyTrading
