import Mathlib.Data.Int.ConditionallyCompleteOrder
import Mathlib.Data.Rat.Floor
import Mathlib.Data.List.Sort
import Mathlib.Order.Monotone.Basic
import CopyTrading.RingBuffer

namespace CopyTrading

inductive LatencyStage
  | detection
  | strategy
  | risk
  | submission
  | ack
  | execution
  | internal
  | endToEnd
deriving DecidableEq

def LatencyStage.all : List LatencyStage :=
  [detection, strategy, risk, submission, ack, execution, internal, endToEnd]

def latencyCapacity : Nat := 4096

structure LatencyStats where
  count : UInt64
  minUs : Int
  meanUs : Int
  p50Us : Int
  p95Us : Int
  p99Us : Int
  maxUs : Int
deriving DecidableEq

/-- The rank of a percentile among so many samples: `(p * n as f64).ceil() as usize`. -/
abbrev Rank := ℚ → Nat → Nat

/-- `at`: the sample of that rank, counted from one and held inside the list. -/
def percentile (rank : Rank) (s : List Int) (some_ : s ≠ []) (p : ℚ) : Int :=
  s.get ⟨min (rank p s.length - 1) (s.length - 1), by
    have pos := List.length_pos_iff.mpr some_
    omega⟩

theorem mergeSort_ne_nil {buf : List Int} (some_ : buf ≠ []) : buf.mergeSort (· ≤ ·) ≠ [] := by
  intro none_
  have perm := List.mergeSort_perm buf (· ≤ ·)
  rw [none_] at perm
  exact some_ perm.nil_eq.symm

/-- The statistics of sorted samples. -/
def sortedStats (rank : Rank) (total : UInt64) (s : List Int) (some_ : s ≠ []) : LatencyStats where
  count := total
  minUs := s.head some_
  meanUs := (Int.bmod s.sum (2 ^ 64)).tdiv s.length
  p50Us := percentile rank s some_ (50 / 100)
  p95Us := percentile rank s some_ (95 / 100)
  p99Us := percentile rank s some_ (99 / 100)
  maxUs := s.getLast some_

/-- The statistics of a stage that took so many samples, of which these are kept. -/
def statsOf (rank : Rank) (total : UInt64) (buf : List Int) : Option LatencyStats :=
  if empty : buf = [] then none
  else some (sortedStats rank total (buf.mergeSort (· ≤ ·)) (mergeSort_ne_nil empty))

section Sorted

variable {rank : Rank} {s : List Int} (some_ : s ≠ [])

theorem percentile_mem (p : ℚ) : percentile rank s some_ p ∈ s := List.get_mem s _

theorem percentile_mono (sorted : s.SortedLE) (mono : Monotone fun p => rank p s.length) {p q : ℚ}
    (le : p ≤ q) : percentile rank s some_ p ≤ percentile rank s some_ q := by
  apply sorted.monotone_get
  have ranks : rank p s.length ≤ rank q s.length := mono le
  rw [Fin.mk_le_mk]
  omega

theorem head_le_of_sorted (sorted : s.SortedLE) {v : Int} (mem : v ∈ s) : s.head some_ ≤ v := by
  obtain ⟨i, rfl⟩ := List.mem_iff_get.mp mem
  rw [List.head_eq_getElem_zero]
  exact sorted.monotone_get (a := ⟨0, List.length_pos_iff.mpr some_⟩) (Nat.zero_le i)

theorem le_getLast_of_sorted (sorted : s.SortedLE) {v : Int} (mem : v ∈ s) :
    v ≤ s.getLast some_ := by
  obtain ⟨i, rfl⟩ := List.mem_iff_get.mp mem
  have pos := List.length_pos_iff.mpr some_
  have below : i ≤ ⟨s.length - 1, by omega⟩ := Fin.le_def.mpr (Nat.le_pred_of_lt i.isLt)
  rw [List.getLast_eq_getElem]
  exact sorted.monotone_get below

end Sorted

structure LatencyWindow extends RingBuffer.Ring Int where
  total : UInt64
deriving DecidableEq

namespace LatencyWindow

def new : LatencyWindow := ⟨.new, 0⟩

def push (r : LatencyWindow) (v : Int) : LatencyWindow :=
  ⟨r.toRing.push latencyCapacity v, r.total + 1⟩

def stats (rank : Rank) (r : LatencyWindow) : Option LatencyStats := statsOf rank r.total r.buf

end LatencyWindow

structure LatencyRecorder where
  stages : List (LatencyStage × LatencyWindow)
deriving DecidableEq

namespace LatencyRecorder

def new : LatencyRecorder := ⟨LatencyStage.all.map fun s => (s, .new)⟩

/-- The first entry of the stage takes the sample. -/
def pushAt (stage : LatencyStage) (micros : Int) :
    List (LatencyStage × LatencyWindow) → List (LatencyStage × LatencyWindow)
  | [] => []
  | (s, r) :: rest =>
    if s = stage then (s, r.push micros) :: rest else (s, r) :: pushAt stage micros rest

def record (l : LatencyRecorder) (stage : LatencyStage) (micros : Int) : LatencyRecorder :=
  -- a clock went backwards
  if micros < 0 then l else ⟨pushAt stage micros l.stages⟩

def stats (rank : Rank) (l : LatencyRecorder) (stage : LatencyStage) : Option LatencyStats :=
  (l.stages.find? fun e => e.1 = stage).bind fun e => e.2.stats rank

def run (records : List (LatencyStage × Int)) : LatencyRecorder :=
  records.foldl (fun l r => l.record r.1 r.2) new

/-- What a stage was told, without the negative deltas. -/
def samples (records : List (LatencyStage × Int)) (stage : LatencyStage) : List Int :=
  (records.filter fun r => r.1 = stage ∧ 0 ≤ r.2).map Prod.snd

/-- The samples the statistics of a stage are about. -/
def recent (records : List (LatencyStage × Int)) (stage : LatencyStage) : List Int :=
  (samples records stage).rtake latencyCapacity

theorem samples_append (records : List (LatencyStage × Int)) (r : LatencyStage × Int)
    (stage : LatencyStage) : samples (records ++ [r]) stage =
      samples records stage ++ if r.1 = stage ∧ 0 ≤ r.2 then [r.2] else [] := by
  rw [samples, List.filter_append, List.map_append]
  split
  next taken => simp [samples, taken]
  next dropped => simp [samples, dropped]

/-- Only the entry of the stage changes, stages being listed once. -/
theorem pushAt_map {stages : List LatencyStage} (nodup : stages.Nodup)
    (window : LatencyStage → LatencyWindow) (stage : LatencyStage) (micros : Int) :
    pushAt stage micros (stages.map fun s => (s, window s)) =
      stages.map fun s => (s, if s = stage then (window s).push micros else window s) := by
  induction stages with
  | nil => rfl
  | cons s rest ih =>
    obtain ⟨absent, nodup⟩ := List.nodup_cons.mp nodup
    simp only [List.map_cons, pushAt]
    by_cases here : s = stage
    · have others : ∀ x ∈ rest,
          (x, window x) = (x, if x = stage then (window x).push micros else window x) := by
        intro x mem
        have ne : x ≠ stage := fun eq => absent (here ▸ eq ▸ mem)
        rw [if_neg ne]
      rw [if_pos here, if_pos here, List.map_congr_left others]
    · rw [if_neg here, if_neg here, ih nodup]

def windowAfter (samples : List Int) : LatencyWindow := samples.foldl LatencyWindow.push .new

theorem windowAfter_append (samples : List Int) (v : Int) :
    windowAfter (samples ++ [v]) = (windowAfter samples).push v := by
  rw [windowAfter, List.foldl_append]
  rfl

/-- Each stage keeps a window of its own, over its own samples. -/
theorem run_stages (records : List (LatencyStage × Int)) :
    (run records).stages = LatencyStage.all.map fun s => (s, windowAfter (samples records s)) := by
  induction records using List.reverseRecOn with
  | nil => rfl
  | append_singleton records r ih =>
    have after : run (records ++ [r]) = (run records).record r.1 r.2 := by
      rw [run, List.foldl_append]
      rfl
    rw [after, record]
    split
    next backwards =>
      rw [ih]
      refine List.map_congr_left fun s _ => ?_
      have dropped : ¬(r.1 = s ∧ 0 ≤ r.2) := fun taken => by omega
      rw [samples_append, if_neg dropped, List.append_nil]
    next forwards =>
      have nodup : LatencyStage.all.Nodup := by decide
      rw [ih, pushAt_map nodup]
      refine List.map_congr_left fun s _ => ?_
      by_cases here : s = r.1
      · have taken : r.1 = s ∧ 0 ≤ r.2 := ⟨here.symm, not_lt.mp forwards⟩
        rw [samples_append, if_pos taken, if_pos here, windowAfter_append]
      · have other : ¬(r.1 = s ∧ 0 ≤ r.2) := fun taken => here taken.1.symm
        rw [samples_append, if_neg other, if_neg here, List.append_nil]

theorem run_stats (rank : Rank) (records : List (LatencyStage × Int)) (stage : LatencyStage) :
    (run records).stats rank stage = (windowAfter (samples records stage)).stats rank := by
  rw [stats, run_stages]
  cases stage <;> rfl

theorem windowAfter_total (samples : List Int) :
    (windowAfter samples).total = UInt64.ofNat samples.length := by
  induction samples using List.reverseRecOn with
  | nil => rfl
  | append_singleton samples v ih =>
    rw [windowAfter_append, List.length_append, UInt64.ofNat_add, ← ih]
    rfl

theorem windowAfter_ring (samples : List Int) : (windowAfter samples).toRing =
    samples.foldl (RingBuffer.Ring.push latencyCapacity) .new := by
  induction samples using List.reverseRecOn with
  | nil => rfl
  | append_singleton samples v ih =>
    rw [windowAfter_append, List.foldl_append, ← ih]
    rfl

theorem windowAfter_perm (samples : List Int) :
    (windowAfter samples).buf.Perm (samples.rtake latencyCapacity) := by
  have pos : 0 < latencyCapacity := by decide
  have holds := RingBuffer.Ring.holds_pushes pos samples
  rw [← windowAfter_ring] at holds
  exact holds.perm

theorem mergeSort_congr {buf buf' : List Int} (perm : buf.Perm buf') :
    buf.mergeSort (· ≤ ·) = buf'.mergeSort (· ≤ ·) := by
  have perm' := ((List.mergeSort_perm buf (· ≤ ·)).trans perm).trans
    (List.mergeSort_perm buf' (· ≤ ·)).symm
  refine perm'.eq_of_pairwise ?_ (List.pairwise_mergeSort' _ buf) (List.pairwise_mergeSort' _ buf')
  intro a b _ _ le ge
  exact le_antisymm le ge

/-- The statistics look at the samples as a multiset. -/
theorem statsOf_perm (rank : Rank) (total : UInt64) {buf buf' : List Int} (perm : buf.Perm buf') :
    statsOf rank total buf = statsOf rank total buf' := by
  unfold statsOf
  by_cases empty : buf = []
  · have empty' : buf' = [] := (empty ▸ perm).nil_eq.symm
    rw [dif_pos empty, dif_pos empty']
  · have some_ : buf' ≠ [] := fun empty' => empty (empty' ▸ perm).eq_nil
    rw [dif_neg empty, dif_neg some_]
    simp only [mergeSort_congr perm]

/-- Whatever the statistics report is a sample, and in order. -/
theorem statsOf_spec {rank : Rank} (mono : ∀ n, Monotone fun p => rank p n) {total : UInt64}
    {buf : List Int} {st : LatencyStats} (reported : statsOf rank total buf = some st) :
    st.count = total ∧ (st.minUs ∈ buf ∧ ∀ v ∈ buf, st.minUs ≤ v) ∧
      (st.maxUs ∈ buf ∧ ∀ v ∈ buf, v ≤ st.maxUs) ∧
      (st.p50Us ∈ buf ∧ st.p95Us ∈ buf ∧ st.p99Us ∈ buf) ∧
      st.minUs ≤ st.p50Us ∧ st.p50Us ≤ st.p95Us ∧ st.p95Us ≤ st.p99Us ∧ st.p99Us ≤ st.maxUs := by
  unfold statsOf at reported
  split at reported
  next => cases reported
  next some_ =>
    cases Option.some.inj reported
    have sorted := List.sortedLE_mergeSort (l := buf)
    have listed : ∀ {v}, v ∈ buf.mergeSort (· ≤ ·) ↔ v ∈ buf := List.mem_mergeSort
    have nonempty := mergeSort_ne_nil some_
    have kept : ∀ p, percentile rank _ nonempty p ∈ buf.mergeSort (· ≤ ·) := percentile_mem nonempty
    have rises := mono (buf.mergeSort (· ≤ ·)).length
    exact ⟨rfl, ⟨listed.mp (List.head_mem nonempty),
        fun v mem => head_le_of_sorted nonempty sorted (listed.mpr mem)⟩,
      ⟨listed.mp (List.getLast_mem nonempty),
        fun v mem => le_getLast_of_sorted nonempty sorted (listed.mpr mem)⟩,
      ⟨listed.mp (kept _), listed.mp (kept _), listed.mp (kept _)⟩,
      head_le_of_sorted nonempty sorted (kept _),
      percentile_mono nonempty sorted rises (by norm_num),
      percentile_mono nonempty sorted rises (by norm_num),
      le_getLast_of_sorted nonempty sorted (kept _)⟩

/-- Ranks as exact arithmetic counts them. -/
def nearestRank : Rank := fun p n => ⌈p * n⌉₊

theorem nearestRank_mono (n : Nat) : Monotone fun p => nearestRank p n := by
  intro p q le
  exact Nat.ceil_mono (mul_le_mul_of_nonneg_right le n.cast_nonneg)

/-- The statistics of a stage are those of its latest samples, whatever was recorded before. -/
theorem latency_ring_recent (rank : Rank) (mono : ∀ n, Monotone fun p => rank p n)
    (records : List (LatencyStage × Int)) (stage : LatencyStage) :
    (recent records stage).length = min (samples records stage).length 4096 ∧
      recent records stage <:+ samples records stage ∧
      (run records).stats rank stage =
        statsOf rank (UInt64.ofNat (samples records stage).length) (recent records stage) ∧
      (((run records).stats rank stage).isSome ↔ recent records stage ≠ []) ∧
      ∀ st, (run records).stats rank stage = some st →
        st.count = UInt64.ofNat (samples records stage).length ∧
        (st.minUs ∈ recent records stage ∧ ∀ v ∈ recent records stage, st.minUs ≤ v) ∧
        (st.maxUs ∈ recent records stage ∧ ∀ v ∈ recent records stage, v ≤ st.maxUs) ∧
        (st.p50Us ∈ recent records stage ∧ st.p95Us ∈ recent records stage ∧
          st.p99Us ∈ recent records stage) ∧
        st.minUs ≤ st.p50Us ∧ st.p50Us ≤ st.p95Us ∧ st.p95Us ≤ st.p99Us ∧
        st.p99Us ≤ st.maxUs := by
  have whole : (run records).stats rank stage =
      statsOf rank (UInt64.ofNat (samples records stage).length) (recent records stage) := by
    rw [run_stats, LatencyWindow.stats, windowAfter_total]
    exact statsOf_perm rank _ (windowAfter_perm _)
  refine ⟨?_, List.drop_suffix _ _, whole, ?_, fun st reported => ?_⟩
  · rw [recent, List.rtake, List.length_drop, latencyCapacity]
    omega
  · rw [whole, statsOf]
    split
    next empty => simp [empty]
    next some_ => simp [some_]
  · exact statsOf_spec mono (whole ▸ reported)

/-- The clock went backwards once, and another stage was measured in between. -/
def backwardsOnce : List (LatencyStage × Int) := [(.risk, 500), (.risk, -7), (.ack, 3), (.risk, 12)]

theorem latency_backwardsOnce : ∃ st, (run backwardsOnce).stats nearestRank .risk = some st ∧
    st.count = 2 ∧ st.minUs = 12 ∧ st.maxUs = 500 ∧ st.p50Us ∈ [(500 : Int), 12] := by
  obtain ⟨_, _, _, some_, spec⟩ :=
    latency_ring_recent nearestRank nearestRank_mono backwardsOnce .risk
  have kept : recent backwardsOnce .risk = [500, 12] := by decide
  rw [kept] at some_ spec
  obtain ⟨st, reported⟩ := Option.isSome_iff_exists.mp (some_.mpr (List.cons_ne_nil _ _))
  obtain ⟨count, ⟨least, below⟩, ⟨most, above⟩, ⟨p50, _⟩, _⟩ := spec st reported
  have low := below 12 (by simp)
  have high := above 500 (by simp)
  simp only [List.mem_cons, List.not_mem_nil, or_false] at least most
  exact ⟨st, reported, count, by omega, by omega, p50⟩

end LatencyRecorder

end CopyTrading
