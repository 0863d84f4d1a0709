import CopyTrading.Dedup
import Mathlib.Algebra.BigOperators.Group.Finset.Piecewise
import Mathlib.Data.Nat.Count

namespace CopyTrading

abbrev BatchRow := ContentKey × DateTime

/-- A batch half way through: the index, the batch's own ordinals and the verdicts so far. -/
structure BatchState where
  index : DedupIndex
  ordinals : BatchOrdinals
  verdicts : List (ContentKey × DedupVerdict)

def BatchState.row (digest : List UInt8 → String) (s : BatchState) (r : BatchRow) : BatchState :=
  let (ordinal, ordinals) := s.ordinals.next r.1
  let (verdict, index) := s.index.observeBackfill digest r.1 ordinal r.2
  ⟨index, ordinals, s.verdicts ++ [(r.1, verdict)]⟩

def processBatch (digest : List UInt8 → String) (d : DedupIndex) (rows : List BatchRow) :
    BatchState :=
  rows.foldl (BatchState.row digest) ⟨d, .new, []⟩

def rowsOf (rows : List BatchRow) (k : ContentKey) : Nat := (rows.map Prod.fst).count k

def newOf (verdicts : List (ContentKey × DedupVerdict)) (k : ContentKey) : List DedupVerdict :=
  (verdicts.filter fun v => v.1 = k ∧ v.2.isNew).map Prod.snd

/-- Of a key's first `m` ordinals, those at or above the cap; the ordinal counts modulo 2^32. -/
def overCap (m : Nat) : Nat := Nat.count (fun i => 64 ≤ i % 2 ^ 32) m

/-- A row whose ordinal has wrapped round is not counted. -/
theorem overCap_wrapped {m : Nat} (low : m % 2 ^ 32 < 64) : overCap (m + 1) = overCap m := by
  unfold overCap
  rw [Nat.count_succ, if_neg (by omega), Nat.add_zero]

/-- As long as the counter does not wrap, all but the first 64 rows are over the cap. -/
theorem overCap_eq {m : Nat} (small : m ≤ 2 ^ 32) : overCap m = m - 64 := by
  induction m with
  | zero => rfl
  | succ m ih =>
    have before := ih (by omega)
    unfold overCap at before ⊢
    have same : m % 2 ^ 32 = m := Nat.mod_eq_of_lt (by omega)
    rw [Nat.count_succ, before, same]
    split <;> omega

theorem rowsOf_snoc (rows : List BatchRow) (r : BatchRow) (k : ContentKey) :
    rowsOf (rows ++ [r]) k = rowsOf rows k + if r.1 = k then 1 else 0 := by
  simp [rowsOf, List.count_append, List.count_singleton]

theorem rowsOf_eq_zero {rows : List BatchRow} {k : ContentKey} (h : k ∉ rows.map Prod.fst) :
    rowsOf rows k = 0 := List.count_eq_zero.mpr h

theorem newOf_snoc (vs : List (ContentKey × DedupVerdict)) (v : ContentKey × DedupVerdict)
    (k : ContentKey) :
    newOf (vs ++ [v]) k = newOf vs k ++ if v.1 = k ∧ v.2.isNew then [v.2] else [] := by
  simp only [newOf, List.filter_append, List.map_append]
  congr 1
  by_cases h : v.1 = k ∧ v.2.isNew
  · simp [h]
  · simp [h]

section Reconcile

variable {digest : List UInt8 → String}

theorem sum_overCap_snoc (rows : List BatchRow) (r : BatchRow) :
    ∑ k ∈ ((rows ++ [r]).map Prod.fst).toFinset, overCap (rowsOf (rows ++ [r]) k) =
      (∑ k ∈ (rows.map Prod.fst).toFinset, overCap (rowsOf rows k)) +
        if 64 ≤ rowsOf rows r.1 % 2 ^ 32 then 1 else 0 := by
  set all := ((rows ++ [r]).map Prod.fst).toFinset with hall
  have sub : (rows.map Prod.fst).toFinset ⊆ all := by
    intro k hk
    simp only [hall, List.map_append, List.toFinset_append, Finset.mem_union]
    exact .inl hk
  have mem : r.1 ∈ all := by simp [hall]
  have wider : ∑ k ∈ (rows.map Prod.fst).toFinset, overCap (rowsOf rows k) =
      ∑ k ∈ all, overCap (rowsOf rows k) := by
    apply Finset.sum_subset sub
    intro k _ hk
    rw [rowsOf_eq_zero (by simpa using hk)]
    rfl
  have each : ∀ k ∈ all, overCap (rowsOf (rows ++ [r]) k) = overCap (rowsOf rows k) +
      if r.1 = k then (if 64 ≤ rowsOf rows r.1 % 2 ^ 32 then 1 else 0) else 0 := by
    intro k _
    rw [rowsOf_snoc]
    by_cases same : r.1 = k
    · subst same
      simp only [if_true]
      exact Nat.count_succ ..
    · simp [same]
  rw [Finset.sum_congr rfl each, Finset.sum_add_distrib, Finset.sum_ite_eq, if_pos mem, wider]

/-- What a batch has done to the index after the rows read so far. -/
structure Reconciled (digest : List UInt8 → String) (d : DedupIndex) (rows : List BatchRow)
    (s : BatchState) : Prop where
  keys : s.verdicts.map Prod.fst = rows.map Prod.fst
  seen : ∀ k, (s.ordinals.seen.lookup k).getD 0 = rowsOf rows k % 2 ^ 32
  count : ∀ k, s.index.count k = max (d.count k) (min (rowsOf rows k) 64)
  news : ∀ k, newOf s.verdicts k =
    (List.range' (d.count k) (min (rowsOf rows k) 64 - d.count k)).map fun o =>
      .new (k.eventId digest o) o
  untouched : ∀ k, k ∉ rows.map Prod.fst → s.index.counts.lookup k = d.counts.lookup k ∧
    s.index.lastSeen.lookup k = d.lastSeen.lookup k
  suspicious : s.index.suspicious = d.suspicious +
    UInt64.ofNat (∑ k ∈ (rows.map Prod.fst).toFinset, overCap (rowsOf rows k))

theorem Reconciled.start (d : DedupIndex) : Reconciled digest d [] ⟨d, .new, []⟩ where
  keys := rfl
  seen _ := rfl
  count k := by simp [rowsOf]
  news k := by simp [rowsOf, newOf]
  untouched _ _ := ⟨rfl, rfl⟩
  suspicious := by simp

theorem Reconciled.seen_row {d : DedupIndex} {rows : List BatchRow} {s : BatchState}
    (h : Reconciled digest d rows s) (r : BatchRow) (k : ContentKey) :
    ((s.row digest r).ordinals.seen.lookup k).getD 0 = rowsOf (rows ++ [r]) k % 2 ^ 32 := by
  rw [rowsOf_snoc]
  show ((s.ordinals.seen.upsert r.1 0 fun v => (v + 1) % 2 ^ 32).lookup k).getD 0 = _
  by_cases same : r.1 = k
  · subst same
    rw [AList.lookup_upsert, Option.getD_some, h.seen, if_pos rfl]
    omega
  · rw [AList.lookup_upsert_ne _ _ (Ne.symm same), h.seen, if_neg same, Nat.add_zero]

theorem Reconciled.keys_row {d : DedupIndex} {rows : List BatchRow} {s : BatchState}
    (h : Reconciled digest d rows s) (r : BatchRow) :
    (s.row digest r).verdicts.map Prod.fst = (rows ++ [r]).map Prod.fst := by
  show (s.verdicts ++ [_]).map Prod.fst = _
  rw [List.map_append, List.map_append, h.keys]
  rfl

theorem Reconciled.duplicate_row {d index : DedupIndex} {rows : List BatchRow} {s : BatchState}
    (h : Reconciled digest d rows s) {r : BatchRow} {verdict : DedupVerdict}
    (row : s.row digest r =
      ⟨index, (s.ordinals.next r.1).2, s.verdicts ++ [(r.1, verdict)]⟩)
    (duplicate : verdict.isNew = false) (counts : index.counts = s.index.counts)
    (lastSeen : index.lastSeen = s.index.lastSeen)
    (held : min (rowsOf rows r.1 + 1) 64 ≤ max (d.count r.1) (min (rowsOf rows r.1) 64))
    (suspicious : index.suspicious = s.index.suspicious +
      UInt64.ofNat (if 64 ≤ rowsOf rows r.1 % 2 ^ 32 then 1 else 0)) :
    Reconciled digest d (rows ++ [r]) (s.row digest r) := by
  refine ⟨h.keys_row r, h.seen_row r, ?_, ?_, ?_, ?_⟩
  · intro k
    have at_k := h.count k
    rw [row, rowsOf_snoc, DedupIndex.count, counts]
    change s.index.count k = _
    split
    next same => subst same; omega
    next => exact at_k
  · intro k
    rw [row, newOf_snoc, h.news, rowsOf_snoc]
    simp only [duplicate, Bool.false_eq_true, and_false, if_false, List.append_nil]
    split
    next same => subst same; congr 2; omega
    next => rfl
  · intro k out
    rw [row, counts, lastSeen]
    exact h.untouched k fun mem => out (by simp [mem])
  · rw [row, sum_overCap_snoc, UInt64.ofNat_add, suspicious, h.suspicious, UInt64.add_assoc]

theorem Reconciled.step {d : DedupIndex} {rows : List BatchRow} {s : BatchState}
    (h : Reconciled digest d rows s) (r : BatchRow) :
    Reconciled digest d (rows ++ [r]) (s.row digest r) := by
  have held := h.count r.1
  have row : s.row digest r =
      ⟨(s.index.observeBackfill digest r.1 (rowsOf rows r.1 % 2 ^ 32) r.2).2,
        (s.ordinals.next r.1).2, s.verdicts ++ [(r.1,
          (s.index.observeBackfill digest r.1 (rowsOf rows r.1 % 2 ^ 32) r.2).1)]⟩ := by
    rw [← h.seen r.1]
    rfl
  rcases s.index.observeBackfill_cases digest r.1 (rowsOf rows r.1 % 2 ^ 32) r.2 with
    ⟨full, eq⟩ | ⟨under, seen, eq⟩ | ⟨under, fresh, eq⟩
  · rw [eq] at row
    apply h.duplicate_row row rfl rfl rfl (by omega)
    rw [if_pos full]
    rfl
  · rw [eq] at row
    apply h.duplicate_row row rfl rfl rfl (by omega)
    rw [if_neg (by omega)]
    simp
  · -- the next ordinal of its key: the wrapped counter cannot get here
    have small : rowsOf rows r.1 % 2 ^ 32 = rowsOf rows r.1 := by omega
    rw [small] at row eq under fresh
    refine ⟨h.keys_row r, h.seen_row r, ?_, ?_, ?_, ?_⟩
    · intro k
      rw [row, eq, rowsOf_snoc]
      show DedupIndex.count _ k = _
      rw [DedupIndex.count_insert]
      have at_k := h.count k
      by_cases same : r.1 = k
      · subst same
        rw [if_pos rfl, if_pos rfl]
        omega
      · rw [if_neg (Ne.symm same), if_neg same]
        exact at_k
    · intro k
      rw [row, eq, newOf_snoc, h.news, rowsOf_snoc]
      by_cases same : r.1 = k
      · subst same
        have grow : min (rowsOf rows r.1 + 1) 64 - d.count r.1 =
            min (rowsOf rows r.1) 64 - d.count r.1 + 1 := by omega
        have last : d.count r.1 + (min (rowsOf rows r.1) 64 - d.count r.1) =
            rowsOf rows r.1 := by omega
        simp only [DedupVerdict.isNew, and_self, if_true]
        rw [grow, List.range'_concat, List.map_append, one_mul, last]
        rfl
      · simp [same]
    · intro k out
      have other : k ≠ r.1 := fun same => out (by simp [same])
      rw [row, eq]
      simp only [AList.lookup_insert_ne other]
      exact h.untouched k fun mem => out (by simp [mem])
    · rw [row, eq, sum_overCap_snoc, if_neg (by omega)]
      exact h.suspicious

/-- The whole batch, by induction on its rows. -/
theorem reconciled_processBatch (digest : List UInt8 → String) (d : DedupIndex)
    (rows : List BatchRow) :
    Reconciled digest d rows (processBatch digest d rows) := by
  induction rows using List.reverseRecOn with
  | nil => exact .start d
  | append_singleton rows r ih =>
    unfold processBatch at ih ⊢
    rw [List.foldl_append]
    exact ih.step r

/-- Every row of a batch that asks for no more occurrences than the index holds is a duplicate. -/
theorem processBatch_noNew {d : DedupIndex} {rows : List BatchRow}
    (held : ∀ k, min (rowsOf rows k) 64 ≤ d.count k) :
    ∀ v ∈ (processBatch digest d rows).verdicts, v.2.isNew = false := by
  intro v mem
  have none := (reconciled_processBatch digest d rows).news v.1
  rw [Nat.sub_eq_zero_of_le (held v.1)] at none
  by_contra isNew
  have found : v.2 ∈ newOf (processBatch digest d rows).verdicts v.1 :=
    List.mem_map.mpr ⟨v, List.mem_filter.mpr ⟨mem, by simpa using isNew⟩, rfl⟩
  rw [none] at found
  exact absurd found (by simp)

end Reconcile

variable (digest : List UInt8 → String)

/-- A batch through `observe_backfill` reconciles each key's rows with its recorded count. -/
theorem processBatch_reconciles (d : DedupIndex) (rows : List BatchRow) :
    (processBatch digest d rows).verdicts.map Prod.fst = rows.map Prod.fst ∧
    (∀ k, newOf (processBatch digest d rows).verdicts k =
      (List.range' (d.count k) (min (rowsOf rows k) 64 - d.count k)).map fun o =>
        .new (k.eventId digest o) o) ∧
    (∀ k, (processBatch digest d rows).index.count k =
      max (d.count k) (min (rowsOf rows k) 64)) ∧
    (∀ k, k ∉ rows.map Prod.fst →
      (processBatch digest d rows).index.counts.lookup k = d.counts.lookup k ∧
      (processBatch digest d rows).index.lastSeen.lookup k = d.lastSeen.lookup k) ∧
    (processBatch digest d rows).index.suspicious = d.suspicious +
      UInt64.ofNat (∑ k ∈ (rows.map Prod.fst).toFinset, overCap (rowsOf rows k)) ∧
    (∀ m ≤ 2 ^ 32, overCap m = m - 64) ∧
    (∀ v ∈ (processBatch digest (processBatch digest d rows).index rows).verdicts,
      v.2.isNew = false) := by
  have h := reconciled_processBatch digest d rows
  refine ⟨h.keys, h.news, h.count, h.untouched, h.suspicious, fun m small => overCap_eq small, ?_⟩
  apply processBatch_noNew
  intro k
  rw [h.count k]
  exact le_max_right _ _

theorem processBatch_replicate (d : DedupIndex) (r : BatchRow) {n : Nat} (some : n ≠ 0) :
    (processBatch digest d (List.replicate n r)).index.suspicious =
      d.suspicious + UInt64.ofNat (overCap n) := by
  have rows : rowsOf (List.replicate n r) r.1 = n := by
    rw [rowsOf, List.map_replicate, List.count_replicate_self]
  have keys : ((List.replicate n r).map Prod.fst).toFinset = {r.1} := by
    rw [List.map_replicate, List.toFinset_replicate_of_ne_zero some]
  rw [(reconciled_processBatch ..).suspicious, keys, Finset.sum_singleton, rows]

def ContentKey.zero : ContentKey := ⟨.zero, .zero, .zero, .buy, "0.98", "5"⟩

/-- One row more than the counter holds: the last one is not seen as suspicious. -/
theorem processBatch_counter_wraps :
    (processBatch (fun _ => "") .default
      (List.replicate (2 ^ 32 + 1) (ContentKey.zero, 0))).index.suspicious ≠
      DedupIndex.default.suspicious + UInt64.ofNat (2 ^ 32 + 1 - 64) := by
  have wrapped : overCap (2 ^ 32 + 1) = overCap (2 ^ 32) := overCap_wrapped (by decide)
  have before : overCap (2 ^ 32) = 2 ^ 32 - 64 := overCap_eq (le_refl (2 ^ 32))
  rw [processBatch_replicate _ _ _ (by omega), wrapped, before]
  decide

end CopyTrading
