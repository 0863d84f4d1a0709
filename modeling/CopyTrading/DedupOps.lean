import CopyTrading.Dedup
import CopyTrading.StepRun

namespace CopyTrading

open StepRun

/-- The operations of the index, in the order in which they take its lock. -/
inductive DedupOp
  | live (key : ContentKey) (at_ : DateTime)
  | backfill (key : ContentKey) (indexWithinBatch : Nat) (at_ : DateTime)
  | restore (key : ContentKey) (occurrences : Nat) (at_ : DateTime)
  | evict (now : DateTime)

structure DedupLog where
  index : DedupIndex
  /-- The identities of the new verdicts, in order. -/
  issued : List (ContentKey × Nat)

def DedupLog.start (retention : Int) : DedupLog := ⟨.new retention, []⟩

/-- The identity that a verdict issues. -/
def DedupVerdict.issues (key : ContentKey) : DedupVerdict → List (ContentKey × Nat)
  | .new _ occurrence => [(key, occurrence)]
  | .duplicate .. => []

def DedupLog.step (digest : List UInt8 → String) (s : DedupLog) : DedupOp → Option DedupLog
  | .live key at_ =>
    let (verdict, index) := s.index.observeLive digest key at_
    some ⟨index, s.issued ++ verdict.issues key⟩
  | .backfill key i at_ =>
    let (verdict, index) := s.index.observeBackfill digest key i at_
    some ⟨index, s.issued ++ verdict.issues key⟩
  | .restore key occurrences at_ => some { s with index := s.index.restore key occurrences at_ }
  | .evict now => some { s with index := s.index.evictOlderThan now }

def NoEviction (_ : DedupLog) : DedupOp → Prop
  | .evict _ => False
  | _ => True

instance (s : DedupLog) (op : DedupOp) : Decidable (NoEviction s op) := by
  cases op <;> unfold NoEviction <;> infer_instance

/-- What one operation other than an eviction does to the log. -/
inductive Counted (s s' : DedupLog) : Prop
  /-- A duplicate. -/
  | idle (counts : s'.index.counts = s.index.counts) (lastSeen : s'.index.lastSeen = s.index.lastSeen)
    (issued : s'.issued = s.issued)
  /-- A key's count is set, and the identity below it is issued if it is a new one. -/
  | counted (key : ContentKey) (n : Nat) (at_ : DateTime) (more : s.index.count key ≤ n)
    (counts : s'.index.counts = s.index.counts.insert key n)
    (lastSeen : s'.index.lastSeen = s.index.lastSeen.insert key at_)
    (issued : s'.issued = s.issued ∨
      ∃ i, s'.issued = s.issued ++ [(key, i)] ∧ n = i + 1 ∧ s.index.count key ≤ i ∧ i < 64)

theorem DedupLog.step_counted {digest : List UInt8 → String} {s s' : DedupLog} {op : DedupOp}
    (kept : NoEviction s op) (taken : s.step digest op = some s') : Counted s s' := by
  cases op with
  | live key at_ =>
    rcases s.index.observeLive_cases digest key at_ with ⟨_, eq⟩ | ⟨under, eq⟩
    · simp only [step, eq] at taken
      cases taken
      exact .idle rfl rfl (List.append_nil _)
    · simp only [step, eq] at taken
      cases taken
      exact .counted key _ at_ (Nat.le_succ _) rfl rfl (.inr ⟨_, rfl, rfl, le_rfl, under⟩)
  | backfill key i at_ =>
    rcases s.index.observeBackfill_cases digest key i at_ with ⟨_, eq⟩ | ⟨_, _, eq⟩ |
      ⟨under, fresh, eq⟩
    · simp only [step, eq] at taken
      cases taken
      exact .idle rfl rfl (List.append_nil _)
    · simp only [step, eq] at taken
      cases taken
      exact .idle rfl rfl (List.append_nil _)
    · simp only [step, eq] at taken
      cases taken
      exact .counted key _ at_ (by omega) rfl rfl (.inr ⟨i, rfl, rfl, fresh, under⟩)
  | restore key occurrences at_ =>
    cases taken
    exact .counted key _ at_ (le_max_left _ _) rfl rfl (.inl rfl)
  | evict now => exact kept.elim

theorem Counted.count {s s' : DedupLog} (h : Counted s s') (k : ContentKey) :
    s.index.count k ≤ s'.index.count k := by
  cases h with
  | idle counts _ _ =>
    unfold DedupIndex.count
    rw [counts]
  | counted key n at_ more counts _ _ =>
    by_cases same : k = key
    · subst same
      have new : s'.index.count k = n := by
        unfold DedupIndex.count
        rw [counts, AList.lookup_insert, Option.getD_some]
      omega
    · have old : s'.index.count k = s.index.count k := by
        unfold DedupIndex.count
        rw [counts, AList.lookup_insert_ne same]
      omega

/-- Every identity issued lies below its key's count, and the two maps have the same keys. -/
structure IssuedInv (s : DedupLog) : Prop where
  below : ∀ p ∈ s.issued, p.2 < s.index.count p.1 ∧ p.2 < 64
  once : s.issued.Nodup
  keys : ∀ k, k ∈ s.index.counts ↔ k ∈ s.index.lastSeen

theorem IssuedInv.start (retention : Int) : IssuedInv (.start retention) := by
  refine ⟨?_, List.nodup_nil, fun _ => Iff.rfl⟩
  intro p mem
  cases mem

theorem Counted.inv {s s' : DedupLog} (c : Counted s s') (h : IssuedInv s) : IssuedInv s' := by
  have grows := c.count
  have below : ∀ p ∈ s.issued, p.2 < s'.index.count p.1 ∧ p.2 < 64 := by
    intro p mem
    obtain ⟨under, cap⟩ := h.below p mem
    have more := grows p.1
    exact ⟨by omega, cap⟩
  cases c with
  | idle counts lastSeen issued =>
    refine ⟨?_, ?_, ?_⟩
    · rw [issued]
      exact below
    · rw [issued]
      exact h.once
    · rw [counts, lastSeen]
      exact h.keys
  | counted key n at_ more counts lastSeen issued =>
    have keys : ∀ k, k ∈ s'.index.counts ↔ k ∈ s'.index.lastSeen := by
      intro k
      rw [counts, lastSeen, AList.mem_insert, AList.mem_insert]
      exact or_congr_right (h.keys k)
    rcases issued with same | ⟨i, new, eq, fresh, cap⟩
    · refine ⟨?_, ?_, keys⟩
      · rw [same]
        exact below
      · rw [same]
        exact h.once
    · have here : s'.index.count key = n := by
        unfold DedupIndex.count
        rw [counts, AList.lookup_insert, Option.getD_some]
      refine ⟨?_, ?_, keys⟩
      · intro p mem
        rw [new] at mem
        rcases List.mem_append.mp mem with old | last
        · exact below p old
        · cases List.mem_singleton.mp last
          have under : i < s'.index.count key := by omega
          exact ⟨under, cap⟩
      · rw [new]
        refine List.nodup_append.mpr ⟨h.once, List.nodup_singleton _, ?_⟩
        intro p old q last same
        rw [List.mem_singleton.mp last] at same
        subst same
        have under : i < s.index.count key := (h.below _ old).1
        omega

/-- At most 64 identities below 64 are issued for one key. -/
theorem IssuedInv.atMost {s : DedupLog} (h : IssuedInv s) (k : ContentKey) :
    (s.issued.filter fun p => p.1 = k).length ≤ 64 := by
  let ordinals := (s.issued.filter fun p => p.1 = k).map Prod.snd
  have nodup : ordinals.Nodup := by
    refine List.Nodup.map_on ?_ (h.once.filter _)
    intro p hp q hq same
    have hp := of_decide_eq_true (List.mem_filter.mp hp).2
    have hq := of_decide_eq_true (List.mem_filter.mp hq).2
    exact Prod.ext (hp.trans hq.symm) same
  have small : ordinals ⊆ List.range 64 := by
    intro i mem
    obtain ⟨p, listed, rfl⟩ := List.mem_map.mp mem
    exact List.mem_range.mpr (h.below p (List.mem_filter.mp listed).1).2
  have length := (List.subperm_of_subset nodup small).length_le
  rw [List.length_range, List.length_map] at length
  exact length

/-- Without eviction an identity is issued once, counts only grow, at most 64 fills of a content
are new, and the two maps keep the same keys. -/
theorem issued_once {digest : List UInt8 → String} {retention : Int} {ops later : List DedupOp}
    {s t : DedupLog} (run : Run (DedupLog.step digest) NoEviction (.start retention) ops s)
    (onward : Run (DedupLog.step digest) NoEviction s later t) :
    t.issued.Nodup ∧ (∀ k, s.index.count k ≤ t.index.count k) ∧ (∀ p ∈ t.issued, p.2 < 64) ∧
      (∀ k, (t.issued.filter fun p => p.1 = k).length ≤ 64) ∧
      ∀ k, k ∈ t.index.counts ↔ k ∈ t.index.lastSeen := by
  have inv : IssuedInv t := (run.append onward).keeps
    (fun _ _ _ h kept taken => (DedupLog.step_counted kept taken).inv h) (.start retention)
  have grows : ∀ k, s.index.count k ≤ t.index.count k := by
    refine onward.keeps (I := fun u => ∀ k, s.index.count k ≤ u.index.count k) ?_
      fun _ => le_rfl
    intro u op u' h kept taken k
    exact (h k).trans ((DedupLog.step_counted kept taken).count k)
  exact ⟨inv.once, grows, fun p mem => (inv.below p mem).2, inv.atMost, inv.keys⟩

def ContentKey.sample : ContentKey :=
  .new .zero .zero .zero .buy .half ParsedTrade.sample.quantity

/-- A fill seen live, found again by a backfill, and the same with a gap before it. -/
def seenTwice : List DedupOp :=
  [.live .sample 0, .backfill .sample 0 1, .restore .sample 1 2, .backfill .sample 3 3]

theorem issued_once_seenTwice : ∃ s t,
    Run (DedupLog.step fun _ => "") NoEviction (.start 0) seenTwice s ∧
    Run (DedupLog.step fun _ => "") NoEviction s [.live .sample 4] t ∧
    t.issued = [(.sample, 0), (.sample, 3), (.sample, 4)] ∧
    t.issued.Nodup ∧ (∀ k, s.index.count k ≤ t.index.count k) ∧ (∀ p ∈ t.issued, p.2 < 64) ∧
      (∀ k, (t.issued.filter fun p => p.1 = k).length ≤ 64) ∧
      ∀ k, k ∈ t.index.counts ↔ k ∈ t.index.lastSeen := by
  have ran : (seenTwice.foldlM (fun s op => if NoEviction s op then
      DedupLog.step (fun _ => "") s op else none) (.start 0)).any (fun s =>
        (DedupLog.step (fun _ => "") s (.live .sample 4)).any fun t =>
          t.issued = [(.sample, 0), (.sample, 3), (.sample, 4)]) = true := by
    decide +kernel
  obtain ⟨s, executed, last⟩ := (Option.any_eq_true _ _).mp ran
  obtain ⟨t, taken, issued⟩ := (Option.any_eq_true _ _).mp last
  have run := run_of_foldlM executed
  have onward : Run (DedupLog.step fun _ => "") NoEviction s [.live .sample 4] t :=
    .single trivial taken
  exact ⟨s, t, run, onward, of_decide_eq_true issued, issued_once run onward⟩

end CopyTrading
