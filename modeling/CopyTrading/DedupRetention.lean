import CopyTrading.DedupOps

namespace CopyTrading

open StepRun

def DedupOp.time : DedupOp → DateTime
  | .live _ at_ => at_
  | .backfill _ _ at_ => at_
  | .restore _ _ at_ => at_
  | .evict now => now

/-- A later backfill that returns the fill at its position among the identical rows. -/
def DedupOp.redelivers (key : ContentKey) (i : Nat) : DedupOp → Bool
  | .backfill key' i' _ => key' = key ∧ i' = i
  | _ => false

/-- No restore, and no backfilled row that skips a position. -/
def Contiguous (s : DedupLog) : DedupOp → Prop
  | .live .. => True
  | .backfill key i _ => i ≤ s.index.count key
  | .restore .. => False
  | .evict _ => True

/-- No eviction takes the key. -/
def Retained (key : ContentKey) (s : DedupLog) : DedupOp → Prop
  | .evict now => s.index.stale now key = false
  | _ => True

instance (s : DedupLog) : (op : DedupOp) → Decidable (Contiguous s op)
  | .live .. | .evict _ => instDecidableTrue
  | .backfill key i _ => Nat.decLe i (s.index.count key)
  | .restore .. => instDecidableFalse

section OneFill

variable {digest : List UInt8 → String} {key : ContentKey} {i : Nat} {s s' t : DedupLog}
  {op : DedupOp} {es : List DedupOp}

/-- The fill was reported once and its key still counts it. -/
structure Held (key : ContentKey) (i : Nat) (s : DedupLog) : Prop where
  counted : i < s.index.count key
  once : s.issued.count (key, i) = 1

/-- The key no longer counts a fill that was reported, or it was reported again. -/
def Lost (key : ContentKey) (i : Nat) (s : DedupLog) : Prop :=
  s.index.count key ≤ i ∧ 1 ≤ s.issued.count (key, i) ∨ 2 ≤ s.issued.count (key, i)

theorem DedupLog.evicted (key : ContentKey) {now : DateTime}
    (taken : s.step digest (.evict now) = some s') :
    s'.issued = s.issued ∧
      s'.index.count key = if s.index.stale now key then 0 else s.index.count key := by
  cases taken
  exact ⟨rfl, s.index.evictOlderThan_count now key⟩

theorem evicts_of_not (gone : ¬ NoEviction s op) : ∃ now, op = .evict now := by
  cases op with
  | evict now => exact ⟨now, rfl⟩
  | live key at_ => exact absurd trivial gone
  | backfill key i at_ => exact absurd trivial gone
  | restore key n at_ => exact absurd trivial gone

theorem Held.step (h : Held key i s) (retained : Retained key s op)
    (taken : s.step digest op = some s') : Held key i s' := by
  by_cases kept : NoEviction s op
  · have c := DedupLog.step_counted kept taken
    have grows := c.count key
    have counted := h.counted
    refine ⟨by omega, ?_⟩
    cases c with
    | idle _ _ issued =>
      rw [issued]
      exact h.once
    | counted key' n at_ more _ _ issued =>
      rcases issued with same | ⟨i', new, _, fresh, _⟩
      · rw [same]
        exact h.once
      · have other : (key', i') ≠ (key, i) := by
          intro eq
          obtain ⟨rfl, rfl⟩ := Prod.mk.inj eq
          omega
        rw [new, List.count_append, h.once, List.count_singleton, if_neg (by simpa using other)]
  · obtain ⟨now, rfl⟩ := evicts_of_not kept
    obtain ⟨issued, count⟩ := DedupLog.evicted key taken
    have fresh : s.index.stale now key = false := retained
    rw [fresh, if_neg Bool.false_ne_true] at count
    refine ⟨?_, ?_⟩
    · rw [count]
      exact h.counted
    · rw [issued]
      exact h.once

/-- Where the counts are contiguous, a row is a duplicate or claims the next ordinal. -/
theorem DedupLog.step_contiguous (key : ContentKey) (contiguous : Contiguous s op)
    (kept : NoEviction s op) (taken : s.step digest op = some s') :
    (s'.index.count key = s.index.count key ∧ s'.issued = s.issued) ∨
      ∃ key', s'.index.count key = (if key = key' then s.index.count key' + 1
        else s.index.count key) ∧ s'.issued = s.issued ++ [(key', s.index.count key')] := by
  cases op with
  | live key' at_ =>
    rcases s.index.observeLive_cases digest key' at_ with ⟨_, eq⟩ | ⟨_, eq⟩
    · simp only [step, eq] at taken
      cases taken
      exact .inl ⟨rfl, List.append_nil _⟩
    · simp only [step, eq] at taken
      cases taken
      exact .inr ⟨key', s.index.count_insert key' key _ at_, rfl⟩
  | backfill key' i' at_ =>
    have next : i' ≤ s.index.count key' := contiguous
    rcases s.index.observeBackfill_cases digest key' i' at_ with ⟨_, eq⟩ | ⟨_, _, eq⟩ |
      ⟨_, fresh, eq⟩
    · simp only [step, eq] at taken
      cases taken
      exact .inl ⟨rfl, List.append_nil _⟩
    · simp only [step, eq] at taken
      cases taken
      exact .inl ⟨rfl, List.append_nil _⟩
    · have here : i' = s.index.count key' := by omega
      subst here
      simp only [step, eq] at taken
      cases taken
      exact .inr ⟨key', s.index.count_insert key' key _ at_, rfl⟩
  | restore key' n at_ => exact contiguous.elim
  | evict now => exact kept.elim

/-- Once lost, contiguous rows bring the key's count past the fill only by reporting it again. -/
theorem Lost.step (h : Lost key i s) (contiguous : Contiguous s op)
    (taken : s.step digest op = some s') : Lost key i s' := by
  by_cases kept : NoEviction s op
  · rcases DedupLog.step_contiguous key contiguous kept taken with
      ⟨count, issued⟩ | ⟨key', count, issued⟩
    · unfold Lost
      rw [count, issued]
      exact h
    · have more : s.issued.count (key, i) ≤ s'.issued.count (key, i) := by
        rw [issued, List.count_append]
        omega
      rcases h with ⟨under, reported⟩ | again
      · by_cases here : key = key' ∧ s.index.count key' = i
        · obtain ⟨rfl, rfl⟩ := here
          have last : s'.issued.count (key, s.index.count key) =
              s.issued.count (key, s.index.count key) + 1 := by
            rw [issued, List.count_append, List.count_singleton_self]
          exact .inr (by omega)
        · have still : s'.index.count key ≤ i := by
            rw [count]
            split
            next same =>
              subst same
              have short : s.index.count key ≠ i := fun eq => here ⟨rfl, eq⟩
              omega
            next => exact under
          exact .inl ⟨still, by omega⟩
      · exact .inr (by omega)
  · obtain ⟨now, rfl⟩ := evicts_of_not kept
    obtain ⟨issued, count⟩ := DedupLog.evicted key taken
    unfold Lost
    rw [issued]
    rcases h with ⟨under, reported⟩ | again
    · refine .inl ⟨?_, reported⟩
      split at count
      next => omega
      next => omega
    · exact .inr again

/-- A contiguous run from where the fill is held keeps it held, or an eviction took its key. -/
theorem Held.run (h : Held key i s) (run : Run (DedupLog.step digest) Contiguous s es t) :
    (Run (DedupLog.step digest) (Retained key) s es t ∧ Held key i t) ∨ Lost key i t := by
  induction run with
  | nil => exact .inl ⟨.nil, h⟩
  | @snoc es t u op before contiguous taken ih =>
    rcases ih with ⟨retained, held⟩ | lost
    · by_cases here : Retained key t op
      · exact .inl ⟨retained.snoc here taken, held.step here taken⟩
      · cases op with
        | evict now =>
          obtain ⟨issued, count⟩ := DedupLog.evicted key taken
          have stale : t.index.stale now key = true := by
            cases old : t.index.stale now key with
            | true => rfl
            | false => exact absurd old here
          rw [stale, if_pos rfl] at count
          have once := held.once
          refine .inr (.inl ⟨by omega, ?_⟩)
          rw [issued]
          omega
        | live key at_ => exact absurd trivial here
        | backfill key i at_ => exact absurd trivial here
        | restore key n at_ => exact absurd trivial here
    · exact .inr (lost.step contiguous taken)

/-- A fill that is not held is reported when it is delivered again. -/
theorem Lost.redelivered {at_ : DateTime} (h : Lost key i s) (under : i < 64)
    (taken : s.step digest (.backfill key i at_) = some s') : 2 ≤ s'.issued.count (key, i) := by
  rcases s.index.observeBackfill_cases digest key i at_ with ⟨cap, _⟩ | ⟨_, held, eq⟩ |
    ⟨_, _, eq⟩
  · omega
  · simp only [DedupLog.step, eq] at taken
    cases taken
    rcases h with ⟨under, _⟩ | again
    · omega
    · simpa [DedupVerdict.issues] using again
  · simp only [DedupLog.step, eq] at taken
    cases taken
    have reported : 1 ≤ s.issued.count (key, i) := by
      rcases h with ⟨_, reported⟩ | again
      · exact reported
      · omega
    simp only [DedupVerdict.issues, List.count_append, List.count_singleton_self]
    omega

theorem DedupLog.step_under (under : ∀ p ∈ s.issued, p.2 < 64)
    (taken : s.step digest op = some s') : ∀ p ∈ s'.issued, p.2 < 64 := by
  by_cases kept : NoEviction s op
  · cases DedupLog.step_counted kept taken with
    | idle _ _ issued =>
      rw [issued]
      exact under
    | counted key' n at_ _ _ _ issued =>
      rcases issued with same | ⟨i', new, _, _, cap⟩
      · rw [same]
        exact under
      · rw [new]
        intro p mem
        rcases List.mem_append.mp mem with old | last
        · exact under p old
        · cases List.mem_singleton.mp last
          exact cap
  · obtain ⟨now, rfl⟩ := evicts_of_not kept
    cases taken
    exact under

/-- The first delivery of a fill whose key counts the rows before it. -/
theorem Held.first {d : DedupIndex} {first : DedupOp} {at_ : DateTime} (under : i < 64)
    (position : d.count key = i) (delivered : first = .live key at_ ∨ first = .backfill key i at_)
    (seen : DedupLog.step digest ⟨d, []⟩ first = some s) : Held key i s := by
  have contiguous : Contiguous ⟨d, []⟩ first := by
    rcases delivered with rfl | rfl
    · trivial
    · exact position.ge
  subst position
  rcases delivered with rfl | rfl
  · rcases d.observeLive_cases digest key at_ with ⟨cap, _⟩ | ⟨_, eq⟩
    · omega
    · simp only [DedupLog.step, eq] at seen
      cases seen
      refine ⟨?_, List.count_singleton_self⟩
      rw [d.count_insert, if_pos rfl]
      omega
  · rcases d.observeBackfill_cases digest key (d.count key) at_ with ⟨cap, _⟩ | ⟨_, held, _⟩ |
      ⟨_, _, eq⟩
    · omega
    · omega
    · simp only [DedupLog.step, eq] at seen
      cases seen
      refine ⟨?_, List.count_singleton_self⟩
      rw [d.count_insert, if_pos rfl]
      omega

/-- A fill that is delivered, then again at the end of a run, is reported once exactly if its
position is under the cap and no eviction of the run takes its key. -/
theorem reported_once_iff {d : DedupIndex} {first : DedupOp} {start at_ : DateTime}
    (position : d.count key = i)
    (delivered : first = .live key start ∨ first = .backfill key i start)
    (seen : DedupLog.step digest ⟨d, []⟩ first = some s)
    (run : Run (DedupLog.step digest) Contiguous s (es ++ [.backfill key i at_]) t) :
    t.issued.count (key, i) = 1 ↔ i < 64 ∧
      Run (DedupLog.step digest) (Retained key) s (es ++ [.backfill key i at_]) t := by
  constructor
  · intro once
    have under : i < 64 := by
      have all : ∀ p ∈ t.issued, p.2 < 64 := by
        refine run.keeps (fun _ _ _ h _ taken => DedupLog.step_under h taken) ?_
        exact DedupLog.step_under (fun p mem => by cases mem) seen
      have member : (key, i) ∈ t.issued := List.count_pos_iff.mp (by omega)
      exact all _ member
    have held := Held.first under position delivered seen
    obtain ⟨u, before, _, taken⟩ := run.last
    rcases held.run before with ⟨retained, _⟩ | lost
    · exact ⟨under, retained.snoc trivial taken⟩
    · have again := lost.redelivered under taken
      omega
  · rintro ⟨under, retained⟩
    have held := Held.first under position delivered seen
    have kept : Held key i t := retained.keeps (fun _ _ _ h here taken => h.step here taken) held
    exact kept.once

end OneFill

instance (key : ContentKey) (s : DedupLog) : (op : DedupOp) → Decidable (Retained key s op)
  | .evict now => instDecidableEqBool (s.index.stale now key) false
  | .live .. | .backfill .. | .restore .. => instDecidableTrue

/-- Seen live, found again by a backfill, swept before the retention is up, found again. -/
def sweptInTime : List DedupOp :=
  [.backfill .sample 0 (hours 5), .evict (hours 6), .backfill .sample 0 (hours 6)]

theorem reported_once_iff_sweptInTime : ∃ s t,
    DedupLog.step (fun _ => "") ⟨.default, []⟩ (.live .sample 0) = some s ∧
    Run (DedupLog.step fun _ => "") Contiguous s sweptInTime t ∧
    t.issued.count (.sample, 0) = 1 ∧
    (t.issued.count (.sample, 0) = 1 ↔ 0 < 64 ∧
      Run (DedupLog.step fun _ => "") (Retained .sample) s sweptInTime t) := by
  have ran : (DedupLog.step (fun _ => "") ⟨.default, []⟩ (.live .sample 0)).any (fun s =>
      (sweptInTime.foldlM (fun s op => if Contiguous s op then
        DedupLog.step (fun _ => "") s op else none) s).any fun t =>
          t.issued.count (.sample, 0) = 1) = true := by
    decide +kernel
  obtain ⟨s, seen, last⟩ := (Option.any_eq_true _ _).mp ran
  obtain ⟨t, executed, once⟩ := (Option.any_eq_true _ _).mp last
  have run : Run (DedupLog.step fun _ => "") Contiguous s
      ([.backfill .sample 0 (hours 5), .evict (hours 6)] ++ [.backfill .sample 0 (hours 6)]) t :=
    run_of_foldlM executed
  exact ⟨s, t, seen, run, of_decide_eq_true once, reported_once_iff rfl (.inl rfl) seen run⟩

/-- Found by a backfill every five hours, and swept in between. -/
def foundEveryFiveHours : List DedupOp :=
  [.backfill .sample 0 (hours 5), .evict (hours 7), .backfill .sample 0 (hours 10)]

/-- A delivery that is a duplicate does not touch the entry, so it does not cover the next one. -/
theorem redelivery_reported_twice :
    ¬ ∀ (digest : List UInt8 → String) (d : DedupIndex) (key : ContentKey) (i : Nat)
      (first : DedupOp) (es : List DedupOp) (s t : DedupLog), d.count key = i → i < 64 →
      first = .live key first.time ∨ first = .backfill key i first.time →
      DedupLog.step digest ⟨d, []⟩ first = some s →
      Run (DedupLog.step digest) Contiguous s es t →
      ((first :: es).map DedupOp.time).Pairwise (· ≤ ·) →
      ((first.time :: (es.filter (·.redelivers key i)).map DedupOp.time).IsChain
        fun before after => after - before ≤ d.retention) →
      t.issued.count (key, i) = 1 := by
  intro claim
  have ran : (DedupLog.step (fun _ => "") ⟨.default, []⟩ (.live .sample 0)).any (fun s =>
      (foundEveryFiveHours.foldlM (fun s op => if Contiguous s op then
        DedupLog.step (fun _ => "") s op else none) s).any fun t =>
          t.issued.count (.sample, 0) = 2) = true := by
    decide +kernel
  obtain ⟨s, seen, last⟩ := (Option.any_eq_true _ _).mp ran
  obtain ⟨t, executed, twice⟩ := (Option.any_eq_true _ _).mp last
  have once := claim _ .default .sample 0 (.live .sample 0) foundEveryFiveHours s t rfl (by decide)
    (.inl rfl) seen (run_of_foldlM executed) (by decide) (by decide +kernel)
  have twice := of_decide_eq_true twice
  omega

end CopyTrading
