import CopyTrading.DedupWindow
import CopyTrading.StepRun

namespace CopyTrading

open StepRun

inductive Delivery
  | live (key : ContentKey) (at_ : DateTime)
  | backfill (key : ContentKey) (indexWithinBatch : Nat) (at_ : DateTime)

def DedupVerdict.occurrence : DedupVerdict → Nat
  | .new _ occurrence => occurrence
  | .duplicate _ occurrence => occurrence

section Verdicts

variable (digest : List UInt8 → String)

def DedupIndex.deliver (d : DedupIndex) : Delivery → DedupVerdict × DedupIndex
  | .live key at_ => d.observeLive digest key at_
  | .backfill key i at_ => d.observeBackfill digest key i at_

def DedupIndex.verdicts (d : DedupIndex) : List Delivery → List DedupVerdict
  | [] => []
  | op :: ops => (d.deliver digest op).1 :: ((d.deliver digest op).2).verdicts ops

theorem DedupIndex.deliver_congr {d d' : DedupIndex} (same : ∀ k, d.count k = d'.count k)
    (op : Delivery) : (d.deliver digest op).1 = (d'.deliver digest op).1 ∧
      ∀ k, (d.deliver digest op).2.count k = (d'.deliver digest op).2.count k := by
  cases op with
  | live key at_ =>
    have here := same key
    unfold deliver
    rcases d.observeLive_cases digest key at_ with ⟨full, eq⟩ | ⟨under, eq⟩
    · rcases d'.observeLive_cases digest key at_ with ⟨_, eq'⟩ | ⟨under', _⟩
      · simp only [eq, eq', here]
        exact ⟨trivial, same⟩
      · omega
    · rcases d'.observeLive_cases digest key at_ with ⟨full', _⟩ | ⟨_, eq'⟩
      · omega
      · simp only [eq, eq', here, count_insert]
        refine ⟨trivial, ?_⟩
        intro k
        rw [same k]
  | backfill key i at_ =>
    have here := same key
    unfold deliver
    rcases d.observeBackfill_cases digest key i at_ with ⟨full, eq⟩ | ⟨_, held, eq⟩ |
      ⟨under, fresh, eq⟩
    · rcases d'.observeBackfill_cases digest key i at_ with ⟨_, eq'⟩ | ⟨under', _, _⟩ |
        ⟨under', _, _⟩
      · simp only [eq, eq']
        exact ⟨trivial, same⟩
      · omega
      · omega
    · rcases d'.observeBackfill_cases digest key i at_ with ⟨full', _⟩ | ⟨_, _, eq'⟩ |
        ⟨_, fresh', _⟩
      · omega
      · simp only [eq, eq']
        exact ⟨trivial, same⟩
      · omega
    · rcases d'.observeBackfill_cases digest key i at_ with ⟨full', _⟩ | ⟨_, held', _⟩ |
        ⟨_, _, eq'⟩
      · omega
      · omega
      · simp only [eq, eq', count_insert]
        refine ⟨trivial, ?_⟩
        intro k
        rw [same k]

variable {digest}

/-- Two indexes give the same verdicts for ever exactly if they count the same. -/
theorem DedupIndex.verdicts_eq_iff {d d' : DedupIndex} :
    (∀ ops, d.verdicts digest ops = d'.verdicts digest ops) ↔ ∀ k, d.count k = d'.count k := by
  constructor
  · intro same k
    have probe : ∀ d : DedupIndex, (d.observeLive digest k 0).1.occurrence = d.count k := by
      intro d
      rcases d.observeLive_cases digest k 0 with ⟨_, eq⟩ | ⟨_, eq⟩
      · rw [eq]
        rfl
      · rw [eq]
        rfl
    have verdict := (List.cons.inj (same [.live k 0])).1
    have ordinal := congrArg DedupVerdict.occurrence verdict
    exact (probe d).symm.trans (ordinal.trans (probe d'))
  · intro same ops
    induction ops generalizing d d' with
    | nil => rfl
    | cons op ops ih =>
      obtain ⟨verdict, counts⟩ := DedupIndex.deliver_congr digest same op
      unfold verdicts
      rw [verdict, ih counts]

end Verdicts

/-- The index, the rows of the trades it let through, and the time of the last event. -/
structure DedupStore where
  index : DedupIndex
  repos : Repositories
  clock : DateTime

def DedupStore.start (clock : DateTime) : DedupStore := ⟨.default, ⟨some []⟩, clock⟩

def DedupStore.rows (s : DedupStore) : List SourceEventRow := s.repos.sourceEvents.getD []

inductive DedupStoreEvent
  | observe (corr : CorrelationId) (t : ParsedTrade) (backfillOrdinal : Option Nat)
  | evict (now : DateTime)
  | restart (now : DateTime)

/-- The index of a process that starts at that time. -/
def DedupStore.restarted (s : DedupStore) (now : DateTime) : DedupIndex :=
  ((WalletTracker.new []).recoverDedup s.repos now).dedup

def DedupStore.step (digest : List UInt8 → String) (s : DedupStore) :
    DedupStoreEvent → Option DedupStore
  | .observe corr t ordinal =>
    match s.index.observe digest t ordinal with
    | (.new eventId occurrence, index) =>
      some ⟨index, (s.repos.insertSourceEvent true (t.intoSourceTrade corr eventId occurrence)).2,
        t.detectedTs⟩
    | (.duplicate _ _, index) => some { s with index := index, clock := t.detectedTs }
  | .evict now => some { s with index := s.index.evictOlderThan now, clock := now }
  | .restart now => some { s with index := s.restarted now, clock := now }

/-- Every fill that a content still counts has its row, stamped within the retention. -/
def DedupStore.Covered (s : DedupStore) (now : DateTime) : Prop :=
  ∀ key j, s.index.stale now key = false → j < s.index.count key →
    ∃ r ∈ s.rows, r.key = key ∧ r.occurrence = j ∧
      now - hours defaultRetentionHours ≤ r.sourceTs

/-- The row of a trade that is reported is written. -/
def DedupStore.inserts (digest : List UInt8 → String) (s : DedupStore) (corr : CorrelationId)
    (t : ParsedTrade) (ordinal : Option Nat) : Bool :=
  match (s.index.observe digest t ordinal).1 with
  | .new eventId occurrence =>
    (s.repos.insertSourceEvent true (t.intoSourceTrade corr eventId occurrence)).1.toOption =
      some true
  | .duplicate _ _ => true

/-- Time goes on, new trades are inserted, and an earlier restart had its fills covered. -/
def Recorded (digest : List UInt8 → String) (s : DedupStore) : DedupStoreEvent → Prop
  | .observe corr t ordinal =>
    s.clock ≤ t.detectedTs ∧ t.sourceTs ≤ t.detectedTs ∧ tenDigits t.price.get ∧
      tenDigits t.quantity.get ∧ s.inserts digest corr t ordinal = true
  | .evict now => s.clock ≤ now
  | .restart now => s.clock ≤ now ∧ s.Covered now

theorem Repositories.insertSourceEvent_new {repos : Repositories} {rows : List SourceEventRow}
    {t : SourceTrade} (stored : repos.sourceEvents = some rows)
    (new : (repos.insertSourceEvent true t).1.toOption = some true) :
    (repos.insertSourceEvent true t).2.sourceEvents = some (rows ++ [t.row]) ∧
      ∀ r ∈ rows, r.content ≠ t.row.content := by
  unfold insertSourceEvent at new ⊢
  simp only [stored, Bool.not_true, Bool.false_eq_true, if_false] at new ⊢
  split at new
  next => cases new
  next fits =>
    rw [if_neg fits]
    split at new
    next => cases new
    next unknown =>
      rw [if_neg unknown]
      split at new
      next => cases new
      next distinct =>
        rw [if_neg distinct]
        refine ⟨rfl, ?_⟩
        intro r mem same
        exact distinct (List.any_eq_true.mpr ⟨r, mem, decide_eq_true same⟩)

theorem ParsedTrade.row_spec {t : ParsedTrade} (price : tenDigits t.price.get)
    (size : tenDigits t.quantity.get) (corr : CorrelationId) (eventId : SourceEventId) {n : Nat}
    (under : n < 64) :
    let r := (t.intoSourceTrade corr eventId n).row
    r.Exact ∧ r.key = t.keyOf ∧ r.occurrence = n ∧ r.sourceTs = t.sourceTs ∧
      r.detectedTs = t.detectedTs := by
  have exactPrice : numeric 10 t.price.get = t.price.get :=
    numeric_of_tenDigits t.price.pos.le price
  have exactSize : numeric 10 t.quantity.get = t.quantity.get :=
    numeric_of_tenDigits t.quantity.nonneg size
  have ordinal : toI32 n = n := by
    unfold toI32
    omega
  refine ⟨⟨?_, ?_⟩, ?_, ordinal, rfl, rfl⟩
  · show 0 ≤ numeric 10 t.price.get ∧ tenDigits (numeric 10 t.price.get)
    rw [exactPrice]
    exact ⟨t.price.pos.le, price⟩
  · show 0 ≤ numeric 10 t.quantity.get ∧ tenDigits (numeric 10 t.quantity.get)
    rw [exactSize]
    exact ⟨t.quantity.nonneg, size⟩
  · show ContentKey.mk _ _ _ _ (decimalText (numeric 10 t.price.get))
      (decimalText (numeric 10 t.quantity.get)) = t.keyOf
    rw [exactPrice, exactSize]
    rfl

/-- One observation: a duplicate, or the next report of its content. -/
theorem DedupIndex.observe_cases (d : DedupIndex) (digest : List UInt8 → String) (t : ParsedTrade)
    (ordinal : Option Nat) :
    (∃ eventId n d', d.observe digest t ordinal = (.duplicate eventId n, d') ∧
      d'.counts = d.counts ∧ d'.lastSeen = d.lastSeen ∧ d'.retention = d.retention) ∨
    ∃ n, n < 64 ∧ d.count t.keyOf ≤ n ∧
      d.observe digest t ordinal = (.new (t.keyOf.eventId digest n) n,
        { d with
          counts := d.counts.insert t.keyOf (n + 1)
          lastSeen := d.lastSeen.insert t.keyOf t.detectedTs }) := by
  unfold observe
  cases ordinal with
  | none =>
    rcases d.observeLive_cases digest t.keyOf t.detectedTs with ⟨_, eq⟩ | ⟨under, eq⟩
    · exact .inl ⟨_, _, _, eq, rfl, rfl, rfl⟩
    · exact .inr ⟨_, under, le_rfl, eq⟩
  | some i =>
    rcases d.observeBackfill_cases digest t.keyOf i t.detectedTs with ⟨_, eq⟩ | ⟨_, _, eq⟩ |
      ⟨under, fresh, eq⟩
    · exact .inl ⟨_, _, _, eq, rfl, rfl, rfl⟩
    · exact .inl ⟨_, _, _, eq, rfl, rfl, rfl⟩
    · exact .inr ⟨i, under, fresh, eq⟩

/-- The rows tell the fills apart, and a row still in the retention belongs to a held content. -/
structure WindowInv (s : DedupStore) : Prop where
  retention : s.index.retention = hours defaultRetentionHours
  stored : s.repos.sourceEvents = some s.rows
  exact_ : ∀ r ∈ s.rows, r.Exact
  ordinal : ∀ r ∈ s.rows, 0 ≤ r.occurrence
  times : ∀ r ∈ s.rows, r.sourceTs ≤ r.detectedTs ∧ r.detectedTs ≤ s.clock
  once : (s.rows.map SourceEventRow.content).Nodup
  held : ∀ r ∈ s.rows, r.sourceTs < s.clock - hours defaultRetentionHours ∨
    (r.occurrence < s.index.count r.key ∧
      ∃ seen, s.index.lastSeen.lookup r.key = some seen ∧ r.sourceTs ≤ seen)

theorem WindowInv.start (clock : DateTime) : WindowInv (.start clock) where
  retention := rfl
  stored := rfl
  exact_ := fun r mem => by cases mem
  ordinal := fun r mem => by cases mem
  times := fun r mem => by cases mem
  once := List.nodup_nil
  held := fun r mem => by cases mem

theorem WindowInv.held_recent {s : DedupStore} (h : WindowInv s) {now : DateTime}
    (later : s.clock ≤ now) {r : SourceEventRow} (mem : r ∈ s.rows)
    (recent : now - hours defaultRetentionHours ≤ r.sourceTs) :
    r.occurrence < s.index.count r.key ∧
      ∃ seen, s.index.lastSeen.lookup r.key = some seen ∧ r.sourceTs ≤ seen := by
  rcases h.held r mem with old | held
  · have before : r.sourceTs < now - hours defaultRetentionHours :=
      old.trans_le (sub_le_sub_right later _)
    exact absurd recent before.not_ge
  · exact held

/-- What is in the window is held, and is not stale. -/
theorem WindowInv.recent {s : DedupStore} (h : WindowInv s) {now : DateTime}
    (later : s.clock ≤ now) {r : SourceEventRow} (mem : r ∈ s.rows)
    (recent : now - hours defaultRetentionHours ≤ r.sourceTs) :
    r.occurrence < s.index.count r.key ∧ s.index.stale now r.key = false := by
  obtain ⟨under, seen, recorded, stamped⟩ := h.held_recent later mem recent
  refine ⟨under, ?_⟩
  unfold DedupIndex.stale
  rw [recorded, h.retention, Option.any_some]
  exact decide_eq_false (recent.trans stamped).not_gt

/-- Time goes on over the same rows, and the index still holds those of the window. -/
theorem WindowInv.onward {s : DedupStore} (h : WindowInv s) {now : DateTime} {d : DedupIndex}
    (later : s.clock ≤ now) (retention : d.retention = hours defaultRetentionHours)
    (held : ∀ r ∈ s.rows, now - hours defaultRetentionHours ≤ r.sourceTs →
      r.occurrence < d.count r.key ∧
        ∃ seen, d.lastSeen.lookup r.key = some seen ∧ r.sourceTs ≤ seen) :
    WindowInv { s with index := d, clock := now } := by
  refine ⟨retention, h.stored, h.exact_, h.ordinal, ?_, h.once, ?_⟩
  · intro r mem
    obtain ⟨order, known⟩ := h.times r mem
    exact ⟨order, known.trans later⟩
  · intro r mem
    by_cases recent : now - hours defaultRetentionHours ≤ r.sourceTs
    · exact .inr (held r mem recent)
    · exact .inl (not_le.mp recent)

/-- A row's columns are those it is grouped by, and its ordinal. -/
theorem SourceEventRow.content_of_group {r r' : SourceEventRow} (group : r.group = r'.group)
    (occurrence : r.occurrence = r'.occurrence) : r.content = r'.content := by
  have txHash := congrArg ContentGroup.txHash group
  have trader := congrArg ContentGroup.trader group
  have tokenId := congrArg ContentGroup.tokenId group
  have side := congrArg ContentGroup.side group
  have price := congrArg ContentGroup.price group
  have size := congrArg ContentGroup.size group
  simp only [SourceEventRow.group] at txHash trader tokenId side price size
  unfold SourceEventRow.content
  rw [txHash, trader, tokenId, side, price, size, occurrence]

/-- The ordinals of a content's rows in the window. -/
theorem WindowInv.ordinals {s : DedupStore} (h : WindowInv s) {now : DateTime}
    (later : s.clock ≤ now) (key : ContentKey) :
    let ordinals := (windowRows s.rows (now - hours defaultRetentionHours) key).map fun r =>
      r.occurrence.toNat
    ordinals.Nodup ∧ (∀ j ∈ ordinals, j < s.index.count key) ∧
      ∀ j, j ∈ ordinals ↔ ∃ r ∈ s.rows, r.key = key ∧ r.occurrence = j ∧
        now - hours defaultRetentionHours ≤ r.sourceTs := by
  have inside : ∀ r ∈ windowRows s.rows (now - hours defaultRetentionHours) key,
      r ∈ s.rows ∧ r.key = key ∧ now - hours defaultRetentionHours ≤ r.sourceTs := by
    intro r mem
    obtain ⟨listed, here⟩ := List.mem_filter.mp mem
    exact ⟨listed, of_decide_eq_true here⟩
  refine ⟨?_, ?_, ?_⟩
  · have distinct := List.Nodup.of_map _ h.once
    refine List.Nodup.map_on ?_ (distinct.filter _)
    intro r mem r' mem' same
    obtain ⟨listed, known, _⟩ := inside r mem
    obtain ⟨listed', known', _⟩ := inside r' mem'
    have group := (SourceEventRow.key_inj (h.exact_ r listed) (h.exact_ r' listed')).mp
      (known.trans known'.symm)
    have nonneg := h.ordinal r listed
    have nonneg' := h.ordinal r' listed'
    have occurrence : r.occurrence = r'.occurrence := by omega
    exact List.inj_on_of_nodup_map h.once listed listed'
      (SourceEventRow.content_of_group group occurrence)
  · intro j mem
    obtain ⟨r, windowed, rfl⟩ := List.mem_map.mp mem
    obtain ⟨listed, known, recent⟩ := inside r windowed
    subst known
    have under := (h.recent later listed recent).1
    have nonneg := h.ordinal r listed
    show r.occurrence.toNat < _
    omega
  · intro j
    constructor
    · intro mem
      obtain ⟨r, listed, rfl⟩ := List.mem_map.mp mem
      obtain ⟨listed, known, recent⟩ := inside r listed
      have nonneg := h.ordinal r listed
      refine ⟨r, listed, known, ?_, recent⟩
      show r.occurrence = (r.occurrence.toNat : Int)
      omega
    · intro found
      obtain ⟨r, listed, known, ordinal, recent⟩ := found
      refine List.mem_map.mpr ⟨r, List.mem_filter.mpr ⟨listed, decide_eq_true ⟨known, recent⟩⟩, ?_⟩
      show r.occurrence.toNat = j
      omega

/-- A content has as many rows in the window as it counts exactly if each counted fill has one. -/
theorem WindowInv.length_iff {s : DedupStore} (h : WindowInv s) {now : DateTime}
    (later : s.clock ≤ now) (key : ContentKey) :
    (windowRows s.rows (now - hours defaultRetentionHours) key).length = s.index.count key ↔
      ∀ j, j < s.index.count key → ∃ r ∈ s.rows, r.key = key ∧ r.occurrence = j ∧
        now - hours defaultRetentionHours ≤ r.sourceTs := by
  obtain ⟨nodup, under, listed⟩ := h.ordinals later key
  have subset : (windowRows s.rows (now - hours defaultRetentionHours) key).map
      (fun r => r.occurrence.toNat) ⊆ List.range (s.index.count key) :=
    fun j mem => List.mem_range.mpr (under j mem)
  have below := List.subperm_of_subset nodup subset
  constructor
  · intro length j inRange
    have perm := below.perm_of_length_le (by rw [List.length_range, List.length_map, length])
    exact (listed j).mp (perm.mem_iff.mpr (List.mem_range.mpr inRange))
  · intro all
    have covered : List.range (s.index.count key) ⊆
        (windowRows s.rows (now - hours defaultRetentionHours) key).map
          fun r => r.occurrence.toNat :=
      fun j mem => (listed j).mpr (all j (List.mem_range.mp mem))
    have more := (List.subperm_of_subset List.nodup_range covered).length_le
    have fewer := below.length_le
    rw [List.length_range, List.length_map] at more fewer
    omega

/-- A restart restores the counts of the evicted index exactly if the fills are covered. -/
theorem WindowInv.restarted_iff {s : DedupStore} (h : WindowInv s) {now : DateTime}
    (later : s.clock ≤ now) :
    (∀ key, (s.restarted now).count key = (s.index.evictOlderThan now).count key) ↔
      s.Covered now := by
  obtain ⟨_, counts, _⟩ := WalletTracker.recoverDedup_spec h.stored h.exact_ now
  have agree : ∀ key, (s.restarted now).count key = (s.index.evictOlderThan now).count key ↔
      (s.index.stale now key = false →
        (windowRows s.rows (now - hours defaultRetentionHours) key).length =
          s.index.count key) := by
    intro key
    have restored : (s.restarted now).count key =
        (windowRows s.rows (now - hours defaultRetentionHours) key).length := counts key
    rw [restored, s.index.evictOlderThan_count]
    cases stale : s.index.stale now key with
    | false => simp
    | true =>
      have none : windowRows s.rows (now - hours defaultRetentionHours) key = [] := by
        refine List.filter_eq_nil_iff.mpr ?_
        intro r mem here
        obtain ⟨known, recent⟩ := of_decide_eq_true here
        have fresh := (h.recent later mem recent).2
        rw [known, stale] at fresh
        cases fresh
      simp [none]
  constructor
  · intro same key j fresh under
    exact (h.length_iff later key).mp ((agree key).mp (same key) fresh) j under
  · intro covered key
    refine (agree key).mpr fun fresh => (h.length_iff later key).mpr ?_
    exact fun j under => covered key j fresh under

/-- A fill of the key is reported as its `n`th, and its row is written. -/
theorem WindowInv.reported {s : DedupStore} (h : WindowInv s) {key : ContentKey} {n : Nat}
    {now : DateTime} {repos : Repositories} {row : SourceEventRow} (later : s.clock ≤ now)
    (fresh : s.index.count key ≤ n) (stored : repos.sourceEvents = some (s.rows ++ [row]))
    (distinct : ∀ r ∈ s.rows, r.content ≠ row.content) (rowExact : row.Exact)
    (rowKey : row.key = key) (rowOrdinal : row.occurrence = n) (stamped : row.sourceTs ≤ now)
    (detected : row.detectedTs = now) (order : row.sourceTs ≤ row.detectedTs) :
    WindowInv ⟨{ s.index with
      counts := s.index.counts.insert key (n + 1)
      lastSeen := s.index.lastSeen.insert key now }, repos, now⟩ := by
  have rows : DedupStore.rows ⟨{ s.index with
      counts := s.index.counts.insert key (n + 1)
      lastSeen := s.index.lastSeen.insert key now }, repos, now⟩ = s.rows ++ [row] := by
    unfold DedupStore.rows at stored ⊢
    rw [stored]
    rfl
  have split : ∀ r ∈ s.rows ++ [row], r ∈ s.rows ∨ r = row := by
    intro r mem
    rcases List.mem_append.mp mem with old | last
    · exact .inl old
    · exact .inr (List.mem_singleton.mp last)
  refine ⟨h.retention, ?_, ?_, ?_, ?_, ?_, ?_⟩
  · rw [rows]
    exact stored
  · rw [rows]
    intro r mem
    rcases split r mem with old | rfl
    · exact h.exact_ r old
    · exact rowExact
  · rw [rows]
    intro r mem
    rcases split r mem with old | rfl
    · exact h.ordinal r old
    · rw [rowOrdinal]
      exact Int.natCast_nonneg n
  · rw [rows]
    intro r mem
    rcases split r mem with old | rfl
    · obtain ⟨before, known⟩ := h.times r old
      exact ⟨before, known.trans later⟩
    · exact ⟨order, detected.le⟩
  · rw [rows, List.map_append, List.map_singleton]
    refine List.nodup_append.mpr ⟨h.once, List.nodup_singleton _, ?_⟩
    intro content old other last same
    obtain ⟨r, mem, rfl⟩ := List.mem_map.mp old
    exact distinct r mem (same.trans (List.mem_singleton.mp last))
  · rw [rows]
    intro r mem
    by_cases recent : now - hours defaultRetentionHours ≤ r.sourceTs
    · right
      show r.occurrence < ((DedupIndex.count _ r.key : Nat) : Int) ∧
        ∃ seen, AList.lookup r.key (s.index.lastSeen.insert key now) = some seen ∧ _
      rw [s.index.count_insert]
      by_cases here : r.key = key
      · rw [here, if_pos rfl, AList.lookup_insert]
        rcases split r mem with old | rfl
        · obtain ⟨below, _⟩ := h.held_recent later old recent
          obtain ⟨before, known⟩ := h.times r old
          rw [here] at below
          exact ⟨by omega, now, rfl, before.trans (known.trans later)⟩
        · exact ⟨by omega, now, rfl, stamped⟩
      · rw [if_neg here, AList.lookup_insert_ne here]
        rcases split r mem with old | rfl
        · exact h.held_recent later old recent
        · exact absurd rowKey here
    · exact .inl (not_le.mp recent)

theorem WindowInv.observed {digest : List UInt8 → String} {s s' : DedupStore}
    {corr : CorrelationId} {t : ParsedTrade} {ordinal : Option Nat} (h : WindowInv s)
    (recorded : Recorded digest s (.observe corr t ordinal))
    (taken : s.step digest (.observe corr t ordinal) = some s') : WindowInv s' := by
  obtain ⟨later, stamped, price, size, inserted⟩ := recorded
  rcases s.index.observe_cases digest t ordinal with
    ⟨eventId, n, d', eq, counts, lastSeen, retention⟩ | ⟨n, under, fresh, eq⟩
  · simp only [DedupStore.step, eq] at taken
    cases taken
    refine h.onward later (retention.trans h.retention) ?_
    intro r mem recent
    unfold DedupIndex.count
    rw [counts, lastSeen]
    exact h.held_recent later mem recent
  · simp only [DedupStore.inserts, eq] at inserted
    simp only [DedupStore.step, eq] at taken
    cases taken
    obtain ⟨stored, distinct⟩ := Repositories.insertSourceEvent_new h.stored
      (of_decide_eq_true inserted)
    obtain ⟨rowExact, rowKey, rowOrdinal, rowSource, rowDetected⟩ :=
      t.row_spec price size corr (t.keyOf.eventId digest n) under
    refine h.reported later fresh stored distinct rowExact rowKey rowOrdinal ?_ rowDetected ?_
    · rw [rowSource]
      exact stamped
    · rw [rowSource, rowDetected]
      exact stamped

theorem WindowInv.step {digest : List UInt8 → String} {s s' : DedupStore} {e : DedupStoreEvent}
    (h : WindowInv s) (recorded : Recorded digest s e) (taken : s.step digest e = some s') :
    WindowInv s' := by
  cases e with
  | observe corr t ordinal => exact h.observed recorded taken
  | evict now =>
    have later : s.clock ≤ now := recorded
    cases taken
    refine h.onward later ((s.index.evictOlderThan_retention now).trans h.retention) ?_
    intro r mem recent
    have fresh := (h.recent later mem recent).2
    rw [s.index.evictOlderThan_count, (s.index.evictOlderThan_lookup now r.key).2, fresh,
      if_neg Bool.false_ne_true, if_neg Bool.false_ne_true]
    exact h.held_recent later mem recent
  | restart now =>
    obtain ⟨later, covered⟩ := recorded
    cases taken
    obtain ⟨retention, _, seen⟩ := WalletTracker.recoverDedup_spec h.stored h.exact_ now
    have counts := (h.restarted_iff later).mpr covered
    refine h.onward later retention ?_
    intro r mem recent
    obtain ⟨below, fresh⟩ := h.recent later mem recent
    obtain ⟨last, restored, after⟩ := seen r mem recent
    refine ⟨?_, last, restored, (h.times r mem).1.trans after⟩
    rw [counts, s.index.evictOlderThan_count, fresh, if_neg Bool.false_ne_true]
    exact below

/-- A restart is transparent to deduplication exactly if each fill that a content still counts has
a row that is stamped within the retention. -/
theorem restart_transparent_iff {digest : List UInt8 → String} {began now : DateTime}
    {es : List DedupStoreEvent} {s : DedupStore}
    (run : Run (DedupStore.step digest) (Recorded digest) (.start began) es s)
    (later : s.clock ≤ now) :
    (∀ ops, (s.restarted now).verdicts digest ops =
      (s.index.evictOlderThan now).verdicts digest ops) ↔ s.Covered now := by
  have inv : WindowInv s :=
    run.keeps (fun _ _ _ h recorded taken => h.step recorded taken) (.start began)
  exact DedupIndex.verdicts_eq_iff.trans (inv.restarted_iff later)

theorem restart_transparent_iff_sample : ∃ s,
    Run (DedupStore.step fun _ => "") (Recorded fun _ => "") (.start 0)
      [.observe ⟨0⟩ .sample none] s ∧ s.clock ≤ hours 1 ∧
    ((∀ ops, (s.restarted (hours 1)).verdicts (fun _ => "") ops =
      (s.index.evictOlderThan (hours 1)).verdicts (fun _ => "") ops) ↔ s.Covered (hours 1)) := by
  have recorded : Recorded (fun _ => "") (.start 0) (.observe ⟨0⟩ .sample none) :=
    ⟨le_rfl, le_rfl, by decide +kernel, by decide +kernel,
      by decide +kernel⟩
  obtain ⟨s, taken⟩ : ∃ s, DedupStore.step (fun _ => "") (.start 0)
      (.observe ⟨0⟩ .sample none) = some s := ⟨_, rfl⟩
  have run := Run.single recorded taken
  have clock : s.clock = 0 := by
    cases taken
    rfl
  have later : s.clock ≤ hours 1 := by
    rw [clock]
    decide
  exact ⟨s, run, later, restart_transparent_iff run later⟩

/-- A fill that a backfill after a long gap finds seven hours late. -/
def ParsedTrade.late : ParsedTrade := { ParsedTrade.sample with detectedTs := hours 7 }

/-- The window is cut by the stamp of the source, so a restart forgets what was found late. -/
theorem restart_forgets_late_fill :
    ¬ ∀ (digest : List UInt8 → String) (began now : DateTime) (es : List DedupStoreEvent)
      (s : DedupStore), Run (DedupStore.step digest) (Recorded digest) (.start began) es s →
      s.clock ≤ now → ∀ ops, (s.restarted now).verdicts digest ops =
        (s.index.evictOlderThan now).verdicts digest ops := by
  intro claim
  have recorded : Recorded (fun _ => "") (.start 0) (.observe ⟨0⟩ .late (some 0)) :=
    ⟨by decide, by decide, by decide +kernel, by decide +kernel,
      by decide +kernel⟩
  have forgotten : (DedupStore.step (fun _ => "") (.start 0)
      (.observe ⟨0⟩ .late (some 0))).any (fun s => s.clock ≤ hours 7 ∧
        (s.restarted (hours 7)).verdicts (fun _ => "") [.backfill ParsedTrade.late.keyOf 0 0] ≠
          (s.index.evictOlderThan (hours 7)).verdicts (fun _ => "")
            [.backfill ParsedTrade.late.keyOf 0 0]) = true := by
    decide +kernel
  obtain ⟨s, taken, differ⟩ := (Option.any_eq_true _ _).mp forgotten
  obtain ⟨later, differ⟩ := of_decide_eq_true differ
  exact differ (claim _ 0 _ _ s (Run.single recorded taken) later _)

end CopyTrading
