import CopyTrading.DecimalText
import CopyTrading.SourceEvents
import CopyTrading.Tracker

namespace CopyTrading

structure DedupRow where
  txHash : String
  trader : String
  tokenId : String
  side : String
  price : Decimal
  size : Decimal
  occurrences : Nat
  lastSeen : DateTime
  deriving DecidableEq

/-- The columns that the window is grouped by. -/
structure ContentGroup where
  txHash : TxHash
  trader : Address
  tokenId : TokenId
  side : Side
  price : Decimal
  size : Decimal
  deriving DecidableEq

def SourceEventRow.group (r : SourceEventRow) : ContentGroup :=
  ⟨r.txHash, r.trader, r.tokenId, r.side, r.price, r.size⟩

/-- `COUNT(*)` and `MAX(detected_ts)` of the group; at most 64 rows share a content, so the casts
of the count change nothing. -/
def ContentGroup.row (g : ContentGroup) (window : List SourceEventRow) : DedupRow :=
  let same := window.filter fun r => r.group = g
  { txHash := g.txHash.asStr
    trader := g.trader.asStr
    tokenId := g.tokenId.asStr
    side := g.side.asStr
    price := g.price
    size := g.size
    occurrences := same.length
    lastSeen := (same.map SourceEventRow.detectedTs).max?.getD 0 }

/-- Rebuilds dedup state for the retention window. -/
def Repositories.loadDedupWindow (r : Repositories) (since : DateTime) : List DedupRow :=
  match r.sourceEvents with
  | none => []
  | some rows =>
    let window := rows.filter fun row => since ≤ row.sourceTs
    (window.map SourceEventRow.group).dedup.map fun g => g.row window

def parseSide (text : String) : Option Side :=
  if text = "BUY" then some .buy else if text = "SELL" then some .sell else none

/-- Maps a persisted dedup row back into a tracker key. -/
def dedupRowToKey (r : DedupRow) : Option ContentKey := do
  let txHash ← (TxHash.new r.txHash).toOption
  let trader ← (Address.new r.trader).toOption
  let tokenId ← (TokenId.new r.tokenId).toOption
  let side ← parseSide r.side
  some ⟨txHash, trader, tokenId, side, decimalText r.price, decimalText r.size⟩

/-- The dedup part of `recover`. -/
def WalletTracker.recoverDedup (tr : WalletTracker) (repos : Repositories) (now : DateTime) :
    WalletTracker :=
  tr.restoreDedup ((repos.loadDedupWindow (now - hours defaultRetentionHours)).filterMap fun d =>
    (dedupRowToKey d).map fun k => (k, d.occurrences, d.lastSeen))

def ContentGroup.key (g : ContentGroup) : ContentKey :=
  ⟨g.txHash, g.trader, g.tokenId, g.side, decimalText g.price, decimalText g.size⟩

def SourceEventRow.key (r : SourceEventRow) : ContentKey := r.group.key

theorem dedupRowToKey_row (g : ContentGroup) (window : List SourceEventRow) :
    dedupRowToKey (g.row window) = some g.key := by
  have side : parseSide g.side.asStr = some g.side := by
    cases g.side with
    | buy => rfl
    | sell => rfl
  unfold dedupRowToKey ContentGroup.row
  simp only [TxHash.new_asStr, Address.new_asStr, TokenId.new_asStr, side, Except.toOption,
    Option.bind_eq_bind, Option.bind_some]
  rfl

/-- At most ten fraction digits. -/
def tenDigits (d : Decimal) : Prop := (d * 10 ^ 10).den = 1

instance (d : Decimal) : Decidable (tenDigits d) := inferInstanceAs (Decidable (_ = _))

theorem tenDigits_short {d : Decimal} (h : tenDigits d) : (d * 10 ^ 28).den = 1 := by
  have whole : ((d * 10 ^ 10).num : Decimal) = d * 10 ^ 10 := (Rat.den_eq_one_iff _).mp h
  have scaled : d * 10 ^ 28 = (((d * 10 ^ 10).num * 10 ^ 18 : Int) : Decimal) := by
    push_cast
    rw [whole]
    ring
  rw [scaled]
  exact Rat.den_intCast _

theorem numeric_of_tenDigits {d : Decimal} (nonneg : 0 ≤ d) (h : tenDigits d) :
    numeric 10 d = d := by
  have whole : ((d * 10 ^ 10).num : Decimal) = d * 10 ^ 10 := (Rat.den_eq_one_iff _).mp h
  have rounded : ⌊|d| * 10 ^ 10 + 1 / 2⌋ = (d * 10 ^ 10).num := by
    rw [abs_of_nonneg nonneg, ← whole, Int.floor_intCast_add]
    norm_num
  unfold numeric
  simp only [rounded, if_neg nonneg.not_gt, whole]
  exact mul_div_cancel_right₀ d (by positivity)

/-- A row whose price and size are what the columns keep exactly. -/
structure SourceEventRow.Exact (r : SourceEventRow) : Prop where
  price : 0 ≤ r.price ∧ tenDigits r.price
  size : 0 ≤ r.size ∧ tenDigits r.size

theorem SourceEventRow.key_inj {r r' : SourceEventRow} (h : r.Exact) (h' : r'.Exact) :
    r.key = r'.key ↔ r.group = r'.group := by
  constructor
  · intro same
    have price : r.price = r'.price :=
      decimalText_injective h.price.1 (tenDigits_short h.price.2) h'.price.1
        (tenDigits_short h'.price.2) (congrArg ContentKey.price same)
    have size : r.size = r'.size :=
      decimalText_injective h.size.1 (tenDigits_short h.size.2) h'.size.1
        (tenDigits_short h'.size.2) (congrArg ContentKey.size same)
    have txHash : r.txHash = r'.txHash := congrArg ContentKey.txHash same
    have trader : r.trader = r'.trader := congrArg ContentKey.trader same
    have tokenId : r.tokenId = r'.tokenId := congrArg ContentKey.tokenId same
    have side : r.side = r'.side := congrArg ContentKey.side same
    unfold group
    rw [txHash, trader, tokenId, side, price, size]
  · intro same
    exact congrArg ContentGroup.key same

/-- Restoring entries of distinct keys that are not held yet. -/
theorem DedupIndex.restore_entries (entries : List (ContentKey × Nat × DateTime)) (d : DedupIndex)
    (nodup : (entries.map Prod.fst).Nodup)
    (fresh : ∀ e ∈ entries, d.counts.lookup e.1 = none) :
    let d' := entries.foldl (fun d e => d.restore e.1 e.2.1 e.2.2) d
    d'.retention = d.retention ∧
      (∀ e ∈ entries, d'.counts.lookup e.1 = some e.2.1 ∧
        d'.lastSeen.lookup e.1 = some e.2.2) ∧
      ∀ k, k ∉ entries.map Prod.fst → d'.counts.lookup k = d.counts.lookup k ∧
        d'.lastSeen.lookup k = d.lastSeen.lookup k := by
  induction entries generalizing d with
  | nil =>
    refine ⟨rfl, ?_, fun _ _ => ⟨rfl, rfl⟩⟩
    intro e mem
    cases mem
  | cons e entries ih =>
    obtain ⟨absent, rest⟩ := List.nodup_cons.mp nodup
    have others : ∀ e' ∈ entries, (d.restore e.1 e.2.1 e.2.2).counts.lookup e'.1 = none := by
      intro e' mem
      have other : e'.1 ≠ e.1 := by
        intro same
        exact absent (same ▸ List.mem_map_of_mem mem)
      exact (AList.lookup_upsert_ne _ _ other).trans (fresh e' (List.mem_cons_of_mem _ mem))
    obtain ⟨retention, held, kept⟩ := ih (d.restore e.1 e.2.1 e.2.2) rest others
    refine ⟨retention, ?_, ?_⟩
    · intro e' mem
      rcases List.mem_cons.mp mem with rfl | mem
      · obtain ⟨counts, lastSeen⟩ := kept e'.1 absent
        refine ⟨counts.trans ?_, lastSeen.trans (AList.lookup_insert _)⟩
        refine (AList.lookup_upsert _ _ _ _).trans ?_
        rw [fresh e' List.mem_cons_self, Option.getD_none, Nat.zero_max]
      · exact held e' mem
    · intro k out
      obtain ⟨other, out⟩ := not_or.mp (mt List.mem_cons.mpr out)
      obtain ⟨counts, lastSeen⟩ := kept k out
      exact ⟨counts.trans (AList.lookup_upsert_ne _ _ other),
        lastSeen.trans (AList.lookup_insert_ne other)⟩

/-- The rows of a content in the window. -/
def windowRows (rows : List SourceEventRow) (since : DateTime) (key : ContentKey) :
    List SourceEventRow :=
  rows.filter fun r => r.key = key ∧ since ≤ r.sourceTs

/-- The groups of the window, as they are restored. -/
def windowEntries (rows : List SourceEventRow) (since : DateTime) :
    List (ContentKey × Nat × DateTime) :=
  let window := rows.filter fun row => since ≤ row.sourceTs
  (window.map SourceEventRow.group).dedup.map fun g =>
    (g.key, (g.row window).occurrences, (g.row window).lastSeen)

theorem WalletTracker.recoverDedup_eq {repos : Repositories} {rows : List SourceEventRow}
    (stored : repos.sourceEvents = some rows) (now : DateTime) :
    ((WalletTracker.new []).recoverDedup repos now).dedup =
      (windowEntries rows (now - hours defaultRetentionHours)).foldl
        (fun d e => d.restore e.1 e.2.1 e.2.2) .default := by
  have entries : (repos.loadDedupWindow (now - hours defaultRetentionHours)).filterMap (fun d =>
      (dedupRowToKey d).map fun k => (k, d.occurrences, d.lastSeen)) =
        windowEntries rows (now - hours defaultRetentionHours) := by
    unfold Repositories.loadDedupWindow
    rw [stored]
    simp only [List.filterMap_map, Function.comp_def, dedupRowToKey_row, Option.map_some]
    exact congrFun (List.filterMap_eq_map (f := fun g : ContentGroup => (g.key, _, _))) _
  unfold recoverDedup restoreDedup
  rw [entries]
  rfl

section Window

variable {rows : List SourceEventRow} {since : DateTime}

theorem mem_windowEntries {e : ContentKey × Nat × DateTime} (mem : e ∈ windowEntries rows since) :
    ∃ r ∈ rows, since ≤ r.sourceTs ∧ r.key = e.1 := by
  obtain ⟨g, listed, rfl⟩ := List.mem_map.mp mem
  obtain ⟨r, inside, rfl⟩ := List.mem_map.mp (List.mem_dedup.mp listed)
  obtain ⟨known, recent⟩ := List.mem_filter.mp inside
  exact ⟨r, known, of_decide_eq_true recent, rfl⟩

theorem windowEntries_nodup (exact_ : ∀ r ∈ rows, r.Exact) :
    ((windowEntries rows since).map Prod.fst).Nodup := by
  unfold windowEntries
  rw [List.map_map]
  refine List.Nodup.map_on ?_ (List.nodup_dedup _)
  intro g mem g' mem' same
  obtain ⟨r, inside, rfl⟩ := List.mem_map.mp (List.mem_dedup.mp mem)
  obtain ⟨r', inside', rfl⟩ := List.mem_map.mp (List.mem_dedup.mp mem')
  exact (SourceEventRow.key_inj (exact_ r (List.mem_filter.mp inside).1)
    (exact_ r' (List.mem_filter.mp inside').1)).mp same

/-- The content of a row in the window is restored with the number of its rows there. -/
theorem windowEntries_of_mem (exact_ : ∀ r ∈ rows, r.Exact) {r : SourceEventRow} (mem : r ∈ rows)
    (recent : since ≤ r.sourceTs) : ∃ seen, r.detectedTs ≤ seen ∧
      (r.key, (windowRows rows since r.key).length, seen) ∈ windowEntries rows since := by
  let window := rows.filter fun row => since ≤ row.sourceTs
  have inside : r ∈ window := List.mem_filter.mpr ⟨mem, decide_eq_true recent⟩
  have same : window.filter (fun r' => r'.group = r.group) = windowRows rows since r.key := by
    unfold windowRows
    rw [List.filter_filter]
    refine List.filter_congr ?_
    intro r' mem'
    rw [← Bool.decide_and]
    refine decide_eq_decide.mpr (and_congr_left fun _ => ?_)
    exact (SourceEventRow.key_inj (exact_ r' mem') (exact_ r mem)).symm
  refine ⟨((windowRows rows since r.key).map SourceEventRow.detectedTs).max?.getD 0, ?_, ?_⟩
  · have detected : r.detectedTs ∈
        (windowRows rows since r.key).map SourceEventRow.detectedTs := by
      refine List.mem_map_of_mem (List.mem_filter.mpr ⟨mem, ?_⟩)
      exact decide_eq_true ⟨rfl, recent⟩
    cases largest : ((windowRows rows since r.key).map SourceEventRow.detectedTs).max? with
    | none =>
      rw [List.max?_eq_none_iff.mp largest] at detected
      cases detected
    | some m => exact (List.max?_eq_some_iff.mp largest).2 _ detected
  · refine List.mem_map.mpr ⟨r.group, List.mem_dedup.mpr (List.mem_map_of_mem inside), ?_⟩
    rw [← same]
    rfl

end Window

/-- What a restart restores: for each content the number of its rows in the window, and a
sighting no earlier than any of them was detected. -/
theorem WalletTracker.recoverDedup_spec {repos : Repositories} {rows : List SourceEventRow}
    (stored : repos.sourceEvents = some rows) (exact_ : ∀ r ∈ rows, r.Exact) (now : DateTime) :
    let d := ((WalletTracker.new []).recoverDedup repos now).dedup
    d.retention = hours defaultRetentionHours ∧
      (∀ key, d.count key = (windowRows rows (now - hours defaultRetentionHours) key).length) ∧
      ∀ r ∈ rows, now - hours defaultRetentionHours ≤ r.sourceTs →
        ∃ seen, d.lastSeen.lookup r.key = some seen ∧ r.detectedTs ≤ seen := by
  obtain ⟨retention, held, kept⟩ := DedupIndex.restore_entries
    (windowEntries rows (now - hours defaultRetentionHours)) .default
    (windowEntries_nodup exact_) fun _ _ => rfl
  rw [← WalletTracker.recoverDedup_eq stored] at retention held kept
  refine ⟨retention, ?_, ?_⟩
  · intro key
    unfold DedupIndex.count
    by_cases known : ∃ r ∈ rows, r.key = key ∧ now - hours defaultRetentionHours ≤ r.sourceTs
    · obtain ⟨r, mem, rfl, recent⟩ := known
      obtain ⟨_, _, restored⟩ := windowEntries_of_mem exact_ mem recent
      rw [(held _ restored).1]
      rfl
    · have out : key ∉ (windowEntries rows (now - hours defaultRetentionHours)).map Prod.fst := by
        intro listed
        obtain ⟨e, restored, rfl⟩ := List.mem_map.mp listed
        obtain ⟨r, mem, recent, here⟩ := mem_windowEntries restored
        exact known ⟨r, mem, here, recent⟩
      have none : windowRows rows (now - hours defaultRetentionHours) key = [] := by
        refine List.filter_eq_nil_iff.mpr ?_
        intro r mem here
        exact known ⟨r, mem, of_decide_eq_true here⟩
      rw [(kept key out).1, none]
      rfl
  · intro r mem recent
    obtain ⟨seen, after, restored⟩ := windowEntries_of_mem exact_ mem recent
    exact ⟨seen, (held _ restored).2, after⟩

end CopyTrading
