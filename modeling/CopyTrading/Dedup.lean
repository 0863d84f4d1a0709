import CopyTrading.AssocSum
import CopyTrading.Trade

namespace CopyTrading

/-- The least number of fraction digits, at most 28, that writes the value exactly. -/
def decimalScale (d : Decimal) : Nat :=
  ((List.range 29).find? fun k => (d * 10 ^ k).den == 1).getD 28

/-- `normalize().to_string()`: no trailing zeros, so one text for each value. -/
def decimalText (d : Decimal) : String :=
  let scale := decimalScale d
  let mantissa := ⌊|d| * 10 ^ scale⌋.toNat
  let whole := (if d < 0 then "-" else "") ++ toString (mantissa / 10 ^ scale)
  if scale = 0 then whole
  else
    let fraction := toString (mantissa % 10 ^ scale)
    whole ++ "." ++ String.ofList (List.replicate (scale - fraction.length) '0') ++ fraction

example : decimalText (980 / 1000) = "0.98" ∧ decimalText (5 / 100) = "0.05" := by
  decide +kernel

/-- The content tuple that defines a fill's identity, before the occurrence ordinal. -/
structure ContentKey where
  txHash : TxHash
  trader : Address
  tokenId : TokenId
  side : Side
  price : String
  size : String
  deriving DecidableEq

def ContentKey.new (txHash : TxHash) (trader : Address) (tokenId : TokenId) (side : Side)
    (price : Price) (size : Qty) : ContentKey :=
  ⟨txHash, trader, tokenId, side, decimalText price.get, decimalText size.get⟩

/-- `u32::to_be_bytes`. -/
def toBeBytes (n : Nat) : List UInt8 :=
  [n / 2 ^ 24, n / 2 ^ 16, n / 2 ^ 8, n].map UInt8.ofNat

/-- The bytes that are hashed: the fields, separated, then the ordinal. -/
def ContentKey.preimage (key : ContentKey) (occurrence : Nat) : List UInt8 :=
  ([key.txHash.asStr, key.trader.asStr, key.tokenId.asStr, key.side.asStr, key.price,
    key.size].flatMap fun field => field.toUTF8.toList ++ [0x1f]) ++ toBeBytes occurrence

inductive DedupVerdict
  | new (eventId : SourceEventId) (occurrence : Nat)
  | duplicate (eventId : SourceEventId) (occurrence : Nat)
  deriving DecidableEq

def DedupVerdict.isNew : DedupVerdict → Bool
  | .new .. => true
  | .duplicate .. => false

structure DedupIndex where
  /-- Content to the number of occurrences recorded. -/
  counts : AList fun _ : ContentKey => Nat
  lastSeen : AList fun _ : ContentKey => DateTime
  retention : Int
  evictions : UInt64
  suspicious : UInt64

def defaultRetentionHours : Int := 6

def maxOccurrencesPerContent : Nat := 64

def DedupIndex.new (retention : Int) : DedupIndex := ⟨∅, ∅, retention, 0, 0⟩

def DedupIndex.default : DedupIndex := .new (hours defaultRetentionHours)

def DedupIndex.count (d : DedupIndex) (key : ContentKey) : Nat := (d.counts.lookup key).getD 0

def DedupIndex.restore (d : DedupIndex) (key : ContentKey) (occurrences : Nat) (at_ : DateTime) :
    DedupIndex :=
  { d with
    counts := d.counts.upsert key 0 fun n => max n occurrences
    lastSeen := d.lastSeen.insert key at_ }

def DedupIndex.evictOlderThan (d : DedupIndex) (now : DateTime) : DedupIndex :=
  let cutoff := now - d.retention
  let stale := (d.lastSeen.entries.filter fun e => e.2 < cutoff).map Sigma.fst
  stale.foldl (fun d k => { d with
    counts := d.counts.erase k
    lastSeen := d.lastSeen.erase k
    evictions := d.evictions + 1 }) d

section Observe

-- `hex(sha256(·))`, which lives in a third-party crate
variable (digest : List UInt8 → String)

def ContentKey.eventId (key : ContentKey) (occurrence : Nat) : SourceEventId :=
  ⟨digest (key.preimage occurrence)⟩

/-- Records a fill from the live feed: always a new occurrence. -/
def DedupIndex.observeLive (d : DedupIndex) (key : ContentKey) (at_ : DateTime) :
    DedupVerdict × DedupIndex :=
  let occurrence := d.count key
  if occurrence ≥ maxOccurrencesPerContent then
    (.duplicate (key.eventId digest occurrence) occurrence,
      { d with suspicious := d.suspicious + 1 })
  else
    (.new (key.eventId digest occurrence) occurrence,
      { d with
        counts := d.counts.insert key (occurrence + 1)
        lastSeen := d.lastSeen.insert key at_ })

/-- Records a fill from REST backfill, reconciling against what the live feed already holds. -/
def DedupIndex.observeBackfill (d : DedupIndex) (key : ContentKey) (indexWithinBatch : Nat)
    (at_ : DateTime) : DedupVerdict × DedupIndex :=
  let eventId := key.eventId digest indexWithinBatch
  if indexWithinBatch ≥ maxOccurrencesPerContent then
    (.duplicate eventId indexWithinBatch, { d with suspicious := d.suspicious + 1 })
  else if indexWithinBatch < d.count key then (.duplicate eventId indexWithinBatch, d)
  else
    (.new eventId indexWithinBatch,
      { d with
        counts := d.counts.insert key (indexWithinBatch + 1)
        lastSeen := d.lastSeen.insert key at_ })

end Observe

/-- Counts identical rows within one backfill batch; the counter is a `u32`. -/
structure BatchOrdinals where
  seen : AList fun _ : ContentKey => Nat

def BatchOrdinals.new : BatchOrdinals := ⟨∅⟩

def BatchOrdinals.next (b : BatchOrdinals) (key : ContentKey) : Nat × BatchOrdinals :=
  ((b.seen.lookup key).getD 0, ⟨b.seen.upsert key 0 fun v => (v + 1) % 2 ^ 32⟩)

/-- A live row is new exactly while its key is below the cap, and moves the count by one. -/
theorem DedupIndex.observeLive_cases (d : DedupIndex) (digest : List UInt8 → String)
    (key : ContentKey) (at_ : DateTime) :
    (64 ≤ d.count key ∧ d.observeLive digest key at_ =
      (.duplicate (key.eventId digest (d.count key)) (d.count key),
        { d with suspicious := d.suspicious + 1 })) ∨
    (d.count key < 64 ∧ d.observeLive digest key at_ =
      (.new (key.eventId digest (d.count key)) (d.count key),
        { d with
          counts := d.counts.insert key (d.count key + 1)
          lastSeen := d.lastSeen.insert key at_ })) := by
  by_cases full : 64 ≤ d.count key
  · exact .inl ⟨full, if_pos full⟩
  · exact .inr ⟨by omega, if_neg full⟩

/-- A backfilled row is new exactly when its ordinal is under the cap and not yet recorded. -/
theorem DedupIndex.observeBackfill_cases (d : DedupIndex) (digest : List UInt8 → String)
    (key : ContentKey) (i : Nat) (at_ : DateTime) :
    (64 ≤ i ∧ d.observeBackfill digest key i at_ =
      (.duplicate (key.eventId digest i) i, { d with suspicious := d.suspicious + 1 })) ∨
    (i < 64 ∧ i < d.count key ∧ d.observeBackfill digest key i at_ =
      (.duplicate (key.eventId digest i) i, d)) ∨
    (i < 64 ∧ d.count key ≤ i ∧ d.observeBackfill digest key i at_ =
      (.new (key.eventId digest i) i,
        { d with
          counts := d.counts.insert key (i + 1)
          lastSeen := d.lastSeen.insert key at_ })) := by
  by_cases full : 64 ≤ i
  · exact .inl ⟨full, if_pos full⟩
  · by_cases held : i < d.count key
    · exact .inr (.inl ⟨by omega, held, (if_neg full).trans (if_pos held)⟩)
    · exact .inr (.inr ⟨by omega, by omega, (if_neg full).trans (if_neg held)⟩)

theorem DedupIndex.count_insert (d : DedupIndex) (key k : ContentKey) (n : Nat) (at_ : DateTime) :
    DedupIndex.count { d with
      counts := d.counts.insert key n
      lastSeen := d.lastSeen.insert key at_ } k = if k = key then n else d.count k := by
  by_cases same : k = key
  · subst same
    simp [count]
  · simp [count, same, AList.lookup_insert_ne same]

/-- The key's last recorded sighting lies before the eviction's cutoff. -/
def DedupIndex.stale (d : DedupIndex) (now : DateTime) (key : ContentKey) : Bool :=
  (d.lastSeen.lookup key).any fun seen => seen < now - d.retention

theorem DedupIndex.mem_stale {d : DedupIndex} {now : DateTime} {key : ContentKey} :
    key ∈ (d.lastSeen.entries.filter fun e => e.2 < now - d.retention).map Sigma.fst ↔
      d.stale now key = true := by
  constructor
  · intro mem
    obtain ⟨e, listed, rfl⟩ := List.mem_map.mp mem
    obtain ⟨held, old⟩ := List.mem_filter.mp listed
    exact (Option.any_eq_true _ _).mpr ⟨e.2, AList.mem_entries_iff.mp held, old⟩
  · intro old
    obtain ⟨seen, recorded, before⟩ := (Option.any_eq_true _ _).mp old
    have held := AList.mem_lookup_iff.mp (Option.mem_def.mpr recorded)
    exact List.mem_map.mpr ⟨⟨key, seen⟩, List.mem_filter.mpr ⟨held, before⟩, rfl⟩

theorem DedupIndex.evict_keys (ks : List ContentKey) (d : DedupIndex) :
    let d' := ks.foldl (fun d k => { d with
      counts := d.counts.erase k
      lastSeen := d.lastSeen.erase k
      evictions := d.evictions + 1 }) d
    d'.counts = ks.foldl (fun m k => m.erase k) d.counts ∧
      d'.lastSeen = ks.foldl (fun m k => m.erase k) d.lastSeen ∧ d'.retention = d.retention := by
  induction ks generalizing d with
  | nil => exact ⟨rfl, rfl, rfl⟩
  | cons k ks ih => exact ih _

theorem DedupIndex.evictOlderThan_retention (d : DedupIndex) (now : DateTime) :
    (d.evictOlderThan now).retention = d.retention :=
  (DedupIndex.evict_keys _ d).2.2

/-- An eviction drops the stale keys from both maps and changes nothing else they hold. -/
theorem DedupIndex.evictOlderThan_lookup (d : DedupIndex) (now : DateTime) (key : ContentKey) :
    (d.evictOlderThan now).counts.lookup key =
      (if d.stale now key then none else d.counts.lookup key) ∧
    (d.evictOlderThan now).lastSeen.lookup key =
      if d.stale now key then none else d.lastSeen.lookup key := by
  obtain ⟨counts, lastSeen, _⟩ := DedupIndex.evict_keys
    ((d.lastSeen.entries.filter fun e => e.2 < now - d.retention).map Sigma.fst) d
  unfold evictOlderThan
  rw [counts, lastSeen, AList.lookup_foldl_erase, AList.lookup_foldl_erase]
  simp only [mem_stale, and_self]

theorem DedupIndex.evictOlderThan_count (d : DedupIndex) (now : DateTime) (key : ContentKey) :
    (d.evictOlderThan now).count key = if d.stale now key then 0 else d.count key := by
  unfold count
  rw [(d.evictOlderThan_lookup now key).1]
  split
  · rfl
  · rfl

end CopyTrading
