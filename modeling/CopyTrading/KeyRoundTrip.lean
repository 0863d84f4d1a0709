import CopyTrading.ContentIdentity
import CopyTrading.DedupWindow

namespace CopyTrading

/-- The loaded row has the columns of the stored trade. -/
structure SourceTrade.Loaded (t : SourceTrade) (r : DedupRow) : Prop where
  txHash : r.txHash = t.txHash.asStr
  trader : r.trader = t.trader.asStr
  tokenId : r.tokenId = t.tokenId.asStr
  side : r.side = t.side.asStr
  price : r.price = numeric 10 t.price.get
  size : r.size = numeric 10 t.quantity.get

/-- A loaded row is turned back into the key of what the columns hold. -/
theorem SourceTrade.Loaded.key {t : SourceTrade} {r : DedupRow} (h : t.Loaded r) :
    dedupRowToKey r = some t.row.key := by
  have stored := dedupRowToKey_row t.row.group []
  unfold dedupRowToKey at stored ⊢
  rw [h.txHash, h.trader, h.tokenId, h.side, h.price, h.size]
  exact stored

/-- A stored trade of the window is loaded. -/
theorem Repositories.loads {repos : Repositories} {rows : List SourceEventRow}
    (stored : repos.sourceEvents = some rows) {t : SourceTrade} (kept : t.row ∈ rows)
    {since : DateTime} (recent : since ≤ t.sourceTs) :
    ∃ r ∈ repos.loadDedupWindow since, t.Loaded r := by
  unfold loadDedupWindow
  rw [stored]
  have inside : t.row ∈ rows.filter fun row => since ≤ row.sourceTs :=
    List.mem_filter.mpr ⟨kept, decide_eq_true recent⟩
  have listed := List.mem_dedup.mpr (List.mem_map_of_mem (f := SourceEventRow.group) inside)
  exact ⟨_, List.mem_map_of_mem listed, ⟨rfl, rfl, rfl, rfl, rfl, rfl⟩⟩

theorem numeric_tenDigits {d : Decimal} (nonneg : 0 ≤ d) : tenDigits (numeric 10 d) := by
  unfold tenDigits numeric
  simp only [if_neg nonneg.not_gt]
  rw [div_mul_cancel₀ _ (by positivity)]
  exact Rat.den_intCast _

theorem numeric_nonneg {d : Decimal} (nonneg : 0 ≤ d) : 0 ≤ numeric 10 d := by
  unfold numeric
  simp only [if_neg nonneg.not_gt]
  refine div_nonneg ?_ (by positivity)
  have floor : 0 ≤ ⌊|d| * 10 ^ 10 + 1 / 2⌋ := Int.floor_nonneg.mpr (by positivity)
  exact_mod_cast floor

/-- The column keeps the text of a value exactly if it keeps the value. -/
theorem decimalText_numeric_iff {d : Decimal} (nonneg : 0 ≤ d) (short : (d * 10 ^ 28).den = 1) :
    decimalText (numeric 10 d) = decimalText d ↔ tenDigits d := by
  constructor
  · intro same
    have kept : numeric 10 d = d := decimalText_injective (numeric_nonneg nonneg)
      (tenDigits_short (numeric_tenDigits nonneg)) nonneg short same
    rw [← kept]
    exact numeric_tenDigits nonneg
  · intro fits
    rw [numeric_of_tenDigits nonneg fits]

/-- Every row loaded for the trade gives its key back. -/
def SourceTrade.KeySurvives (t : SourceTrade) (repos : Repositories) (since : DateTime) : Prop :=
  ∀ r ∈ repos.loadDedupWindow since, t.Loaded r →
    dedupRowToKey r = some (.new t.txHash t.trader t.tokenId t.side t.price t.quantity)

section Parse

variable {parse : String → Option Decimal} {read : String → Except String RtdsEnvelope}

/-- The key of a parsed and stored trade comes back from the window exactly if price and size have
at most ten digits after the point. -/
theorem SourceTrade.keySurvives_iff (short : ShortDecimals parse) {d : TradeDelivery}
    {t : ParsedTrade} (h : d.parsed parse read = some t) (corr : CorrelationId)
    (eventId : SourceEventId) (n : Nat) {repos : Repositories} {rows : List SourceEventRow}
    (stored : repos.sourceEvents = some rows)
    (kept : (t.intoSourceTrade corr eventId n).row ∈ rows) {since : DateTime}
    (recent : since ≤ t.sourceTs) :
    (t.intoSourceTrade corr eventId n).KeySurvives repos since ↔
      tenDigits t.price.get ∧ tenDigits t.quantity.get := by
  obtain ⟨w, _, reads⟩ := TradeDelivery.reads parse read h
  have price := decimalText_numeric_iff t.price.pos.le
    (short _ _ (Price.fromFeedF64_ok reads.price))
  have size := decimalText_numeric_iff t.quantity.nonneg
    (short _ _ (Qty.fromFeedF64_ok reads.quantity))
  rw [← price, ← size]
  constructor
  · intro survives
    obtain ⟨r, mem, loaded⟩ := Repositories.loads stored kept recent
    have same : (t.intoSourceTrade corr eventId n).row.key = t.keyOf :=
      Option.some.inj (loaded.key.symm.trans (survives r mem loaded))
    exact ⟨congrArg ContentKey.price same, congrArg ContentKey.size same⟩
  · rintro ⟨price, size⟩ r _ loaded
    rw [loaded.key]
    show some (ContentKey.mk _ _ _ _ (decimalText (numeric 10 t.price.get))
      (decimalText (numeric 10 t.quantity.get))) = some t.keyOf
    rw [price, size]
    rfl

end Parse

/-- A fill whose size has eleven digits after the point. -/
def WireTrade.precise : WireTrade := { WireTrade.sample with size := ⟨true, "0.12345678901"⟩ }

def ParsedTrade.precise : ParsedTrade :=
  { ParsedTrade.backfilled with quantity := ⟨12345678901 / 100000000000, by decide +kernel⟩ }

theorem SourceTrade.keySurvives_sample :
    (ParsedTrade.backfilled.intoSourceTrade ⟨0⟩ ⟨""⟩ 0).KeySurvives
        ⟨some [(ParsedTrade.backfilled.intoSourceTrade ⟨0⟩ ⟨""⟩ 0).row]⟩ 0 ↔
      tenDigits (1 / 2) ∧ tenDigits 200 :=
  keySurvives_iff parseDecimals_short WireTrade.sample_parsed ⟨0⟩ ⟨""⟩ 0 rfl List.mem_cons_self
    (by decide)

/-- Restored, the precise fill has another key. -/
theorem SourceTrade.key_lost : ¬ ∀ (parse : String → Option Decimal)
    (read : String → Except String RtdsEnvelope) (d : TradeDelivery) (t : ParsedTrade)
    (corr : CorrelationId) (eventId : SourceEventId) (n : Nat) (repos : Repositories)
    (rows : List SourceEventRow) (since : DateTime), ShortDecimals parse →
    d.parsed parse read = some t → repos.sourceEvents = some rows →
    (t.intoSourceTrade corr eventId n).row ∈ rows → since ≤ t.sourceTs →
    (t.intoSourceTrade corr eventId n).KeySurvives repos since := by
  intro survives
  let stored := ParsedTrade.precise.intoSourceTrade ⟨0⟩ ⟨""⟩ 0
  have parsed : (TradeDelivery.dataApi .precise 0).parsed parseDecimals (fun _ => .error "") =
      some .precise := by
    decide +kernel
  obtain ⟨r, mem, loaded⟩ := @Repositories.loads ⟨some [stored.row]⟩ _ rfl stored
    List.mem_cons_self 0 (by decide)
  have kept := survives _ _ _ _ ⟨0⟩ ⟨""⟩ 0 ⟨some [stored.row]⟩ _ 0 parseDecimals_short parsed rfl
    List.mem_cons_self (by decide) r mem loaded
  rw [loaded.key] at kept
  have size : decimalText (numeric 10 (12345678901 / 100000000000)) =
      decimalText (12345678901 / 100000000000) :=
    congrArg ContentKey.size (Option.some.inj kept)
  exact absurd size (by decide +kernel)

end CopyTrading
