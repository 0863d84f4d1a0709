import CopyTrading.Reconciliation
import Mathlib.Data.List.Nodup

namespace CopyTrading

/-- What the venue reports of a token, if it lists it. -/
def venueHolding (venue : List VenuePosition) (t : TokenId) : Option Decimal :=
  (venue.find? fun p => p.tokenId = t).map fun p => p.quantity.get

/-- How far the two sides are apart on a token, an absent quantity counted as zero. -/
def gap (internal : AList fun _ : TokenId => Decimal) (venue : List VenuePosition)
    (t : TokenId) : Decimal :=
  |(internal.lookup t).getD 0 - (venueHolding venue t).getD 0|

/-- The three lists of a report. -/
inductive Finding
  | mismatch
  | unexpectedVenuePosition
  | missingAtVenue
  deriving DecidableEq

/-- The tokens that a report lists as a finding. -/
def ReconciliationReport.listed (r : ReconciliationReport) : Finding → List TokenId
  | .mismatch => r.mismatches.map Mismatch.tokenId
  | .unexpectedVenuePosition => r.unexpectedVenuePositions
  | .missingAtVenue => r.missingAtVenue

/-- The list that a disagreement belongs in, by the sides that know the token. -/
def Finding.ofPresence : Option Decimal → Option Decimal → Option Finding
  | some _, some _ => some .mismatch
  | none, some _ => some .unexpectedVenuePosition
  | some _, none => some .missingAtVenue
  | none, none => none

theorem venueHolding_eq_some_iff {venue : List VenuePosition}
    (distinct : (venue.map VenuePosition.tokenId).Nodup) (t : TokenId) (q : Decimal) :
    venueHolding venue t = some q ↔ ∃ p ∈ venue, p.tokenId = t ∧ p.quantity.get = q := by
  unfold venueHolding
  rw [Option.map_eq_some_iff]
  constructor
  · rintro ⟨p, found, quantity⟩
    have token := List.find?_some found
    exact ⟨p, List.mem_of_find?_eq_some found, of_decide_eq_true token, quantity⟩
  · rintro ⟨p, mem, token, quantity⟩
    have listed : (venue.find? fun p => p.tokenId = t).isSome := by
      rw [List.find?_isSome]
      exact ⟨p, mem, decide_eq_true token⟩
    obtain ⟨p', found⟩ := Option.isSome_iff_exists.mp listed
    have token' : p'.tokenId = t := of_decide_eq_true (List.find?_some found :)
    have same : p' = p := List.inj_on_of_nodup_map distinct (List.mem_of_find?_eq_some found) mem
      (token'.trans token.symm)
    exact ⟨p', found, same ▸ quantity⟩

/-- Which of a token's entries the map keeps does not matter when there is only one. -/
theorem lookup_venueMap_eq {venue : List VenuePosition}
    (distinct : (venue.map VenuePosition.tokenId).Nodup) (t : TokenId) :
    (venueMap venue).lookup t = venueHolding venue t := by
  refine Option.ext ?_
  intro q
  rw [lookup_venueMap distinct, venueHolding_eq_some_iff distinct]

theorem mismatchOf_eq_some_iff {venue : AList fun _ : TokenId => Decimal} {tolerance : Decimal}
    {now : DateTime} {ours : Sigma fun _ : TokenId => Decimal} {m : Mismatch} :
    mismatchOf venue tolerance now ours = some m ↔
      ∃ v, venue.lookup ours.1 = some v ∧ tolerance < |ours.2 - v| ∧
        m = ⟨ours.1, ours.2, v, ours.2 - v, now⟩ := by
  unfold mismatchOf
  cases venue.lookup ours.1 with
  | none => simp
  | some v => simp [eq_comm]

section Reports

variable (internal : AList fun _ : TokenId => Decimal) {venue : List VenuePosition}
  (distinct : (venue.map VenuePosition.tokenId).Nodup) (tolerance : Decimal) (now : DateTime)
include distinct

/-- The mismatches are the tokens on both sides that differ by more than the tolerance, each with
what the two sides say of it. -/
theorem mem_mismatches_iff {m : Mismatch} :
    m ∈ (reconcile internal venue tolerance now).mismatches ↔
      ∃ t q v, internal.lookup t = some q ∧ venueHolding venue t = some v ∧
        tolerance < |q - v| ∧ m = ⟨t, q, v, q - v, now⟩ := by
  unfold reconcile
  simp only [List.mem_filterMap, mismatchOf_eq_some_iff, lookup_venueMap_eq distinct]
  constructor
  · rintro ⟨⟨t, q⟩, listed, v, theirs, apart, eq⟩
    exact ⟨t, q, v, AList.mem_entries_iff.mp listed, theirs, apart, eq⟩
  · rintro ⟨t, q, v, ours, theirs, apart, eq⟩
    exact ⟨⟨t, q⟩, AList.mem_entries_iff.mpr ours, v, theirs, apart, eq⟩

theorem mem_unexpectedVenuePositions_iff {t : TokenId} :
    t ∈ (reconcile internal venue tolerance now).unexpectedVenuePositions ↔
      ∃ v, internal.lookup t = none ∧ venueHolding venue t = some v ∧ tolerance < |v| := by
  unfold reconcile
  simp only [List.mem_map, List.mem_filter, Bool.and_eq_true, Option.isNone_iff_eq_none,
    decide_eq_true_eq, gt_iff_lt]
  constructor
  · rintro ⟨⟨t, v⟩, ⟨listed, unknown, large⟩, rfl⟩
    have theirs := AList.mem_entries_iff.mp listed
    rw [lookup_venueMap_eq distinct] at theirs
    exact ⟨v, unknown, theirs, large⟩
  · rintro ⟨v, unknown, theirs, large⟩
    rw [← lookup_venueMap_eq distinct] at theirs
    exact ⟨⟨t, v⟩, ⟨AList.mem_entries_iff.mpr theirs, unknown, large⟩, rfl⟩

theorem mem_missingAtVenue_iff {t : TokenId} :
    t ∈ (reconcile internal venue tolerance now).missingAtVenue ↔
      ∃ q, internal.lookup t = some q ∧ venueHolding venue t = none ∧ tolerance < |q| := by
  unfold reconcile
  simp only [List.mem_map, List.mem_filter, Bool.and_eq_true, Option.isNone_iff_eq_none,
    decide_eq_true_eq, gt_iff_lt, lookup_venueMap_eq distinct]
  constructor
  · rintro ⟨⟨t, q⟩, ⟨listed, absent, large⟩, rfl⟩
    exact ⟨q, AList.mem_entries_iff.mp listed, absent, large⟩
  · rintro ⟨q, ours, absent, large⟩
    exact ⟨⟨t, q⟩, ⟨AList.mem_entries_iff.mpr ours, absent, large⟩, rfl⟩

/-- A token is in the list that its presence on the two sides determines, and in no other, exactly
if they are too far apart on it. -/
theorem mem_listed_iff (f : Finding) (t : TokenId) :
    t ∈ (reconcile internal venue tolerance now).listed f ↔
      Finding.ofPresence (internal.lookup t) (venueHolding venue t) = some f ∧
        tolerance < gap internal venue t := by
  unfold gap
  cases f with
  | mismatch =>
    have found : t ∈ (reconcile internal venue tolerance now).listed .mismatch ↔
        ∃ q v, internal.lookup t = some q ∧ venueHolding venue t = some v ∧
          tolerance < |q - v| := by
      unfold ReconciliationReport.listed
      simp only [List.mem_map, mem_mismatches_iff internal distinct]
      constructor
      · rintro ⟨_, ⟨t, q, v, ours, theirs, apart, rfl⟩, rfl⟩
        exact ⟨q, v, ours, theirs, apart⟩
      · rintro ⟨q, v, ours, theirs, apart⟩
        exact ⟨_, ⟨t, q, v, ours, theirs, apart, rfl⟩, rfl⟩
    rw [found]
    cases internal.lookup t <;> cases venueHolding venue t <;> simp [Finding.ofPresence]
  | unexpectedVenuePosition =>
    refine (mem_unexpectedVenuePositions_iff internal distinct tolerance now).trans ?_
    cases internal.lookup t <;> cases venueHolding venue t <;> simp [Finding.ofPresence]
  | missingAtVenue =>
    refine (mem_missingAtVenue_iff internal distinct tolerance now).trans ?_
    cases internal.lookup t <;> cases venueHolding venue t <;> simp [Finding.ofPresence]

end Reports

/-- No list of a report has a token twice. -/
theorem reconcile_listed_nodup (internal : AList fun _ : TokenId => Decimal)
    (venue : List VenuePosition) (tolerance : Decimal) (now : DateTime) (f : Finding) :
    ((reconcile internal venue tolerance now).listed f).Nodup := by
  cases f with
  | mismatch =>
    refine List.Nodup.sublist (AList.sublist_keys_filterMap ?_ internal) internal.nodupKeys
    intro e m found
    obtain ⟨v, _, _, rfl⟩ := mismatchOf_eq_some_iff.mp found
    rfl
  | unexpectedVenuePosition =>
    exact ((venueMap venue).nodupKeys.sublist List.filter_sublist :)
  | missingAtVenue =>
    exact (internal.nodupKeys.sublist List.filter_sublist :)

theorem reconcile_count (internal : AList fun _ : TokenId => Decimal) {venue : List VenuePosition}
    (distinct : (venue.map VenuePosition.tokenId).Nodup) (tolerance : Decimal) (now : DateTime)
    {t : TokenId} (apart : tolerance < gap internal venue t) (f : Finding) :
    ((reconcile internal venue tolerance now).listed f).count t =
      if Finding.ofPresence (internal.lookup t) (venueHolding venue t) = some f then 1 else 0 := by
  have unique := reconcile_listed_nodup internal venue tolerance now f
  have listed := mem_listed_iff internal distinct tolerance now f t
  by_cases here : Finding.ofPresence (internal.lookup t) (venueHolding venue t) = some f
  · rw [if_pos here]
    exact List.count_eq_one_of_mem unique (listed.mpr ⟨here, apart⟩)
  · rw [if_neg here]
    exact List.count_eq_zero_of_not_mem fun mem => here (listed.mp mem).1

/-- Two sides that are apart on a token do not both lack it. -/
theorem exists_ofPresence {internal : AList fun _ : TokenId => Decimal}
    {venue : List VenuePosition} {tolerance : Decimal} (nonneg : 0 ≤ tolerance) {t : TokenId}
    (apart : tolerance < gap internal venue t) :
    ∃ f, Finding.ofPresence (internal.lookup t) (venueHolding venue t) = some f := by
  unfold gap at apart
  cases ours : internal.lookup t with
  | some q => cases venueHolding venue t <;> exact ⟨_, rfl⟩
  | none =>
    cases theirs : venueHolding venue t with
    | some v => exact ⟨_, rfl⟩
    | none =>
      rw [ours, theirs] at apart
      have large : tolerance < 0 := by simpa using apart
      exact absurd large nonneg.not_gt

/-- Forty of a token held, where the venue reports thirty. -/
def heldForty : AList fun _ : TokenId => Decimal :=
  (∅ : AList fun _ : TokenId => Decimal).insert .zero 40

end CopyTrading
