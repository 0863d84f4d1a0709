import CopyTrading.ReconcileExact

namespace CopyTrading

section Disagreements

variable (internal : AList fun _ : TokenId => Decimal) (venue : List VenuePosition)

/-- The venue reports more than the tolerance of a token that we have no record of. -/
def UnknownAtVenue (tolerance : Decimal) : Prop :=
  ∃ p ∈ venue, internal.lookup p.tokenId = none ∧ tolerance < p.quantity.get

/-- The two sides list a token in quantities more than `halt` apart. -/
def ListedApart (halt : Decimal) : Prop :=
  ∃ t q v, internal.lookup t = some q ∧ venueHolding venue t = some v ∧ halt < |q - v|

/-- We hold more than `halt` of a token that the venue does not list. -/
def AbsentAtVenue (halt : Decimal) : Prop :=
  ∃ t q, internal.lookup t = some q ∧ venueHolding venue t = none ∧ halt < |q|

/-- What the halt is for: a token more than `halt` apart, or exposure where we know of none. -/
def SeriousDisagreement (tolerance halt : Decimal) : Prop :=
  (∃ t, halt < gap internal venue t) ∨ UnknownAtVenue internal venue tolerance

end Disagreements

section Halts

variable {internal : AList fun _ : TokenId => Decimal} {venue : List VenuePosition}
  (distinct : (venue.map VenuePosition.tokenId).Nodup) {tolerance halt : Decimal}
include distinct

theorem unknownAtVenue_iff : UnknownAtVenue internal venue tolerance ↔
    ∃ t v, internal.lookup t = none ∧ venueHolding venue t = some v ∧ tolerance < |v| := by
  constructor
  · rintro ⟨p, mem, unknown, large⟩
    have held := (venueHolding_eq_some_iff distinct _ _).mpr ⟨p, mem, rfl, rfl⟩
    exact ⟨p.tokenId, p.quantity.get, unknown, held, large.trans_le (le_abs_self _)⟩
  · rintro ⟨t, v, unknown, held, large⟩
    obtain ⟨p, mem, rfl, rfl⟩ := (venueHolding_eq_some_iff distinct t v).mp held
    rw [abs_of_nonneg p.quantity.nonneg] at large
    exact ⟨p, mem, unknown, large⟩

/-- What is missing at the venue is no reason to halt. -/
theorem warrantsHalt_iff (le : tolerance ≤ halt) (now : DateTime) :
    (reconcile internal venue tolerance now).warrantsHalt halt = true ↔
      UnknownAtVenue internal venue tolerance ∨ ListedApart internal venue halt := by
  unfold ReconciliationReport.warrantsHalt
  rw [Bool.or_eq_true, unknownAtVenue_iff distinct]
  refine or_congr ?_ ?_
  · have listed : ∀ l : List TokenId, (!l.isEmpty) = true ↔ ∃ t, t ∈ l := by
      intro l
      cases l <;> simp
    rw [listed]
    exact exists_congr fun t => mem_unexpectedVenuePositions_iff internal distinct tolerance now
  · simp only [List.any_eq_true, decide_eq_true_eq, mem_mismatches_iff internal distinct]
    constructor
    · rintro ⟨_, ⟨t, q, v, ours, theirs, _, rfl⟩, apart⟩
      exact ⟨t, q, v, ours, theirs, apart⟩
    · rintro ⟨t, q, v, ours, theirs, apart⟩
      exact ⟨_, ⟨t, q, v, ours, theirs, le.trans_lt apart, rfl⟩, apart⟩

/-- A serious disagreement is of one of three kinds, by the sides that know the token. -/
theorem seriousDisagreement_iff (nonneg : 0 ≤ tolerance) (le : tolerance ≤ halt) :
    SeriousDisagreement internal venue tolerance halt ↔
      (UnknownAtVenue internal venue tolerance ∨ ListedApart internal venue halt) ∨
        AbsentAtVenue internal venue halt := by
  constructor
  · rintro (⟨t, apart⟩ | unknown)
    · unfold gap at apart
      cases ours : internal.lookup t with
      | none =>
        cases theirs : venueHolding venue t with
        | none =>
          rw [ours, theirs] at apart
          have large : halt < 0 := by simpa using apart
          linarith
        | some v =>
          rw [ours, theirs] at apart
          have large : halt < |v| := by simpa using apart
          have unknown : UnknownAtVenue internal venue tolerance :=
            (unknownAtVenue_iff distinct).mpr ⟨t, v, ours, theirs, le.trans_lt large⟩
          exact Or.inl (Or.inl unknown)
      | some q =>
        cases theirs : venueHolding venue t with
        | none =>
          rw [ours, theirs] at apart
          have large : halt < |q| := by simpa using apart
          exact Or.inr ⟨t, q, ours, theirs, large⟩
        | some v =>
          rw [ours, theirs] at apart
          exact Or.inl (Or.inr ⟨t, q, v, ours, theirs, apart⟩)
    · exact Or.inl (Or.inl unknown)
  · rintro ((unknown | ⟨t, q, v, ours, theirs, apart⟩) | ⟨t, q, ours, absent, large⟩)
    · exact Or.inr unknown
    · refine Or.inl ⟨t, ?_⟩
      unfold gap
      rw [ours, theirs]
      exact apart
    · refine Or.inl ⟨t, ?_⟩
      unfold gap
      rw [ours, absent]
      simpa using large

end Halts

end CopyTrading
