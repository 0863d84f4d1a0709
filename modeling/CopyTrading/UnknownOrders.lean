import CopyTrading.ReconcileExact

namespace CopyTrading

/-- Whether the venue shows quantity implying that an order of unknown outcome executed. -/
def resolvesUnknownOrder (token : TokenId) (booked : Decimal) (venue : List VenuePosition)
    (orderQty : Qty) (tolerance : Decimal) : Bool :=
  let v := ((venue.find? fun p => p.tokenId = token).map fun p => p.quantity.get).getD 0
  decide (|v - booked| ≥ orderQty.get - tolerance) && decide (orderQty.get > 0)

/-- How far the venue's holding of a token is from what is booked of it. -/
def unbooked (token : TokenId) (booked : Decimal) (venue : List VenuePosition) : Decimal :=
  |(venueHolding venue token).getD 0 - booked|

theorem unbooked_of_mem {venue : List VenuePosition}
    (distinct : (venue.map VenuePosition.tokenId).Nodup) {p : VenuePosition} (mem : p ∈ venue)
    (booked : Decimal) : unbooked p.tokenId booked venue = |p.quantity.get - booked| := by
  have held := (venueHolding_eq_some_iff distinct p.tokenId p.quantity.get).mpr ⟨p, mem, rfl, rfl⟩
  unfold unbooked
  rw [held]
  rfl

theorem resolvesUnknownOrder_iff {token : TokenId} {booked : Decimal}
    {venue : List VenuePosition} {orderQty : Qty} {tolerance : Decimal}
    (positive : 0 < orderQty.get) :
    resolvesUnknownOrder token booked venue orderQty tolerance = true ↔
      orderQty.get - tolerance ≤ unbooked token booked venue := by
  unfold resolvesUnknownOrder unbooked venueHolding
  rw [Bool.and_eq_true, decide_eq_true_eq, decide_eq_true_eq]
  constructor
  · intro resolved
    exact resolved.1
  · intro near
    exact ⟨near, positive⟩

/-- Two thresholds cut a linear order alike at `d` exactly if `d` lies in neither of the two
ranges between them. -/
theorem thresholds_agree_iff {α : Type} [LinearOrder α] {low high d : α} :
    (high ≤ d ↔ low < d) ↔ ¬ (low < d ∧ d < high) ∧ ¬ (high ≤ d ∧ d ≤ low) := by
  constructor
  · intro agree
    refine ⟨?_, ?_⟩
    · rintro ⟨above, short⟩
      exact (agree.mpr above).not_gt short
    · rintro ⟨full, below⟩
      exact (agree.mp full).not_ge below
  · rintro ⟨partly, small⟩
    constructor
    · intro full
      by_contra below
      exact small ⟨full, not_lt.mp below⟩
    · intro above
      by_contra short
      exact partly ⟨above, not_le.mp short⟩

/-- The test tells whether the venue's holding is what we have booked, unless more than the
tolerance but less than the whole order is unbooked, or the order is so small that a difference
within the tolerance already counts as the whole of it. -/
theorem resolvesUnknownOrder_sound_iff (token : TokenId) (booked : Decimal)
    (venue : List VenuePosition) {orderQty : Qty} (positive : 0 < orderQty.get)
    (tolerance : Decimal) :
    (resolvesUnknownOrder token booked venue orderQty tolerance = true ↔
      tolerance < unbooked token booked venue) ↔
    ¬ (tolerance < unbooked token booked venue ∧
        unbooked token booked venue < orderQty.get - tolerance) ∧
      ¬ (orderQty.get - tolerance ≤ unbooked token booked venue ∧
        unbooked token booked venue ≤ tolerance) := by
  rw [resolvesUnknownOrder_iff positive, thresholds_agree_iff]

/-- All of a hundred executed, none of it booked. -/
theorem resolvesUnknownOrder_sound_hundred :
    resolvesUnknownOrder .zero 0 [⟨.zero, .whole 100⟩] (.whole 100) (1 / 100) = true ↔
      1 / 100 < unbooked .zero 0 [⟨.zero, .whole 100⟩] := by
  have hundred : unbooked .zero 0 [⟨.zero, .whole 100⟩] = 100 := by decide +kernel
  refine (resolvesUnknownOrder_sound_iff .zero 0 [⟨.zero, .whole 100⟩]
    (by norm_num [Qty.whole]) (1 / 100)).mpr ⟨?_, ?_⟩
  · rw [hundred, Qty.whole_get]
    norm_num
  · rw [hundred]
    norm_num

/-- Forty of an order for a hundred executed: it passes for one that did not. -/
theorem partial_execution_unresolved : ¬ ∀ (token : TokenId) (booked : Decimal)
    (venue : List VenuePosition) (orderQty : Qty) (tolerance : Decimal),
    (venue.map VenuePosition.tokenId).Nodup → 0 < orderQty.get → 0 ≤ tolerance →
    (resolvesUnknownOrder token booked venue orderQty tolerance = true ↔
      tolerance < unbooked token booked venue) := by
  intro claim
  have sound := claim .zero 0 [⟨.zero, .whole 40⟩] (.whole 100) (1 / 100) (List.nodup_singleton _)
    (by norm_num [Qty.whole]) (by norm_num)
  have missed : resolvesUnknownOrder .zero 0 [⟨.zero, .whole 40⟩] (.whole 100) (1 / 100) = false :=
    by decide +kernel
  have executed : 1 / 100 < unbooked .zero 0 [⟨.zero, .whole 40⟩] := by decide +kernel
  rw [sound.mpr executed] at missed
  cases missed

/-- Whatever the order and the tolerance, the test is wrong about some holding: about half of a
large order, and about a difference of the tolerance when the order is small. -/
theorem resolvesUnknownOrder_misjudges (token : TokenId) {orderQty : Qty}
    (positive : 0 < orderQty.get) {tolerance : Decimal} (nonneg : 0 ≤ tolerance) :
    ∃ q : Qty, ¬ (resolvesUnknownOrder token 0 [⟨token, q⟩] orderQty tolerance = true ↔
      tolerance < unbooked token 0 [⟨token, q⟩]) := by
  have held : ∀ q : Qty, unbooked token 0 [⟨token, q⟩] = q.get := by
    intro q
    have distinct : ([⟨token, q⟩].map VenuePosition.tokenId).Nodup := List.nodup_singleton _
    have listed := unbooked_of_mem distinct (List.mem_singleton_self _) 0
    rw [sub_zero, abs_of_nonneg q.nonneg] at listed
    exact listed
  rcases le_or_gt orderQty.get (2 * tolerance) with small | large
  · refine ⟨⟨tolerance, nonneg⟩, ?_⟩
    rw [resolvesUnknownOrder_iff positive, held]
    intro sound
    have above : tolerance < tolerance := sound.mp (by linarith)
    exact lt_irrefl _ above
  · refine ⟨⟨orderQty.get / 2, by linarith⟩, ?_⟩
    rw [resolvesUnknownOrder_iff positive, held]
    intro sound
    have whole := sound.mpr (by linarith)
    linarith

end CopyTrading
