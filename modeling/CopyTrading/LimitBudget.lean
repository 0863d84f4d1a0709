import CopyTrading.EmittedOrders

namespace CopyTrading

open TickGrid OrderValidator

namespace SizingEngine

/-- The reference moved by the whole slippage budget. -/
def budgetPrice (reference : Price) (side : Side) (maxSlippageBps : Nat) : Decimal :=
  match side with
  | .buy => reference.get * (1 + maxSlippageBps / 10000)
  | .sell => reference.get * (1 - maxSlippageBps / 10000)

/-- Not more aggressive than the budget allows. -/
def WithinBudget (reference : Price) (side : Side) (maxSlippageBps : Nat) (p : Decimal) : Prop :=
  match side with
  | .buy => p ≤ budgetPrice reference .buy maxSlippageBps
  | .sell => budgetPrice reference .sell maxSlippageBps ≤ p

/-- Some multiple of the tick in the tradable range is within the budget. -/
def Quotable (reference : Price) (side : Side) (maxSlippageBps : Nat) (tick : Decimal) : Prop :=
  ∃ n : ℤ, 1 / 10000 ≤ n * tick ∧ n * tick ≤ 9999 / 10000 ∧
    WithinBudget reference side maxSlippageBps (n * tick)

/-- The end of the tradable range that commits us least. -/
def safeEnd : Side → Price
  | .buy => .saturating 0
  | .sell => .saturating 1

variable {reference : Price} {side : Side} {maxSlippageBps : Nat} {tick : Decimal}

theorem safeEnd_buy : (safeEnd .buy).get = 1 / 10000 := by
  rw [safeEnd, Price.saturating]
  norm_num

theorem safeEnd_sell : (safeEnd .sell).get = 9999 / 10000 := by
  rw [safeEnd, Price.saturating]
  norm_num

theorem limitPrice_eq : limitPrice reference side maxSlippageBps tick =
    (Price.saturating (budgetPrice reference side maxSlippageBps)).roundToTick tick side := by
  cases side <;> rfl

theorem limitPrice_tradable (pos : 0 < tick) :
    (limitPrice reference side maxSlippageBps tick).Tradable := by
  rw [limitPrice_eq]
  unfold Price.roundToTick
  rw [if_neg (not_le.mpr pos)]
  cases side with
  | buy => exact Price.saturating_tradable _
  | sell => exact Price.saturating_tradable _

/-- Rounding to the tick is inward. -/
theorem roundToTick_inward (pos : 0 < tick) {far : Price} (tradable : far.Tradable) :
    Faces far (far.roundToTick tick side) side := by
  cases side with
  | buy =>
    show (far.roundToTick tick .buy).get ≤ far.get
    rw [far.roundToTick_buy pos]
    exact max_le tradable.1 ((min_le_left _ _).trans (floor_mul_le pos far.get))
  | sell =>
    show far.get ≤ (far.roundToTick tick .sell).get
    rw [far.roundToTick_sell pos]
    exact le_max_of_le_right (le_min (le_ceil_mul pos far.get) tradable.2)

theorem Quotable.saturating_within (h : Quotable reference side maxSlippageBps tick) :
    WithinBudget reference side maxSlippageBps
      (Price.saturating (budgetPrice reference side maxSlippageBps)).get := by
  obtain ⟨n, low, high, within⟩ := h
  cases side with
  | buy => exact max_le (low.trans within) (min_le_left _ _)
  | sell => exact le_max_of_le_right (le_min le_rfl (le_trans within high))

theorem Quotable.reaches (pos : 0 < tick) (h : Quotable reference side maxSlippageBps tick) :
    Reaches tick (Price.saturating (budgetPrice reference side maxSlippageBps)) (safeEnd side)
      side := by
  obtain ⟨n, low, high, within⟩ := h
  cases side with
  | buy =>
    simp only [Reaches, if_neg (not_le.mpr pos)]
    exact ⟨n, safeEnd_buy.trans_le low, le_max_of_le_right (le_min within high)⟩
  | sell =>
    simp only [Reaches, if_neg (not_le.mpr pos)]
    exact ⟨n, max_le low ((min_le_left _ _).trans within), high.trans_eq safeEnd_sell.symm⟩

theorem WithinBudget.of_faces {far limit : Price}
    (within : WithinBudget reference side maxSlippageBps far.get) (inward : Faces far limit side) :
    WithinBudget reference side maxSlippageBps limit.get := by
  cases side with
  | buy => exact le_trans inward within
  | sell => exact le_trans within inward

/-- The limit is on the tick and within the budget exactly if anything in the tradable range
is. -/
theorem quotable_iff (pos : 0 < tick) :
    OnGrid tick (limitPrice reference side maxSlippageBps tick).get ∧
        WithinBudget reference side maxSlippageBps
          (limitPrice reference side maxSlippageBps tick).get ↔
      Quotable reference side maxSlippageBps tick := by
  constructor
  · rintro ⟨⟨n, eq⟩, within⟩
    have tradable : (limitPrice reference side maxSlippageBps tick).Tradable :=
      limitPrice_tradable pos
    obtain ⟨low, high⟩ := tradable
    rw [eq] at low high within
    exact ⟨n, low, high, within⟩
  · intro h
    have tradable := Price.saturating_tradable (budgetPrice reference side maxSlippageBps)
    rw [limitPrice_eq]
    have safe : (safeEnd side).Tradable := by
      cases side with
      | buy => exact Price.saturating_tradable 0
      | sell => exact Price.saturating_tradable 1
    have onTick := ((roundToTick_reaches tick side _ _ tradable safe).mpr (h.reaches pos)).1
    refine ⟨(isOnTick_iff.mp onTick).resolve_left (not_le.mpr pos), ?_⟩
    exact h.saturating_within.of_faces (roundToTick_inward pos tradable)

/-- Where nothing can be quoted, the limit is the end of the range that commits us least. -/
theorem limitPrice_unquotable (pos : 0 < tick)
    (none_ : ¬ Quotable reference side maxSlippageBps tick) :
    limitPrice reference side maxSlippageBps tick = safeEnd side := by
  have low := (Price.saturating_tradable (budgetPrice reference side maxSlippageBps)).1
  have high := (Price.saturating_tradable (budgetPrice reference side maxSlippageBps)).2
  rw [limitPrice_eq]
  refine Price.ext ?_
  cases side with
  | buy =>
    rw [Price.roundToTick_buy _ pos, safeEnd_buy]
    refine max_eq_left ((min_le_left _ _).trans ?_)
    by_contra above
    have down := floor_mul_le pos (Price.saturating (budgetPrice reference .buy maxSlippageBps)).get
    -- above the low end the clamp has not raised the budget
    have within := (le_max_iff.mp down).resolve_left above
    exact none_ ⟨_, (not_le.mp above).le, within.trans (min_le_right _ _),
      within.trans (min_le_left _ _)⟩
  | sell =>
    rw [Price.roundToTick_sell _ pos, safeEnd_sell]
    have up := le_ceil_mul pos (Price.saturating (budgetPrice reference .sell maxSlippageBps)).get
    rw [max_eq_right (low.trans (le_min up high))]
    refine min_eq_right ?_
    by_contra below
    have within := (min_le_iff.mp ((le_max_right _ _).trans up)).resolve_right below
    exact none_ ⟨_, (le_max_left _ _).trans up, (not_le.mp below).le, within⟩

/-- A reference that can itself be quoted is never on the wrong side of its limit. -/
theorem limitPrice_faces (pos : 0 < tick) (onTick : OnGrid tick reference.get)
    (tradable : reference.Tradable) :
    Faces (limitPrice reference side maxSlippageBps tick) reference side := by
  rw [limitPrice_eq]
  refine ((roundToTick_reaches tick side _ _ (Price.saturating_tradable _) tradable).mpr ?_).2
  have budget : (0 : Decimal) ≤ maxSlippageBps / 10000 := by positivity
  have some_ := reference.pos
  obtain ⟨n, eq⟩ := onTick
  cases side with
  | buy =>
    have further : reference.get ≤ reference.get * (1 + maxSlippageBps / 10000) := by nlinarith
    simp only [Reaches, if_neg (not_le.mpr pos)]
    exact ⟨n, eq.le, eq.symm.trans_le (le_max_of_le_right (le_min further tradable.2))⟩
  | sell =>
    have further : reference.get * (1 - maxSlippageBps / 10000) ≤ reference.get := by nlinarith
    simp only [Reaches, if_neg (not_le.mpr pos)]
    exact ⟨n, (max_le tradable.1 ((min_le_left _ _).trans further)).trans_eq eq, eq.symm.le⟩

end SizingEngine

end CopyTrading
