import CopyTrading.DecimalMachine
import CopyTrading.RangedArith
import CopyTrading.Sizing
import CopyTrading.SweepPrice
import CopyTrading.TickGrid

namespace CopyTrading

open RangedArith TickGrid

/-- Decimals carry an integer of 96 bits. -/
def decimalBound : Decimal := 2 ^ 96

def InRange (d : Decimal) : Prop := |d| < decimalBound

instance (d : Decimal) : Decidable (InRange d) := inferInstanceAs (Decidable (_ < _))

theorem Representable.inRange {d : Decimal} (h : Representable d) : InRange d := by
  obtain ⟨m, s, bits, _, rfl⟩ := h
  have places : (1 : ℚ) ≤ 10 ^ s := one_le_pow₀ (by norm_num)
  have small : |m| < 2 ^ 96 := bits
  have bits' : |(m : ℚ)| < 2 ^ 96 := by
    rw [← Int.cast_abs]
    exact_mod_cast small
  unfold InRange decimalBound
  rw [abs_div, abs_of_pos (lt_of_lt_of_le one_pos places)]
  exact (div_le_self (abs_nonneg _) places).trans_lt bits'

/-- Nothing positive is smaller than the last place. -/
theorem Representable.least {d : Decimal} (h : Representable d) (pos : 0 < d) :
    1 / 10 ^ 28 ≤ d := by
  obtain ⟨m, s, _, places, rfl⟩ := h
  rw [rustDecimal_places] at places
  have scale : (0 : ℚ) < 10 ^ s := by positivity
  have numerator : (0 : ℚ) < m := by
    by_contra none_
    exact absurd pos (not_lt.mpr (div_nonpos_of_nonpos_of_nonneg (not_lt.mp none_) scale.le))
  have one : (1 : ℚ) ≤ m := by exact_mod_cast numerator
  have most : (10 : ℚ) ^ s ≤ 10 ^ 28 := pow_le_pow_right₀ (by norm_num) places
  exact div_le_div₀ numerator.le one scale most

theorem inRange_of_lt {d : Decimal} (h : |d| < 10 ^ 28 + 1) : InRange d := by
  refine lt_of_lt_of_le h ?_
  norm_num [decimalBound]

theorem InRange.of_le {d e : Decimal} (h : InRange e) (nonneg : 0 ≤ d) (le : d ≤ e) :
    InRange d := by
  unfold InRange
  rw [abs_of_nonneg nonneg]
  exact (le.trans (le_abs_self e)).trans_lt h

namespace Ranged

/-- The result of an operator as the program runs it, with a panic outside the range. -/
abbrev op (x : Decimal) : Option Decimal := checked decimalBound x

theorem op_computes (x : Decimal) : Computes (op x) (InRange x) x := .checked decimalBound x

theorem op_safe {x : Decimal} (h : InRange x) : Computes (op x) True x :=
  (op_computes x).congr (iff_of_true h trivial)

def notional (q : Qty) (p : Price) : Option Usd := op (q.get * p.get)

def roundToTick (p : Price) (tick : Decimal) (side : Side) : Option Price :=
  if tick ≤ 0 then some p
  else do
    let steps ← op (p.get / tick)
    let rounded : Decimal := match side with
      | .buy => ⌊steps⌋
      | .sell => ⌈steps⌉
    let back ← op (rounded * tick)
    some (.saturating back)

def limitPrice (reference : Price) (side : Side) (maxSlippageBps : Nat) (tick : Decimal) :
    Option Price := do
  let budget ← op (maxSlippageBps / 10000)
  let factor ← op (match side with
    | .buy => 1 + budget
    | .sell => 1 - budget)
  let adjusted ← op (reference.get * factor)
  roundToTick (.saturating adjusted) tick side

def notionalWithin (b : OrderBook) (side : Side) (limit : Price) : Option Usd :=
  ((b.takingSide side).takeWhile (·.within side limit)).foldlM
    (addTerm decimalBound fun l => notional l.size l.price) 0

/-- The loop of `sweepVwap`, with its accumulators. -/
def sweep (side : Side) (limit : Price) :
    Decimal → Decimal → Decimal → List Level → Option (Decimal × Decimal)
  | _, paid, taken, [] => some (paid, taken)
  | remaining, paid, taken, l :: ls =>
    if !l.within side limit ∨ remaining ≤ 0 then some (paid, taken)
    else do
      let take := min remaining l.size.get
      let cost ← op (take * l.price.get)
      let paid ← op (paid + cost)
      let taken ← op (taken + take)
      let remaining ← op (remaining - take)
      sweep side limit remaining paid taken ls

def sweepVwap (b : OrderBook) (side : Side) (qty : Qty) (limit : Price) :
    Option (Option (Price × Qty)) := do
  let swept ← sweep side limit qty.get 0 0 (b.takingSide side)
  if swept.2 = 0 then some none
  else do
    let vwap ← op (swept.1 / swept.2)
    some ((Price.ofDecimal? vwap).map fun p => (p, (Qty.new swept.2).toOption.getD .zero))

def slippage (reference actual : Price) (side : Side) : Option Decimal :=
  if reference.get = 0 then some 0
  else do
    let diff ← op (match side with
      | .buy => actual.get - reference.get
      | .sell => reference.get - actual.get)
    let ratio ← op (diff / reference.get)
    op (ratio * 10000)

theorem inRange_mul_price {d : Decimal} (h : InRange d) (p : Price) : InRange (d * p.get) := by
  refine lt_of_le_of_lt ?_ h
  rw [abs_mul, abs_of_pos p.pos]
  exact mul_le_of_le_one_right (abs_nonneg d) p.lt_one.le

theorem notional_eq {q : Qty} (h : InRange q.get) (p : Price) :
    notional q p = some (q.notional p) :=
  (op_computes _).ok (inRange_mul_price h p)

theorem steps_inRange {tick : Decimal} (h : Representable tick) (pos : 0 < tick) (p : Price) :
    InRange (p.get / tick) := by
  have more : (1 : ℚ) ≤ 10 ^ 28 * tick := by
    rw [mul_comm]
    exact (div_le_iff₀ (by positivity)).mp (h.least pos)
  have below := p.lt_one
  refine inRange_of_lt ?_
  rw [abs_of_pos (div_pos p.pos pos), div_lt_iff₀ pos]
  linarith

theorem floor_inRange {tick : Decimal} (pos : 0 < tick) (p : Price) :
    InRange (⌊p.get / tick⌋ * tick) := by
  have floor : (0 : ℚ) ≤ ⌊p.get / tick⌋ := by
    exact_mod_cast Int.floor_nonneg.mpr (div_pos p.pos pos).le
  have down := floor_mul_le pos p.get
  have below := p.lt_one
  refine inRange_of_lt ?_
  rw [abs_of_nonneg (mul_nonneg floor pos.le)]
  linarith

theorem ceil_inRange {tick : Decimal} (h : Representable tick) (pos : 0 < tick) (p : Price) :
    InRange (⌈p.get / tick⌉ * tick) := by
  have ceil : (0 : ℚ) ≤ ⌈p.get / tick⌉ := by
    exact_mod_cast Int.ceil_nonneg (div_pos p.pos pos).le
  rcases le_or_gt p.get tick with one | many
  · -- a price within one tick is rounded up to the tick itself
    have single : ⌈p.get / tick⌉ ≤ 1 := by
      refine Int.ceil_le.mpr ?_
      rw [Int.cast_one]
      exact (div_le_one pos).mpr one
    have cast : ((⌈p.get / tick⌉ : ℤ) : ℚ) ≤ 1 := by exact_mod_cast single
    exact h.inRange.of_le (mul_nonneg ceil pos.le) (mul_le_of_le_one_left pos.le cast)
  · have up := mul_lt_mul_of_pos_right (Int.ceil_lt_add_one (p.get / tick)) pos
    rw [add_mul, div_mul_cancel₀ _ pos.ne', one_mul] at up
    have below := p.lt_one
    refine inRange_of_lt ?_
    rw [abs_of_nonneg (mul_nonneg ceil pos.le)]
    linarith

theorem roundToTick_eq {tick : Decimal} (h : Representable tick) (p : Price) (side : Side) :
    roundToTick p tick side = some (p.roundToTick tick side) := by
  unfold roundToTick Price.roundToTick
  by_cases none_ : tick ≤ 0
  · rw [if_pos none_, if_pos none_]
  · have pos := not_le.mp none_
    rw [if_neg none_, if_neg none_, (op_computes _).ok (steps_inRange h pos p)]
    cases side with
    | buy =>
      simp only [Option.bind_eq_bind, Option.bind_some]
      rw [(op_computes _).ok (floor_inRange pos p)]
      rfl
    | sell =>
      simp only [Option.bind_eq_bind, Option.bind_some]
      rw [(op_computes _).ok (ceil_inRange h pos p)]
      rfl

/-- A budget of 32 bits of basis points, on either side of one. -/
theorem budget_bounds {maxSlippageBps : Nat} (bits : maxSlippageBps < 2 ^ 32) :
    (0 : ℚ) ≤ maxSlippageBps / 10000 ∧ (maxSlippageBps : ℚ) / 10000 < 2 ^ 32 := by
  have cast : (maxSlippageBps : ℚ) < 2 ^ 32 := by exact_mod_cast bits
  exact ⟨by positivity, (div_le_self (Nat.cast_nonneg _) (by norm_num)).trans_lt cast⟩

theorem limitPrice_eq {tick : Decimal} (h : Representable tick) (reference : Price) (side : Side)
    {maxSlippageBps : Nat} (bits : maxSlippageBps < 2 ^ 32) :
    limitPrice reference side maxSlippageBps tick =
      some (SizingEngine.limitPrice reference side maxSlippageBps tick) := by
  obtain ⟨low, high⟩ := budget_bounds bits
  have priced : ∀ factor : Decimal, |factor| < 2 ^ 32 + 1 → (do
      let factor ← op factor
      let adjusted ← op (reference.get * factor)
      roundToTick (.saturating adjusted) tick side) =
      some ((Price.saturating (reference.get * factor)).roundToTick tick side) := by
    intro factor small
    have within : InRange factor := inRange_of_lt (small.trans (by norm_num))
    have adjusted : InRange (reference.get * factor) := by
      rw [mul_comm]
      exact inRange_mul_price within reference
    simp only [Option.bind_eq_bind]
    rw [(op_computes _).ok within, Option.bind_some, (op_computes _).ok adjusted,
      Option.bind_some, roundToTick_eq h]
  have budget : InRange ((maxSlippageBps : ℚ) / 10000) := by
    refine inRange_of_lt ?_
    rw [abs_of_nonneg low]
    linarith
  unfold limitPrice
  rw [(op_computes _).ok budget]
  simp only [Option.bind_eq_bind, Option.bind_some]
  cases side with
  | buy => exact priced (1 + maxSlippageBps / 10000) (abs_lt.mpr ⟨by linarith, by linarith⟩)
  | sell => exact priced (1 - maxSlippageBps / 10000) (abs_lt.mpr ⟨by linarith, by linarith⟩)

/-- The book's depth is in the range exactly if its total is. -/
theorem notionalWithin_computes {b : OrderBook} {side : Side}
    (sizes : ∀ l ∈ b.takingSide side, InRange l.size.get) (limit : Price) :
    Computes (notionalWithin b side limit) (InRange (b.notionalWithin side limit))
      (b.notionalWithin side limit) := by
  have listed : ∀ l ∈ (b.takingSide side).takeWhile (·.within side limit),
      l ∈ b.takingSide side := fun l mem => List.takeWhile_subset _ mem
  have costs : ∀ l ∈ (b.takingSide side).takeWhile (·.within side limit),
      0 ≤ l.size.notional l.price :=
    fun l _ => mul_nonneg l.size.nonneg l.price.pos.le
  have sum := computes_sum decimalBound (fun l : Level => l.size.notional l.price)
    (fun l mem => notional_eq (sizes l (listed l mem)) l.price) costs le_rfl
    (by norm_num [decimalBound])
  have total : (0 : ℚ) + (((b.takingSide side).takeWhile (·.within side limit)).map
      fun l => l.size.notional l.price).sum = b.notionalWithin side limit := zero_add _
  have nonneg : 0 ≤ b.notionalWithin side limit := by
    refine List.sum_nonneg ?_
    intro x mem
    obtain ⟨l, within, rfl⟩ := List.mem_map.mp mem
    exact costs l within
  rw [total] at sum
  refine sum.congr ?_
  unfold InRange
  rw [abs_of_nonneg nonneg]

/-- Walking the book for a quantity in the range never leaves it. -/
theorem sweep_eq {side : Side} {limit : Price} {remaining paid taken : Decimal} {ls : List Level}
    (left : 0 ≤ remaining) (low : 0 ≤ paid) (cheap : paid ≤ taken)
    (fits : taken + remaining < decimalBound) :
    sweep side limit remaining paid taken ls =
      some (paid + (sweepLevels side limit remaining ls).1,
        taken + (sweepLevels side limit remaining ls).2) := by
  induction ls generalizing remaining paid taken with
  | nil => simp [sweep, sweepLevels]
  | cons l ls ih =>
    unfold sweep sweepLevels
    by_cases ends : !l.within side limit ∨ remaining ≤ 0
    · rw [if_pos ends, if_pos ends, add_zero, add_zero]
    · have take : 0 ≤ min remaining l.size.get := le_min left l.size.nonneg
      have part : min remaining l.size.get ≤ remaining := min_le_left _ _
      have cost : 0 ≤ min remaining l.size.get * l.price.get := mul_nonneg take l.price.pos.le
      have less : min remaining l.size.get * l.price.get ≤ min remaining l.size.get :=
        mul_le_of_le_one_right take l.price.lt_one.le
      have within : ∀ x : Decimal, 0 ≤ x → x ≤ taken + remaining → op x = some x := by
        intro x nonneg le
        refine (op_computes x).ok ?_
        unfold InRange
        rw [abs_of_nonneg nonneg]
        exact le.trans_lt fits
      rw [if_neg ends, if_neg ends]
      simp only [Option.bind_eq_bind]
      rw [within _ cost (by linarith), Option.bind_some,
        within (paid + _) (by linarith) (by linarith), Option.bind_some,
        within (taken + _) (by linarith) (by linarith), Option.bind_some,
        within (remaining - _) (by linarith) (by linarith), Option.bind_some,
        ih (by linarith) (by linarith) (by linarith) (by linarith)]
      simp only [add_assoc]

theorem sweepVwap_eq (b : OrderBook) (side : Side) {qty : Qty} (h : InRange qty.get)
    (limit : Price) : sweepVwap b side qty limit = some (b.sweepVwap side qty limit) := by
  have fits : 0 + qty.get < decimalBound := by
    rw [zero_add]
    exact (le_abs_self _).trans_lt h
  unfold sweepVwap OrderBook.sweepVwap
  rw [sweep_eq qty.nonneg le_rfl le_rfl fits]
  simp only [Option.bind_eq_bind, Option.bind_some, zero_add]
  by_cases none_ : (sweepLevels side limit qty.get (b.takingSide side)).2 = 0
  · rw [if_pos none_, if_pos none_]
  · rcases sweepLevels_notional side limit qty.get (b.takingSide side) qty.nonneg with empty |
      ⟨low, high⟩
    · rw [empty] at none_
      exact absurd rfl none_
    · have average : InRange ((sweepLevels side limit qty.get (b.takingSide side)).1 /
          (sweepLevels side limit qty.get (b.takingSide side)).2) := by
        refine inRange_of_lt ?_
        rw [abs_of_pos (div_pos low (low.trans high))]
        have one := (div_lt_one (low.trans high)).mpr high
        linarith
      rw [if_neg none_, if_neg none_, (op_computes _).ok average, Option.bind_some]

/-- Of the slippage estimate, only the last multiplication can leave the range. -/
theorem slippage_computes {reference : Price} (h : Representable reference.get) (actual : Price)
    (side : Side) : Computes (slippage reference actual side)
      (InRange (slippageBps reference actual side)) (slippageBps reference actual side) := by
  have pos := reference.pos
  have below := reference.lt_one
  have pos' := actual.pos
  have below' := actual.lt_one
  have scale : (1 : ℚ) ≤ 10 ^ 28 * reference.get := by
    rw [mul_comm]
    exact (div_le_iff₀ (by positivity)).mp (h.least pos)
  have difference : ∀ d : Decimal, |d| < 1 →
      Computes (do
        let diff ← op d
        let ratio ← op (diff / reference.get)
        op (ratio * 10000)) (InRange (d / reference.get * 10000))
        (d / reference.get * 10000) := by
    intro d small
    refine (op_computes d).step (inRange_of_lt (by linarith)) ?_
    refine (op_computes (d / reference.get)).step (inRange_of_lt ?_) (op_computes _)
    rw [abs_div, abs_of_pos pos, div_lt_iff₀ pos]
    linarith
  unfold slippage slippageBps
  rw [if_neg pos.ne', if_neg pos.ne']
  cases side with
  | buy => exact difference _ (abs_lt.mpr ⟨by linarith, by linarith⟩)
  | sell => exact difference _ (abs_lt.mpr ⟨by linarith, by linarith⟩)

end Ranged

end CopyTrading
