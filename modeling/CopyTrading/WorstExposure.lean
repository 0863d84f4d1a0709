import CopyTrading.Order
import CopyTrading.Position

namespace CopyTrading

theorem Side.sign_ne_zero (side : Side) : side.sign ≠ 0 := by
  cases side with
  | buy => exact one_ne_zero
  | sell => exact neg_ne_zero.mpr one_ne_zero

theorem Side.same_direction {a b : Decimal} (side : Side) (some_ : a ≠ 0) (other : b ≠ 0) :
    (0 < side.sign * a ↔ 0 < side.sign * b) ↔ (0 < a ↔ 0 < b) := by
  have negative : ∀ {c : Decimal}, c ≠ 0 → (c < 0 ↔ ¬0 < c) :=
    fun nonzero => ⟨fun h => h.not_gt, fun h => lt_of_le_of_ne (not_lt.mp h) nonzero⟩
  cases side with
  | buy => rw [Side.sign, one_mul, one_mul]
  | sell =>
    rw [Side.sign, neg_one_mul, neg_one_mul, neg_pos, neg_pos, negative some_, negative other,
      not_iff_not]

namespace Position

/-- The position in the direction of that side: negative where the side reduces it. -/
def towards (p : Position) (side : Side) : Decimal := side.sign * p.netQuantity

section Book

variable {p : Position} {side : Side} {x px : Decimal}

theorem netQuantity_eq (p : Position) (side : Side) :
    p.netQuantity = side.sign * p.towards side := by
  unfold towards
  cases side with
  | buy => rw [Side.sign, one_mul, one_mul]
  | sell => rw [Side.sign, neg_one_mul, neg_one_mul, neg_neg]

theorem netQuantity_add (p : Position) (side : Side) (x : Decimal) :
    p.netQuantity + side.sign * x = side.sign * (p.towards side + x) := by
  rw [p.netQuantity_eq side]
  ring

/-- A fill of nothing leaves the average entry of what is held. -/
theorem book_nothing (px : Decimal) (held : p.netQuantity ≠ 0) :
    (p.book 0 px).2 = p.avgEntry := by
  unfold book
  simp only [add_zero]
  split
  next =>
    simp only
    rw [zero_mul, add_zero]
    exact mul_div_cancel_left₀ _ held
  next =>
    simp only
    exact if_neg (not_not.mpr trivial)

theorem book_onward (ahead : 0 ≤ p.towards side) (size : 0 ≤ x) :
    (p.towards side + x) * (p.book (side.sign * x) px).2 =
      p.towards side * p.avgEntry + x * px := by
  have sign := side.sign_ne_zero
  rcases size.eq_or_lt with rfl | some_
  · rw [mul_zero, add_zero, zero_mul, add_zero]
    rcases ahead.eq_or_lt with none | held
    · rw [← none, zero_mul, zero_mul]
    · have nonzero : p.netQuantity ≠ 0 := by
        rw [p.netQuantity_eq side]
        exact mul_ne_zero sign held.ne'
      rw [book_nothing px nonzero]
  · have increase : p.netQuantity = 0 ∨ (0 < p.netQuantity ↔ 0 < side.sign * x) := by
      rcases ahead.eq_or_lt with none | held
      · left
        rw [p.netQuantity_eq side, ← none, mul_zero]
      · right
        rw [p.netQuantity_eq side, side.same_direction held.ne' some_.ne']
        exact iff_of_true held some_
    have beyond : p.towards side + x ≠ 0 := (add_pos_of_nonneg_of_pos ahead some_).ne'
    have left_ : p.netQuantity + side.sign * x ≠ 0 := by
      rw [p.netQuantity_add side]
      exact mul_ne_zero sign beyond
    unfold book
    simp only [if_pos increase, if_pos left_]
    rw [p.netQuantity_add side, p.netQuantity_eq side]
    field_simp

/-- A fill against the position reduces it. -/
theorem opposite_of_against (against : p.towards side < 0) (some_ : 0 < x) :
    ¬(p.netQuantity = 0 ∨ (0 < p.netQuantity ↔ 0 < side.sign * x)) := by
  rw [p.netQuantity_eq side, side.same_direction against.ne some_.ne']
  rintro (zero | same)
  · exact mul_ne_zero side.sign_ne_zero against.ne zero
  · exact against.not_gt (same.mpr some_)

theorem book_reduces (px : Decimal) (against : p.towards side < 0) (size : 0 ≤ x)
    (short : x ≤ -p.towards side) :
    p.towards side + x = 0 ∨ (p.book (side.sign * x) px).2 = p.avgEntry := by
  by_cases flat : p.towards side + x = 0
  · exact .inl flat
  · right
    rcases size.eq_or_lt with rfl | some_
    · have held : p.netQuantity ≠ 0 := by
        rw [p.netQuantity_eq side]
        exact mul_ne_zero side.sign_ne_zero against.ne
      rw [mul_zero]
      exact book_nothing px held
    · have left_ : p.netQuantity + side.sign * x ≠ 0 := by
        rw [p.netQuantity_add side]
        exact mul_ne_zero side.sign_ne_zero flat
      have behind : p.towards side + x ≤ 0 := by linarith
      unfold book
      simp only [if_neg (opposite_of_against against some_), if_neg left_]
      rw [if_neg]
      rw [not_not, p.netQuantity_add side, p.netQuantity_eq side,
        side.same_direction flat against.ne]
      exact iff_of_false behind.not_gt against.not_gt

theorem book_crosses (against : p.towards side < 0) (more : -p.towards side < x) :
    (p.book (side.sign * x) px).2 = px := by
  have some_ : 0 < x := by linarith
  have beyond : 0 < p.towards side + x := by linarith
  have left_ : p.netQuantity + side.sign * x ≠ 0 := by
    rw [p.netQuantity_add side]
    exact mul_ne_zero side.sign_ne_zero beyond.ne'
  unfold book
  simp only [if_neg (opposite_of_against against some_), if_neg left_]
  rw [if_pos]
  rw [p.netQuantity_add side, p.netQuantity_eq side, side.same_direction beyond.ne' against.ne]
  exact fun same => against.not_gt (same.mp beyond)

end Book

/-- The most that the unmarked position can cost after fills of `left` shares in all, none at a
price above `highest`. -/
def worstCost (p : Position) (side : Side) (left highest : Decimal) : Decimal :=
  if 0 ≤ p.towards side then |p.towards side * p.avgEntry + left * highest|
  else max (left + p.towards side) 0 * highest

/-- The largest exposure such fills can lead to. -/
def worstExposure (p : Position) (side : Side) (left highest : Decimal) : Usd :=
  match p.markPrice with
  | some mark => max p.exposure |(p.netQuantity + side.sign * left) * mark.get|
  | none => max p.exposure (p.worstCost side left highest)

theorem exposure_le_worst (p : Position) (side : Side) (left highest : Decimal) :
    p.exposure ≤ p.worstExposure side left highest := by
  unfold worstExposure
  split
  · exact le_max_left _ _
  · exact le_max_left _ _

theorem exposure_unmarked {p : Position} (unmarked : p.markPrice = none) (side : Side) :
    p.exposure = |p.towards side * p.avgEntry| := by
  unfold exposure towards
  rw [unmarked, Option.elim_none]
  cases side with
  | buy => rw [Side.sign, one_mul]
  | sell => rw [Side.sign, neg_one_mul, neg_mul, abs_neg]

/-- An unmarked position takes no more than what the fills themselves cost. -/
theorem worstExposure_unmarked {p : Position} {left highest : Decimal}
    (unmarked : p.markPrice = none) (side : Side) (some_ : 0 ≤ left) (price : 0 ≤ highest) :
    p.worstExposure side left highest ≤ p.exposure + left * highest := by
  have cost : 0 ≤ left * highest := mul_nonneg some_ price
  have exposure := exposure_unmarked unmarked side
  have held : 0 ≤ p.exposure := by
    rw [exposure]
    exact abs_nonneg _
  unfold worstExposure
  rw [unmarked]
  refine max_le (by linarith) ?_
  unfold worstCost
  split
  next ahead =>
    rw [exposure]
    have sum := abs_add_le (p.towards side * p.avgEntry) (left * highest)
    rwa [abs_of_nonneg cost] at sum
  next behind =>
    rw [not_le] at behind
    have smaller : max (left + p.towards side) 0 * highest ≤ left * highest :=
      mul_le_mul_of_nonneg_right (max_le (by linarith) some_) price
    linarith

section Apply

variable {p : Position} {side : Side} {qty : Qty} {price : Price} {fee : Usd} {at_ : DateTime}
  {left highest : Decimal}

theorem apply_towards : (p.apply side qty price fee at_).2.towards side =
    p.towards side + qty.get := by
  show side.sign * (p.netQuantity + side.sign * qty.get) = side.sign * p.netQuantity + qty.get
  cases side with
  | buy =>
    simp only [Side.sign]
    ring
  | sell =>
    simp only [Side.sign]
    ring

theorem worstCost_apply (side : Side) (fee : Usd) (at_ : DateTime) (within : qty.get ≤ left)
    (admissible : price.get ≤ highest) (unmarked : p.markPrice = none) :
    (p.apply side qty price fee at_).2.exposure ≤
        max p.exposure (p.worstCost side left highest) ∧
      (p.apply side qty price fee at_).2.worstCost side (left - qty.get) highest ≤
        max p.exposure (p.worstCost side left highest) := by
  have size := qty.nonneg
  have positive := price.pos
  have rest : 0 ≤ left - qty.get := by linarith
  have paid : qty.get * price.get ≤ qty.get * highest := mul_le_mul_of_nonneg_left admissible size
  have later : 0 ≤ (left - qty.get) * highest := mul_nonneg rest (by linarith)
  have spent : 0 ≤ qty.get * price.get := mul_nonneg size positive.le
  have after : (p.apply side qty price fee at_).2.exposure =
      |(p.towards side + qty.get) * (p.book (side.sign * qty.get) price.get).2| := by
    rw [exposure_unmarked (show (p.apply side qty price fee at_).2.markPrice = none from unmarked)
      side, apply_towards]
    rfl
  have before : p.exposure = |p.towards side * p.avgEntry| := exposure_unmarked unmarked side
  unfold worstCost
  rw [after, apply_towards, before]
  show _ ∧ (if 0 ≤ p.towards side + qty.get then
      |(p.towards side + qty.get) * (p.book (side.sign * qty.get) price.get).2 +
        (left - qty.get) * highest|
    else max (left - qty.get + (p.towards side + qty.get)) 0 * highest) ≤ _
  by_cases ahead : 0 ≤ p.towards side
  · -- the cost only grows, and by no more than what is left to buy or sell
    rw [if_pos ahead, if_pos (add_nonneg ahead size), book_onward ahead size]
    constructor
    · exact abs_le_max_abs_abs (by linarith) (by linarith)
    · exact abs_le_max_abs_abs (by linarith) (by linarith)
  · rw [not_le] at ahead
    rw [if_neg ahead.not_ge]
    rcases le_or_gt qty.get (-p.towards side) with short | more
    · have smaller : |(p.towards side + qty.get) * (p.book (side.sign * qty.get) price.get).2| ≤
          |p.towards side * p.avgEntry| := by
        rcases book_reduces price.get ahead size short with flat | same
        · rw [flat, zero_mul, abs_zero]
          exact abs_nonneg _
        · rw [same, abs_mul, abs_mul]
          refine mul_le_mul_of_nonneg_right ?_ (abs_nonneg _)
          rw [abs_of_neg ahead, abs_of_nonpos (by linarith)]
          linarith
      refine ⟨smaller.trans (le_max_left _ _), le_trans ?_ (le_max_right _ _)⟩
      split
      next crossed =>
        have flat : p.towards side + qty.get = 0 := by linarith
        have left_ : left + p.towards side = left - qty.get := by linarith
        rw [flat, zero_mul, zero_add, abs_of_nonneg later, left_]
        exact mul_le_mul_of_nonneg_right (le_max_left _ _) (by linarith)
      next =>
        refine le_of_eq ?_
        congr 2
        ring
    · -- the residual is a new position at the crossing price
      have residual : 0 ≤ p.towards side + qty.get := by linarith
      have cost : (p.towards side + qty.get) * price.get ≤
          (p.towards side + qty.get) * highest := mul_le_mul_of_nonneg_left admissible residual
      have paid_ : 0 ≤ (p.towards side + qty.get) * price.get := mul_nonneg residual positive.le
      have most : (left + p.towards side) * highest ≤ max (left + p.towards side) 0 * highest :=
        mul_le_mul_of_nonneg_right (le_max_left _ _) (by linarith)
      rw [if_pos residual, book_crosses ahead more, abs_of_nonneg paid_,
        abs_of_nonneg (add_nonneg paid_ later)]
      constructor
      · refine le_trans ?_ (le_max_right _ _)
        linarith
      · refine le_trans ?_ (le_max_right _ _)
        linarith

/-- A fill within what is left brings the worst case no higher. -/
theorem worstExposure_apply (within : qty.get ≤ left) (admissible : price.get ≤ highest) :
    (p.apply side qty price fee at_).2.worstExposure side (left - qty.get) highest ≤
      p.worstExposure side left highest := by
  have size := qty.nonneg
  have same : (p.apply side qty price fee at_).2.markPrice = p.markPrice := rfl
  unfold worstExposure
  rw [same]
  cases marked : p.markPrice with
  | none =>
    obtain ⟨now, worst⟩ := worstCost_apply side fee at_ within admissible marked
    exact max_le now worst
  | some mark =>
    have positive := mark.pos
    simp only
    have exposure : (p.apply side qty price fee at_).2.exposure =
        |(p.netQuantity + side.sign * qty.get) * mark.get| := by
      unfold Position.exposure
      rw [same, marked]
      rfl
    have before : p.exposure = |p.netQuantity * mark.get| := by
      unfold Position.exposure
      rw [marked]
      rfl
    have worst : (p.apply side qty price fee at_).2.netQuantity + side.sign * (left - qty.get) =
        p.netQuantity + side.sign * left := by
      show p.netQuantity + side.sign * qty.get + side.sign * (left - qty.get) = _
      ring
    rw [exposure, worst, before]
    refine max_le ?_ (le_max_right _ _)
    cases side with
    | buy =>
      simp only [Side.sign, one_mul]
      refine abs_le_max_abs_abs ?_ ?_
      · exact mul_le_mul_of_nonneg_right (by linarith) positive.le
      · exact mul_le_mul_of_nonneg_right (by linarith) positive.le
    | sell =>
      simp only [Side.sign]
      rw [max_comm]
      refine abs_le_max_abs_abs ?_ ?_
      · exact mul_le_mul_of_nonneg_right (by linarith) positive.le
      · exact mul_le_mul_of_nonneg_right (by linarith) positive.le

end Apply

end Position

/-- The price is no worse than the order's limit. -/
def OrderRequest.admits (o : OrderRequest) (price : Price) : Prop :=
  match o.side with
  | .buy => price.get ≤ o.limitPrice.get
  | .sell => o.limitPrice.get ≤ price.get

instance (o : OrderRequest) (price : Price) : Decidable (o.admits price) := by
  unfold OrderRequest.admits
  cases o.side <;> infer_instance

/-- What no admissible price exceeds. -/
def OrderRequest.highestPrice (o : OrderRequest) : Decimal :=
  match o.side with
  | .buy => o.limitPrice.get
  | .sell => 1

theorem OrderRequest.admits_le {o : OrderRequest} {price : Price} (h : o.admits price) :
    price.get ≤ o.highestPrice := by
  unfold admits at h
  unfold highestPrice
  split at h
  next => exact h
  next => exact price.lt_one.le

/-- A sale can be filled as near to one as one likes. -/
theorem le_of_prices (limit : Price) {c r bound : Decimal} (some_ : 0 ≤ r)
    (all : ∀ price : Price, limit.get ≤ price.get → |c + r * price.get| ≤ bound) :
    |c + r * 1| ≤ bound := by
  by_contra above
  rw [not_le, mul_one] at above
  rcases some_.eq_or_lt with rfl | pos
  · have here := all limit le_rfl
    rw [zero_mul] at here
    linarith
  · let gap := (|c + r| - bound) / (2 * r)
    have gapPos : 0 < gap := div_pos (by linarith) (by linarith)
    have priced : 0 < max limit.get (1 - gap) := lt_max_of_lt_left limit.pos
    let price : Price := ⟨max limit.get (1 - gap), priced, max_lt limit.lt_one (by linarith)⟩
    have here := all price (le_max_left _ _)
    have near : r * (1 - price.get) ≤ (|c + r| - bound) / 2 := by
      have close : 1 - price.get ≤ gap := by
        have high : 1 - gap ≤ price.get := le_max_right _ _
        linarith
      have scaled : r * gap = (|c + r| - bound) / 2 := by
        show r * ((|c + r| - bound) / (2 * r)) = _
        field_simp
      rw [← scaled]
      exact mul_le_mul_of_nonneg_left close pos.le
    have apart : |c + r| ≤ |c + r * price.get| + r * (1 - price.get) := by
      have split : c + r = c + r * price.get + r * (1 - price.get) := by ring
      have triangle := abs_add_le (c + r * price.get) (r * (1 - price.get))
      rw [← split, abs_of_nonneg (mul_nonneg pos.le (by linarith [price.lt_one]))] at triangle
      exact triangle
    linarith

/-- Whatever bounds the exposure after every full fill at an admissible price bounds the worst
case. -/
theorem Position.worstExposure_le (p : Position) (o : OrderRequest) {bound : Decimal} (fee : Usd)
    (at_ : DateTime) (now : p.exposure ≤ bound)
    (all : ∀ price, o.admits price →
      (p.apply o.side o.quantity price fee at_).2.exposure ≤ bound) :
    p.worstExposure o.side o.quantity.get o.highestPrice ≤ bound := by
  have here := all o.limitPrice (by unfold OrderRequest.admits; split <;> exact le_rfl)
  unfold worstExposure
  cases marked : p.markPrice with
  | some mark =>
    refine max_le now ?_
    have exposure : (p.apply o.side o.quantity o.limitPrice fee at_).2.exposure =
        |(p.netQuantity + o.side.sign * o.quantity.get) * mark.get| := by
      unfold Position.exposure
      rw [show (p.apply o.side o.quantity o.limitPrice fee at_).2.markPrice = p.markPrice from rfl,
        marked]
      rfl
    rw [exposure] at here
    exact here
  | none =>
    have cost : ∀ price, (p.apply o.side o.quantity price fee at_).2.exposure =
        |(p.towards o.side + o.quantity.get) *
          (p.book (o.side.sign * o.quantity.get) price.get).2| := by
      intro price
      rw [exposure_unmarked
        (show (p.apply o.side o.quantity price fee at_).2.markPrice = none from marked) o.side,
        apply_towards]
      rfl
    refine max_le now ?_
    unfold worstCost
    -- the cost after one full fill at `price`, as `c + r * price`
    have reach : ∀ c r : Decimal, 0 ≤ r → (∀ price : Price, o.admits price →
        |c + r * price.get| ≤ bound) → |c + r * o.highestPrice| ≤ bound := by
      intro c r some_ each
      unfold OrderRequest.highestPrice
      cases side : o.side with
      | buy => exact each o.limitPrice (by unfold OrderRequest.admits; rw [side])
      | sell =>
        refine le_of_prices o.limitPrice some_ ?_
        intro price above
        exact each price (by unfold OrderRequest.admits; rw [side]; exact above)
    split
    next ahead =>
      refine reach _ _ o.quantity.nonneg ?_
      intro price admitted
      have full := all price admitted
      rw [cost, book_onward ahead o.quantity.nonneg] at full
      exact full
    next behind =>
      rw [not_le] at behind
      rcases le_or_gt o.quantity.get (-p.towards o.side) with short | more
      · rw [max_eq_right (by linarith), zero_mul]
        exact (abs_nonneg _).trans now
      · have residual : 0 ≤ o.quantity.get + p.towards o.side := by linarith
        have bounded := reach 0 (o.quantity.get + p.towards o.side) residual (by
          intro price admitted
          have full := all price admitted
          rw [cost, book_crosses behind more] at full
          rw [zero_add, add_comm]
          exact full)
        rw [max_eq_left residual]
        rw [zero_add] at bounded
        exact (le_abs_self _).trans bounded

end CopyTrading
