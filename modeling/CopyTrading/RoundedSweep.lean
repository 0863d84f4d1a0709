import CopyTrading.CalcMoney
import CopyTrading.PaperSession
import CopyTrading.SweepOptimal

namespace CopyTrading

open Calc

/-- Prices and sizes are decimals of the program. -/
def OrderBook.Decimals (b : OrderBook) : Prop :=
  ∀ side, ∀ l ∈ b.takingSide side, Representable l.price.get ∧ Representable l.size.get

variable {side : Side} {limit : Price} {b : OrderBook} {qty : Qty}

theorem sign_round_mono {x y r t : Decimal} (le : side.sign * x ≤ side.sign * y)
    (hx : rustDecimal.round x = some r) (hy : rustDecimal.round y = some t) :
    side.sign * r ≤ side.sign * t := by
  cases side with
  | buy =>
    rw [Side.sign, one_mul, one_mul] at le ⊢
    exact DecimalFormat.round_mono le hx hy
  | sell =>
    rw [Side.sign] at le ⊢
    have mono := DecimalFormat.round_mono (by linarith : y ≤ x) hy hx
    linarith

/-- Rounding does not carry a price past one that a decimal can hold. -/
theorem sign_le_of_round {p x r : Decimal} (held : Representable p)
    (le : side.sign * p ≤ side.sign * x) (h : rustDecimal.round x = some r) :
    side.sign * p ≤ side.sign * r :=
  sign_round_mono le (DecimalFormat.round_of_holds held) h

theorem sign_round_le {p x r : Decimal} (held : Representable p)
    (le : side.sign * x ≤ side.sign * p) (h : rustDecimal.round x = some r) :
    side.sign * r ≤ side.sign * p :=
  sign_round_mono le h (DecimalFormat.round_of_holds held)

theorem sweep_value (side : Side) (limit : Price) (remaining paid taken : Decimal)
    (ls : List Level) : (sweep side limit remaining paid taken ls).value =
      (paid + (sweepLevels side limit remaining ls).1,
        taken + (sweepLevels side limit remaining ls).2) := by
  induction ls generalizing remaining paid taken with
  | nil => simp [sweep, sweepLevels]
  | cons l ls ih =>
    unfold sweep sweepLevels
    split
    · simp
    · simp only [op, sizes, Calculation.value_bind, Calculation.value_lift, ih, add_assoc]

theorem walk_value (b : OrderBook) (side : Side) (qty : Qty) (limit : Price) :
    (walk b side qty limit).value = sweepLevels side limit qty.get (b.takingSide side) := by
  rw [sweep_value, zero_add, zero_add]

theorem foldl_add_eq_sum {α : Type} (g : α → Decimal) (acc : Decimal) (xs : List α) :
    xs.foldl (fun acc x => acc + g x) acc = acc + (xs.map g).sum := by
  induction xs generalizing acc with
  | nil => simp
  | cons x xs ih => rw [List.foldl_cons, ih, List.map_cons, List.sum_cons, add_assoc]

theorem liquidityWithin_value (b : OrderBook) (side : Side) (limit : Price) :
    (liquidityWithin b side limit).value = (b.liquidityWithin side limit).get := by
  unfold liquidityWithin
  rw [Calculation.value_foldlM, OrderBook.liquidityWithin_get, ← zero_add (List.sum _)]
  exact foldl_add_eq_sum (fun l : Level => l.size.get) 0 _

theorem notionalWithin_value (b : OrderBook) (side : Side) (limit : Price) :
    (notionalWithin b side limit).value = b.notionalWithin side limit := by
  unfold notionalWithin OrderBook.notionalWithin
  rw [Calculation.value_foldlM, ← zero_add (List.sum _)]
  exact foldl_add_eq_sum (fun l : Level => l.size.notional l.price) 0 _

/-- A walk that need not round leaves only the quotient to be rounded. -/
theorem sweepVwap_run (walks : (walk b side qty limit).Unrounded) :
    (sweepVwap b side qty limit).run rounded =
      match b.sweepVwap side qty limit with
      | none => some none
      | some (p, got) => (rustDecimal.round p.get).map fun vwap =>
          (Price.ofDecimal? vwap).map fun p => (p, got) := by
  have nonneg := qty.nonneg
  unfold sweepVwap OrderBook.sweepVwap
  rw [Calculation.run_bind, walks.run, walk_value, Option.bind_some]
  simp only
  split
  next => rfl
  next some_ =>
    rcases sweepLevels_notional side limit qty.get (b.takingSide side) nonneg with empty |
      ⟨low, high⟩
    · rw [empty] at some_
      exact absurd rfl some_
    · have vwap := (div_lt_one (low.trans high)).mpr high
      have price : Price.ofDecimal? ((sweepLevels side limit qty.get (b.takingSide side)).1 /
          (sweepLevels side limit qty.get (b.takingSide side)).2) =
          some ⟨_, div_pos low (low.trans high), vwap⟩ := Price.ofDecimal?_of _ vwap
      rw [price, Calculation.run_bind, op, Calculation.run_lift, Option.map_some]
      exact (Option.map_eq_bind ..).symm

/-- Such a sweep takes what an exact one takes, at the rounded price. -/
theorem sweepVwap_run_some (walks : (walk b side qty limit).Unrounded) {p : Price} {got : Qty}
    (h : (sweepVwap b side qty limit).run rounded = some (some (p, got))) :
    ∃ p₀, b.sweepVwap side qty limit = some (p₀, got) ∧
      rustDecimal.round p₀.get = some p.get := by
  rw [sweepVwap_run walks] at h
  cases swept : b.sweepVwap side qty limit with
  | none =>
    rw [swept] at h
    cases h
  | some result =>
    obtain ⟨p₀, got₀⟩ := result
    rw [swept] at h
    obtain ⟨vwap, rounds, h⟩ := Option.map_eq_some_iff.mp h
    obtain ⟨p', price, h⟩ := Option.map_eq_some_iff.mp h
    cases h
    refine ⟨p₀, rfl, ?_⟩
    rw [rounds, Price.ofDecimal?_eq_some price]

/-- A quantity of 27 places. -/
def Qty.odd : Qty := ⟨30000000000000000000000000001 / 10 ^ 27, by norm_num⟩

namespace OrderBook

/-- What an exact sweep takes is taken at its rounded price, which stays within the limit and the
best level. -/
theorem sweepVwap_run_of_swept (best : b.BestFirst) (decimals : b.Decimals)
    (held : Representable limit.get) (walks : (walk b side qty limit).Unrounded) {p₀ : Price}
    {got : Qty} (swept : b.sweepVwap side qty limit = some (p₀, got)) :
    ∃ p : Price, (Calc.sweepVwap b side qty limit).run rounded = some (some (p, got)) ∧
      rustDecimal.round p₀.get = some p.get ∧ |p₀.get - p.get| ≤ 1 / 2 / 10 ^ 28 ∧
      (∃ l, (b.takingSide side).head? = some l ∧
        side.sign * l.price.get ≤ side.sign * p.get) ∧
      side.sign * p.get ≤ side.sign * limit.get := by
  have unit : |p₀.get| ≤ 1 := by
    rw [abs_of_pos p₀.pos]
    exact p₀.lt_one.le
  obtain ⟨vwap, rounds, near⟩ := exists_round unit
  obtain ⟨l, first, better⟩ := sweepVwap_from_best best swept
  have listed : l ∈ b.takingSide side := List.mem_of_mem_head? first
  have from_best := sign_le_of_round (decimals side l listed).1 better rounds
  have within := sign_round_le held (sweepVwap_within swept) rounds
  have price : 0 < vwap ∧ vwap < 1 := by
    have low := l.price.pos
    have high := l.price.lt_one
    have low' := limit.pos
    have high' := limit.lt_one
    cases side with
    | buy =>
      rw [Side.sign, one_mul, one_mul] at from_best within
      exact ⟨by linarith, by linarith⟩
    | sell =>
      rw [Side.sign] at from_best within
      exact ⟨by linarith, by linarith⟩
  have ran := sweepVwap_run walks
  rw [swept] at ran
  simp only [rounds, Option.map_some, Price.ofDecimal?_of price.1 price.2] at ran
  exact ⟨_, ran, rounds, near, ⟨l, first, from_best⟩, within⟩

/-- Thirty shares are on offer at a half, and thirty at 3/5. -/
def twoLevels : OrderBook :=
  { OrderBook.sample with
    asks := [⟨.half, (OrderRequest.sample .gtc).quantity⟩,
      ⟨(OrderRequest.sample .gtc).limitPrice, (OrderRequest.sample .gtc).quantity⟩] }

/-- 200 shares at 0.95. -/
def deep : OrderBook := { twoLevels with asks := [⟨.nineteenTwentieths, .whole 200⟩] }

/-- Two shares at 0.40 and one at 0.50: an average of 0.4333... -/
def thirds : OrderBook :=
  { twoLevels with asks := [⟨.twoFifths, .whole 2⟩, ⟨.half, .whole 1⟩] }

theorem deep_bestFirst : deep.BestFirst := ⟨.nil, List.pairwise_singleton _ _⟩

theorem deep_decimals : deep.Decimals := by
  rintro (_ | _) <;> decide +kernel

theorem thirds_bestFirst : thirds.BestFirst := by
  refine ⟨.nil, List.pairwise_pair.mpr ?_⟩
  show (2 / 5 : ℚ) ≤ 1 / 2
  norm_num

theorem thirds_decimals : thirds.Decimals := by
  rintro (_ | _) <;> decide +kernel

/-- The best level offers a size of 28 places. -/
def oddLevels : OrderBook :=
  { twoLevels with asks :=
      [⟨.half, ⟨9999999999999999999999999995 / 10 ^ 28, by norm_num⟩⟩, ⟨.half, .whole 100⟩] }

end OrderBook

end CopyTrading
