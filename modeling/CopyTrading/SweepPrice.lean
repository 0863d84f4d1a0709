import CopyTrading.Book
import CopyTrading.GreedyAllocation

namespace CopyTrading

open GreedyAllocation

/-- Neither side gets better as it is walked. -/
structure OrderBook.BestFirst (b : OrderBook) : Prop where
  bids : b.bids.Pairwise fun l m => m.price.get ≤ l.price.get
  asks : b.asks.Pairwise fun l m => l.price.get ≤ m.price.get

variable {side : Side} {limit : Price}

/-- A buy minds a high price and a sale a low one. -/
theorem OrderBook.BestFirst.taking {b : OrderBook} (h : b.BestFirst) (side : Side) :
    (b.takingSide side).Pairwise fun l m =>
      side.sign * l.price.get ≤ side.sign * m.price.get := by
  cases side with
  | buy =>
    refine h.asks.imp ?_
    intro l m le
    rw [Side.sign, one_mul, one_mul]
    exact le
  | sell =>
    refine h.bids.imp ?_
    intro l m le
    rw [Side.sign]
    linarith

theorem Level.sign_le_of_within {l : Level} (h : l.within side limit = true) :
    side.sign * l.price.get ≤ side.sign * limit.get := by
  cases side with
  | buy =>
    have below : l.price.get ≤ limit.get := of_decide_eq_true h
    rw [Side.sign, one_mul, one_mul]
    exact below
  | sell =>
    have above : limit.get ≤ l.price.get := of_decide_eq_true h
    rw [Side.sign]
    linarith

theorem sweepLevels_of_nonpos {remaining : Decimal} (h : remaining ≤ 0) (ls : List Level) :
    sweepLevels side limit remaining ls = (0, 0) := by
  cases ls with
  | nil => rfl
  | cons l ls =>
    unfold sweepLevels
    rw [if_pos (.inr h)]

theorem sweepLevels_beyond {l : Level} (h : l.within side limit = false) (remaining : Decimal)
    (ls : List Level) : sweepLevels side limit remaining (l :: ls) = (0, 0) := by
  unfold sweepLevels
  rw [h, if_pos (.inl rfl)]

theorem sweepLevels_cons {l : Level} (within : l.within side limit = true) {remaining : Decimal}
    (h : 0 ≤ remaining) (ls : List Level) :
    sweepLevels side limit remaining (l :: ls) =
      (min remaining l.size.get * l.price.get +
          (sweepLevels side limit (remaining - min remaining l.size.get) ls).1,
        min remaining l.size.get +
          (sweepLevels side limit (remaining - min remaining l.size.get) ls).2) := by
  rcases h.eq_or_lt with none_ | some_
  · rw [← none_, min_eq_left l.size.nonneg, sub_zero, sweepLevels_of_nonpos le_rfl,
      sweepLevels_of_nonpos le_rfl]
    simp
  · rw [sweepLevels, within, if_neg (by simp [some_])]

/-- Nothing is taken beyond the limit. -/
theorem sweepLevels_within_limit (side : Side) (limit : Price) {remaining : Decimal}
    (h : 0 ≤ remaining) (ls : List Level) :
    side.sign * (sweepLevels side limit remaining ls).1 ≤
      side.sign * limit.get * (sweepLevels side limit remaining ls).2 := by
  induction ls generalizing remaining with
  | nil => simp [sweepLevels]
  | cons l ls ih =>
    cases within : l.within side limit with
    | false =>
      rw [sweepLevels_beyond within]
      simp
    | true =>
      have rest := ih (left_nonneg remaining l.size.get)
      have take : 0 ≤ min remaining l.size.get := le_min h l.size.nonneg
      have head := mul_le_mul_of_nonneg_right (Level.sign_le_of_within within) take
      rw [sweepLevels_cons within h]
      simp only
      linarith

/-- What a larger sweep takes on top is no better than the levels it is taken from. -/
theorem sweepLevels_extra (limit : Price) {p : Decimal} {ls : List Level}
    (worse : ∀ l ∈ ls, side.sign * p ≤ side.sign * l.price.get) {less more : Decimal}
    (some_ : 0 ≤ less) (le : less ≤ more) :
    side.sign * p * ((sweepLevels side limit more ls).2 - (sweepLevels side limit less ls).2) ≤
      side.sign * ((sweepLevels side limit more ls).1 - (sweepLevels side limit less ls).1) := by
  induction ls generalizing less more with
  | nil => simp [sweepLevels]
  | cons l ls ih =>
    cases within : l.within side limit with
    | false =>
      rw [sweepLevels_beyond within, sweepLevels_beyond within]
      simp
    | true =>
      have rest := ih (fun m mem => worse m (List.mem_cons_of_mem l mem))
        (left_nonneg less l.size.get) (left_mono le l.size.get)
      have take : min less l.size.get ≤ min more l.size.get := min_le_min_right _ le
      have head := mul_le_mul_of_nonneg_right (worse l List.mem_cons_self) (sub_nonneg.mpr take)
      rw [sweepLevels_cons within some_, sweepLevels_cons within (some_.trans le)]
      simp only
      linarith

/-- The average price of a sweep gets no better with its size. -/
theorem sweepLevels_average (limit : Price) {ls : List Level}
    (best : ls.Pairwise fun l m => side.sign * l.price.get ≤ side.sign * m.price.get)
    {less more : Decimal} (some_ : 0 ≤ less) (le : less ≤ more) :
    side.sign * ((sweepLevels side limit less ls).1 * (sweepLevels side limit more ls).2) ≤
      side.sign * ((sweepLevels side limit more ls).1 * (sweepLevels side limit less ls).2) := by
  induction ls generalizing less more with
  | nil => simp [sweepLevels]
  | cons l ls ih =>
    obtain ⟨worse, tail⟩ := List.pairwise_cons.mp best
    cases within : l.within side limit with
    | false =>
      rw [sweepLevels_beyond within, sweepLevels_beyond within]
    | true =>
      rw [sweepLevels_cons within some_, sweepLevels_cons within (some_.trans le)]
      simp only
      rcases le_total less l.size.get with all | part
      · -- the smaller sweep ends here, at the best price of all
        rw [min_eq_left all, sub_self, sweepLevels_of_nonpos le_rfl]
        have extra := sweepLevels_extra limit worse le_rfl (left_nonneg more l.size.get)
        rw [sweepLevels_of_nonpos le_rfl] at extra
        have scaled := mul_le_mul_of_nonneg_right extra some_
        linarith
      · -- both take the whole level
        have take : 0 ≤ l.size.get := l.size.nonneg
        rw [min_eq_right part, min_eq_right (part.trans le)]
        have low : 0 ≤ less - l.size.get := sub_nonneg.mpr part
        have rest : less - l.size.get ≤ more - l.size.get := sub_le_sub_right le _
        have average := ih tail low rest
        have extra := sweepLevels_extra limit worse low rest
        have scaled := mul_le_mul_of_nonneg_right extra take
        linarith

namespace OrderBook

variable {b : OrderBook} {qty got : Qty} {p : Price}

theorem sweepVwap_price (h : b.sweepVwap side qty limit = some (p, got)) :
    0 < (sweepLevels side limit qty.get (b.takingSide side)).2 ∧
      p.get = (sweepLevels side limit qty.get (b.takingSide side)).1 /
        (sweepLevels side limit qty.get (b.takingSide side)).2 := by
  have bounds := sweepLevels_taken side limit qty.get (b.takingSide side) qty.nonneg
  unfold sweepVwap at h
  simp only at h
  split at h
  next => cases h
  next some_ =>
    obtain ⟨p', average, eq⟩ := Option.map_eq_some_iff.mp h
    cases eq
    refine ⟨lt_of_le_of_ne bounds.1 (Ne.symm some_), ?_⟩
    unfold Price.ofDecimal? Price.new at average
    split at average
    next =>
      cases average
      rfl
    next => cases average

theorem sweepVwap_within (h : b.sweepVwap side qty limit = some (p, got)) :
    side.sign * p.get ≤ side.sign * limit.get := by
  obtain ⟨some_, eq⟩ := sweepVwap_price h
  have within := sweepLevels_within_limit side limit qty.nonneg (b.takingSide side)
  rw [eq, ← mul_div_assoc, div_le_iff₀ some_]
  exact within

/-- A smaller order sweeps a best-first book at a price that is no worse. -/
theorem sweepVwap_smaller (best : b.BestFirst) {less : Qty} (some_ : 0 < less.get)
    (le : less.get ≤ qty.get) (h : b.sweepVwap side qty limit = some (p, got)) :
    ∃ p' got', b.sweepVwap side less limit = some (p', got') ∧
      side.sign * p'.get ≤ side.sign * p.get := by
  obtain ⟨pos, taken⟩ := sweepVwap_taken h
  have offered : 0 < (b.liquidityWithin side limit).get := (lt_min_iff.mp (taken ▸ pos)).2
  obtain ⟨p', got', swept⟩ := sweepVwap_of_liquidity some_ offered
  refine ⟨p', got', swept, ?_⟩
  obtain ⟨more, eq⟩ := sweepVwap_price h
  obtain ⟨fewer, eq'⟩ := sweepVwap_price swept
  have average := sweepLevels_average limit (best.taking side) some_.le le
  rw [eq, eq', ← mul_div_assoc, ← mul_div_assoc, div_le_div_iff₀ fewer more]
  linarith

end OrderBook

end CopyTrading
