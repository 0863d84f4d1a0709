import CopyTrading.GreedyAllocation
import CopyTrading.SweepPrice

namespace CopyTrading

open GreedyAllocation

variable {side : Side} {limit : Price} {ls : List Level} {remaining : Decimal}

/-- An amount for each level, none over its size and none beyond the limit. -/
def Allocates (side : Side) (limit : Price) (ls : List Level) (amounts : List Decimal) : Prop :=
  List.Forall₂ (fun l a => 0 ≤ a ∧ a ≤ l.size.get ∧ (0 < a → l.within side limit = true)) ls amounts

/-- What an allocation pays for a buy, or yields for a sale. -/
def proceeds (ls : List Level) (amounts : List Decimal) : Usd :=
  spent (fun l => l.price.get) ls amounts

def Level.offered (side : Side) (limit : Price) (l : Level) : Decimal :=
  if l.within side limit then l.size.get else 0

theorem Level.offered_nonneg (l : Level) : 0 ≤ l.offered side limit := by
  unfold offered
  split
  · exact l.size.nonneg
  · exact le_rfl

theorem Level.offered_of_within {l : Level} (h : l.within side limit = true) :
    l.offered side limit = l.size.get := by
  unfold offered
  rw [if_pos h]

theorem Level.offered_beyond {l : Level} (h : l.within side limit = false) :
    l.offered side limit = 0 := by
  unfold offered
  rw [h]
  rfl

theorem allocates_iff {amounts : List Decimal} :
    Allocates side limit ls amounts ↔ Fits (Level.offered side limit) ls amounts := by
  have same : ∀ (l : Level) (a : Decimal),
      (0 ≤ a ∧ a ≤ l.size.get ∧ (0 < a → l.within side limit = true)) ↔
        (0 ≤ a ∧ a ≤ l.offered side limit) := by
    intro l a
    cases within : l.within side limit with
    | true =>
      rw [Level.offered_of_within within]
      simp
    | false =>
      rw [Level.offered_beyond within]
      constructor
      · rintro ⟨low, _, some_⟩
        exact ⟨low, not_lt.mp fun pos => absurd (some_ pos) (by simp)⟩
      · rintro ⟨low, high⟩
        exact ⟨low, high.trans l.size.nonneg, fun pos => absurd pos (not_lt.mpr high)⟩
  constructor
  · intro h
    exact h.imp fun l a => (same l a).mp
  · intro h
    exact h.imp fun l a => (same l a).mpr

/-- On a best-first side nothing comes back within the limit. -/
theorem Level.beyond_of_worse {l m : Level}
    (worse : side.sign * l.price.get ≤ side.sign * m.price.get)
    (h : l.within side limit = false) : m.within side limit = false := by
  cases side with
  | buy =>
    rw [Side.sign, one_mul, one_mul] at worse
    have above : ¬l.price.get ≤ limit.get := of_decide_eq_false h
    refine decide_eq_false ?_
    intro within
    exact above (worse.trans within)
  | sell =>
    rw [Side.sign] at worse
    have below : ¬l.price.get ≥ limit.get := of_decide_eq_false h
    refine decide_eq_false ?_
    intro within
    refine below ?_
    linarith

/-- A sweep hands its quantity to the levels greedily. -/
theorem sweepLevels_greedy (limit : Price)
    (best : ls.Pairwise fun l m => side.sign * l.price.get ≤ side.sign * m.price.get)
    (left : 0 ≤ remaining) :
    (sweepLevels side limit remaining ls).1 =
        proceeds ls (greedy (Level.offered side limit) remaining ls) ∧
      (sweepLevels side limit remaining ls).2 =
        (greedy (Level.offered side limit) remaining ls).sum := by
  unfold proceeds
  induction ls generalizing remaining with
  | nil => simp [sweepLevels, greedy, spent]
  | cons l ls ih =>
    obtain ⟨worse, tail⟩ := List.pairwise_cons.mp best
    cases within : l.within side limit with
    | false =>
      have beyond : ∀ m ∈ l :: ls, m.offered side limit = 0 := by
        intro m mem
        rcases List.mem_cons.mp mem with rfl | behind
        · exact Level.offered_beyond within
        · exact Level.offered_beyond (Level.beyond_of_worse (worse m behind) within)
      obtain ⟨sum, paid⟩ := greedy_of_full (fun l : Level => l.price.get) beyond left
      rw [sweepLevels_beyond within, sum, paid]
      exact ⟨rfl, rfl⟩
    | true =>
      obtain ⟨paid, sum⟩ := ih tail (left_nonneg remaining l.size.get)
      rw [sweepLevels_cons within left]
      unfold greedy
      rw [Level.offered_of_within within, spent_cons, List.sum_cons, paid, sum]
      exact ⟨by ring, rfl⟩

/-- A sweep that takes all there is takes every level within the limit whole. -/
theorem sweepLevels_whole
    (all : ((ls.takeWhile (·.within side limit)).map fun l => l.size.get).sum ≤ remaining) :
    (sweepLevels side limit remaining ls).1 =
      ((ls.takeWhile (·.within side limit)).map fun l => l.size.notional l.price).sum := by
  induction ls generalizing remaining with
  | nil => rfl
  | cons l ls ih =>
    cases within : l.within side limit with
    | false =>
      rw [sweepLevels_beyond within,
        List.takeWhile_cons_of_neg (p := fun l : Level => l.within side limit) (by simp [within])]
      rfl
    | true =>
      rw [List.takeWhile_cons_of_pos (p := fun l : Level => l.within side limit) within,
        List.map_cons, List.sum_cons] at all ⊢
      have rest : 0 ≤ ((ls.takeWhile (·.within side limit)).map fun l => l.size.get).sum := by
        refine List.sum_nonneg ?_
        intro x mem
        obtain ⟨m, _, rfl⟩ := List.mem_map.mp mem
        exact m.size.nonneg
      have size := l.size.nonneg
      have whole : min remaining l.size.get = l.size.get := min_eq_right (by linarith)
      rw [sweepLevels_cons within (by linarith), whole, ih (by linarith)]
      rfl

/-- No level is better than the first. -/
theorem sweepLevels_from_best {l : Level} (limit : Price)
    (best : ls.Pairwise fun l m => side.sign * l.price.get ≤ side.sign * m.price.get)
    (first : ls.head? = some l) (left : 0 ≤ remaining) :
    side.sign * l.price.get * (sweepLevels side limit remaining ls).2 ≤
      side.sign * (sweepLevels side limit remaining ls).1 := by
  have worse : ∀ m ∈ ls, side.sign * l.price.get ≤ side.sign * m.price.get := by
    cases ls with
    | nil => cases first
    | cons l' ls =>
      cases first
      intro m mem
      rcases List.mem_cons.mp mem with rfl | behind
      · exact le_rfl
      · exact (List.pairwise_cons.mp best).1 m behind
  have extra := sweepLevels_extra limit worse le_rfl left
  rw [sweepLevels_of_nonpos le_rfl, sub_zero, sub_zero] at extra
  exact extra

namespace OrderBook

variable {b : OrderBook} {qty got : Qty} {p : Price}

/-- The price of a sweep is what it paid for what it took. -/
theorem sweepVwap_paid (h : b.sweepVwap side qty limit = some (p, got)) :
    got.get = (sweepLevels side limit qty.get (b.takingSide side)).2 ∧
      p.get * got.get = (sweepLevels side limit qty.get (b.takingSide side)).1 := by
  obtain ⟨some_, eq⟩ := sweepVwap_price h
  have taken : got.get = (sweepLevels side limit qty.get (b.takingSide side)).2 := by
    rw [(sweepVwap_taken h).2, liquidityWithin_get]
    exact (sweepLevels_taken_eq side limit qty.get _ qty.nonneg).symm
  refine ⟨taken, ?_⟩
  rw [taken, eq, div_mul_cancel₀ _ (ne_of_gt some_)]

/-- Some liquidity is all a sweep of something needs. -/
theorem sweepVwap_isSome_iff (b : OrderBook) (side : Side) (limit : Price) (asks : 0 < qty.get) :
    (b.sweepVwap side qty limit).isSome ↔ 0 < (b.liquidityWithin side limit).get := by
  constructor
  · intro h
    obtain ⟨⟨p, got⟩, swept⟩ := Option.isSome_iff_exists.mp h
    obtain ⟨pos, taken⟩ := sweepVwap_taken swept
    exact (lt_min_iff.mp (taken ▸ pos)).2
  · intro some_
    obtain ⟨p, got, swept⟩ := sweepVwap_of_liquidity asks some_
    exact Option.isSome_iff_exists.mpr ⟨_, swept⟩

/-- The first level of a side that is swept bounds the price from the better side. -/
theorem sweepVwap_from_best (best : b.BestFirst)
    (h : b.sweepVwap side qty limit = some (p, got)) :
    ∃ l, (b.takingSide side).head? = some l ∧ side.sign * l.price.get ≤ side.sign * p.get := by
  obtain ⟨some_, eq⟩ := sweepVwap_price h
  cases levels : b.takingSide side with
  | nil =>
    rw [levels] at some_
    exact absurd some_ (lt_irrefl _)
  | cons l ls =>
    refine ⟨l, rfl, ?_⟩
    have bound := sweepLevels_from_best limit (best.taking side)
      (by rw [levels]; rfl : (b.takingSide side).head? = some l) qty.nonneg
    rw [eq, ← mul_div_assoc, le_div_iff₀ some_]
    exact bound

/-- A sweep is itself an allocation of what it takes, at what it pays. -/
theorem sweepVwap_allocates (best : b.BestFirst)
    (h : b.sweepVwap side qty limit = some (p, got)) :
    ∃ amounts, Allocates side limit (b.takingSide side) amounts ∧ amounts.sum = got.get ∧
      proceeds (b.takingSide side) amounts = p.get * got.get := by
  obtain ⟨taken, paid⟩ := sweepVwap_paid h
  obtain ⟨cost, sum⟩ := sweepLevels_greedy limit (best.taking side) qty.nonneg
  refine ⟨greedy (Level.offered side limit) qty.get (b.takingSide side), ?_, ?_, ?_⟩
  · refine allocates_iff.mpr (greedy_fits ?_ qty.nonneg)
    exact fun l _ => l.offered_nonneg
  · rw [taken, sum]
  · rw [paid, cost]

/-- A buy cannot pay less for what it takes, and a sale cannot yield more. -/
theorem sweepVwap_cheapest (best : b.BestFirst)
    (h : b.sweepVwap side qty limit = some (p, got)) {amounts : List Decimal}
    (allocates : Allocates side limit (b.takingSide side) amounts) (sum : amounts.sum = got.get) :
    side.sign * (p.get * got.get) ≤ side.sign * proceeds (b.takingSide side) amounts := by
  obtain ⟨taken, paid⟩ := sweepVwap_paid h
  obtain ⟨cost, swept⟩ := sweepLevels_greedy limit (best.taking side) qty.nonneg
  have room : ∀ l ∈ b.takingSide side, 0 ≤ l.offered side limit := fun l _ => l.offered_nonneg
  have least := greedy_cheapest (best.taking side) (allocates_iff.mp allocates)
  rw [sum, taken, swept, greedy_cut room qty.nonneg, spent_scaled, spent_scaled] at least
  rw [paid, cost]
  exact least

theorem sweepVwap_whole (h : b.sweepVwap side qty limit = some (p, got))
    (all : (b.liquidityWithin side limit).get ≤ qty.get) :
    p.get * got.get = b.notionalWithin side limit := by
  rw [(sweepVwap_paid h).2]
  exact sweepLevels_whole (b.liquidityWithin_get side limit ▸ all)

/-- In exact arithmetic, the sweep of a best-first book is exact and optimal. -/
theorem sweepVwap_optimal (best : b.BestFirst) (side : Side) (limit : Price)
    (asks : 0 < qty.get) :
    ((b.sweepVwap side qty limit).isSome ↔ 0 < (b.liquidityWithin side limit).get) ∧
      ∀ p got, b.sweepVwap side qty limit = some (p, got) →
        got.get = min qty.get (b.liquidityWithin side limit).get ∧
        (∃ l, (b.takingSide side).head? = some l ∧
          side.sign * l.price.get ≤ side.sign * p.get) ∧
        side.sign * p.get ≤ side.sign * limit.get ∧ 0 < p.get ∧ p.get < 1 ∧
        (∃ amounts, Allocates side limit (b.takingSide side) amounts ∧ amounts.sum = got.get ∧
          proceeds (b.takingSide side) amounts = p.get * got.get) ∧
        (∀ amounts, Allocates side limit (b.takingSide side) amounts → amounts.sum = got.get →
          side.sign * (p.get * got.get) ≤ side.sign * proceeds (b.takingSide side) amounts) ∧
        ((b.liquidityWithin side limit).get ≤ qty.get →
          p.get * got.get = b.notionalWithin side limit) := by
  refine ⟨b.sweepVwap_isSome_iff side limit asks, ?_⟩
  intro p got swept
  refine ⟨(sweepVwap_taken swept).2, sweepVwap_from_best best swept, sweepVwap_within swept,
    p.pos, p.lt_one, sweepVwap_allocates best swept, ?_, sweepVwap_whole swept⟩
  intro amounts allocates sum
  exact sweepVwap_cheapest best swept allocates sum

end OrderBook

end CopyTrading
