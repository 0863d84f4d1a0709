import CopyTrading.AssocSum
import CopyTrading.Clock
import CopyTrading.Ids
import CopyTrading.Money

namespace CopyTrading

structure Level where
  price : Price
  size : Qty
  deriving DecidableEq

/-- A normalised order book, both sides best-first. -/
structure OrderBook where
  marketId : MarketId
  tokenId : TokenId
  /-- Descending by price. -/
  bids : List Level
  /-- Ascending by price. -/
  asks : List Level
  tickSize : Decimal
  minOrderSize : Decimal
  timestamp : DateTime
  seq : Nat
  deriving DecidableEq

def OrderBook.bestBid (b : OrderBook) : Option Level := b.bids.head?

def OrderBook.bestAsk (b : OrderBook) : Option Level := b.asks.head?

def OrderBook.mid (b : OrderBook) : Option Price :=
  match b.bestBid, b.bestAsk with
  | some bid, some ask => Price.ofDecimal? ((bid.price.get + ask.price.get) / 2)
  | _, _ => none

/-- The side a taker consumes: a buy lifts asks, a sell hits bids. -/
def OrderBook.takingSide (b : OrderBook) : Side → List Level
  | .buy => b.asks
  | .sell => b.bids

def Level.within (l : Level) (side : Side) (limit : Price) : Bool :=
  match side with
  | .buy => l.price.get ≤ limit.get
  | .sell => l.price.get ≥ limit.get

/-- Total size available at or better than `limit`. -/
def OrderBook.liquidityWithin (b : OrderBook) (side : Side) (limit : Price) : Qty :=
  (((b.takingSide side).takeWhile (·.within side limit)).map Level.size).foldl Qty.add .zero

def OrderBook.notionalWithin (b : OrderBook) (side : Side) (limit : Price) : Usd :=
  (((b.takingSide side).takeWhile (·.within side limit)).map fun l => l.size.notional l.price).sum

/-- The walk of `sweepVwap`: what is taken of each level, as `(notional, taken)`. -/
def sweepLevels (side : Side) (limit : Price) : Decimal → List Level → Decimal × Decimal
  | _, [] => (0, 0)
  | remaining, l :: ls =>
    if !l.within side limit ∨ remaining ≤ 0 then (0, 0)
    else
      let take := min remaining l.size.get
      let (notional, taken) := sweepLevels side limit (remaining - take) ls
      (take * l.price.get + notional, take + taken)

/-- Volume-weighted price to take up to `qty`, and how much of it the book holds within `limit`. -/
def OrderBook.sweepVwap (b : OrderBook) (side : Side) (qty : Qty) (limit : Price) :
    Option (Price × Qty) :=
  let (notional, taken) := sweepLevels side limit qty.get (b.takingSide side)
  if taken = 0 then none
  else (Price.ofDecimal? (notional / taken)).map fun p => (p, (Qty.new taken).toOption.getD .zero)

theorem sweepLevels_taken (side : Side) (limit : Price) (remaining : Decimal) (ls : List Level)
    (h : 0 ≤ remaining) : 0 ≤ (sweepLevels side limit remaining ls).2 ∧
      (sweepLevels side limit remaining ls).2 ≤ remaining := by
  induction ls generalizing remaining with
  | nil => exact ⟨le_rfl, h⟩
  | cons l ls ih =>
    unfold sweepLevels
    split
    · exact ⟨le_rfl, h⟩
    · have take : 0 ≤ min remaining l.size.get ∧ min remaining l.size.get ≤ remaining :=
        ⟨le_min h l.size.nonneg, min_le_left _ _⟩
      obtain ⟨low, high⟩ := ih (remaining - min remaining l.size.get) (by linarith [take.2])
      exact ⟨by simp only; linarith [take.1], by simp only; linarith⟩

theorem sweepLevels_taken_eq (side : Side) (limit : Price) (remaining : Decimal) (ls : List Level)
    (h : 0 ≤ remaining) : (sweepLevels side limit remaining ls).2 =
      min remaining (((ls.takeWhile (·.within side limit)).map fun l => l.size.get).sum) := by
  induction ls generalizing remaining with
  | nil => exact (min_eq_right h).symm
  | cons l ls ih =>
    have rest : 0 ≤ ((ls.takeWhile (·.within side limit)).map fun l => l.size.get).sum := by
      apply List.sum_nonneg
      intro x hx
      obtain ⟨l, _, rfl⟩ := List.mem_map.mp hx
      exact l.size.nonneg
    have size := l.size.nonneg
    unfold sweepLevels
    cases within : l.within side limit with
    | false =>
      rw [if_pos (.inl rfl),
        List.takeWhile_cons_of_neg (p := fun l : Level => l.within side limit) (by simp [within])]
      exact (min_eq_right h).symm
    | true =>
      rw [List.takeWhile_cons_of_pos (p := fun l : Level => l.within side limit) within,
        List.map_cons, List.sum_cons]
      split
      next done =>
        have none : remaining = 0 := le_antisymm (done.resolve_left (by simp)) h
        rw [none, min_eq_left (by linarith)]
      next =>
        have take : min remaining l.size.get ≤ remaining := min_le_left _ _
        simp only
        rw [ih _ (by linarith)]
        rcases le_total remaining l.size.get with whole | part
        · rw [min_eq_left whole, min_eq_left (by linarith), min_eq_left (by linarith)]
          ring
        · rw [min_eq_right part, ← min_add_add_left]
          congr 1
          ring

/-- What a sweep pays for what it takes lies strictly between nothing and one apiece. -/
theorem sweepLevels_notional (side : Side) (limit : Price) (remaining : Decimal)
    (ls : List Level) (h : 0 ≤ remaining) :
    sweepLevels side limit remaining ls = (0, 0) ∨
      0 < (sweepLevels side limit remaining ls).1 ∧
        (sweepLevels side limit remaining ls).1 < (sweepLevels side limit remaining ls).2 := by
  induction ls generalizing remaining with
  | nil => exact .inl rfl
  | cons l ls ih =>
    unfold sweepLevels
    split
    · exact .inl rfl
    · have take : 0 ≤ min remaining l.size.get := le_min h l.size.nonneg
      have within : min remaining l.size.get ≤ remaining := min_le_left _ _
      have pos := l.price.pos
      have below := l.price.lt_one
      simp only
      rcases ih (remaining - min remaining l.size.get) (by linarith) with none | ⟨low, high⟩
      · rw [none]
        rcases take.eq_or_lt with zero | some_
        · left
          rw [← zero]
          simp
        · right
          constructor <;> nlinarith
      · right
        constructor <;> nlinarith

theorem OrderBook.liquidityWithin_get (b : OrderBook) (side : Side) (limit : Price) :
    (b.liquidityWithin side limit).get =
      (((b.takingSide side).takeWhile (·.within side limit)).map fun l => l.size.get).sum := by
  have fold : ∀ (qs : List Qty) (q : Qty),
      (qs.foldl Qty.add q).get = q.get + (qs.map Qty.get).sum := by
    intro qs
    induction qs with
    | nil => simp
    | cons r qs ih =>
      intro q
      rw [List.foldl_cons, ih, List.map_cons, List.sum_cons, Qty.add_get, add_assoc]
  unfold liquidityWithin
  rw [fold, List.map_map, Qty.zero_get, zero_add]
  rfl

theorem OrderBook.sweepVwap_taken {b : OrderBook} {side : Side} {qty got : Qty} {limit p : Price}
    (h : b.sweepVwap side qty limit = some (p, got)) :
    0 < got.get ∧ got.get = min qty.get (b.liquidityWithin side limit).get := by
  have bounds := sweepLevels_taken side limit qty.get (b.takingSide side) qty.nonneg
  unfold sweepVwap at h
  simp only at h
  split at h
  · cases h
  · next some_ =>
    obtain ⟨p', _, eq⟩ := Option.map_eq_some_iff.mp h
    have taken := congrArg Prod.snd eq
    simp only [Qty.new, dif_pos bounds.1] at taken
    cases taken
    refine ⟨lt_of_le_of_ne bounds.1 (Ne.symm some_), ?_⟩
    rw [liquidityWithin_get]
    exact sweepLevels_taken_eq side limit qty.get _ qty.nonneg

theorem OrderBook.sweepVwap_of_liquidity {b : OrderBook} {side : Side} {qty : Qty} {limit : Price}
    (asks : 0 < qty.get) (some_ : 0 < (b.liquidityWithin side limit).get) :
    ∃ p got, b.sweepVwap side qty limit = some (p, got) := by
  have taken := sweepLevels_taken_eq side limit qty.get (b.takingSide side) qty.nonneg
  rw [← liquidityWithin_get] at taken
  have pos : 0 < (sweepLevels side limit qty.get (b.takingSide side)).2 := by
    rw [taken]
    exact lt_min asks some_
  rcases sweepLevels_notional side limit qty.get (b.takingSide side) qty.nonneg with none |
    ⟨low, high⟩
  · rw [none] at pos
    exact absurd pos (lt_irrefl _)
  · have vwap : 0 < (sweepLevels side limit qty.get (b.takingSide side)).1 /
          (sweepLevels side limit qty.get (b.takingSide side)).2 ∧
        (sweepLevels side limit qty.get (b.takingSide side)).1 /
          (sweepLevels side limit qty.get (b.takingSide side)).2 < 1 :=
      ⟨div_pos low pos, (div_lt_one pos).mpr high⟩
    unfold sweepVwap
    simp only [if_neg (ne_of_gt pos), Price.ofDecimal?, Price.new, dif_pos vwap]
    exact ⟨_, _, rfl⟩

structure BookCache where
  books : AList fun _ : TokenId => OrderBook

def BookCache.new : BookCache := ⟨∅⟩

def BookCache.put (c : BookCache) (b : OrderBook) : BookCache := ⟨c.books.insert b.tokenId b⟩

def BookCache.get (c : BookCache) (t : TokenId) : Option OrderBook := c.books.lookup t

end CopyTrading
