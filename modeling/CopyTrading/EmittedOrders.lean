import CopyTrading.OrderValidator
import CopyTrading.PaperSession
import CopyTrading.Pipeline
import CopyTrading.SizingCaps

namespace CopyTrading

open TickGrid OrderValidator

/-- Inside the range that prices are clamped into. -/
def Price.Tradable (p : Price) : Prop := 1 / 10000 ≤ p.get ∧ p.get ≤ 9999 / 10000

instance (p : Price) : Decidable p.Tradable := inferInstanceAs (Decidable (_ ∧ _))

/-- Both sides best first, all prices tradable and multiples of the tick. -/
structure OrderBook.WellFormed (b : OrderBook) : Prop where
  bids : b.bids.Pairwise fun l m => m.price.get < l.price.get
  asks : b.asks.Pairwise fun l m => l.price.get < m.price.get
  levels : ∀ l ∈ b.bids ++ b.asks, l.price.Tradable ∧ OnGrid b.tickSize l.price.get

/-- Rounding `far` to the tick need not go behind `near`. -/
def Reaches (tick : Decimal) (far near : Price) : Side → Prop
  | .buy => if tick ≤ 0 then near.get ≤ far.get else Between tick near.get far.get
  | .sell => if tick ≤ 0 then far.get ≤ near.get else Between tick far.get near.get

/-- The touch, or the source's price without one, moved by the whole slippage budget. -/
def StrategyConfig.farthest (cfg : StrategyConfig) (trade : SourceTrade) (book : OrderBook) :
    Price :=
  let reference := ((book.touch trade.side).getD trade.price).get
  let budget : Decimal := cfg.maxSlippageBps / 10000
  .saturating (match trade.side with
    | .buy => reference * (1 + budget)
    | .sell => reference * (1 - budget))

/-- Within the budget there is a price on the tick that is no better for us than the source's. -/
def LimitReaches (cfg : StrategyConfig) (trade : SourceTrade) (book : OrderBook) : Prop :=
  Reaches book.tickSize (cfg.farthest trade book) trade.price trade.side

/-- The context has no increment of its own, or sizing still succeeds when its increment is the
book's minimum, rounded up to a multiple of its own. -/
def SizeFits (cfg : StrategyConfig) (trade : SourceTrade) (wallet : TargetWallet)
    (book : OrderBook) (ctx : SizingContext) : Prop :=
  let limit := (cfg.farthest trade book).roundToTick book.tickSize trade.side
  let step := ⌈book.minOrderSize / ctx.minOrderSize⌉ * ctx.minOrderSize
  ctx.minOrderSize ≤ 0 ∨ ∃ sized, SizingEngine.size wallet trade.notional limit
    { CopyTrader.withBook ctx (some book) trade.side limit with minOrderSize := step } = .ok sized

theorem Price.saturating_tradable (d : Decimal) : (Price.saturating d).Tradable := by
  refine ⟨le_max_left _ _, ?_⟩
  exact max_le (by norm_num) (min_le_right _ _)

theorem Price.roundToTick_buy (p : Price) {tick : Decimal} (pos : 0 < tick) :
    (p.roundToTick tick .buy).get =
      max (1 / 10000) (min (⌊p.get / tick⌋ * tick) (9999 / 10000)) := by
  simp only [roundToTick, if_neg (not_le.mpr pos), saturating]

theorem Price.roundToTick_sell (p : Price) {tick : Decimal} (pos : 0 < tick) :
    (p.roundToTick tick .sell).get =
      max (1 / 10000) (min (⌈p.get / tick⌉ * tick) (9999 / 10000)) := by
  simp only [roundToTick, if_neg (not_le.mpr pos), saturating]

/-- A rounded limit is on the tick and does not face the wrong way exactly if it reaches. -/
theorem roundToTick_reaches (tick : Decimal) (side : Side) (far near : Price)
    (hfar : far.Tradable) (hnear : near.Tradable) :
    (isOnTick (far.roundToTick tick side) tick = true ∧
      Faces (far.roundToTick tick side) near side) ↔ Reaches tick far near side := by
  rw [isOnTick_iff]
  by_cases none_ : tick ≤ 0
  · have same : far.roundToTick tick side = far := by
      unfold Price.roundToTick
      rw [if_pos none_]
    rw [same]
    cases side with
    | buy => simp [Reaches, Faces, none_]
    | sell => simp [Reaches, Faces, none_]
  · have pos := not_le.mp none_
    cases side with
    | buy =>
      simp only [Reaches, Faces, none_, false_or]
      rw [far.roundToTick_buy pos]
      exact clamp_floor pos hfar.1 hfar.2 hnear.1
    | sell =>
      simp only [Reaches, Faces, none_, false_or]
      rw [far.roundToTick_sell pos]
      exact clamp_ceil pos hfar.1 hfar.2 hnear.2

namespace SizingEngine

/-- The increment is only applied to shares that everything else has settled. -/
theorem size_step {wallet : TargetWallet} {notional : Usd} {limit : Price} {ctx : SizingContext}
    {sized : SizedOrder} (h : size wallet notional limit ctx = .ok sized) :
    ∃ shares : Qty, sized.quantity = shares.floorTo ctx.minOrderSize ∧ ∀ step,
      (∃ sized, size wallet notional limit { ctx with minOrderSize := step } = .ok sized) ↔
        (shares.floorTo step).isZero = false := by
  obtain ⟨open_, reaches, _, rfl⟩ := size_ok_iff.mp h
  refine ⟨sharesAt (capped wallet notional ctx).1 limit, rfl, ?_⟩
  intro step
  constructor
  · rintro ⟨other, ok⟩
    exact (size_ok_iff.mp ok).2.2.1
  · intro some_
    exact ⟨_, size_ok_iff.mpr
      ⟨⟨open_.daily, open_.headroom, open_.liquid⟩, reaches, some_, rfl⟩⟩

end SizingEngine

theorem CopyTrader.referencePrice_ok {cfg : StrategyConfig} {trade : SourceTrade}
    {book : OrderBook} {now : DateTime} {reference : Price} {confidence : ℚ}
    (h : referencePrice cfg trade (some book) now = .ok (reference, confidence)) :
    reference = (book.touch trade.side).getD trade.price := by
  unfold referencePrice at h
  simp only at h
  split at h
  next => cases h
  next =>
    split at h
    next p touch =>
      cases h
      rw [touch, Option.getD_some]
    next touch =>
      split at h
      next =>
        cases h
        rw [touch, Option.getD_none]
      next => cases h

/-- What a signal takes from the book, the trade and the sizing. -/
theorem CopyTrader.signal_of_book {cfg : StrategyConfig} {trade : SourceTrade}
    {wallet : TargetWallet} {book : OrderBook} {ctx : SizingContext} {signalId : SignalId}
    {now : DateTime} {signal : CopySignal}
    (h : onSourceTrade cfg trade wallet (some book) ctx book.tickSize signalId now = .ok signal) :
    signal.side = trade.side ∧ signal.targetPrice = trade.price ∧
      signal.limitPrice = (cfg.farthest trade book).roundToTick book.tickSize trade.side ∧
      ∃ sized, SizingEngine.size wallet trade.notional signal.limitPrice
        (withBook ctx (some book) trade.side signal.limitPrice) = .ok sized ∧
        signal.copyQuantity = sized.quantity := by
  obtain ⟨reference, confidence, limit, sized, priced, rfl, sizes, rfl⟩ := onSourceTrade_ok h
  have reference_ := referencePrice_ok priced
  subst reference_
  exact ⟨rfl, rfl, rfl, sized, sizes, rfl⟩

theorem OrderBook.touch_mem {b : OrderBook} {side : Side} {p : Price}
    (h : b.touch side = some p) : ∃ l ∈ b.bids ++ b.asks, l.price = p := by
  cases side with
  | buy =>
    obtain ⟨l, best, rfl⟩ := Option.map_eq_some_iff.mp h
    exact ⟨l, List.mem_append_right _ (List.mem_of_head? best), rfl⟩
  | sell =>
    obtain ⟨l, best, rfl⟩ := Option.map_eq_some_iff.mp h
    exact ⟨l, List.mem_append_left _ (List.mem_of_head? best), rfl⟩

/-- Where the market has not moved in our favour since the source traded, the limit reaches. -/
theorem limitReaches_of_touch (cfg : StrategyConfig) {trade : SourceTrade} {book : OrderBook}
    (formed : book.WellFormed) {p : Price} (touch : book.touch trade.side = some p)
    (moved : Faces p trade.price trade.side) : LimitReaches cfg trade book := by
  obtain ⟨l, mem, rfl⟩ := OrderBook.touch_mem touch
  obtain ⟨⟨low, high⟩, n, onGrid⟩ := formed.levels l mem
  have budget : (0 : Decimal) ≤ cfg.maxSlippageBps / 10000 := by positivity
  have pos := l.price.pos
  unfold LimitReaches StrategyConfig.farthest
  rw [touch, Option.getD_some]
  cases side : trade.side with
  | buy =>
    rw [side] at moved
    have further : l.price.get ≤ l.price.get * (1 + cfg.maxSlippageBps / 10000) := by nlinarith
    have within : l.price.get ≤ (Price.saturating
        (l.price.get * (1 + cfg.maxSlippageBps / 10000))).get :=
      le_max_of_le_right (le_min further high)
    simp only [Reaches]
    split
    · exact le_trans moved within
    · exact ⟨n, onGrid ▸ moved, onGrid ▸ within⟩
  | sell =>
    rw [side] at moved
    have further : l.price.get * (1 - cfg.maxSlippageBps / 10000) ≤ l.price.get := by nlinarith
    have within : (Price.saturating
        (l.price.get * (1 - cfg.maxSlippageBps / 10000))).get ≤ l.price.get :=
      max_le low ((min_le_left _ _).trans further)
    simp only [Reaches]
    split
    · exact le_trans within moved
    · exact ⟨n, onGrid ▸ within, onGrid ▸ moved⟩

/-- The quantity is at least the book's minimum exactly if the size fits. -/
theorem sizeFits_iff {cfg : StrategyConfig} {trade : SourceTrade} {wallet : TargetWallet}
    {book : OrderBook} {ctx : SizingContext} {signalId : SignalId} {now : DateTime}
    {signal : CopySignal} (h : CopyTrader.onSourceTrade cfg trade wallet (some book) ctx
      book.tickSize signalId now = .ok signal) :
    book.minOrderSize ≤ signal.copyQuantity.get ↔ SizeFits cfg trade wallet book ctx := by
  have some_ := CopyTrader.onSourceTrade_ok_pos h
  obtain ⟨_, _, limit, sized, sizes, quantity⟩ := CopyTrader.signal_of_book h
  obtain ⟨shares, floored, steps⟩ := SizingEngine.size_step sizes
  rw [quantity, floored] at some_ ⊢
  unfold SizeFits
  simp only
  rw [← limit, steps]
  by_cases own : ctx.minOrderSize > 0
  · have step : (CopyTrader.withBook ctx (some book) trade.side signal.limitPrice).minOrderSize =
        ctx.minOrderSize := if_pos own
    rw [step] at some_ ⊢
    rw [Qty.le_floorTo_iff own some_, or_iff_right (not_le.mpr own)]
  · have step : (CopyTrader.withBook ctx (some book) trade.side signal.limitPrice).minOrderSize =
        book.minOrderSize := if_neg own
    rw [step] at some_ ⊢
    refine iff_of_true ?_ (.inl (not_lt.mp own))
    by_cases min : 0 < book.minOrderSize
    · rw [Qty.le_floorTo_iff min some_, div_self min.ne', Int.ceil_one, Int.cast_one, one_mul]
      exact some_
    · exact (not_lt.mp min).trans (Qty.nonneg _)

theorem OrderBook.sample_wellFormed : OrderBook.sample.WellFormed := by
  refine ⟨.nil, List.pairwise_singleton _ _, ?_⟩
  intro l mem
  rw [List.mem_singleton.mp mem]
  refine ⟨by decide +kernel, 50, ?_⟩
  show (1 / 2 : ℚ) = 50 * (1 / 100)
  norm_num

end CopyTrading
