import CopyTrading.Pipeline
import CopyTrading.RangedSizing

namespace CopyTrading

open RangedArith SizingEngine

namespace Ranged

variable (engine : RiskEngine) (order : OrderRequest)

def checkExposure (snap : RiskSnapshot) (notional : Usd) : Option (Option RiskRejection) := do
  let token ← op (snap.tokenExposure + notional)
  if token > engine.limits.maxPositionUsd then
    some (some (.maxPositionExceeded order.marketId token engine.limits.maxPositionUsd))
  else do
    let market ← op (snap.marketExposure + notional)
    if market > engine.limits.maxMarketExposureUsd then
      some (some (.maxMarketExposureExceeded order.marketId market
        engine.limits.maxMarketExposureUsd))
    else do
      let gross ← op (snap.grossExposure + notional)
      if gross > engine.limits.maxPortfolioExposureUsd then
        some (some (.maxPortfolioExposureExceeded gross engine.limits.maxPortfolioExposureUsd))
      else some none

def checkSlippage (b : OrderBook) : Option (Option RiskRejection) := do
  let swept ← sweepVwap b order.side order.quantity order.limitPrice
  match swept with
  | some (vwap, _) => do
    let bps ← slippage order.referencePrice vwap order.side
    if bps > engine.limits.maxSlippageBps then
      some (some (.slippageTooWide (roundToI64 bps) engine.limits.maxSlippageBps))
    else some none
  | none => some (some (.insufficientLiquidity 0 engine.limits.minLiquidityUsd))

def checkBook (book : Option OrderBook) (now : DateTime) : Option (Option RiskRejection) :=
  match book with
  | some b =>
    let age := numMilliseconds (now - b.timestamp)
    if age > engine.limits.maxMarketDataAgeMs then
      some (some (.staleMarketData age engine.limits.maxMarketDataAgeMs))
    else do
      let available ← notionalWithin b order.side order.limitPrice
      if available < engine.limits.minLiquidityUsd then
        some (some (.insufficientLiquidity available engine.limits.minLiquidityUsd))
      else checkSlippage engine order b
  | none =>
    some (if engine.limits.requireMarketData then
      some (.staleMarketData i64Max engine.limits.maxMarketDataAgeMs)
    else none)

/-- The checks of the order itself, behind those that read no amount of it. -/
def checkOrder (snap : RiskSnapshot) (book : Option OrderBook) (now : DateTime) :
    Option (Option RiskRejection) := do
  let notional ← notional order.quantity order.limitPrice
  firstOf (some (engine.checkTradeSize order)) <|
    firstOf (checkExposure engine order snap notional) <|
    checkBook engine order book now

def check (snap : RiskSnapshot) (status : SystemStatus) (kill : KillSwitch)
    (book : Option OrderBook) (walletEnabled : Bool) (walletLabel : String)
    (marketTradable : Option (MarketId × Bool × String))
    (alreadyProcessed : Option SourceEventId) (now : DateTime) : Option RiskVerdict := do
  let refusal ←
    firstOf (some (engine.checkGates status kill walletEnabled walletLabel marketTradable
      alreadyProcessed)) <|
    firstOf (some (engine.checkBudget snap)) <|
    checkOrder engine order snap book now
  match refusal with
  | some r => some (.rejected r)
  | none => some .approved

end Ranged

namespace RiskEngine

variable (engine : RiskEngine) (order : OrderRequest)

def ExposureFits (snap : RiskSnapshot) : Prop :=
  InRange (snap.tokenExposure + order.notional) ∧
    (snap.tokenExposure + order.notional ≤ engine.limits.maxPositionUsd →
      InRange (snap.marketExposure + order.notional) ∧
      (snap.marketExposure + order.notional ≤ engine.limits.maxMarketExposureUsd →
        InRange (snap.grossExposure + order.notional)))

/-- The estimate that a book deep enough is swept for. -/
def SlippageFits (b : OrderBook) : Prop :=
  ∀ vwap taken, b.sweepVwap order.side order.quantity order.limitPrice = some (vwap, taken) →
    InRange (slippageBps order.referencePrice vwap order.side)

def BookFits (book : Option OrderBook) (now : DateTime) : Prop :=
  ∀ b, book = some b → numMilliseconds (now - b.timestamp) ≤ engine.limits.maxMarketDataAgeMs →
    InRange (b.notionalWithin order.side order.limitPrice) ∧
    (engine.limits.minLiquidityUsd ≤ b.notionalWithin order.side order.limitPrice →
      SlippageFits order b)

/-- The checks stay in the range; a check that refuses ends them. -/
def CheckFits (snap : RiskSnapshot) (status : SystemStatus) (kill : KillSwitch)
    (book : Option OrderBook) (walletEnabled : Bool) (walletLabel : String)
    (marketTradable : Option (MarketId × Bool × String))
    (alreadyProcessed : Option SourceEventId) (now : DateTime) : Prop :=
  engine.checkGates status kill walletEnabled walletLabel marketTradable alreadyProcessed = none →
  engine.checkBudget snap = none → engine.checkTradeSize order = none →
    ExposureFits engine order snap ∧
    (engine.checkExposure order snap = none → BookFits engine order book now)

end RiskEngine

namespace Ranged

variable {engine : RiskEngine} {order : OrderRequest}

theorem checkExposure_computes (engine : RiskEngine) (order : OrderRequest)
    (snap : RiskSnapshot) : Computes (checkExposure engine order snap order.notional)
      (engine.ExposureFits order snap) (engine.checkExposure order snap) := by
  unfold checkExposure RiskEngine.checkExposure RiskEngine.ExposureFits
  simp only
  refine (op_computes _).bind fun _ => .past not_lt fun token => ?_
  refine (op_computes _).bind fun _ => .past not_lt fun market => ?_
  refine (op_computes _).last ?_
  split
  next => rfl
  next => rfl

theorem checkSlippage_computes (quantity : InRange order.quantity.get)
    (reference : Representable order.referencePrice.get) (engine : RiskEngine) (b : OrderBook) :
    Computes (checkSlippage engine order b) (RiskEngine.SlippageFits order b)
      (match b.sweepVwap order.side order.quantity order.limitPrice with
      | some (vwap, _) =>
        let bps := slippageBps order.referencePrice vwap order.side
        if bps > engine.limits.maxSlippageBps then
          some (.slippageTooWide (roundToI64 bps) engine.limits.maxSlippageBps)
        else none
      | none => some (.insufficientLiquidity 0 engine.limits.minLiquidityUsd)) := by
  unfold checkSlippage RiskEngine.SlippageFits
  rw [sweepVwap_eq b order.side quantity order.limitPrice]
  simp only [Option.bind_eq_bind, Option.bind_some]
  cases b.sweepVwap order.side order.quantity order.limitPrice with
  | none => exact .ends nofun
  | some swept =>
    obtain ⟨vwap, taken⟩ := swept
    refine .only_pair (Option.some_injective _)
      ((slippage_computes reference vwap order.side).last ?_)
    simp only
    split
    next => rfl
    next => rfl

theorem checkBook_computes {book : Option OrderBook} (held : ∀ b, book = some b → b.Held)
    (quantity : InRange order.quantity.get) (reference : Representable order.referencePrice.get)
    (engine : RiskEngine) (now : DateTime) :
    Computes (checkBook engine order book now) (engine.BookFits order book now)
      (engine.checkBook order book now) := by
  unfold RiskEngine.BookFits
  cases book with
  | none => exact .ends nofun
  | some b =>
    have fresh : Computes (checkBook engine order (some b) now)
        (numMilliseconds (now - b.timestamp) ≤ engine.limits.maxMarketDataAgeMs →
          InRange (b.notionalWithin order.side order.limitPrice) ∧
          (engine.limits.minLiquidityUsd ≤ b.notionalWithin order.side order.limitPrice →
            RiskEngine.SlippageFits order b))
        (engine.checkBook order (some b) now) := by
      unfold checkBook RiskEngine.checkBook
      simp only
      refine .past not_lt fun young => ?_
      refine (notionalWithin_computes ((held b rfl).taking order.side) _).bind fun _ => ?_
      exact .past not_lt fun deep => checkSlippage_computes quantity reference engine b
    exact .only (Option.some_injective _) fresh

theorem check_computes {book : Option OrderBook} (held : ∀ b, book = some b → b.Held)
    (quantity : InRange order.quantity.get) (reference : Representable order.referencePrice.get)
    (engine : RiskEngine) (snap : RiskSnapshot) (status : SystemStatus) (kill : KillSwitch)
    (walletEnabled : Bool) (walletLabel : String)
    (marketTradable : Option (MarketId × Bool × String))
    (alreadyProcessed : Option SourceEventId) (now : DateTime) :
    Computes (check engine order snap status kill book walletEnabled walletLabel marketTradable
        alreadyProcessed now)
      (engine.CheckFits order snap status kill book walletEnabled walletLabel marketTradable
        alreadyProcessed now)
      (engine.check order snap status kill book walletEnabled walletLabel marketTradable
        alreadyProcessed now) := by
  have cost : notional order.quantity order.limitPrice = some order.notional :=
    notional_eq quantity order.limitPrice
  have amounts : Computes (checkOrder engine order snap book now)
      (engine.checkTradeSize order = none → engine.ExposureFits order snap ∧
        (engine.checkExposure order snap = none → engine.BookFits order book now))
      (engine.checkTradeSize order <|> engine.checkExposure order snap <|>
        engine.checkBook order book now) := by
    unfold checkOrder
    rw [cost]
    simp only [Option.bind_eq_bind, Option.bind_some]
    refine (computes_firstOf (.pure _) fun _ =>
      computes_firstOf (checkExposure_computes engine order snap) fun _ =>
        checkBook_computes held quantity reference engine now).congr ?_
    rw [true_and]
  have answer : ∀ refusal : Option RiskRejection,
      (match refusal with
        | some r => some (.rejected r)
        | none => some .approved) =
      some (match refusal with
        | some r => RiskVerdict.rejected r
        | none => .approved) := by
    intro refusal
    cases refusal with
    | some r => rfl
    | none => rfl
  unfold check RiskEngine.check RiskEngine.CheckFits
  refine ((computes_firstOf (.pure _) fun _ =>
    computes_firstOf (.pure _) fun _ => amounts).last (answer _)).congr ?_
  simp only [true_and]

/-- Only the notional of a tracked wallet's trade is worked out. -/
def observeLive (digest : List UInt8 → String) (tr : WalletTracker) (corr : CorrelationId)
    (t : ParsedTrade) : Option (Detection × WalletTracker) :=
  match tr.wallets.lookup t.trader with
  | none => some (tr.observeLive digest corr t)
  | some _ => do
    let _ ← notional t.quantity t.price
    some (tr.observeLive digest corr t)

theorem observeLive_eq {t : ParsedTrade} (quantity : InRange t.quantity.get)
    (digest : List UInt8 → String) (tr : WalletTracker) (corr : CorrelationId) :
    observeLive digest tr corr t = some (tr.observeLive digest corr t) := by
  unfold observeLive
  rw [notional_eq quantity]
  cases tr.wallets.lookup t.trader with
  | none => rfl
  | some w => rfl

theorem copyQuantity_inRange {cfg : StrategyConfig} {trade : SourceTrade} {wallet : TargetWallet}
    {book : Option OrderBook} {ctx : SizingContext} {tick : Decimal} {signalId : SignalId}
    {now : DateTime} {signal : CopySignal} (fits : SignalFits cfg trade wallet book ctx tick now)
    (h : CopyTrader.onSourceTrade cfg trade wallet book ctx tick signalId now = .ok signal) :
    InRange signal.copyQuantity.get := by
  obtain ⟨reference, confidence, _, sized, priced, rfl, sizes, rfl⟩ := CopyTrader.onSourceTrade_ok h
  obtain ⟨_, size⟩ := fits reference confidence priced
  obtain ⟨open_, reaches, _, rfl⟩ := size_ok_iff.mp sizes
  have shares := ((size open_.daily).2.2 open_).2 reaches
  exact (shares_inRange shares.shares).of_le (Qty.nonneg _) (Qty.floorTo_le _ _)

end Ranged

/-- What one trade of the feed meets on its way to the risk engine's verdict. What comes from
outside is held in decimals and 32 bits. -/
structure CopyInput where
  tracker : WalletTracker
  corr : CorrelationId
  trade : ParsedTrade
  cfg : StrategyConfig
  book : Option OrderBook
  ctx : SizingContext
  tick : Decimal
  signalId : SignalId
  pricedAt : DateTime
  engine : RiskEngine
  snap : RiskSnapshot
  status : SystemStatus
  kill : KillSwitch
  orderId : OrderId
  decidedAt : DateTime
  price : Representable trade.price.get
  quantity : Representable trade.quantity.get
  bits : cfg.maxSlippageBps < 2 ^ 32
  levels : ∀ b, book = some b → b.Held
  ticks : Representable tick

namespace CopyInput

variable (digest : List UInt8 → String) (i : CopyInput)

/-- The trade to be copied, with its wallet. -/
def actionable (seen : Detection × WalletTracker) : Option (SourceTrade × TargetWallet) :=
  match seen.1 with
  | .actionable trade => (seen.2.getWallet trade.trader).map (trade, ·)
  | _ => none

def signalOf (trade : SourceTrade) (wallet : TargetWallet) : Except SignalRefusal CopySignal :=
  CopyTrader.onSourceTrade i.cfg trade wallet i.book i.ctx i.tick i.signalId i.pricedAt

def orderOf (signal : CopySignal) : OrderRequest :=
  AppState.orderFor signal i.tick i.orderId i.decidedAt

def checked (wallet : TargetWallet) (signal : CopySignal) : RiskVerdict :=
  i.engine.check (i.orderOf signal) i.snap i.status i.kill i.book wallet.enabled wallet.nickname
    none none i.decidedAt

/-- The verdict, if the trade gets as far as the risk engine. -/
def verdict : Option RiskVerdict :=
  match actionable (i.tracker.observeLive digest i.corr i.trade) with
  | none => none
  | some (trade, wallet) =>
    match i.signalOf trade wallet with
    | .error _ => none
    | .ok signal => some (i.checked wallet signal)

/-- The path from a detected trade on, with the range of the program's decimals. -/
def runCopy (trade : SourceTrade) (wallet : TargetWallet) : Option (Option RiskVerdict) := do
  let result ← Ranged.onSourceTrade i.cfg trade wallet i.book i.ctx i.tick i.signalId i.pricedAt
  match result with
  | .error _ => some none
  | .ok signal => do
    let verdict ← Ranged.check i.engine (i.orderOf signal) i.snap i.status i.kill i.book
      wallet.enabled wallet.nickname none none i.decidedAt
    some (some verdict)

/-- The whole path; a panic ends it. -/
def run : Option (Option RiskVerdict) := do
  let seen ← Ranged.observeLive digest i.tracker i.corr i.trade
  match actionable seen with
  | none => some none
  | some (trade, wallet) => i.runCopy trade wallet

/-- The checks of the order that a signal becomes. -/
def OrderFits (wallet : TargetWallet) (signal : CopySignal) : Prop :=
  i.engine.CheckFits (i.orderOf signal) i.snap i.status i.kill i.book wallet.enabled
    wallet.nickname none none i.decidedAt

/-- A trade that is copied fits its sizing, and its order fits the checks. -/
def Fits : Prop :=
  ∀ trade wallet, actionable (i.tracker.observeLive digest i.corr i.trade) = some (trade, wallet) →
    SignalFits i.cfg trade wallet i.book i.ctx i.tick i.pricedAt ∧
    ∀ signal, i.signalOf trade wallet = .ok signal → i.OrderFits wallet signal

theorem actionable_amounts {digest : List UInt8 → String} {i : CopyInput} {trade : SourceTrade}
    {wallet : TargetWallet}
    (h : actionable (i.tracker.observeLive digest i.corr i.trade) = some (trade, wallet)) :
    trade.price = i.trade.price ∧ trade.quantity = i.trade.quantity := by
  unfold actionable at h
  split at h
  next t seen =>
    obtain ⟨w, _, same⟩ := Option.map_eq_some_iff.mp h
    cases same
    obtain ⟨_, _, rfl⟩ := WalletTracker.observe_actionable seen
    exact ⟨rfl, rfl⟩
  next => cases h

theorem runCopy_computes {trade : SourceTrade} (price : Representable trade.price.get)
    (quantity : InRange trade.quantity.get) (wallet : TargetWallet) :
    Computes (i.runCopy trade wallet)
      (SignalFits i.cfg trade wallet i.book i.ctx i.tick i.pricedAt ∧
        ∀ signal, i.signalOf trade wallet = .ok signal → i.OrderFits wallet signal)
      (match i.signalOf trade wallet with
      | .error _ => none
      | .ok signal => some (i.checked wallet signal)) := by
  have signals := Ranged.onSourceTrade_computes i.bits quantity i.levels i.ticks wallet i.ctx
    i.signalId i.pricedAt
  refine signals.bind fun fits => ?_
  unfold signalOf
  cases made : CopyTrader.onSourceTrade i.cfg trade wallet i.book i.ctx i.tick i.signalId
      i.pricedAt with
  | error e =>
    refine .ends ?_
    intro _ same
    cases same
  | ok signal =>
    have sized : InRange (i.orderOf signal).quantity.get := Ranged.copyQuantity_inRange fits made
    have reference : Representable (i.orderOf signal).referencePrice.get := by
      obtain ⟨_, _, _, _, _, _, _, rfl⟩ := CopyTrader.onSourceTrade_ok made
      exact price
    have verdict := Ranged.check_computes i.levels sized reference i.engine i.snap i.status i.kill
      wallet.enabled wallet.nickname none none i.decidedAt
    exact .only (fun _ _ => Except.ok.inj) verdict.map

theorem run_computes : Computes (i.run digest) (i.Fits digest) (i.verdict digest) := by
  unfold run verdict Fits
  rw [Ranged.observeLive_eq i.quantity.inRange]
  simp only [Option.bind_eq_bind, Option.bind_some]
  cases seen : actionable (i.tracker.observeLive digest i.corr i.trade) with
  | none =>
    refine .ends ?_
    intro _ _ same
    cases same
  | some copied =>
    obtain ⟨trade, wallet⟩ := copied
    obtain ⟨price, quantity⟩ := actionable_amounts seen
    exact .only_pair (Option.some_injective _)
      (i.runCopy_computes (price ▸ i.price) (quantity ▸ i.quantity.inRange) wallet)

/-- The path from the feed to the verdict leaves the range of the decimals exactly where the trade
does not fit. -/
theorem feed_path_in_range_iff : (i.run digest).isSome = true ↔ i.Fits digest :=
  (i.run_computes digest).isSome_iff

/-- A wallet that is copied ten times over. -/
def tenfold : TargetWallet := { TargetWallet.new .zero "Target" with sizing := .fixedRatio 10 }

/-- A purchase at one half by the trader of that wallet. -/
def sample (shares : Nat) (bits : shares < 2 ^ 96) : CopyInput where
  tracker := .new [tenfold]
  corr := ⟨0⟩
  trade := { ParsedTrade.sample with quantity := ⟨shares, Nat.cast_nonneg shares⟩ }
  cfg := .default
  book := none
  ctx := AppState.sample.sizingContext .sample 0
  tick := 1 / 100
  signalId := ⟨0⟩
  pricedAt := 0
  engine := ⟨.default, .paper, false⟩
  snap := ⟨0, 0, 0, 0, 0, 0, 1000⟩
  status := ⟨true, true, true, true⟩
  kill := .new
  orderId := ⟨0⟩
  decidedAt := 0
  price := (by decide +kernel : Representable (1 / 2))
  quantity := ⟨shares, 0, by rw [Nat.abs_cast]; exact_mod_cast bits, Nat.zero_le _, by simp⟩
  bits := by decide
  levels := nofun
  ticks := by decide +kernel

example : (sample 200 (by norm_num)).run (fun _ => "") = some (some .approved) := by decide +kernel

/-- A frame that reports 5e28 shares is accepted, and its notional cannot be multiplied by ten. -/
theorem hostile_size_panics : ¬∀ (digest : List UInt8 → String) (i : CopyInput),
    (∀ a w, i.tracker.getWallet a = some w →
      ∃ ratio, w.sizing = .fixedRatio ratio ∧ 0 < ratio ∧ ratio ≤ 10) →
    (i.run digest).isSome = true := by
  intro never
  have ends : ((sample (5 * 10 ^ 28) (by norm_num)).run fun _ => "").isSome = false := by
    decide +kernel
  have goes := never (fun _ => "") (sample (5 * 10 ^ 28) (by norm_num)) ?_
  · rw [ends] at goes
    cases goes
  · intro a w tracked
    have one : ((∅ : AList fun _ : Address => TargetWallet).insert tenfold.address tenfold).lookup a
        = some w := tracked
    rcases eq_or_ne a tenfold.address with rfl | other
    · rw [AList.lookup_insert] at one
      cases one
      exact ⟨10, rfl, by norm_num, le_rfl⟩
    · rw [AList.lookup_insert_ne other] at one
      cases one

end CopyInput

end CopyTrading
