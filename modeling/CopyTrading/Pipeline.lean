import CopyTrading.OrderManager
import CopyTrading.Risk
import CopyTrading.SourceEvents
import CopyTrading.Strategy
import CopyTrading.Tracker

namespace CopyTrading

/-- The state that every component shares. The bus is the one the order manager sends on. -/
structure AppState where
  tracker : WalletTracker
  repos : Repositories
  books : BookCache
  portfolio : Portfolio
  orders : OrderManager
  risk : RiskEngine
  killSwitch : KillSwitch
  /-- `config.risk.max_market_data_age_ms`. -/
  maxMarketDataAgeMs : Int

/-- What one call draws and reads from outside, a clock reading for each stretch between awaits. -/
structure CallEnv where
  /-- The database executes the insert of the source event. -/
  executed : Bool
  receivedAt : DateTime
  /-- The book the venue's REST interface returns, if it is asked and answers. -/
  fetched : Option OrderBook
  pricedAt : DateTime
  signalId : SignalId
  orderId : OrderId
  decidedAt : DateTime
  concludedAt : DateTime

/-- What the risk stage of a call ends in. -/
inductive Decision
  | refused (r : RiskRejection)
  | unregistered
  /-- The adapter is handed this order. -/
  | submitting (order : Order)

namespace AppState

def emit (app : AppState) (e : SystemEvent) : AppState := { app with orders := app.orders.emit e }

/-- The first step of a call. The result of the insert is discarded. -/
def recordSource (app : AppState) (executed : Bool) (trade : SourceTrade) : AppState :=
  { app with repos := (app.repos.insertSourceEvent executed trade).2 }

/-- After the source event was recorded; no wallet ends the call. -/
def received (app : AppState) (trade : SourceTrade) : AppState × Option TargetWallet :=
  (app.emit (.sourceTradeDetected trade), app.tracker.getWallet trade.trader)

def cachedBook (app : AppState) (token : TokenId) (now : DateTime) : Option OrderBook :=
  (app.books.get token).filter fun b => b.ageMs now ≤ app.maxMarketDataAgeMs

def fetchedBook (app : AppState) (fetched : Option OrderBook) : AppState :=
  match fetched with
  | some b => { app with books := app.books.put b }
  | none => app

def bookFor (app : AppState) (token : TokenId) (now : DateTime) (fetched : Option OrderBook) :
    Option OrderBook × AppState :=
  match app.cachedBook token now with
  | some b => (some b, app)
  | none => (fetched, app.fetchedBook fetched)

def sizingContext (app : AppState) (trade : SourceTrade) (now : DateTime) : SizingContext :=
  let s := app.portfolio.snapshot app.orders.openCount now
  let limits := app.risk.limits
  let lostToday := max (-s.dailyPnl) 0
  { equity := s.equity
    currentMarketExposure := app.portfolio.marketExposure trade.marketId
    maxPositionUsd := limits.maxPositionUsd
    maxTradeUsd := limits.maxTradeUsd
    minTradeUsd := limits.minTradeUsd
    availableLiquidity := 0
    remainingDailyRisk := max (limits.maxDailyLossUsd - lostToday) 0
    minOrderSize := 0 }

def tickOf (book : Option OrderBook) : Decimal := book.elim (1 / 100) OrderBook.tickSize

def signalFor (cfg : StrategyConfig) (app : AppState) (trade : SourceTrade)
    (wallet : TargetWallet) (book : Option OrderBook) (signalId : SignalId) (now : DateTime) :
    Except SignalRefusal CopySignal :=
  CopyTrader.onSourceTrade cfg trade wallet book (app.sizingContext trade now) (tickOf book)
    signalId now

/-- The strategy stage; a refusal is reported as sized to zero and ends the call. -/
def priced (cfg : StrategyConfig) (app : AppState) (trade : SourceTrade) (wallet : TargetWallet)
    (book : Option OrderBook) (signalId : SignalId) (now : DateTime) :
    AppState × Option CopySignal :=
  match app.signalFor cfg trade wallet book signalId now with
  | .ok signal => (app, some signal)
  | .error _ =>
    (app.emit (.sourceTradeSkipped trade.eventId trade.correlationId .sizedToZero now), none)

/-- A marketable order, immediate or cancel, at the signal's own limit. -/
def orderFor (signal : CopySignal) (tick : Decimal) (orderId : OrderId) (now : DateTime) :
    OrderRequest where
  orderId := orderId
  correlationId := signal.correlationId
  signalId := some signal.signalId
  marketId := signal.marketId
  tokenId := signal.tokenId
  side := signal.side
  orderType := .market
  timeInForce := .ioc
  quantity := signal.copyQuantity
  limitPrice := signal.limitPrice
  referencePrice := signal.targetPrice
  tickSize := tick
  createdAt := now

/-- The risk engine's verdict; no source event is passed as already processed. -/
def verdict (app : AppState) (order : OrderRequest) (wallet : TargetWallet)
    (book : Option OrderBook) (now : DateTime) : RiskVerdict :=
  let snap := app.portfolio.snapshot app.orders.openCount now
  app.risk.check order
    { dailyPnl := snap.dailyPnl
      grossExposure := snap.grossExposure
      marketExposure := app.portfolio.marketExposure order.marketId
      walletExposure := 0
      tokenExposure := app.portfolio.tokenExposure order.tokenId
      openOrders := snap.openOrders
      equity := snap.equity }
    ⟨true, true, true, !app.repos.isEphemeral⟩ app.killSwitch book wallet.enabled wallet.nickname
    none none now

def stampsFor (trade : SourceTrade) (signal : CopySignal) (now : DateTime) : LatencyStamps :=
  { LatencyStamps.fromSource trade.sourceTs false trade.detectedTs with
    signal := signal.latency.signal
    riskCheck := some now }

/-- An approved order is registered and handed to the adapter. -/
def handOver (app : AppState) (signal : CopySignal) (order : OrderRequest)
    (stamps : LatencyStamps) (now : DateTime) : AppState × Decision :=
  let app := app.emit
    (.orderRiskApproved order.orderId signal.correlationId signal.signalId now)
  let app := { app with
    portfolio := app.portfolio.attributeOrder order.orderId signal.targetWallet }
  match app.orders.registerValidated order stamps now with
  | .error _ => (app, .unregistered)
  | .ok (id, om) =>
    match om.submitBegin id now with
    | .error _ => ({ app with orders := om }, .unregistered)
    | .ok (copy, om) => ({ app with orders := om }, .submitting copy)

/-- From the stored signal to the order's hand-over or its refusal, without an await. -/
def decide (app : AppState) (trade : SourceTrade) (wallet : TargetWallet) (signal : CopySignal)
    (book : Option OrderBook) (orderId : OrderId) (now : DateTime) : AppState × Decision :=
  let app := app.emit (.copySignalGenerated signal)
  let order := orderFor signal (tickOf book) orderId now
  match app.verdict order wallet book now with
  | .rejected r => (app, .refused r)
  | .approved => app.handOver signal order (stampsFor trade signal now) now

/-- After a refusal was recorded: report it, and halt on a systemic breach. -/
def refuse (app : AppState) (signal : CopySignal) (r : RiskRejection) (now : DateTime) :
    AppState :=
  let app := app.emit (.orderRiskRejected signal.correlationId (some signal.signalId) r now)
  if RiskEngine.shouldAutoEngageKillSwitch r then
    emit { app with killSwitch := app.killSwitch.engage ("auto: " ++ r.code) "risk-engine" now }
      (.killSwitchActivated ("auto: " ++ r.code) "risk-engine" now)
  else app

def answered (app : AppState) (order : Order) (response : Except ExecutionError Acknowledgement)
    (now : DateTime) : SubmitOutcome × AppState :=
  let (outcome, om) := app.orders.submitFinish order response now
  (outcome, { app with orders := om })

def bookFill (signal : CopySignal) (app : AppState) (f : Fill) : AppState :=
  { app with portfolio := (app.portfolio.applyFill f signal.outcome).2 }

def report (app : AppState) (signal : CopySignal) (now : DateTime) : AppState :=
  let app := match app.portfolio.position signal.tokenId with
    | some p => app.emit (.positionUpdated p now)
    | none => app
  app.emit (.pnlUpdated (app.portfolio.snapshot app.orders.openCount now))

def conclude (app : AppState) (signal : CopySignal) (order : Order)
    (response : Except ExecutionError Acknowledgement) (now : DateTime) : AppState :=
  match app.answered order response now with
  | (.acknowledged _ fills, app) => (fills.foldl (bookFill signal) app).report signal now
  | (_, app) => app

section RunToCompletion

variable {A : Type} (cfg : StrategyConfig) (adapter : ExecutionAdapter A)

/-- A call from its signal on: the state after it and the order it handed to the adapter. -/
def placed (app : AppState) (a : A) (env : CallEnv) (trade : SourceTrade) (wallet : TargetWallet)
    (signal : CopySignal) (book : Option OrderBook) : (AppState × A) × Option OrderRequest :=
  match app.decide trade wallet signal book env.orderId env.decidedAt with
  | (app, .refused r) => ((app.refuse signal r env.concludedAt, a), none)
  | (app, .unregistered) => ((app, a), none)
  | (app, .submitting order) =>
    let (response, a) := adapter.submit a order.request
    ((app.conclude signal order response env.concludedAt, a), some order.request)

def copyTrade (app : AppState) (a : A) (env : CallEnv) (trade : SourceTrade)
    (wallet : TargetWallet) (book : Option OrderBook) : (AppState × A) × Option OrderRequest :=
  match app.priced cfg trade wallet book env.signalId env.pricedAt with
  | (app, none) => ((app, a), none)
  | (app, some signal) => app.placed adapter a env trade wallet signal book

/-- Carries one detected source trade through the whole pipeline, with nothing in between. -/
def onSourceTrade (app : AppState) (a : A) (env : CallEnv) (trade : SourceTrade) :
    (AppState × A) × Option OrderRequest :=
  match (app.recordSource env.executed trade).received trade with
  | (app, none) => ((app, a), none)
  | (app, some wallet) =>
    let (book, app) := app.bookFor trade.tokenId env.receivedAt env.fetched
    app.copyTrade cfg adapter a env trade wallet book

end RunToCompletion

def sample : AppState where
  tracker := .new [.new .zero "Target"]
  repos := ⟨some []⟩
  books := .new
  portfolio := .new 1000 0
  orders := .new
  risk := ⟨.default, .paper, false⟩
  killSwitch := .new
  maxMarketDataAgeMs := 30000

end AppState

def CallEnv.sample : CallEnv where
  executed := true
  receivedAt := 0
  fetched := none
  pricedAt := 0
  signalId := ⟨0⟩
  orderId := ⟨0⟩
  decidedAt := 0
  concludedAt := 0

def SourceTrade.sample : SourceTrade := ParsedTrade.sample.intoSourceTrade ⟨0⟩ ⟨""⟩ 0

/-- A venue that acknowledges every order and fills none. -/
def acceptingVenue : ExecutionAdapter Unit where
  submit _ order := (.ok ⟨order.orderId, none, 0, [], false⟩, ())
  cancel _ _ _ := (.ok (), ())

end CopyTrading
