import CopyTrading.Pipeline

namespace CopyTrading

namespace AppState

/-- Everything that the strategy and the risk engine look at is the same. -/
structure SameView (app app' : AppState) : Prop where
  portfolio : app'.portfolio = app.portfolio
  orders : app'.orders.orders = app.orders.orders
  risk : app'.risk = app.risk
  killSwitch : app'.killSwitch = app.killSwitch

theorem SameView.openCount {app app' : AppState} (h : SameView app app') :
    app'.orders.openCount = app.orders.openCount := by
  unfold OrderManager.openCount OrderManager.openOrders
  rw [h.orders]

theorem SameView.signalFor {app app' : AppState} (h : SameView app app') (cfg : StrategyConfig)
    (trade : SourceTrade) (wallet : TargetWallet) (book : Option OrderBook) (signalId : SignalId)
    (now : DateTime) : app'.signalFor cfg trade wallet book signalId now =
      app.signalFor cfg trade wallet book signalId now := by
  unfold AppState.signalFor sizingContext
  rw [h.portfolio, h.risk, h.openCount]

/-- The health of the database is no gate. -/
theorem SameView.verdict {app app' : AppState} (h : SameView app app') (order : OrderRequest)
    (wallet : TargetWallet) (book : Option OrderBook) (now : DateTime) :
    app'.verdict order wallet book now = app.verdict order wallet book now := by
  unfold AppState.verdict RiskEngine.check RiskEngine.checkGates
  rw [h.portfolio, h.risk, h.openCount, h.killSwitch]
  rfl

theorem SameView.trans {app app' app'' : AppState} (h : SameView app app')
    (h' : SameView app' app'') : SameView app app'' :=
  ⟨h'.portfolio.trans h.portfolio, h'.orders.trans h.orders, h'.risk.trans h.risk,
    h'.killSwitch.trans h.killSwitch⟩

theorem emit_sameView (app : AppState) (e : SystemEvent) : SameView app (app.emit e) :=
  ⟨rfl, rfl, rfl, rfl⟩

theorem received_sameView (app : AppState) (executed : Bool) (trade : SourceTrade) :
    SameView app ((app.recordSource executed trade).received trade).1 :=
  ⟨rfl, rfl, rfl, rfl⟩

theorem fetchedBook_sameView (app : AppState) (fetched : Option OrderBook) :
    SameView app (app.fetchedBook fetched) := by
  unfold fetchedBook
  split <;> exact ⟨rfl, rfl, rfl, rfl⟩

theorem bookFor_sameView (app : AppState) (token : TokenId) (now : DateTime)
    (fetched : Option OrderBook) : SameView app (app.bookFor token now fetched).2 := by
  unfold bookFor
  split
  · exact ⟨rfl, rfl, rfl, rfl⟩
  · exact app.fetchedBook_sameView fetched

theorem priced_sameView (cfg : StrategyConfig) (app : AppState) (trade : SourceTrade)
    (wallet : TargetWallet) (book : Option OrderBook) (signalId : SignalId) (now : DateTime) :
    SameView app (app.priced cfg trade wallet book signalId now).1 := by
  unfold priced
  split
  · exact ⟨rfl, rfl, rfl, rfl⟩
  · exact app.emit_sameView _

/-- An order is handed over in the very segment that asked the risk engine. -/
structure HandedOver (app app' : AppState) (req : OrderRequest) (order : Order) : Prop where
  request : order.request = req
  state : order.state = .submitted
  orders : app'.orders.orders = app.orders.orders.insert req.orderId order
  killSwitch : app'.killSwitch = app.killSwitch

/-- An order for something is registered, announced and handed over. -/
theorem handOver_of_some (app : AppState) (signal : CopySignal) {request : OrderRequest}
    (some_ : request.quantity.isZero = false) (stamps : LatencyStamps) (now : DateTime) :
    ∃ o : Order, o.request = request ∧ app.handOver signal request stamps now =
      ({ app with
          orders := ((((app.orders.emit (.orderRiskApproved request.orderId signal.correlationId
            signal.signalId now)).store o).store (o.sent now)).emit
              (.orderSubmitted request.orderId request.correlationId now))
          portfolio := app.portfolio.attributeOrder request.orderId signal.targetWallet },
        .submitting (o.sent now)) := by
  let reported := app.orders.emit
    (.orderRiskApproved request.orderId signal.correlationId signal.signalId now)
  obtain ⟨o, registered, same, validated, _⟩ := reported.registerValidated_of some_ stamps now
  have key : o.id = request.orderId := congrArg OrderRequest.orderId same
  have stored : (reported.store o).get request.orderId = some o := by
    rw [OrderManager.get_insert (reported.store_orders o), if_pos key.symm]
  have begun := OrderManager.submitBegin_of stored validated now
  refine ⟨o, same, ?_⟩
  rw [same] at begun
  unfold handOver emit
  simp only [reported] at registered begun ⊢
  simp only [registered, begun]

/-- An order for something is always handed over, one for nothing never. -/
theorem handOver_cases (app : AppState) (signal : CopySignal) (request : OrderRequest)
    (stamps : LatencyStamps) (now : DateTime) :
    (request.quantity.isZero ∧ (app.handOver signal request stamps now).2 = .unregistered ∧
      (app.handOver signal request stamps now).1.orders.orders = app.orders.orders ∧
      (app.handOver signal request stamps now).1.killSwitch = app.killSwitch) ∨
    ∃ order, (app.handOver signal request stamps now).2 = .submitting order ∧
      HandedOver app (app.handOver signal request stamps now).1 request order := by
  cases empty : request.quantity.isZero with
  | true =>
    left
    simp only [handOver, OrderManager.registerValidated, Order.new, empty]
    exact ⟨trivial, rfl, rfl, rfl⟩
  | false =>
    right
    obtain ⟨o, same, handed⟩ := app.handOver_of_some signal empty stamps now
    have key : o.id = request.orderId := congrArg OrderRequest.orderId same
    rw [handed]
    refine ⟨o.sent now, rfl, same, rfl, ?_, rfl⟩
    rw [OrderManager.emit_orders, OrderManager.store_orders, OrderManager.store_orders,
      show (o.sent now).id = o.id from rfl, key, AList.insert_insert]
    rfl

theorem decide_cases (app : AppState) (trade : SourceTrade) (wallet : TargetWallet)
    (signal : CopySignal) (book : Option OrderBook) (orderId : OrderId) (now : DateTime) :
    (∃ r, app.verdict (orderFor signal (tickOf book) orderId now) wallet book now = .rejected r ∧
      (app.decide trade wallet signal book orderId now).2 = .refused r ∧
      SameView app (app.decide trade wallet signal book orderId now).1) ∨
    app.verdict (orderFor signal (tickOf book) orderId now) wallet book now = .approved ∧
      ((signal.copyQuantity.isZero ∧
        (app.decide trade wallet signal book orderId now).2 = .unregistered ∧
        (app.decide trade wallet signal book orderId now).1.orders.orders = app.orders.orders ∧
        (app.decide trade wallet signal book orderId now).1.killSwitch = app.killSwitch) ∨
      ∃ order, (app.decide trade wallet signal book orderId now).2 = .submitting order ∧
        HandedOver app (app.decide trade wallet signal book orderId now).1
          (orderFor signal (tickOf book) orderId now) order) := by
  have view := app.emit_sameView (.copySignalGenerated signal)
  have same := view.verdict (orderFor signal (tickOf book) orderId now) wallet book now
  unfold decide
  simp only [same]
  cases app.verdict (orderFor signal (tickOf book) orderId now) wallet book now with
  | rejected r => exact .inl ⟨r, rfl, rfl, view⟩
  | approved =>
    refine .inr ⟨rfl, ?_⟩
    rcases (app.emit (.copySignalGenerated signal)).handOver_cases signal
      (orderFor signal (tickOf book) orderId now) (stampsFor trade signal now) now with
      ⟨empty, ends, orders, kill⟩ | ⟨order, ends, request, state, orders, kill⟩
    · exact .inl ⟨empty, ends, orders, kill⟩
    · exact .inr ⟨order, ends, request, state, orders, kill⟩

/-- The strategy gives a signal and the risk engine approves its order. -/
def passesWith (cfg : StrategyConfig) (app : AppState) (env : CallEnv) (trade : SourceTrade)
    (wallet : TargetWallet) (book : Option OrderBook) : Bool :=
  match app.signalFor cfg trade wallet book env.signalId env.pricedAt with
  | .error _ => false
  | .ok signal =>
    app.verdict (orderFor signal (tickOf book) env.orderId env.decidedAt) wallet book
      env.decidedAt = .approved

/-- The trade's wallet is tracked, and strategy and risk engine let the trade through. -/
def passes (cfg : StrategyConfig) (app : AppState) (env : CallEnv) (trade : SourceTrade) : Bool :=
  match app.tracker.getWallet trade.trader with
  | none => false
  | some wallet =>
    app.passesWith cfg env trade wallet (app.bookFor trade.tokenId env.receivedAt env.fetched).1

theorem bookFor_fst (app : AppState) (token : TokenId) (now : DateTime)
    (fetched : Option OrderBook) :
    (app.bookFor token now fetched).1 = (app.cachedBook token now).or fetched := by
  unfold bookFor
  cases app.cachedBook token now <;> rfl

/-- From its signal on, a call reaches the adapter exactly when the risk engine approves. -/
theorem placed_isSome {A : Type} (adapter : ExecutionAdapter A) (app : AppState) (a : A)
    (env : CallEnv) (trade : SourceTrade) (wallet : TargetWallet) (signal : CopySignal)
    (book : Option OrderBook) (some_ : signal.copyQuantity.isZero = false) :
    (app.placed adapter a env trade wallet signal book).2.isSome ↔
      app.verdict (orderFor signal (tickOf book) env.orderId env.decidedAt) wallet book
        env.decidedAt = .approved := by
  unfold placed
  rcases app.decide_cases trade wallet signal book env.orderId env.decidedAt with
    ⟨r, rejected, ends, _⟩ | ⟨approved, ⟨empty, _⟩ | ⟨order, ends, _⟩⟩
  · rw [rejected]
    split
    next => simp
    next => simp
    next eq => rw [eq] at ends; cases ends
  · rw [some_] at empty
    cases empty
  · rw [approved]
    split
    next eq => rw [eq] at ends; cases ends
    next eq => rw [eq] at ends; cases ends
    next => simp

/-- From its book on, a call reaches the adapter exactly when strategy and risk engine agree. -/
theorem copyTrade_isSome {A : Type} (cfg : StrategyConfig) (adapter : ExecutionAdapter A)
    (app : AppState) (a : A) (env : CallEnv) (trade : SourceTrade) (wallet : TargetWallet)
    (book : Option OrderBook) :
    (app.copyTrade cfg adapter a env trade wallet book).2.isSome =
      app.passesWith cfg env trade wallet book := by
  unfold copyTrade priced passesWith
  cases signalled : app.signalFor cfg trade wallet book env.signalId env.pricedAt with
  | error e => rfl
  | ok signal =>
    have some_ := CopyTrader.onSourceTrade_ok_pos signalled
    rw [Bool.eq_iff_iff, decide_eq_true_iff]
    exact app.placed_isSome adapter a env trade wallet signal book some_

theorem SameView.passesWith {app app' : AppState} (h : SameView app app') (cfg : StrategyConfig)
    (env : CallEnv) (trade : SourceTrade) (wallet : TargetWallet) (book : Option OrderBook) :
    app'.passesWith cfg env trade wallet book = app.passesWith cfg env trade wallet book := by
  unfold AppState.passesWith
  rw [h.signalFor]
  split
  next => rfl
  next => rw [h.verdict]

/-- A call reaches the adapter exactly when its trade passes the gates. -/
theorem onSourceTrade_isSome {A : Type} (cfg : StrategyConfig) (adapter : ExecutionAdapter A)
    (app : AppState) (a : A) (env : CallEnv) (trade : SourceTrade) :
    (app.onSourceTrade cfg adapter a env trade).2.isSome = app.passes cfg env trade := by
  let app₁ := (app.recordSource env.executed trade).emit (.sourceTradeDetected trade)
  have view : SameView app (app₁.bookFor trade.tokenId env.receivedAt env.fetched).2 :=
    (app.received_sameView env.executed trade).trans (app₁.bookFor_sameView _ _ _)
  have sameBook : (app₁.bookFor trade.tokenId env.receivedAt env.fetched).1 =
      (app.bookFor trade.tokenId env.receivedAt env.fetched).1 := by
    rw [bookFor_fst, bookFor_fst]
    rfl
  have received : (app.recordSource env.executed trade).received trade =
      (app₁, app.tracker.getWallet trade.trader) := rfl
  unfold onSourceTrade passes
  rw [received]
  cases app.tracker.getWallet trade.trader with
  | none => rfl
  | some wallet =>
    have onward := copyTrade_isSome cfg adapter
      (app₁.bookFor trade.tokenId env.receivedAt env.fetched).2 a env trade wallet
      (app₁.bookFor trade.tokenId env.receivedAt env.fetched).1
    rw [view.passesWith] at onward
    rw [← sameBook]
    exact onward

end AppState

end CopyTrading
