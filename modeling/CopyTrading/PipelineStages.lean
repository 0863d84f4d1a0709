import CopyTrading.PipelineGates

namespace CopyTrading

inductive Stage
  | inserted (trade : SourceTrade)
  | fetching (trade : SourceTrade) (wallet : TargetWallet)
  | signalled (trade : SourceTrade) (wallet : TargetWallet) (signal : CopySignal)
      (book : Option OrderBook)
  | refused (signal : CopySignal) (r : RiskRejection)
  /-- The adapter, with the copy of the order that will be written back. -/
  | submitting (signal : CopySignal) (order : Order)
  /-- The store, with the fills that are yet to be booked. -/
  | booking (signal : CopySignal) (fills : List Fill)
  | done

/-- The order a call has handed to the adapter and has no answer for. -/
def Stage.pending : Stage → Option Order
  | .submitting _ order => some order
  | _ => none

namespace AppState

def toSignal (cfg : StrategyConfig) (app : AppState) (trade : SourceTrade) (wallet : TargetWallet)
    (book : Option OrderBook) (env : CallEnv) : AppState × Stage :=
  match app.priced cfg trade wallet book env.signalId env.pricedAt with
  | (app, some signal) => (app, .signalled trade wallet signal book)
  | (app, none) => (app, .done)

/-- One segment of a call, from one await to the next; the adapter's answer is not among them. -/
def advance (cfg : StrategyConfig) (app : AppState) (env : CallEnv) :
    Stage → Option (AppState × Stage)
  | .inserted trade =>
    match app.received trade with
    | (app, none) => some (app, .done)
    | (app, some wallet) =>
      match app.cachedBook trade.tokenId env.receivedAt with
      | some b => some (app.toSignal cfg trade wallet (some b) env)
      | none => some (app, .fetching trade wallet)
  | .fetching trade wallet =>
    some ((app.fetchedBook env.fetched).toSignal cfg trade wallet env.fetched env)
  | .signalled trade wallet signal book =>
    match app.decide trade wallet signal book env.orderId env.decidedAt with
    | (app, .refused r) => some (app, .refused signal r)
    | (app, .unregistered) => some (app, .done)
    | (app, .submitting order) => some (app, .submitting signal order)
  | .refused signal r => some (app.refuse signal r env.concludedAt, .done)
  | .booking signal (f :: fs) => some (bookFill signal app f, .booking signal fs)
  | .booking signal [] => some (app.report signal env.concludedAt, .done)
  | .submitting .. | .done => none

def answer (app : AppState) (signal : CopySignal) (order : Order)
    (response : Except ExecutionError Acknowledgement) (now : DateTime) : AppState × Stage :=
  match app.answered order response now with
  | (.acknowledged _ fills, app) => (app, .booking signal fills)
  | (_, app) => (app, .done)

/-- The orders are as they were, and the kill switch is not let go. -/
structure Quiet (app app' : AppState) : Prop where
  orders : app'.orders.orders = app.orders.orders
  halted : app.killSwitch.engaged → app'.killSwitch.engaged

theorem SameView.quiet {app app' : AppState} (h : SameView app app') : Quiet app app' :=
  ⟨h.orders, fun engaged => by rw [h.killSwitch]; exact engaged⟩

theorem Quiet.trans {app app' app'' : AppState} (h : Quiet app app') (h' : Quiet app' app'') :
    Quiet app app'' :=
  ⟨h'.orders.trans h.orders, fun engaged => h'.halted (h.halted engaged)⟩

theorem toSignal_quiet (cfg : StrategyConfig) (app : AppState) (trade : SourceTrade)
    (wallet : TargetWallet) (book : Option OrderBook) (env : CallEnv) :
    (app.toSignal cfg trade wallet book env).2.pending = none ∧
      Quiet app (app.toSignal cfg trade wallet book env).1 := by
  have view := priced_sameView cfg app trade wallet book env.signalId env.pricedAt
  unfold toSignal
  split
  next eq => rw [eq] at view; exact ⟨rfl, view.quiet⟩
  next eq => rw [eq] at view; exact ⟨rfl, view.quiet⟩

theorem refuse_quiet (app : AppState) (signal : CopySignal) (r : RiskRejection)
    (now : DateTime) : Quiet app (app.refuse signal r now) := by
  unfold refuse
  split
  · exact ⟨rfl, fun _ => KillSwitch.engage_engaged _ _ _ _⟩
  · exact (app.emit_sameView _).quiet

theorem report_quiet (app : AppState) (signal : CopySignal) (now : DateTime) :
    Quiet app (app.report signal now) := by
  unfold report
  split <;> exact ⟨rfl, id⟩

/-- A segment leaves the orders alone, or hands over an order that the risk engine has just
approved. -/
theorem advance_cases {cfg : StrategyConfig} {app app' : AppState} {env : CallEnv}
    {stage stage' : Stage} (h : app.advance cfg env stage = some (app', stage')) :
    (stage'.pending = none ∧ Quiet app app') ∨
    ∃ order, stage'.pending = some order ∧ app.killSwitch.engaged = false ∧
      order.state = .submitted ∧ order.id = env.orderId ∧
      app'.orders.orders = app.orders.orders.insert env.orderId order := by
  cases stage with
  | inserted trade =>
    left
    have view := (app.emit_sameView (.sourceTradeDetected trade)).quiet
    simp only [advance, received] at h
    split at h
    next eq =>
      obtain ⟨rfl, _⟩ := Prod.mk.inj eq
      cases h
      exact ⟨rfl, view⟩
    next app₁ wallet eq =>
      obtain ⟨rfl, _⟩ := Prod.mk.inj eq
      split at h
      next b _ =>
        obtain ⟨idle, quiet⟩ := toSignal_quiet cfg (app.emit (.sourceTradeDetected trade)) trade
          wallet (some b) env
        rw [Option.some.inj h] at idle quiet
        exact ⟨idle, view.trans quiet⟩
      next => cases h; exact ⟨rfl, view⟩
  | fetching trade wallet =>
    left
    obtain ⟨idle, quiet⟩ := toSignal_quiet cfg (app.fetchedBook env.fetched) trade wallet
      env.fetched env
    rw [Option.some.inj h] at idle quiet
    exact ⟨idle, (app.fetchedBook_sameView env.fetched).quiet.trans quiet⟩
  | signalled trade wallet signal book =>
    simp only [advance] at h
    rcases app.decide_cases trade wallet signal book env.orderId env.decidedAt with
      ⟨r, _, ends, view⟩ | ⟨approved, ⟨_, ends, orders, kill⟩ | ⟨order, ends, handed⟩⟩
    · left
      split at h
      next eq => rw [eq] at view; cases h; exact ⟨rfl, view.quiet⟩
      next eq => rw [eq] at ends; cases ends
      next eq => rw [eq] at ends; cases ends
    · left
      split at h
      next eq => rw [eq] at ends; cases ends
      next eq =>
        rw [eq] at orders kill
        cases h
        exact ⟨rfl, orders, fun engaged => by rw [kill]; exact engaged⟩
      next eq => rw [eq] at ends; cases ends
    · right
      split at h
      next eq => rw [eq] at ends; cases ends
      next eq => rw [eq] at ends; cases ends
      next eq =>
        rw [eq] at ends handed
        cases ends
        cases h
        refine ⟨order, rfl, RiskEngine.disengaged_of_approved approved, handed.state, ?_,
          handed.orders⟩
        unfold Order.id
        rw [handed.request]
        rfl
  | refused signal r =>
    cases h
    exact .inl ⟨rfl, app.refuse_quiet signal r env.concludedAt⟩
  | submitting signal order => cases h
  | booking signal fills =>
    left
    cases fills with
    | nil => cases h; exact ⟨rfl, app.report_quiet signal env.concludedAt⟩
    | cons f fs => cases h; exact ⟨rfl, rfl, id⟩
  | done => cases h

end AppState

end CopyTrading
