import CopyTrading.Holders
import CopyTrading.WalletExposure

namespace CopyTrading

open Holders StepRun

/-- A call of the pipeline, and the order that it handed to the adapter. -/
structure TradeCall where
  trade : SourceTrade
  stage : Stage
  order : Option OrderId

structure OriginRun where
  app : AppState
  calls : List TradeCall
  /-- The orders whose cancellation the venue is asked for, as they were read. -/
  cancels : List Order

inductive OriginEvent
  | handed (executed : Bool) (trade : SourceTrade)
  | advance (i : Nat) (env : CallEnv)
  | answer (i : Nat) (response : Except ExecutionError Acknowledgement) (now : DateTime)
  /-- A resting order fills. -/
  | filled (f : Fill)
  | cancelBegin (id : OrderId) (now : DateTime)
  | cancelFinish (i : Nat) (response : Except ExecutionError Unit) (now : DateTime)
  /-- What the other tasks make of the rest of the state meanwhile. -/
  | elsewhere (app : AppState)

namespace AppState

/-- What an order that is registered asks for. -/
def request (app : AppState) (id : OrderId) : Option OrderRequest :=
  (app.orders.get id).map Order.request

/-- Orders change, but none comes or goes, and no order is attributed anew. -/
structure SameRequests (app app' : AppState) : Prop where
  request : ∀ id, app'.request id = app.request id
  attribution : ∀ id w, app'.portfolio.orderWallet.lookup id = some w →
    app.portfolio.orderWallet.lookup id = some w

end AppState

namespace OriginRun

def start (app : AppState) : OriginRun := ⟨app, [], []⟩

def advance (cfg : StrategyConfig) (s : OriginRun) (i : Nat) (env : CallEnv) : Option OriginRun :=
  match s.calls[i]? with
  | none => none
  | some call => (s.app.advance cfg env call.stage).map fun (app, next) =>
    { s with
      app := app
      calls := s.calls.set i { call with
        stage := next
        order := (next.pending.map Order.id).or call.order } }

def answer (s : OriginRun) (i : Nat) (response : Except ExecutionError Acknowledgement)
    (now : DateTime) : Option OriginRun :=
  match s.calls[i]? with
  | none => none
  | some call =>
    match call.stage with
    | .submitting signal order =>
      let (app, next) := s.app.answer signal order response now
      some { s with app := app, calls := s.calls.set i { call with stage := next } }
    | _ => none

def step (cfg : StrategyConfig) (s : OriginRun) : OriginEvent → Option OriginRun
  | .handed executed trade => some { s with
      app := s.app.recordSource executed trade
      calls := s.calls ++ [⟨trade, .inserted trade, none⟩] }
  | .advance i env => s.advance cfg i env
  | .answer i response now => s.answer i response now
  | .filled f =>
    match s.app.orders.applyExternalFill f with
    | .error _ => none
    | .ok om => some { s with
        app := { s.app with orders := om, portfolio := (s.app.portfolio.applyFill f "").2 } }
  | .cancelBegin id now =>
    match s.app.orders.cancelBegin id now with
    | .error _ => none
    | .ok (o, om) => some { s with app := { s.app with orders := om }, cancels := s.cancels ++ [o] }
  | .cancelFinish i response now => s.cancels[i]?.map fun o => { s with
      app := { s.app with orders := (s.app.orders.cancelFinish o response now).2 }
      cancels := s.cancels.eraseIdx i }
  | .elsewhere app => some { s with app := app }

/-- A new id is drawn for every order, and the rest of the process leaves the orders alone; a paper
reset forgets whom they were copied from. -/
def Proper (s : OriginRun) : OriginEvent → Prop
  | .advance _ env => s.app.orders.get env.orderId = none
  | .elsewhere app => app.orders.orders = s.app.orders.orders ∧
      (app.portfolio.orderWallet = s.app.portfolio.orderWallet ∨ app.portfolio.orderWallet = ∅)
  | _ => True

instance (s : OriginRun) : (e : OriginEvent) → Decidable (s.Proper e)
  | .advance _ env => inferInstanceAs (Decidable (s.app.orders.get env.orderId = none))
  | .elsewhere app =>
    have : Decidable (app.orders.orders = s.app.orders.orders) :=
      decidable_of_iff (_ = _) AList.ext_iff.symm
    have : Decidable (app.portfolio.orderWallet = s.app.portfolio.orderWallet) :=
      decidable_of_iff (_ = _) AList.ext_iff.symm
    have : Decidable (app.portfolio.orderWallet = ∅) :=
      decidable_of_iff (_ = _) AList.ext_iff.symm
    inferInstanceAs (Decidable (_ ∧ (_ ∨ _)))
  | .handed .. | .answer .. | .filled _ | .cancelBegin .. | .cancelFinish .. => isTrue trivial

end OriginRun

/-- The trades that were handed to the pipeline, in order. -/
def handedIn (es : List OriginEvent) : List SourceTrade :=
  es.filterMap fun
    | .handed _ trade => some trade
    | _ => none

section Origins

variable (cfg : StrategyConfig) (seen : OriginRun → Prop)

/-- In one of these states the trader of the trade was tracked as this wallet. -/
def Tracked (trade : SourceTrade) (wallet : TargetWallet) : Prop :=
  ∃ t, seen t ∧ t.app.tracker.getWallet trade.trader = some wallet

/-- In one of these states the strategy made this signal of the trade. -/
def Priced (trade : SourceTrade) (wallet : TargetWallet) (book : Option OrderBook)
    (signal : CopySignal) : Prop :=
  ∃ t signalId now, seen t ∧ t.app.signalFor cfg trade wallet book signalId now = .ok signal

/-- What a call rests on before it has an order. -/
def Stage.Founded (trade : SourceTrade) : Stage → Prop
  | .inserted trade' => trade' = trade
  | .fetching trade' wallet => trade' = trade ∧ Tracked seen trade wallet
  | .signalled trade' wallet signal book =>
    trade' = trade ∧ Tracked seen trade wallet ∧ Priced cfg seen trade wallet book signal
  | _ => True

/-- The order copies the trade as its tracked wallet is to be copied, and the risk engine approved
of it. -/
def Justified (trade : SourceTrade) (q : OrderRequest) : Prop :=
  ∃ wallet book signal now, Tracked seen trade wallet ∧ Priced cfg seen trade wallet book signal ∧
    q = AppState.orderFor signal (AppState.tickOf book) q.orderId now ∧
    ∃ t, seen t ∧ t.app.verdict q wallet book now = .approved

end Origins

/-- The call is not past its signal. -/
def Stage.isOpen : Stage → Bool
  | .inserted _ | .fetching .. | .signalled .. => true
  | _ => false

/-- Every order has a call that answers for it, and every attribution is to that call's trader. -/
structure Origins (cfg : StrategyConfig) (seen : OriginRun → Prop) (s : OriginRun) : Prop where
  founded : ∀ call ∈ s.calls, call.stage.Founded cfg seen call.trade
  unplaced : ∀ call ∈ s.calls, call.stage.isOpen = true → call.order = none
  pending : ∀ call ∈ s.calls, ∀ o, call.stage.pending = some o → s.app.request o.id = some o.request
  cancels : ∀ o ∈ s.cancels, o.state = .cancelRequested ∧ s.app.request o.id = some o.request
  placed : ∀ i id, heldAt TradeCall.order s.calls i = some id → ∃ q, s.app.request id = some q
  apart : Apart TradeCall.order id s.calls
  origin : ∀ id q, s.app.request id = some q → q.orderId = id ∧ ∃ (i : Nat) (call : TradeCall),
    s.calls[i]? = some call ∧ call.order = some id ∧ Justified cfg seen call.trade q
  attributed : ∀ id w, s.app.portfolio.orderWallet.lookup id = some w →
    ∃ (i : Nat) (call : TradeCall), s.calls[i]? = some call ∧ call.order = some id ∧
      w = call.trade.trader

namespace AppState

variable {cfg : StrategyConfig} {seen : OriginRun → Prop} {app app' : AppState} {env : CallEnv}
  {stage next : Stage} {trade : SourceTrade}

theorem SameOrders.sameRequests (h : SameOrders app app') : app.SameRequests app' := by
  refine ⟨?_, ?_⟩
  · intro id
    unfold request OrderManager.get
    rw [h.orders]
  · intro id w held
    rw [h.attributed] at held
    exact held

/-- An order is written back with the request it has. -/
theorem SameRequests.insert {id : OrderId} {q : OrderRequest} {o : Order}
    (asked : app.request id = some q) (same : o.request = q)
    (orders : app'.orders.orders = app.orders.orders.insert id o)
    (attribution : app'.portfolio.orderWallet = app.portfolio.orderWallet) :
    app.SameRequests app' := by
  refine ⟨?_, ?_⟩
  · intro id'
    unfold AppState.request at asked ⊢
    rw [OrderManager.get_insert orders]
    split
    next here =>
      rw [here, asked]
      exact congrArg some same
    next => rfl
  · intro id w held
    rw [attribution] at held
    exact held

/-- The strategy's stage ends the call or leads to the signal it made. -/
theorem toSignal_origin {wallet : TargetWallet} {book : Option OrderBook}
    (h : app.toSignal cfg trade wallet book env = (app', next)) :
    SameView app app' ∧ (next = .done ∨ ∃ signal, next = .signalled trade wallet signal book ∧
      app.signalFor cfg trade wallet book env.signalId env.pricedAt = .ok signal) := by
  have view := priced_sameView cfg app trade wallet book env.signalId env.pricedAt
  unfold toSignal at h
  split at h
  next app₁ signal eq =>
    rw [eq] at view
    cases h
    refine ⟨view, .inr ⟨signal, rfl, ?_⟩⟩
    unfold priced at eq
    split at eq
    next ok =>
      cases eq
      exact ok
    next => cases eq
  next eq =>
    rw [eq] at view
    cases h
    exact ⟨view, .inl rfl⟩

/-- What a segment that places no order leads to. -/
structure Onward (cfg : StrategyConfig) (seen : OriginRun → Prop) (trade : SourceTrade)
    (app app' : AppState) (stage next : Stage) : Prop where
  same : SameOrders app app'
  idle : next.pending = none
  founded : next.Founded cfg seen trade
  open_ : next.isOpen = true → stage.isOpen = true

/-- What a segment that places an order leads to. -/
structure Places (cfg : StrategyConfig) (seen : OriginRun → Prop) (trade : SourceTrade)
    (app app' : AppState) (id : OrderId) (next : Stage) (order : Order) : Prop where
  pending : next.pending = some order
  closed : next.isOpen = false
  founded : next.Founded cfg seen trade
  drawn : order.request.orderId = id
  justified : Justified cfg seen trade order.request
  orders : app'.orders.orders = app.orders.orders.insert id order
  attributed : app'.portfolio.orderWallet.lookup id = some trade.trader
  others : ∀ id' ≠ id, app'.portfolio.orderWallet.lookup id' = app.portfolio.orderWallet.lookup id'

theorem Places.extends_ {id : OrderId} {order : Order}
    (placed : Places cfg seen trade app app' id next order) (fresh : app.orders.get id = none) :
    Extends app.request app'.request id order.request := by
  constructor
  · unfold request
    rw [fresh]
    rfl
  · intro id'
    unfold request
    rw [OrderManager.get_insert placed.orders]
    split
    next => rfl
    next => rfl

/-- Priced where the call goes on, it was priced in the state that the segment began in. -/
theorem toSignal_onward {from_ : AppState} {t : OriginRun} (here : seen t) (eq : t.app = from_)
    {wallet : TargetWallet} {book : Option OrderBook} (tracked : Tracked seen trade wallet)
    (view : SameView from_ app) (open_ : stage.isOpen = true)
    (h : app.toSignal cfg trade wallet book env = (app', next)) :
    Onward cfg seen trade from_ app' stage next := by
  obtain ⟨same, ends⟩ := toSignal_origin h
  have all := view.sameOrders.trans same.sameOrders
  rcases ends with rfl | ⟨signal, rfl, priced⟩
  · exact ⟨all, rfl, trivial, fun running => by cases running⟩
  · rw [view.signalFor, ← eq] at priced
    exact ⟨all, rfl, ⟨rfl, tracked, t, env.signalId, env.pricedAt, here, priced⟩, fun _ => open_⟩

section Segments

variable {t : OriginRun} (here : seen t) (eq : t.app = app)
include here eq

theorem inserted_onward (h : app.advance cfg env (.inserted trade) = some (app', next)) :
    Onward cfg seen trade app app' (.inserted trade) next := by
  have view := app.emit_sameView (.sourceTradeDetected trade)
  simp only [advance, received] at h
  split at h
  next eq' =>
    obtain ⟨rfl, _⟩ := Prod.mk.inj eq'
    cases h
    exact ⟨view.sameOrders, rfl, trivial, fun _ => rfl⟩
  next app₁ wallet eq' =>
    obtain ⟨rfl, known⟩ := Prod.mk.inj eq'
    have tracked : Tracked seen trade wallet := ⟨t, here, by rw [eq]; exact known⟩
    split at h
    next b _ => exact toSignal_onward here eq tracked view rfl (Option.some.inj h)
    next =>
      cases h
      exact ⟨view.sameOrders, rfl, ⟨rfl, tracked⟩, fun _ => rfl⟩

/-- What is handed over copies the trade of the signal. -/
theorem handedOver_places {wallet : TargetWallet} {signal : CopySignal} {book : Option OrderBook}
    {order : Order} (tracked : Tracked seen trade wallet)
    (priced : Priced cfg seen trade wallet book signal)
    (decided : app.decide trade wallet signal book env.orderId env.decidedAt =
      (app', .submitting order)) :
    Places cfg seen trade app app' env.orderId (.submitting signal order) order := by
  have ends_ := app.decide_cases trade wallet signal book env.orderId env.decidedAt
  obtain ⟨others, attributed⟩ := decide_spec decided
  rw [decided] at ends_
  rcases ends_ with ⟨_, _, other, _⟩ | ⟨approved, ⟨_, other, _⟩ | ⟨_, same, handed⟩⟩
  · cases other
  · cases other
  · cases same
    have trader : signal.targetWallet = trade.trader := by
      obtain ⟨_, _, _, _, made⟩ := priced
      exact (CopyTrader.onSourceTrade_ok_copies made).1
    have justified : Justified cfg seen trade order.request := by
      refine ⟨wallet, book, signal, env.decidedAt, tracked, priced, ?_, t, here, ?_⟩
      · rw [handed.request]
        rfl
      · rw [handed.request, eq]
        exact approved
    refine ⟨rfl, rfl, trivial, ?_, justified, handed.orders, ?_, others⟩
    · rw [handed.request]
      rfl
    · rw [(attributed order rfl).1, trader]

theorem signalled_origin {wallet : TargetWallet} {signal : CopySignal} {book : Option OrderBook}
    (tracked : Tracked seen trade wallet) (priced : Priced cfg seen trade wallet book signal)
    (h : app.advance cfg env (.signalled trade wallet signal book) = some (app', next)) :
    Onward cfg seen trade app app' (.signalled trade wallet signal book) next ∨
      ∃ order, Places cfg seen trade app app' env.orderId next order := by
  have ends_ := app.decide_cases trade wallet signal book env.orderId env.decidedAt
  simp only [advance] at h
  split at h
  next app₁ r decided =>
    cases h
    rw [decided] at ends_
    rcases ends_ with ⟨_, _, _, view⟩ | ⟨_, ⟨_, other, _⟩ | ⟨_, other, _⟩⟩
    · exact .inl ⟨view.sameOrders, rfl, trivial, fun _ => rfl⟩
    · cases other
    · cases other
  next app₁ decided =>
    rw [decided] at ends_
    rcases ends_ with ⟨_, _, other, _⟩ | ⟨_, ⟨empty, _⟩ | ⟨_, other, _⟩⟩
    · cases other
    · obtain ⟨_, _, _, _, made⟩ := priced
      rw [CopyTrader.onSourceTrade_ok_pos made] at empty
      cases empty
    · cases other
  next app₁ order decided =>
    cases h
    exact .inr ⟨order, handedOver_places here eq tracked priced decided⟩

end Segments

theorem refused_onward {signal : CopySignal} {r : RiskRejection}
    (h : app.advance cfg env (.refused signal r) = some (app', next)) :
    Onward cfg seen trade app app' (.refused signal r) next := by
  cases h
  have same : SameOrders app (app.refuse signal r env.concludedAt) := by
    unfold refuse
    split
    next => exact ⟨rfl, rfl⟩
    next => exact ⟨rfl, rfl⟩
  exact ⟨same, rfl, trivial, fun running => by cases running⟩

theorem booking_onward {signal : CopySignal} {fills : List Fill}
    (h : app.advance cfg env (.booking signal fills) = some (app', next)) :
    Onward cfg seen trade app app' (.booking signal fills) next := by
  cases fills with
  | nil =>
    cases h
    obtain ⟨portfolio, orders, _⟩ := app.report_spec signal env.concludedAt
    exact ⟨⟨orders, congrArg Portfolio.orderWallet portfolio⟩, rfl, trivial,
      fun running => by cases running⟩
  | cons f fs =>
    cases h
    exact ⟨⟨rfl, rfl⟩, rfl, trivial, fun running => by cases running⟩

/-- A segment that begins in one of the states seen leads on, or places an order. -/
theorem advance_origin (h : app.advance cfg env stage = some (app', next))
    (founded : stage.Founded cfg seen trade) {t : OriginRun} (here : seen t) (eq : t.app = app) :
    Onward cfg seen trade app app' stage next ∨
      stage.isOpen = true ∧ ∃ order, Places cfg seen trade app app' env.orderId next order := by
  cases stage with
  | inserted trade' =>
    cases founded
    exact .inl (inserted_onward here eq h)
  | fetching trade' wallet =>
    obtain ⟨rfl, tracked⟩ := founded
    exact .inl (toSignal_onward here eq tracked (app.fetchedBook_sameView env.fetched) rfl
      (Option.some.inj h))
  | signalled trade' wallet signal book =>
    obtain ⟨rfl, tracked, priced⟩ := founded
    exact (signalled_origin here eq tracked priced h).imp_right fun placed => ⟨rfl, placed⟩
  | refused signal r => exact .inl (refused_onward h)
  | submitting signal order => cases h
  | booking signal fills => exact .inl (booking_onward h)
  | done => cases h

end AppState

section Mono

variable {cfg : StrategyConfig} {seen seen' : OriginRun → Prop} (more : ∀ t, seen t → seen' t)
include more

theorem Tracked.mono {trade : SourceTrade} {wallet : TargetWallet} (h : Tracked seen trade wallet) :
    Tracked seen' trade wallet := by
  obtain ⟨t, before, known⟩ := h
  exact ⟨t, more t before, known⟩

theorem Priced.mono {trade : SourceTrade} {wallet : TargetWallet} {book : Option OrderBook}
    {signal : CopySignal} (h : Priced cfg seen trade wallet book signal) :
    Priced cfg seen' trade wallet book signal := by
  obtain ⟨t, signalId, now, before, made⟩ := h
  exact ⟨t, signalId, now, more t before, made⟩

theorem Stage.Founded.mono {trade : SourceTrade} {stage : Stage}
    (h : stage.Founded cfg seen trade) : stage.Founded cfg seen' trade := by
  cases stage with
  | inserted trade' => exact h
  | fetching trade' wallet => exact ⟨h.1, h.2.mono more⟩
  | signalled trade' wallet signal book => exact ⟨h.1, h.2.1.mono more, h.2.2.mono more⟩
  | refused => trivial
  | submitting => trivial
  | booking => trivial
  | done => trivial

theorem Justified.mono {trade : SourceTrade} {q : OrderRequest} (h : Justified cfg seen trade q) :
    Justified cfg seen' trade q := by
  obtain ⟨wallet, book, signal, now, tracked, priced, asks, t, before, approved⟩ := h
  exact ⟨wallet, book, signal, now, tracked.mono more, priced.mono more, asks, t, more t before,
    approved⟩

theorem Origins.mono {s : OriginRun} (h : Origins cfg seen s) : Origins cfg seen' s := by
  refine ⟨fun call mem => (h.founded call mem).mono more, h.unplaced, h.pending, h.cancels,
    h.placed, h.apart, ?_, h.attributed⟩
  intro id q asked
  obtain ⟨own, i, call, here, places, justified⟩ := h.origin id q asked
  exact ⟨own, i, call, here, places, justified.mono more⟩

end Mono

namespace Origins

variable {cfg : StrategyConfig} {seen : OriginRun → Prop} {s s' : OriginRun}

theorem start {app : AppState} (booted : app.orders.orders = ∅)
    (unattributed : app.portfolio.orderWallet = ∅) : Origins cfg seen (.start app) := by
  have none_ : ∀ id, app.request id = none := by
    intro id
    unfold AppState.request OrderManager.get
    rw [booted]
    rfl
  refine ⟨List.forall_mem_nil _, List.forall_mem_nil _, List.forall_mem_nil _,
    List.forall_mem_nil _, ?_, .nil, ?_, ?_⟩
  · intro i id held
    cases held
  · intro id q asked
    have unasked := none_ id
    rw [show app.request id = some q from asked] at unasked
    cases unasked
  · intro id w held
    rw [show (OriginRun.start app).app.portfolio.orderWallet = ∅ from unattributed] at held
    cases held

/-- The rest of the process neither adds nor reattributes an order. -/
theorem elsewhere (h : Origins cfg seen s) {app : AppState} (same : s.app.SameRequests app)
    {cancels : List Order} (known : ∀ o ∈ cancels, o.state = .cancelRequested ∧
      s.app.request o.id = some o.request) :
    Origins cfg seen { s with app := app, cancels := cancels } := by
  refine ⟨h.founded, h.unplaced, ?_, ?_, ?_, h.apart, ?_, ?_⟩
  · intro call mem o pending
    rw [same.request]
    exact h.pending call mem o pending
  · intro o mem
    rw [same.request]
    exact known o mem
  · intro i id held
    rw [same.request]
    exact h.placed i id held
  · intro id q asked
    rw [same.request] at asked
    exact h.origin id q asked
  · intro id w held
    exact h.attributed id w (same.attribution id w held)

theorem handed (h : Origins cfg seen s) (executed : Bool) (trade : SourceTrade) :
    Origins cfg seen { s with
      app := s.app.recordSource executed trade
      calls := s.calls ++ [⟨trade, .inserted trade, none⟩] } := by
  have kept {i : Nat} {call : TradeCall} (here : s.calls[i]? = some call) :
      (s.calls ++ [⟨trade, .inserted trade, none⟩])[i]? = some call := by
    rw [List.getElem?_append_left (List.getElem?_eq_some_iff.mp here).1]
    exact here
  refine ⟨?_, ?_, ?_, h.cancels, ?_, ?_, ?_, ?_⟩
  · intro call mem
    rcases List.mem_append.mp mem with old | new
    · exact h.founded call old
    · rw [List.mem_singleton.mp new]
      exact rfl
  · intro call mem open_
    rcases List.mem_append.mp mem with old | new
    · exact h.unplaced call old open_
    · rw [List.mem_singleton.mp new]
  · intro call mem o pending
    rcases List.mem_append.mp mem with old | new
    · exact h.pending call old o pending
    · rw [List.mem_singleton.mp new] at pending
      cases pending
  · intro i id held
    rcases heldAt_concat_some held with ⟨_, none_⟩ | before
    · cases none_
    · exact h.placed i id before
  · refine h.apart.concat ?_
    intro id none_
    cases none_
  · intro id q asked
    obtain ⟨own, i, call, here, rest⟩ := h.origin id q asked
    exact ⟨own, i, call, kept here, rest⟩
  · intro id w held
    obtain ⟨i, call, here, rest⟩ := h.attributed id w held
    exact ⟨i, call, kept here, rest⟩

/-- A call goes on, and its order stays what it was. -/
theorem moved (h : Origins cfg seen s) {i : Nat} {call : TradeCall}
    (here : s.calls[i]? = some call) {app : AppState} (same : s.app.SameRequests app)
    {next : Stage} (founded : next.Founded cfg seen call.trade)
    (open_ : next.isOpen = true → call.stage.isOpen = true) (idle : next.pending = none) :
    Origins cfg seen
      { s with app := app, calls := s.calls.set i { call with stage := next } } := by
  have mem := List.mem_of_getElem? here
  have kept {j : Nat} {c : TradeCall} (held : s.calls[j]? = some c) :
      ∃ c', (s.calls.set i { call with stage := next })[j]? = some c' ∧ c'.trade = c.trade ∧
        c'.order = c.order := by
    by_cases at_ : i = j
    · subst at_
      rw [here] at held
      cases held
      exact ⟨_, List.getElem?_set_self (List.getElem?_eq_some_iff.mp here).1, rfl, rfl⟩
    · rw [List.getElem?_set_ne at_]
      exact ⟨c, held, rfl, rfl⟩
  refine ⟨?_, ?_, ?_, ?_, ?_, ?_, ?_, ?_⟩
  · intro c among
    rcases List.mem_or_eq_of_mem_set among with old | rfl
    · exact h.founded c old
    · exact founded
  · intro c among running
    rcases List.mem_or_eq_of_mem_set among with old | rfl
    · exact h.unplaced c old running
    · exact h.unplaced call mem (open_ running)
  · intro c among o pending
    rw [same.request]
    rcases List.mem_or_eq_of_mem_set among with old | rfl
    · exact h.pending c old o pending
    · rw [show next.pending = some o from pending] at idle
      cases idle
  · intro o among
    rw [same.request]
    exact h.cancels o among
  · intro j id held
    rw [same.request]
    rcases heldAt_set_some here held with ⟨rfl, holds⟩ | ⟨_, before⟩
    · exact h.placed i id ((heldAt_of_get here).trans holds)
    · exact h.placed j id before
  · exact h.apart.set here fun id holds => .inl holds
  · intro id q asked
    rw [same.request] at asked
    obtain ⟨own, j, c, at_, places, justified⟩ := h.origin id q asked
    obtain ⟨c', at', trade, order⟩ := kept at_
    exact ⟨own, j, c', at', order.trans places, trade ▸ justified⟩
  · intro id w held
    obtain ⟨j, c, at_, places, own⟩ := h.attributed id w (same.attribution id w held)
    obtain ⟨c', at', trade, order⟩ := kept at_
    exact ⟨j, c', at', order.trans places, trade ▸ own⟩

/-- A call places its order under an id that nothing has. -/
theorem places (h : Origins cfg seen s) {i : Nat} {call : TradeCall}
    (here : s.calls[i]? = some call) (open_ : call.stage.isOpen = true) {app : AppState}
    {id : OrderId} (fresh : s.app.orders.get id = none) {next : Stage} {order : Order}
    (placed : AppState.Places cfg seen call.trade s.app app id next order) :
    Origins cfg seen
      { s with app := app, calls := s.calls.set i ⟨call.trade, next, some id⟩ } := by
  have adds := placed.extends_ fresh
  have key : order.id = id := placed.drawn
  have self : (s.calls.set i ⟨call.trade, next, some id⟩)[i]? = some ⟨call.trade, next, some id⟩ :=
    List.getElem?_set_self (List.getElem?_eq_some_iff.mp here).1
  have kept {j : Nat} {c : TradeCall} {id' : OrderId} (held : s.calls[j]? = some c)
      (order : c.order = some id') :
      (s.calls.set i ⟨call.trade, next, some id⟩)[j]? = some c := by
    have at_ : i ≠ j := by
      rintro rfl
      cases here.symm.trans held
      exact nomatch (h.unplaced call (List.mem_of_getElem? here) open_).symm.trans order
    rw [List.getElem?_set_ne at_]
    exact held
  refine ⟨?_, ?_, ?_, ?_, ?_, ?_, ?_, ?_⟩
  · intro c among
    rcases List.mem_or_eq_of_mem_set among with old | rfl
    · exact h.founded c old
    · exact placed.founded
  · intro c among running
    rcases List.mem_or_eq_of_mem_set among with old | rfl
    · exact h.unplaced c old running
    · exact nomatch placed.closed.symm.trans running
  · intro c among o pending
    rcases List.mem_or_eq_of_mem_set among with old | rfl
    · exact (adds.older (h.pending c old o pending)).2
    · cases placed.pending.symm.trans pending
      rw [key]
      exact adds.new
  · intro o among
    obtain ⟨requested, asked⟩ := h.cancels o among
    exact ⟨requested, (adds.older asked).2⟩
  · intro j id' held
    rcases heldAt_set_some here held with ⟨_, same⟩ | ⟨_, old⟩
    · cases same
      exact ⟨order.request, adds.new⟩
    · obtain ⟨q, asked⟩ := h.placed j id' old
      exact ⟨q, (adds.older asked).2⟩
  · refine h.apart.set here ?_
    intro id' same
    cases same
    refine .inr fun j id' held => ?_
    obtain ⟨q, asked⟩ := h.placed j id' held
    exact (adds.older asked).1
  · intro id' q asked
    rcases adds.new_or_older asked with ⟨rfl, rfl⟩ | before
    · exact ⟨placed.drawn, i, _, self, rfl, placed.justified⟩
    · obtain ⟨own, j, c, at_, order, justified⟩ := h.origin id' q before
      exact ⟨own, j, c, kept at_ order, order, justified⟩
  · intro id' w held
    by_cases same : id' = id
    · rw [same, placed.attributed] at held
      cases held
      exact ⟨i, _, self, congrArg some same.symm, rfl⟩
    · rw [placed.others id' same] at held
      obtain ⟨j, c, at_, order, own⟩ := h.attributed id' w held
      exact ⟨j, c, kept at_ order, order, own⟩

/-- A stored order is written back with the request it has. -/
theorem rewritten (h : Origins cfg seen s) {id : OrderId} {o : Order} {app : AppState} (o' : Order)
    (held : s.app.orders.get id = some o) (same : o'.request = o.request)
    (orders : app.orders.orders = s.app.orders.orders.insert o.id o')
    (attribution : app.portfolio.orderWallet = s.app.portfolio.orderWallet) :
    s.app.request o.id = some o.request ∧ s.app.SameRequests app := by
  have asked : s.app.request id = some o.request := by
    unfold AppState.request
    rw [held]
    rfl
  have key : o.id = id := (h.origin _ _ asked).1
  rw [← key] at asked
  exact ⟨asked, .insert asked same orders attribution⟩

theorem advanced (h : Origins cfg seen s) (here : seen s) {i : Nat} {env : CallEnv}
    (fresh : s.app.orders.get env.orderId = none) (taken : s.advance cfg i env = some s') :
    Origins cfg seen s' := by
  unfold OriginRun.advance at taken
  split at taken
  next => cases taken
  next call at_ =>
    obtain ⟨⟨app, next⟩, advanced, eq⟩ := Option.map_eq_some_iff.mp taken
    cases eq
    have founded := h.founded call (List.mem_of_getElem? at_)
    rcases AppState.advance_origin advanced founded here rfl with onward | ⟨open_, order, placed⟩
    · simp only [onward.idle, Option.map_none, Option.none_or]
      exact h.moved at_ onward.same.sameRequests onward.founded onward.open_ onward.idle
    · have key : order.id = env.orderId := placed.drawn
      simp only [placed.pending, Option.map_some, Option.some_or, key]
      exact h.places at_ open_ fresh placed

theorem answered (h : Origins cfg seen s) {i : Nat}
    {response : Except ExecutionError Acknowledgement} {now : DateTime}
    (taken : s.answer i response now = some s') : Origins cfg seen s' := by
  unfold OriginRun.answer at taken
  split at taken
  next => cases taken
  next call at_ =>
    split at taken
    next signal order submitting =>
      cases taken
      obtain ⟨idle, _, orders⟩ := s.app.answer_spec signal order response now
      obtain ⟨portfolio, _, _⟩ := s.app.answer_fills signal order response now
      have asked := h.pending call (List.mem_of_getElem? at_) order (by rw [submitting]; rfl)
      have same : s.app.SameRequests (s.app.answer signal order response now).1 :=
        .insert asked (order.answered_request response now) orders
          (congrArg Portfolio.orderWallet portfolio)
      have closed : (s.app.answer signal order response now).2.isOpen = false ∧
          (s.app.answer signal order response now).2.Founded cfg seen call.trade := by
        unfold AppState.answer
        split
        next => exact ⟨rfl, trivial⟩
        next => exact ⟨rfl, trivial⟩
      exact h.moved at_ same closed.2 (fun open_ => nomatch closed.1.symm.trans open_) idle
    next => cases taken

theorem cancelBegun (h : Origins cfg seen s) {id : OrderId} {now : DateTime} {o : Order}
    {om : OrderManager} (begun : s.app.orders.cancelBegin id now = .ok (o, om)) :
    Origins cfg seen
      { s with app := { s.app with orders := om }, cancels := s.cancels ++ [o] } := by
  obtain ⟨before, held, _, rfl, rfl⟩ := OrderManager.cancelBegin_ok begun
  have written := s.app.orders.store_orders
    { before with state := .cancelRequested, updatedAt := now }
  have rewritten : s.app.request before.id = some before.request ∧ s.app.SameRequests { s.app with
      orders := s.app.orders.store { before with state := .cancelRequested, updatedAt := now } } :=
    h.rewritten { before with state := .cancelRequested, updatedAt := now } held rfl written rfl
  obtain ⟨asked, same⟩ := rewritten
  refine h.elsewhere same ?_
  intro c among
  rcases List.mem_append.mp among with old | new
  · exact h.cancels c old
  · rw [List.mem_singleton.mp new]
    exact ⟨rfl, asked⟩

theorem cancelFinished (h : Origins cfg seen s) {i : Nat} {o : Order}
    (waiting : s.cancels[i]? = some o) (response : Except ExecutionError Unit) (now : DateTime) :
    Origins cfg seen { s with
      app := { s.app with orders := (s.app.orders.cancelFinish o response now).2 }
      cancels := s.cancels.eraseIdx i } := by
  obtain ⟨requested, asked⟩ := h.cancels o (List.mem_of_getElem? waiting)
  refine h.elsewhere ?_ fun c among => h.cancels c (List.mem_of_mem_eraseIdx among)
  rcases s.app.orders.cancelFinish_orders requested response now with ⟨_, orders⟩ | ⟨_, same⟩
  · exact .insert (o := { o with state := .cancelled, updatedAt := now }) asked rfl orders rfl
  · rw [same]
    exact ⟨fun _ => rfl, fun _ _ => id⟩

theorem step (h : Origins cfg seen s) (here : seen s) {e : OriginEvent} (proper : s.Proper e)
    (taken : s.step cfg e = some s') : Origins cfg seen s' := by
  cases e with
  | handed executed trade =>
    cases taken
    exact h.handed executed trade
  | advance i env => exact h.advanced here proper taken
  | answer i response now => exact h.answered taken
  | filled f =>
    simp only [OriginRun.step] at taken
    split at taken
    next => cases taken
    next om accepted =>
      cases taken
      obtain ⟨o, held, _, _, orders⟩ := OrderManager.applyExternalFill_ok accepted
      have rewritten : s.app.request o.id = some o.request ∧ s.app.SameRequests
          { s.app with orders := om, portfolio := (s.app.portfolio.applyFill f "").2 } :=
        h.rewritten (o.withFill f) held (o.withFill_request f) orders rfl
      exact h.elsewhere rewritten.2 h.cancels
  | cancelBegin id now =>
    simp only [OriginRun.step] at taken
    split at taken
    next => cases taken
    next o om begun =>
      cases taken
      exact h.cancelBegun begun
  | cancelFinish i response now =>
    obtain ⟨o, waiting, rfl⟩ := Option.map_eq_some_iff.mp taken
    exact h.cancelFinished waiting response now
  | elsewhere app =>
    cases taken
    obtain ⟨orders, attribution⟩ := proper
    refine h.elsewhere ⟨?_, ?_⟩ h.cancels
    · intro id
      unfold AppState.request OrderManager.get
      rw [orders]
    · intro id w held
      rcases attribution with same | forgotten
      · rw [same] at held
        exact held
      · rw [forgotten] at held
        cases held

end Origins

namespace OriginRun

variable {cfg : StrategyConfig} {app : AppState} {es : List OriginEvent} {s : OriginRun}

/-- A state that the run has come through, this one included. -/
def Seen (cfg : StrategyConfig) (app : AppState) (es : List OriginEvent) (t : OriginRun) : Prop :=
  ∃ es', es' <+: es ∧ Run (step cfg) Proper (start app) es' t

/-- A call stays with its trade. -/
theorem trades_set {i : Nat} {call : TradeCall} (here : s.calls[i]? = some call) (stage : Stage)
    (order : Option OrderId) :
    (s.calls.set i ⟨call.trade, stage, order⟩).map TradeCall.trade =
      s.calls.map TradeCall.trade := by
  obtain ⟨inside, at_⟩ := List.getElem?_eq_some_iff.mp here
  have within : i < (s.calls.map TradeCall.trade).length := by rwa [List.length_map]
  have same : (s.calls.map TradeCall.trade)[i] = call.trade := by
    rw [List.getElem_map, at_]
  rw [List.map_set, ← same, List.set_getElem_self]

theorem step_trades {s' : OriginRun} {e : OriginEvent} (taken : s.step cfg e = some s') :
    s'.calls.map TradeCall.trade = s.calls.map TradeCall.trade ++ handedIn [e] := by
  cases e with
  | handed executed trade =>
    cases taken
    exact List.map_append
  | advance i env =>
    simp only [step, advance] at taken
    split at taken
    next => cases taken
    next call here =>
      obtain ⟨_, _, eq⟩ := Option.map_eq_some_iff.mp taken
      cases eq
      exact (trades_set here _ _).trans (List.append_nil _).symm
  | answer i response now =>
    simp only [step, answer] at taken
    split at taken
    next => cases taken
    next call here =>
      split at taken
      next =>
        cases taken
        exact (trades_set here _ _).trans (List.append_nil _).symm
      next => cases taken
  | filled f =>
    simp only [step] at taken
    split at taken
    next => cases taken
    next => cases taken; exact (List.append_nil _).symm
  | cancelBegin id now =>
    simp only [step] at taken
    split at taken
    next => cases taken
    next => cases taken; exact (List.append_nil _).symm
  | cancelFinish i response now =>
    obtain ⟨_, _, rfl⟩ := Option.map_eq_some_iff.mp taken
    exact (List.append_nil _).symm
  | elsewhere app =>
    cases taken
    exact (List.append_nil _).symm

theorem run_origins (booted : app.orders.orders = ∅) (unattributed : app.portfolio.orderWallet = ∅)
    (run : Run (step cfg) Proper (start app) es s) :
    Origins cfg (Seen cfg app es) s ∧ s.calls.map TradeCall.trade = handedIn es := by
  induction run with
  | nil => exact ⟨.start booted unattributed, rfl⟩
  | snoc before proper taken ih =>
    obtain ⟨origins, trades⟩ := ih
    refine ⟨?_, ?_⟩
    · have here := origins.step ⟨_, List.prefix_rfl, before⟩ proper taken
      refine here.mono ?_
      rintro t ⟨es', earlier, reached⟩
      exact ⟨es', earlier.trans (List.prefix_append _ _), reached⟩
    · rw [step_trades taken, trades]
      unfold handedIn
      rw [List.filterMap_append]

/-- No order without a source trade: whatever goes on at once, each order answers one trade that was
handed in, and no other order answers it. It asks for that trade's token, on its side, as the
strategy made it of a wallet that was tracked, and as the risk engine approved it; its profits are
never counted for another wallet. -/
theorem orders_copy_trades (booted : app.orders.orders = ∅)
    (unattributed : app.portfolio.orderWallet = ∅)
    (run : Run (step cfg) Proper (start app) es s) {id : OrderId} {o : Order}
    (placed : s.app.orders.get id = some o) :
    ∃ (i : Nat) (trade : SourceTrade), (handedIn es)[i]? = some trade ∧
      (∀ j, heldAt TradeCall.order s.calls j = some id ↔ j = i) ∧
      o.request.marketId = trade.marketId ∧ o.request.tokenId = trade.tokenId ∧
      o.request.side = trade.side ∧ o.request.correlationId = trade.correlationId ∧
      o.request.referencePrice = trade.price ∧
      Justified cfg (Seen cfg app es) trade o.request ∧
      ∀ w, s.app.portfolio.orderWallet.lookup id = some w → w = trade.trader := by
  obtain ⟨origins, trades⟩ := run_origins booted unattributed run
  have asked : s.app.request id = some o.request := by
    unfold AppState.request
    rw [placed]
    rfl
  obtain ⟨_, i, call, here, places, justified⟩ := origins.origin id o.request asked
  have held : heldAt TradeCall.order s.calls i = some id := (heldAt_of_get here).trans places
  have handed : (handedIn es)[i]? = some call.trade := by
    rw [← trades, List.getElem?_map, here]
    rfl
  have only : ∀ j, heldAt TradeCall.order s.calls j = some id ↔ j = i := by
    intro j
    constructor
    · intro held'
      exact origins.apart j i id id held' held rfl
    · rintro rfl
      exact held
  obtain ⟨wallet, book, signal, now, tracked, ⟨t, signalId, at_, before, made⟩, asks, approved⟩ :=
    justified
  obtain ⟨_, _, _, _, _, _, _, rfl⟩ := CopyTrader.onSourceTrade_ok made
  refine ⟨i, call.trade, handed, only, ?_, ?_, ?_, ?_, ?_, ?_, ?_⟩
  · rw [asks]
    rfl
  · rw [asks]
    rfl
  · rw [asks]
    rfl
  · rw [asks]
    rfl
  · rw [asks]
    rfl
  · exact ⟨wallet, book, _, now, tracked, ⟨t, signalId, at_, before, made⟩, asks, approved⟩
  · intro w attributed
    obtain ⟨j, c, at', order, rfl⟩ := origins.attributed id w attributed
    cases (only j).mp ((heldAt_of_get at').trans order)
    rw [here] at at'
    cases at'
    rfl

/-- A trade is copied while its wallet is dropped from the registry. -/
def droppedMeanwhile : List OriginEvent :=
  [.handed true .sample, .advance 0 .sample, .elsewhere { AppState.sample with tracker := .new [] },
    .advance 0 .sample, .advance 0 .sample]

theorem orders_copy_trades_droppedMeanwhile : ∃ s o,
    Run (step .default) Proper (start .sample) droppedMeanwhile s ∧
      s.app.orders.get ⟨0⟩ = some o ∧ ∃ trade ∈ handedIn droppedMeanwhile,
        Justified .default (Seen .default .sample droppedMeanwhile) trade o.request := by
  have ran : (droppedMeanwhile.foldlM (fun s e => if Proper s e then step .default s e else none)
      (start .sample)).any (fun s => (s.app.orders.get ⟨0⟩).isSome) = true := by
    decide +kernel
  obtain ⟨s, executed, some_⟩ := (Option.any_eq_true _ _).mp ran
  obtain ⟨o, placed⟩ := Option.isSome_iff_exists.mp some_
  have run := run_of_foldlM executed
  obtain ⟨i, trade, handed, _, _, _, _, _, _, justified, _⟩ := orders_copy_trades rfl rfl run placed
  exact ⟨s, o, run, placed, trade, List.mem_of_getElem? handed, justified⟩

end OriginRun

end CopyTrading
