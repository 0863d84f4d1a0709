import CopyTrading.AcceptedFills
import CopyTrading.OrdersInFlight

namespace CopyTrading

open Holders StepRun

/-- The notional filled for the orders that are attributed to the wallet. -/
def AppState.filledFor (app : AppState) (w : Address) : Usd :=
  app.orders.orders.total fun o =>
    if app.portfolio.orderWallet.lookup o.id = some w then o.filledNotional else 0

def Stage.awaitedNotional (stage : Stage) : Usd := stage.pending.elim 0 fun o => o.request.notional

inductive CopyEvent
  | spawn (env : CallEnv) (trade : SourceTrade)
  | advance (i : Nat) (env : CallEnv)
  | answer (i : Nat) (response : Except ExecutionError Acknowledgement) (now : DateTime)

namespace FlightRun

def advance (cfg : StrategyConfig) (s : FlightRun) (i : Nat) (env : CallEnv) : Option FlightRun :=
  -- order ids are freshly drawn
  if (s.app.orders.get env.orderId).isSome then none
  else do
    let stage ← s.runs[i]?
    let (app, stage) ← s.app.advance cfg env stage
    some ⟨app, s.runs.set i stage⟩

/-- Calls of the pipeline, all of them for buys of one wallet. -/
def copyStep (cfg : StrategyConfig) (w : Address) (s : FlightRun) : CopyEvent → Option FlightRun
  | .spawn env trade =>
    if trade.trader = w ∧ trade.side = .buy then
      some ⟨s.app.recordSource env.executed trade, s.runs ++ [.inserted trade]⟩
    else none
  | .advance i env => s.advance cfg i env
  | .answer i response now => s.answer i response now

/-- The order that a step hands over, which is one that the risk engine approves. -/
def placing (s : FlightRun) : CopyEvent → Option OrderRequest
  | .advance i env =>
    match s.runs[i]? with
    | some (.signalled _ wallet signal book) =>
      let order := AppState.orderFor signal (AppState.tickOf book) env.orderId env.decidedAt
      if s.app.verdict order wallet book env.decidedAt = .approved then some order else none
    | _ => none
  | _ => none

/-- What is filled for the wallet, and what is with the adapter. -/
def takenFor (s : FlightRun) (w : Address) : Usd :=
  s.app.filledFor w + (s.runs.map Stage.awaitedNotional).sum

def AnswersProperly (s : FlightRun) : CopyEvent → Prop
  | .answer i response _ => s.ProperAnswer i response
  | _ => True

/-- An order is handed over only while it fits under the wallet's cap. -/
def FitsWallet (w : TargetWallet) (s : FlightRun) (e : CopyEvent) : Prop :=
  ∀ order ∈ s.placing e, s.takenFor w.address + order.notional ≤ w.maxExposureUsd

instance (s : FlightRun) : ∀ e, Decidable (s.AnswersProperly e)
  | .answer i response _ => inferInstanceAs (Decidable (s.ProperAnswer i response))
  | .spawn .. | .advance .. => isTrue trivial

instance (w : TargetWallet) (s : FlightRun) (e : CopyEvent) : Decidable (s.FitsWallet w e) := by
  unfold FitsWallet
  infer_instance

end FlightRun

/-- What a call has before it is for a buy of the wallet. -/
def Stage.Buys (w : Address) : Stage → Prop
  | .inserted trade | .fetching trade _ => trade.trader = w ∧ trade.side = .buy
  | .signalled _ _ signal _ => signal.targetWallet = w ∧ signal.side = .buy
  | _ => True

namespace AppState

variable {cfg : StrategyConfig} {app app' : AppState} {w : Address} {trade : SourceTrade}
  {wallet : TargetWallet} {book : Option OrderBook} {env : CallEnv}

/-- Orders and attributions are as they were. -/
structure SameOrders (app app' : AppState) : Prop where
  orders : app'.orders.orders = app.orders.orders
  attributed : app'.portfolio.orderWallet = app.portfolio.orderWallet

theorem SameView.sameOrders (h : SameView app app') : SameOrders app app' :=
  ⟨h.orders, congrArg Portfolio.orderWallet h.portfolio⟩

theorem SameOrders.trans {app'' : AppState} (h : SameOrders app app') (h' : SameOrders app' app'') :
    SameOrders app app'' :=
  ⟨h'.orders.trans h.orders, h'.attributed.trans h.attributed⟩

theorem toSignal_copies (cfg : StrategyConfig) (app : AppState) (wallet : TargetWallet)
    (book : Option OrderBook) (env : CallEnv) (trader : trade.trader = w)
    (buy : trade.side = .buy) : SameOrders app (app.toSignal cfg trade wallet book env).1 ∧
      (app.toSignal cfg trade wallet book env).2.pending = none ∧
      (app.toSignal cfg trade wallet book env).2.Buys w := by
  have view := priced_sameView cfg app trade wallet book env.signalId env.pricedAt
  unfold toSignal
  split
  next app₁ signal eq =>
    rw [eq] at view
    refine ⟨view.sameOrders, rfl, ?_⟩
    unfold priced at eq
    split at eq
    next ok =>
      cases eq
      obtain ⟨target, side, _⟩ := CopyTrader.onSourceTrade_ok_copies ok
      exact ⟨target.trans trader, side.trans buy⟩
    next => cases eq
  next eq =>
    rw [eq] at view
    exact ⟨view.sameOrders, rfl, trivial⟩

/-- Up to its signal, and after the adapter's answer, a call leaves the orders alone. -/
theorem advance_sameOrders {stage stage' : Stage}
    (h : app.advance cfg env stage = some (app', stage')) (buys : stage.Buys w)
    (early : ∀ trade wallet signal book, stage ≠ .signalled trade wallet signal book) :
    SameOrders app app' ∧ stage.pending = none ∧ stage'.pending = none ∧ stage'.Buys w := by
  cases stage with
  | inserted trade =>
    have view := (app.emit_sameView (.sourceTradeDetected trade)).sameOrders
    simp only [advance, received] at h
    split at h
    next eq =>
      obtain ⟨rfl, _⟩ := Prod.mk.inj eq
      cases h
      exact ⟨view, rfl, rfl, trivial⟩
    next app₁ wallet eq =>
      obtain ⟨rfl, _⟩ := Prod.mk.inj eq
      split at h
      next b _ =>
        obtain ⟨same, idle, onward⟩ := toSignal_copies cfg
          (app.emit (.sourceTradeDetected trade)) wallet (some b) env buys.1 buys.2
        rw [Option.some.inj h] at same idle onward
        exact ⟨view.trans same, rfl, idle, onward⟩
      next => cases h; exact ⟨view, rfl, rfl, buys⟩
  | fetching trade wallet =>
    obtain ⟨same, idle, onward⟩ := toSignal_copies cfg (app.fetchedBook env.fetched) wallet
      env.fetched env buys.1 buys.2
    rw [Option.some.inj h] at same idle onward
    exact ⟨(app.fetchedBook_sameView env.fetched).sameOrders.trans same, rfl, idle, onward⟩
  | signalled trade wallet signal book => exact absurd rfl (early trade wallet signal book)
  | refused signal r =>
    cases h
    have same : SameOrders app (app.refuse signal r env.concludedAt) := by
      unfold refuse
      split
      · exact ⟨rfl, rfl⟩
      · exact ⟨rfl, rfl⟩
    exact ⟨same, rfl, rfl, trivial⟩
  | submitting signal order => cases h
  | booking signal fills =>
    cases fills with
    | nil =>
      cases h
      obtain ⟨portfolio, orders, _⟩ := app.report_spec signal env.concludedAt
      exact ⟨⟨orders, congrArg Portfolio.orderWallet portfolio⟩, rfl, rfl, trivial⟩
    | cons f fs =>
      cases h
      exact ⟨⟨rfl, rfl⟩, rfl, rfl, trivial⟩
  | done => cases h

/-- What a decision hands over is unfilled and attributed to the signal's wallet. -/
theorem decide_spec {signal : CopySignal} {orderId : OrderId} {now : DateTime} {d : Decision}
    (h : app.decide trade wallet signal book orderId now = (app', d)) :
    (∀ id ≠ orderId, app'.portfolio.orderWallet.lookup id = app.portfolio.orderWallet.lookup id) ∧
      ∀ order, d = .submitting order →
        app'.portfolio.orderWallet.lookup orderId = some signal.targetWallet ∧
        order.filledQty = .zero ∧ order.filledNotional = 0 ∧ order.feesPaid = 0 := by
  unfold decide at h
  simp only at h
  split at h
  next =>
    cases h
    exact ⟨fun _ _ => rfl, fun _ ends => by cases ends⟩
  next =>
    obtain ⟨portfolio, _, unfilled⟩ := handOver_spec h
    rw [portfolio]
    constructor
    · intro id other
      exact AList.lookup_insert_ne other
    · intro order ends
      exact ⟨AList.lookup_insert _, unfilled order ends⟩

end AppState

/-- Every order is the wallet's own, and every call is about to place one or has done so. -/
structure CopyInv (w : Address) (s : FlightRun) : Prop where
  flying : InFlight s
  owned : ∀ id o, s.app.orders.get id = some o →
    o.id = id ∧ s.app.portfolio.orderWallet.lookup id = some w
  stages : ∀ stage ∈ s.runs, stage.Buys w

theorem CopyInv.start {app : AppState} (empty : app.orders.orders = ∅) (w : Address) :
    CopyInv w (.start app) := by
  refine ⟨.start app, ?_, ?_⟩
  · intro id o stored
    unfold FlightRun.start OrderManager.get at stored
    simp only at stored
    rw [empty] at stored
    cases stored
  · intro stage mem
    cases mem

theorem CopyInv.filledFor_eq {w : Address} {s : FlightRun} (h : CopyInv w s) :
    s.app.filledFor w = s.app.orders.orders.total Order.filledNotional := by
  unfold AppState.filledFor AList.total
  congr 1
  refine List.map_congr_left ?_
  intro o mem
  obtain ⟨id, stored⟩ := AList.mem_values.mp mem
  obtain ⟨key, mine⟩ := h.owned id o stored
  rw [key, if_pos mine]

section Step

variable {cfg : StrategyConfig} {w : Address} {s s' : FlightRun} {i : Nat}

/-- A call moves on, and every order keeps its figures and its wallet. -/
theorem CopyInv.quiet (h : CopyInv w s) {old new : Stage} {app : AppState}
    (here : s.runs[i]? = some old) (idle : old.pending = none) (idle' : new.pending = none)
    (onward : new.Buys w) (orders : app.orders.orders = s.app.orders.orders)
    (attributed : ∀ id o, s.app.orders.get id = some o →
      app.portfolio.orderWallet.lookup id = s.app.portfolio.orderWallet.lookup id) :
    CopyInv w ⟨app, s.runs.set i new⟩ ∧
      FlightRun.takenFor ⟨app, s.runs.set i new⟩ w = s.takenFor w := by
  have inv : CopyInv w ⟨app, s.runs.set i new⟩ := by
    refine ⟨h.flying.quiet orders (fun _ _ later => (heldAt_set_idle here idle' later).2),
      ?_, ?_⟩
    · intro id o stored
      unfold OrderManager.get at stored
      simp only at stored ⊢
      rw [orders] at stored
      rw [attributed id o stored]
      exact h.owned id o stored
    · intro stage mem
      rcases List.mem_or_eq_of_mem_set mem with before | rfl
      · exact h.stages stage before
      · exact onward
  refine ⟨inv, ?_⟩
  have nothing : old.awaitedNotional = 0 ∧ new.awaitedNotional = 0 := by
    unfold Stage.awaitedNotional
    rw [idle, idle']
    exact ⟨rfl, rfl⟩
  unfold FlightRun.takenFor
  rw [inv.filledFor_eq, h.filledFor_eq, sum_set_stage here, nothing.1, nothing.2]
  simp only
  rw [orders]
  ring

/-- An order goes to the adapter with all of its notional. -/
theorem CopyInv.submit (h : CopyInv w s) {app : AppState} {signal : CopySignal} {sent : Order}
    {old : Stage} (here : s.runs[i]? = some old) (idle : old.pending = none) (buy : sent.SentBuy)
    (fresh : s.app.orders.get sent.id = none)
    (orders : app.orders.orders = s.app.orders.orders.insert sent.id sent)
    (mine : app.portfolio.orderWallet.lookup sent.id = some w)
    (others : ∀ id ≠ sent.id,
      app.portfolio.orderWallet.lookup id = s.app.portfolio.orderWallet.lookup id) :
    CopyInv w ⟨app, s.runs.set i (.submitting signal sent)⟩ ∧
      FlightRun.takenFor ⟨app, s.runs.set i (.submitting signal sent)⟩ w =
        s.takenFor w + sent.request.notional := by
  have get_ := OrderManager.get_insert orders
  have waits : ∀ j o, heldAt Stage.pending (s.runs.set i (.submitting signal sent)) j = some o →
      j = i ∧ o = sent ∨ heldAt Stage.pending s.runs j = some o := by
    intro j o waiting
    rw [heldAt_set here] at waiting
    split at waiting
    next same =>
      cases waiting
      exact .inl ⟨same.symm, rfl⟩
    next => exact .inr waiting
  have inv : CopyInv w ⟨app, s.runs.set i (.submitting signal sent)⟩ := by
    refine ⟨h.flying.submit buy fresh orders waits, ?_, ?_⟩
    · intro id o stored
      rw [get_] at stored
      split at stored
      next same =>
        cases stored
        rw [same]
        exact ⟨rfl, mine⟩
      next other =>
        simp only
        rw [others id other]
        exact h.owned id o stored
    · intro stage mem
      rcases List.mem_or_eq_of_mem_set mem with before | rfl
      · exact h.stages stage before
      · trivial
  refine ⟨inv, ?_⟩
  have total := AList.total_eq_lookup_add_erase Order.filledNotional s.app.orders.orders sent.id
  have absent : s.app.orders.orders.lookup sent.id = none := fresh
  have nothing : old.awaitedNotional = 0 := by
    unfold Stage.awaitedNotional
    rw [idle]
    rfl
  have awaited : Stage.awaitedNotional (.submitting signal sent) = sent.request.notional := rfl
  unfold FlightRun.takenFor
  rw [inv.filledFor_eq, h.filledFor_eq, sum_set_stage here, nothing, awaited]
  simp only
  rw [orders, AList.total_insert_eq, total, absent, Option.elim_none, buy.costless]
  ring

/-- The decision about a signal takes from the cap exactly what it hands over. -/
theorem CopyInv.decided (h : CopyInv w s) {env : CallEnv} {trade : SourceTrade}
    {wallet : TargetWallet} {signal : CopySignal} {book : Option OrderBook} {new : Stage}
    {app : AppState} (fresh : s.app.orders.get env.orderId = none)
    (here : s.runs[i]? = some (.signalled trade wallet signal book))
    (advanced : s.app.advance cfg env (.signalled trade wallet signal book) = some (app, new)) :
    CopyInv w ⟨app, s.runs.set i new⟩ ∧ FlightRun.takenFor ⟨app, s.runs.set i new⟩ w =
      s.takenFor w + (s.placing (.advance i env)).elim 0 OrderRequest.notional := by
  obtain ⟨target, side⟩ := h.stages _ (List.mem_of_getElem? here)
  have cases_ := s.app.decide_cases trade wallet signal book env.orderId env.decidedAt
  have other : ∀ id o, s.app.orders.get id = some o → id ≠ env.orderId := by
    rintro id o stored rfl
    rw [fresh] at stored
    cases stored
  cases eq : s.app.decide trade wallet signal book env.orderId env.decidedAt with
  | mk app₁ d =>
    obtain ⟨others, sent_⟩ := AppState.decide_spec eq
    simp only [AppState.advance, eq] at advanced
    simp only [eq] at cases_
    rcases cases_ with ⟨r, rejected, rfl, view⟩ |
      ⟨approved, ⟨empty, rfl, orders, _⟩ | ⟨order, rfl, handed⟩⟩
    · cases advanced
      have none_ : s.placing (.advance i env) = none := by
        simp only [FlightRun.placing, here, rejected]
        rfl
      rw [none_, Option.elim_none, add_zero]
      exact h.quiet here rfl rfl trivial view.orders fun id o stored => others id (other id o stored)
    · cases advanced
      have some_ : s.placing (.advance i env) = some
          (AppState.orderFor signal (AppState.tickOf book) env.orderId env.decidedAt) := by
        simp only [FlightRun.placing, here, approved, if_pos]
      have zero : OrderRequest.notional
          (AppState.orderFor signal (AppState.tickOf book) env.orderId env.decidedAt) = 0 :=
        OrderRequest.notional_of_isZero empty
      rw [some_, Option.elim_some, zero, add_zero]
      exact h.quiet here rfl rfl trivial orders fun id o stored => others id (other id o stored)
    · cases advanced
      have some_ : s.placing (.advance i env) = some order.request := by
        simp only [FlightRun.placing, here, approved, if_pos]
        rw [handed.request]
      obtain ⟨mine, unfilled, costless, unpaid⟩ := sent_ order rfl
      have key : order.id = env.orderId := congrArg OrderRequest.orderId handed.request
      have buy : order.SentBuy :=
        ⟨handed.state, by rw [handed.request]; exact side, unfilled, costless, unpaid⟩
      rw [some_, Option.elim_some]
      refine h.submit here rfl buy (by rw [key]; exact fresh) ?_ ?_ ?_
      · rw [key]
        exact handed.orders
      · rw [key, mine, target]
      · rw [key]
        exact others

theorem FlightRun.advance_spec (h : CopyInv w s) {env : CallEnv}
    (taken : s.advance cfg i env = some s') :
    CopyInv w s' ∧ s'.takenFor w =
      s.takenFor w + (s.placing (.advance i env)).elim 0 OrderRequest.notional := by
  unfold advance at taken
  split at taken
  next => cases taken
  next absent =>
    obtain ⟨old, here, taken⟩ := Option.bind_eq_some_iff.mp taken
    obtain ⟨⟨app, new⟩, advanced, taken⟩ := Option.bind_eq_some_iff.mp taken
    cases taken
    by_cases early : ∀ trade wallet signal book, old ≠ .signalled trade wallet signal book
    · have none_ : s.placing (.advance i env) = none := by
        simp only [placing, here]
        split
        next same => exact absurd (Option.some.inj same) (early _ _ _ _)
        next => rfl
      obtain ⟨same, idle, idle', onward⟩ := AppState.advance_sameOrders advanced
        (h.stages old (List.mem_of_getElem? here)) early
      rw [none_, Option.elim_none, add_zero]
      exact h.quiet here idle idle' onward same.orders fun _ _ _ => by rw [same.attributed]
    · push Not at early
      obtain ⟨trade, wallet, signal, book, rfl⟩ := early
      exact h.decided (by simpa using absent) here advanced

/-- An answer fills as much as its fills cost, which is at most what was with the adapter. -/
theorem Order.SentBuy.answered_filledNotional {o : Order} (h : o.SentBuy)
    (response : Except ExecutionError Acknowledgement) (now : DateTime) :
    (o.answered response now).filledNotional =
      ((o.appliedFills response now).map Fill.notional).sum := by
  have none_ : o.Counts [] o.id := by
    refine ⟨?_, h.costless, h.unpaid⟩
    rw [h.unfilled]
    rfl
  have counted := (none_.answered response now).notional
  rw [acceptedTotal_append, if_pos rfl] at counted
  rw [counted]
  exact zero_add _

theorem Order.SentBuy.answered_le {o : Order} (h : o.SentBuy)
    (response : Except ExecutionError Acknowledgement) (now : DateTime)
    (proper : ∀ ack, response = .ok ack → ∀ f ∈ ack.immediateFills, o.request.MayFill f) :
    (o.answered response now).filledNotional ≤ o.request.notional := by
  obtain ⟨cost, _⟩ := h.answered_unfilledIn .all response now proper
  have rest : 0 ≤ (o.answered response now).unfilledIn .all := by
    unfold unfilledIn
    split
    · exact Order.remainderIn_nonneg _ _
    · exact le_rfl
  have whole : o.unfilledIn .all = o.request.notional := by
    unfold unfilledIn remainderIn
    rw [h.state, h.remaining]
    rfl
  have fills : ((o.appliedFills response now).map (Fill.notionalIn .all)).sum =
      (o.answered response now).filledNotional := by
    rw [h.answered_filledNotional]
    rfl
  rw [fills, whole] at cost
  linarith

theorem FlightRun.answer_filled (h : CopyInv w s) {response : Except ExecutionError Acknowledgement}
    {now : DateTime} (taken : s.answer i response now = some s') :
    CopyInv w s' ∧ ∃ order, heldAt Stage.pending s.runs i = some order ∧ order.SentBuy ∧
      s'.takenFor w = s.takenFor w - order.request.notional +
        (order.answered response now).filledNotional ∧
      ∃ new : Stage, new.pending = none ∧ s'.runs = s.runs.set i new := by
  unfold answer at taken
  split at taken
  next signal order here =>
    obtain ⟨idle, _, orders⟩ := s.app.answer_spec signal order response now
    obtain ⟨portfolio, _, _⟩ := s.app.answer_fills signal order response now
    have onward : (s.app.answer signal order response now).2.Buys w := by
      unfold AppState.answer
      split
      · trivial
      · trivial
    have waiting : heldAt Stage.pending s.runs i = some order := heldAt_of_get here
    obtain ⟨stored, sent⟩ := h.flying.pending i order waiting
    generalize s.app.answer signal order response now = answered_ at *
    obtain ⟨app, new⟩ := answered_
    cases taken
    simp only at idle orders portfolio onward
    have get_ := OrderManager.get_insert orders
    have inv : CopyInv w ⟨app, s.runs.set i new⟩ := by
      refine ⟨h.flying.answered here rfl idle orders, ?_, ?_⟩
      · intro id o held
        simp only at held ⊢
        rw [portfolio]
        rw [get_] at held
        split at held
        next same =>
          cases held
          rw [same]
          exact ⟨order.answered_id response now, (h.owned order.id order stored).2⟩
        next => exact h.owned id o held
      · intro stage mem
        rcases List.mem_or_eq_of_mem_set mem with before | rfl
        · exact h.stages stage before
        · exact onward
    refine ⟨inv, order, waiting, sent, ?_, new, idle, rfl⟩
    have total := AList.total_insert_of_lookup (f := Order.filledNotional)
      (order.answered response now) stored
    have nothing : new.awaitedNotional = 0 := by
      unfold Stage.awaitedNotional
      rw [idle]
      rfl
    have awaited : Stage.awaitedNotional (.submitting signal order) = order.request.notional := rfl
    unfold takenFor
    rw [inv.filledFor_eq, h.filledFor_eq, sum_set_stage here, nothing, awaited]
    simp only
    rw [orders]
    rw [sent.costless] at total
    linarith
  next => cases taken

theorem CopyInv.spawned (h : CopyInv w s) (env : CallEnv) {trade : SourceTrade}
    (trader : trade.trader = w) (buy : trade.side = .buy) :
    CopyInv w ⟨s.app.recordSource env.executed trade, s.runs ++ [.inserted trade]⟩ ∧
      FlightRun.takenFor ⟨s.app.recordSource env.executed trade, s.runs ++ [.inserted trade]⟩ w =
        s.takenFor w := by
  refine ⟨⟨h.flying.quiet rfl ?_, h.owned, ?_⟩, ?_⟩
  · intro j o waiting
    rw [heldAt_concat_idle rfl] at waiting
    exact waiting
  · intro stage mem
    rcases List.mem_append.mp mem with before | new
    · exact h.stages stage before
    · rw [List.mem_singleton.mp new]
      exact ⟨trader, buy⟩
  · unfold FlightRun.takenFor
    rw [List.map_append, List.sum_append, List.map_singleton, List.sum_singleton,
      show Stage.awaitedNotional (.inserted trade) = 0 from rfl, add_zero]
    rfl

/-- What one step takes from the cap: no more than the order it hands over. -/
theorem CopyInv.step {e : CopyEvent} (h : CopyInv w s) (proper : s.AnswersProperly e)
    (taken : s.copyStep cfg w e = some s') : CopyInv w s' ∧
      s'.takenFor w ≤ s.takenFor w + (s.placing e).elim 0 OrderRequest.notional := by
  cases e with
  | spawn env trade =>
    simp only [FlightRun.copyStep] at taken
    split at taken
    next asked =>
      cases taken
      obtain ⟨inv, same⟩ := h.spawned env asked.1 asked.2
      refine ⟨inv, le_of_eq ?_⟩
      rw [same]
      exact (add_zero _).symm
    next => cases taken
  | advance i env =>
    obtain ⟨inv, same⟩ := FlightRun.advance_spec h taken
    exact ⟨inv, le_of_eq same⟩
  | answer i response now =>
    obtain ⟨inv, order, waiting, sent, same, _⟩ := FlightRun.answer_filled h taken
    have cost := sent.answered_le response now (by
      rintro ack rfl
      exact proper order waiting)
    refine ⟨inv, ?_⟩
    show s'.takenFor w ≤ s.takenFor w + 0
    linarith

end Step

theorem FlightRun.filledFor_le {w : Address} (s : FlightRun) : s.app.filledFor w ≤ s.takenFor w := by
  refine le_add_of_nonneg_right (List.sum_nonneg ?_)
  intro x mem
  obtain ⟨stage, _, rfl⟩ := List.mem_map.mp mem
  unfold Stage.awaitedNotional
  cases stage.pending with
  | none => exact le_rfl
  | some o => exact mul_nonneg o.request.quantity.nonneg o.request.limitPrice.pos.le

/-- A wallet's cap holds for all that its buys have filled, in every run that hands an order over
only while it fits under the cap. -/
theorem wallet_exposure_capped {cfg : StrategyConfig} {w : TargetWallet} {app : AppState}
    {es : List CopyEvent} {s : FlightRun} (empty : app.orders.orders = ∅)
    (cap : 0 ≤ w.maxExposureUsd)
    (run : Run (FlightRun.copyStep cfg w.address)
      (fun s e => s.AnswersProperly e ∧ s.FitsWallet w e) (.start app) es s) :
    s.app.filledFor w.address ≤ w.maxExposureUsd := by
  have start : (FlightRun.start app).takenFor w.address ≤ w.maxExposureUsd := by
    unfold FlightRun.takenFor
    rw [(CopyInv.start empty w.address).filledFor_eq]
    unfold FlightRun.start
    simp only
    rw [empty]
    show (0 : Usd) + 0 ≤ _
    rw [add_zero]
    exact cap
  have held := run.keeps
    (I := fun t => CopyInv w.address t ∧ t.takenFor w.address ≤ w.maxExposureUsd)
    (by
      rintro t e u ⟨inv, fits⟩ ⟨proper, room⟩ taken
      obtain ⟨inv', more⟩ := inv.step proper taken
      refine ⟨inv', more.trans ?_⟩
      cases placed : t.placing e with
      | none =>
        rw [Option.elim_none, add_zero]
        exact fits
      | some order => exact room order placed)
    ⟨.start empty w.address, start⟩
  exact s.filledFor_le.trans held.2

/-- The adapter fills all that it was handed, at the limit. -/
def Order.filledInFull (o : Order) : Except ExecutionError Acknowledgement :=
  .ok ⟨o.id, none, 0, [o.request.fullFill o.request.limitPrice], true⟩

theorem Order.SentBuy.answered_full {o : Order} (h : o.SentBuy) (now : DateTime) :
    (o.answered o.filledInFull now).filledNotional = o.request.notional := by
  have fits : (o.request.fullFill o.request.limitPrice).quantity.get ≤
      (o.acked ⟨o.id, none, 0, [o.request.fullFill o.request.limitPrice], true⟩ now).remaining.get := by
    show o.request.quantity.get ≤ o.remaining.get
    rw [Order.remaining_of_unfilled h.unfilled]
  show (o.acknowledge _ now).1.filledNotional = _
  rw [acknowledge_eq h.state, List.foldl_cons, receiveFill_of now [] rfl fits]
  show (withFill _ _).filledNotional = _
  rw [withFill_filledNotional]
  show o.filledNotional + _ = _
  rw [h.costless]
  exact zero_add _

/-- From every state the adapter can fill all that it was handed. -/
theorem FlightRun.fill_out (cfg : StrategyConfig) {w : Address} {s : FlightRun} (h : CopyInv w s) :
    ∃ es t, Run (copyStep cfg w) AnswersProperly s es t ∧ t.app.filledFor w = s.takenFor w := by
  -- induction on the calls that await an answer
  generalize waiting : s.runs.countP (fun stage => stage.pending.isSome) = n
  induction n generalizing s with
  | zero =>
    refine ⟨[], s, .nil, ?_⟩
    have none_ : ∀ stage ∈ s.runs, stage.awaitedNotional = 0 := by
      intro stage mem
      have idle := List.countP_eq_zero.mp waiting stage mem
      unfold Stage.awaitedNotional
      cases pending : stage.pending with
      | none => rfl
      | some o => simp [pending] at idle
    unfold takenFor
    rw [List.map_congr_left none_]
    simp
  | succ n ih =>
    have positive : 0 < s.runs.countP (fun stage => stage.pending.isSome) := by omega
    obtain ⟨old, mem, some_⟩ := List.countP_pos_iff.mp positive
    obtain ⟨i, bound, eq⟩ := List.getElem_of_mem mem
    have here : s.runs[i]? = some old := by
      rw [List.getElem?_eq_getElem bound, eq]
    cases old with
    | submitting signal order =>
      have flying : heldAt Stage.pending s.runs i = some order := heldAt_of_get here
      have proper : s.ProperAnswer i order.filledInFull := by
        intro o waits f listed
        rw [flying] at waits
        cases waits
        rw [List.mem_singleton.mp listed]
        refine ⟨rfl, rfl, rfl, ?_⟩
        unfold OrderRequest.admits
        split
        · exact le_rfl
        · exact le_rfl
      obtain ⟨s', taken⟩ : ∃ s', s.answer i order.filledInFull 0 = some s' := by
        unfold answer
        rw [here]
        exact ⟨_, rfl⟩
      obtain ⟨inv, o, waits, sent, same, new, idle, runs⟩ := answer_filled h taken
      rw [flying] at waits
      cases waits
      have fewer : s'.runs.countP (fun stage => stage.pending.isSome) = n := by
        rw [runs, List.countP_set bound, waiting, eq, idle]
        rfl
      obtain ⟨es, t, run, filled⟩ := ih inv fewer
      have first : Run (copyStep cfg w) AnswersProperly s [.answer i order.filledInFull 0] s' :=
        Run.single proper taken
      refine ⟨_, t, first.append run, ?_⟩
      rw [filled, same, sent.answered_full]
      ring
    | inserted | fetching | signalled | refused | booking | done => cases some_

/-- An order handed over beyond the cap can be filled beyond it. -/
theorem cap_passed_of_not_fits {cfg : StrategyConfig} {w : TargetWallet} {s s' : FlightRun}
    {e : CopyEvent} (h : CopyInv w.address s) (taken : s.copyStep cfg w.address e = some s')
    (unfit : ¬s.FitsWallet w e) : ∃ es t,
      Run (FlightRun.copyStep cfg w.address) FlightRun.AnswersProperly s' es t ∧
      w.maxExposureUsd < t.app.filledFor w.address := by
  unfold FlightRun.FitsWallet at unfit
  push Not at unfit
  obtain ⟨order, placed, above⟩ := unfit
  cases e with
  | advance i env =>
    obtain ⟨inv, more⟩ := FlightRun.advance_spec h taken
    rw [show s.placing (.advance i env) = some order from placed, Option.elim_some] at more
    obtain ⟨es, t, run, filled⟩ := FlightRun.fill_out cfg inv
    refine ⟨es, t, run, ?_⟩
    rw [filled, more]
    exact above
  | spawn | answer => cases placed

/-- Every trade of the wallet is copied with sixty dollars, and the cap is a hundred. -/
def TargetWallet.sixty : TargetWallet :=
  { TargetWallet.new .zero "Target" with
    sizing := .fixedUsd 60
    maxExposureUsd := 100 }

def AppState.copyingSixty : AppState := { AppState.sample with tracker := .new [.sixty] }

/-- One of its trades, up to the answer, which is a full fill. -/
def filledCopy (k : Nat) : List CopyEvent :=
  let env := { CallEnv.sample with orderId := ⟨k⟩ }
  [.spawn env .sample, .advance k env, .advance k env, .advance k env,
    .answer k (.ok ⟨⟨k⟩, none, 0,
      [{ (OrderRequest.sample .ioc).fullFill .half with quantity := sharesAt 60 .half }], true⟩) 0]

theorem wallet_exposure_capped_filledCopy : ∃ s,
    Run (FlightRun.copyStep .default .zero)
      (fun s e => s.AnswersProperly e ∧ s.FitsWallet .sixty e) (.start .copyingSixty)
      (filledCopy 0) s ∧
    s.app.filledFor .zero = 60 ∧ s.app.filledFor .zero ≤ TargetWallet.sixty.maxExposureUsd := by
  have ran : ((filledCopy 0).foldlM (fun (s : FlightRun) e =>
      if s.AnswersProperly e ∧ s.FitsWallet .sixty e then s.copyStep .default .zero e else none)
      (.start .copyingSixty)).map (fun s => s.app.filledFor .zero) = some 60 := by
    decide +kernel
  obtain ⟨s, executed, filled⟩ := Option.map_eq_some_iff.mp ran
  have run : Run (FlightRun.copyStep .default .zero)
    (fun s e => s.AnswersProperly e ∧ s.FitsWallet .sixty e) (.start .copyingSixty)
    (filledCopy 0) s := run_of_foldlM executed
  have cap : 0 ≤ TargetWallet.sixty.maxExposureUsd := by
    decide +kernel
  exact ⟨s, run, filled, wallet_exposure_capped (w := .sixty) rfl cap run⟩

/-- The second copy takes the wallet's hundred dollars to a hundred and twenty. -/
theorem wallet_exposure_passed : ¬ ∀ (cfg : StrategyConfig) (w : TargetWallet) (app : AppState)
    (es : List CopyEvent) (s : FlightRun), app.tracker.getWallet w.address = some w →
    app.orders.orders = ∅ → 0 ≤ w.maxExposureUsd →
    Run (FlightRun.copyStep cfg w.address) FlightRun.AnswersProperly (.start app) es s →
    s.app.filledFor w.address ≤ w.maxExposureUsd := by
  intro all
  have ran : ((filledCopy 0 ++ filledCopy 1).foldlM (fun (s : FlightRun) e =>
      if s.AnswersProperly e then s.copyStep .default .zero e else none)
      (.start .copyingSixty)).any (fun s => 100 < s.app.filledFor .zero) = true := by
    decide +kernel
  obtain ⟨s, executed, passed⟩ := (Option.any_eq_true _ _).mp ran
  have run := run_of_foldlM executed
  have cap : 0 ≤ TargetWallet.sixty.maxExposureUsd := by
    decide +kernel
  have within := all .default .sixty .copyingSixty _ s rfl rfl cap run
  exact absurd within (not_le.mpr (of_decide_eq_true passed))

end CopyTrading
