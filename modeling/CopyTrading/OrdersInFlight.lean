import CopyTrading.ExposureLimits
import CopyTrading.KillSwitchInvariant

namespace CopyTrading

open Holders

/-- What a figure is about: one token, or all of them. -/
inductive Scope
  | token (t : TokenId)
  | all

def Scope.covers : Scope → TokenId → Bool
  | .token t, t' => t = t'
  | .all, _ => true

def Fill.notionalIn (scope : Scope) (f : Fill) : Usd :=
  if scope.covers f.tokenId then f.notional else 0

def Order.remainderIn (scope : Scope) (o : Order) : Usd :=
  if scope.covers o.request.tokenId then o.remaining.notional o.request.limitPrice else 0

/-- What an open order can still cost at its limit. -/
def Order.unfilledIn (scope : Scope) (o : Order) : Usd :=
  if o.state.isOpen then o.remainderIn scope else 0

/-- The fills that a call has received and not booked yet. -/
def Stage.unbooked : Stage → List Fill
  | .booking _ fills => fills
  | _ => []

/-- Orders of some calls: with the adapter, with fills to book, or done. -/
structure FlightRun where
  app : AppState
  runs : List Stage

namespace FlightRun

def start (app : AppState) : FlightRun := ⟨app, []⟩

def answer (s : FlightRun) (i : Nat) (response : Except ExecutionError Acknowledgement)
    (now : DateTime) : Option FlightRun :=
  match s.runs[i]? with
  | some (.submitting signal order) =>
    let (app, stage) := s.app.answer signal order response now
    some ⟨app, s.runs.set i stage⟩
  | _ => none

/-- The adapter answers with fills of the order it was given, at prices that its limit admits. -/
def ProperAnswer (s : FlightRun) (i : Nat) : Except ExecutionError Acknowledgement → Prop
  | .ok ack => ∀ order ∈ heldAt Stage.pending s.runs i, ∀ f ∈ ack.immediateFills,
      order.request.MayFill f
  | .error _ => True

instance (s : FlightRun) (i : Nat) : ∀ response, Decidable (s.ProperAnswer i response)
  | .ok ack => inferInstanceAs (Decidable (∀ order ∈ heldAt Stage.pending s.runs i,
    ∀ f ∈ ack.immediateFills, order.request.MayFill f))
  | .error _ => isTrue trivial

end FlightRun

/-- A buy as it is handed to the adapter. -/
structure Order.SentBuy (o : Order) : Prop where
  state : o.state = .submitted
  buy : o.request.side = .buy
  unfilled : o.filledQty = .zero
  costless : o.filledNotional = 0
  unpaid : o.feesPaid = 0

theorem Order.SentBuy.remaining {o : Order} (h : o.SentBuy) :
    o.remaining.notional o.request.limitPrice = o.request.notional := by
  show o.remaining.get * _ = o.request.quantity.get * _
  rw [Order.remaining_of_unfilled h.unfilled]

/-- Whatever the adapter has is stored as it was sent, under an id of its own. -/
structure InFlight (s : FlightRun) : Prop where
  pending : ∀ i o, heldAt Stage.pending s.runs i = some o →
    s.app.orders.get o.id = some o ∧ o.SentBuy
  apart : Apart Stage.pending Order.id s.runs

theorem InFlight.start (app : AppState) : InFlight (.start app) := by
  constructor
  · intro i o waiting
    cases waiting
  · intro i j o o' waiting
    cases waiting

section InFlight

variable {s : FlightRun} {app : AppState} {runs : List Stage} {i : Nat}

/-- Nothing new is handed over, and the orders are left alone. -/
theorem InFlight.quiet (h : InFlight s) (orders : app.orders.orders = s.app.orders.orders)
    (fewer : ∀ j o, heldAt Stage.pending runs j = some o → heldAt Stage.pending s.runs j = some o) :
    InFlight ⟨app, runs⟩ := by
  constructor
  · intro j o waiting
    obtain ⟨stored, sent⟩ := h.pending j o (fewer j o waiting)
    refine ⟨?_, sent⟩
    unfold OrderManager.get
    rw [orders]
    exact stored
  · intro j k o o' hj hk
    exact h.apart j k o o' (fewer j o hj) (fewer k o' hk)

/-- The `i`th call hands over a new order. -/
theorem InFlight.submit (h : InFlight s) {sent : Order} (buy : sent.SentBuy)
    (fresh : s.app.orders.get sent.id = none)
    (orders : app.orders.orders = s.app.orders.orders.insert sent.id sent)
    (waits : ∀ j o, heldAt Stage.pending runs j = some o →
      j = i ∧ o = sent ∨ heldAt Stage.pending s.runs j = some o) :
    InFlight ⟨app, runs⟩ := by
  have get_ := OrderManager.get_insert orders
  have other : ∀ j o, heldAt Stage.pending s.runs j = some o → o.id ≠ sent.id := by
    intro j o waiting same
    have stored := (h.pending j o waiting).1
    rw [same, fresh] at stored
    cases stored
  constructor
  · intro j o waiting
    rw [get_]
    rcases waits j o waiting with ⟨_, rfl⟩ | before
    · rw [if_pos rfl]
      exact ⟨rfl, buy⟩
    · rw [if_neg (other j o before)]
      exact h.pending j o before
  · intro j k o o' hj hk same
    rcases waits j o hj with ⟨at_, rfl⟩ | before
    · rcases waits k o' hk with ⟨at', _⟩ | before'
      · exact at_.trans at'.symm
      · exact absurd same.symm (other k o' before')
    · rcases waits k o' hk with ⟨_, rfl⟩ | before'
      · exact absurd same (other j o before)
      · exact h.apart j k o o' before before' same

/-- What is known of the order that an answer is about. -/
theorem InFlight.asked (h : InFlight s) {signal : CopySignal} {order : Order}
    {response : Except ExecutionError Acknowledgement}
    (here : s.runs[i]? = some (.submitting signal order)) (proper : s.ProperAnswer i response) :
    s.app.orders.get order.id = some order ∧ order.SentBuy ∧
      ∀ ack, response = .ok ack → ∀ f ∈ ack.immediateFills, order.request.MayFill f := by
  have waiting : heldAt Stage.pending s.runs i = some order := heldAt_of_get here
  obtain ⟨stored, sent⟩ := h.pending i order waiting
  refine ⟨stored, sent, ?_⟩
  rintro ack rfl
  exact proper order waiting

/-- The `i`th call gets its answer. -/
theorem InFlight.answered (h : InFlight s) {order order' : Order} {new : Stage} {old : Stage}
    (here : s.runs[i]? = some old) (sent : old.pending = some order) (idle : new.pending = none)
    (orders : app.orders.orders = s.app.orders.orders.insert order.id order') :
    InFlight ⟨app, s.runs.set i new⟩ := by
  have waiting : heldAt Stage.pending s.runs i = some order := (heldAt_of_get here).trans sent
  have get_ := OrderManager.get_insert orders
  have pending_ : ∀ j o, heldAt Stage.pending (s.runs.set i new) j = some o →
      heldAt Stage.pending s.runs j = some o ∧ o.id ≠ order.id := by
    intro j o later
    obtain ⟨apart, before⟩ := heldAt_set_idle here idle later
    exact ⟨before, fun same => apart (h.apart i j order o waiting before same.symm)⟩
  constructor
  · intro j o later
    obtain ⟨before, other⟩ := pending_ j o later
    rw [get_, if_neg other]
    exact h.pending j o before
  · intro j k o o' hj hk
    exact h.apart j k o o' (pending_ j o hj).1 (pending_ k o' hk).1

/-- A sum over the calls when one of them moves on. -/
theorem sum_set_stage {old : Stage} (here : runs[i]? = some old) (new : Stage)
    (g : Stage → Usd) : ((runs.set i new).map g).sum = (runs.map g).sum - g old + g new := by
  obtain ⟨bound, eq⟩ := List.getElem?_eq_some_iff.mp here
  have inside : i < (runs.map g).length := by
    rw [List.length_map]
    exact bound
  rw [List.map_set, List.sum_set', dif_pos inside, List.getElem_map, eq]
  ring

end InFlight

theorem OrderRequest.notional_of_isZero {o : OrderRequest} (empty : o.quantity.isZero) :
    o.notional = 0 := by
  show o.quantity.get * _ = 0
  rw [Qty.isZero_iff.mp empty]
  exact zero_mul _

/-- The handed-over order is unfilled, and nothing was booked. -/
theorem AppState.handOver_spec {app app' : AppState} {signal : CopySignal}
    {request : OrderRequest} {stamps : LatencyStamps} {now : DateTime} {d : Decision}
    (h : app.handOver signal request stamps now = (app', d)) :
    app'.portfolio = app.portfolio.attributeOrder request.orderId signal.targetWallet ∧
      app'.risk = app.risk ∧
      ∀ order, d = .submitting order →
        order.filledQty = .zero ∧ order.filledNotional = 0 ∧ order.feesPaid = 0 := by
  unfold handOver at h
  simp only at h
  split at h
  next => cases h; exact ⟨rfl, rfl, fun _ e => by cases e⟩
  next id om registered =>
    obtain ⟨o, _, _, _, unfilled, unpaid, costless, _, rfl, rfl⟩ :=
      OrderManager.registerValidated_ok registered
    split at h
    next => cases h; exact ⟨rfl, rfl, fun _ e => by cases e⟩
    next copy om' begun =>
      obtain ⟨o', stored, _, rfl, _⟩ := OrderManager.submitBegin_ok begun
      rw [OrderManager.get_insert (OrderManager.store_orders _ o), if_pos rfl] at stored
      cases stored
      cases h
      refine ⟨rfl, rfl, ?_⟩
      intro order same
      cases same
      exact ⟨unfilled, costless, unpaid⟩

theorem AppState.answer_fills (app : AppState) (signal : CopySignal) (order : Order)
    (response : Except ExecutionError Acknowledgement) (now : DateTime) :
    (app.answer signal order response now).1.portfolio = app.portfolio ∧
      (app.answer signal order response now).1.risk = app.risk ∧
      (app.answer signal order response now).2.unbooked = order.appliedFills response now := by
  have fills : (app.answered order response now).1.fills = order.appliedFills response now :=
    app.orders.submitFinish_fills order response now
  have portfolio : (app.answered order response now).2.portfolio = app.portfolio := rfl
  have risk : (app.answered order response now).2.risk = app.risk := rfl
  unfold answer
  split
  next eq =>
    rw [eq] at fills portfolio risk
    exact ⟨portfolio, risk, fills⟩
  next outcome app' other eq =>
    rw [eq] at fills portfolio risk
    refine ⟨portfolio, risk, ?_⟩
    rw [← fills]
    cases outcome with
    | acknowledged id applied => exact (other id applied rfl).elim
    | rejected => rfl
    | ambiguous => rfl

theorem AppState.report_spec (app : AppState) (signal : CopySignal) (now : DateTime) :
    (app.report signal now).portfolio = app.portfolio ∧
      (app.report signal now).orders.orders = app.orders.orders ∧
      (app.report signal now).risk = app.risk := by
  unfold report
  split
  · exact ⟨rfl, rfl, rfl⟩
  · exact ⟨rfl, rfl, rfl⟩

section Answer

variable {scope : Scope} {o : Order} {now : DateTime}

theorem Order.remainderIn_nonneg (scope : Scope) (o : Order) : 0 ≤ o.remainderIn scope := by
  unfold remainderIn
  split
  · exact mul_nonneg o.remaining.nonneg o.request.limitPrice.pos.le
  · exact le_rfl

theorem Order.unfilledIn_le (scope : Scope) (o : Order) :
    o.unfilledIn scope ≤ o.remainderIn scope := by
  unfold unfilledIn
  split
  · exact le_rfl
  · exact o.remainderIn_nonneg scope

theorem Order.unfilledIn_nonneg (scope : Scope) (o : Order) : 0 ≤ o.unfilledIn scope := by
  unfold unfilledIn
  split
  · exact o.remainderIn_nonneg scope
  · exact le_rfl

theorem Fill.notionalIn_nonneg (scope : Scope) (f : Fill) : 0 ≤ f.notionalIn scope := by
  unfold notionalIn
  split
  · exact mul_nonneg f.quantity.nonneg f.price.pos.le
  · exact le_rfl

theorem Order.tryTransition_remainderIn (scope : Scope) (o : Order) (next : OrderState)
    (at_ : DateTime) : (o.tryTransition next at_).remainderIn scope = o.remainderIn scope := by
  rw [tryTransition_eq]
  split
  · rfl
  · rfl

/-- A fill moves at least its own cost out of what the order can still cost. -/
theorem Order.withFill_remainderIn (scope : Scope) {f : Fill} (buy : o.request.side = .buy)
    (proper : o.request.MayFill f) (fits : f.quantity.get ≤ o.remaining.get) :
    (o.withFill f).remainderIn scope + f.notionalIn scope ≤ o.remainderIn scope := by
  obtain ⟨_, token, _, admitted⟩ := proper
  have price : f.price.get ≤ o.request.limitPrice.get := by
    unfold OrderRequest.admits at admitted
    rw [buy] at admitted
    exact admitted
  unfold remainderIn Fill.notionalIn
  rw [withFill_request, token]
  split
  · have cost : f.quantity.get * f.price.get ≤ f.quantity.get * o.request.limitPrice.get :=
      mul_le_mul_of_nonneg_left price f.quantity.nonneg
    show (o.withFill f).remaining.get * o.request.limitPrice.get + f.quantity.get * f.price.get ≤
      o.remaining.get * o.request.limitPrice.get
    rw [withFill_remaining, Qty.saturatingSub_get fits, sub_mul]
    linarith
  · exact le_of_eq (add_zero 0)

/-- So does a fill that is taken without rounding a quantity. -/
theorem Calc.Took.remainderIn {kinds : Operands → Prop} {o' : Order} {f : Fill}
    (took : Took kinds o f o') (scope : Scope) (buy : o.request.side = .buy)
    (proper : o.request.MayFill f) :
    o'.remainderIn scope + f.notionalIn scope ≤ o.remainderIn scope := by
  obtain ⟨_, token, _, admitted⟩ := proper
  have price : f.price.get ≤ o.request.limitPrice.get := by
    unfold OrderRequest.admits at admitted
    rw [buy] at admitted
    exact admitted
  unfold Order.remainderIn Fill.notionalIn
  rw [took.request, token]
  split
  · have cost : f.quantity.get * f.price.get ≤ f.quantity.get * o.request.limitPrice.get :=
      mul_le_mul_of_nonneg_left price f.quantity.nonneg
    show o'.remaining.get * o.request.limitPrice.get + f.quantity.get * f.price.get ≤
      o.remaining.get * o.request.limitPrice.get
    rw [took.remaining, sub_mul]
    linarith
  · exact le_of_eq (add_zero 0)

/-- What an answer leaves to be filled and what it fills cost no more than the order could. -/
theorem Order.receiveFills (scope : Scope) (now : DateTime) {fills : List Fill}
    (acc : Order × List Fill) (buy : acc.1.request.side = .buy)
    (proper : ∀ f ∈ fills, acc.1.request.MayFill f) (bought : ∀ f ∈ acc.2, f.side = .buy) :
    let acc' := fills.foldl (receiveFill now) acc
    acc'.1.remainderIn scope + (acc'.2.map (Fill.notionalIn scope)).sum ≤
        acc.1.remainderIn scope + (acc.2.map (Fill.notionalIn scope)).sum ∧
      ∀ f ∈ acc'.2, f.side = .buy := by
  induction fills generalizing acc with
  | nil => exact ⟨le_rfl, bought⟩
  | cons f fills ih =>
    have request := receiveFill_request now acc f
    have first := proper f List.mem_cons_self
    have one : (receiveFill now acc f).1.remainderIn scope +
          ((receiveFill now acc f).2.map (Fill.notionalIn scope)).sum ≤
          acc.1.remainderIn scope + (acc.2.map (Fill.notionalIn scope)).sum ∧
        ∀ g ∈ (receiveFill now acc f).2, g.side = .buy := by
      unfold receiveFill
      simp only
      split
      next o' taken =>
        obtain ⟨_, fits, rfl⟩ := (acc.1.stamped_applyFill_ok_iff f).mp taken
        have moved := withFill_remainderIn scope buy first fits
        simp only
        rw [List.map_append, List.sum_append, List.map_singleton, List.sum_singleton]
        refine ⟨by linarith, ?_⟩
        intro g mem
        rcases List.mem_append.mp mem with old | new
        · exact bought g old
        · rw [List.mem_singleton.mp new, first.2.2.1, buy]
      next =>
        obtain ⟨latency, eq⟩ := acc.1.stampFill_eq f.filledAt
        refine ⟨le_of_eq ?_, bought⟩
        rw [tryTransition_remainderIn, eq]
        rfl
    obtain ⟨cost, sides⟩ := ih (receiveFill now acc f) (by rw [request]; exact buy)
      (by
        intro g mem
        rw [request]
        exact proper g (List.mem_cons_of_mem _ mem)) one.2
    exact ⟨cost.trans one.1, sides⟩

theorem Order.SentBuy.answered_unfilledIn (h : o.SentBuy) (scope : Scope)
    (response : Except ExecutionError Acknowledgement) (now : DateTime)
    (proper : ∀ ack, response = .ok ack → ∀ f ∈ ack.immediateFills, o.request.MayFill f) :
    (o.answered response now).unfilledIn scope +
        ((o.appliedFills response now).map (Fill.notionalIn scope)).sum ≤ o.unfilledIn scope ∧
      ∀ f ∈ o.appliedFills response now, f.side = .buy := by
  have whole : o.unfilledIn scope = o.remainderIn scope := by
    unfold unfilledIn
    rw [h.state]
    rfl
  rw [whole]
  cases response with
  | ok ack =>
    obtain ⟨cost, sides⟩ := receiveFills scope now (o.acked ack now, []) h.buy (proper ack rfl)
      (by simp)
    show (o.acknowledge ack now).1.unfilledIn scope +
      ((o.acknowledge ack now).2.map (Fill.notionalIn scope)).sum ≤ _ ∧
        ∀ f ∈ (o.acknowledge ack now).2, f.side = .buy
    rw [acknowledge_eq h.state]
    refine ⟨?_, sides⟩
    have rest := Order.unfilledIn_le scope
      (ack.immediateFills.foldl (receiveFill now) (o.acked ack now, [])).1
    have same : (o.acked ack now).remainderIn scope = o.remainderIn scope := rfl
    rw [List.map_nil, List.sum_nil, add_zero, same] at cost
    linarith
  | error e =>
    refine ⟨?_, fun f mem => absurd mem List.not_mem_nil⟩
    show (o.answered (.error e) now).unfilledIn scope + 0 ≤ _
    rw [add_zero]
    refine (Order.unfilledIn_le scope _).trans (le_of_eq ?_)
    exact o.tryTransition_remainderIn scope _ now

end Answer

end CopyTrading
