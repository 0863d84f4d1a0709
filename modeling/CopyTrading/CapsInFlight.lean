import CopyTrading.CalcPipeline
import CopyTrading.OrdersInFlight

namespace CopyTrading

open Holders StepRun

def Portfolio.exposureIn (p : Portfolio) : Scope → Usd
  | .token t => p.tokenExposure t
  | .all => p.grossExposure

def RiskLimits.cap (limits : RiskLimits) : Scope → Usd
  | .token _ => limits.maxPositionUsd
  | .all => limits.maxPortfolioExposureUsd

def Stage.filledIn (scope : Scope) (stage : Stage) : Usd :=
  (stage.unbooked.map (Fill.notionalIn scope)).sum

inductive FlightEvent
  | approve (signal : CopySignal) (order : OrderRequest) (wallet : TargetWallet)
      (book : Option OrderBook) (stamps : LatencyStamps) (now : DateTime)
  | answer (i : Nat) (response : Except ExecutionError Acknowledgement) (now : DateTime)
  | book (i : Nat) (now : DateTime)

def FlightEvent.isApproval : FlightEvent → Bool
  | .approve .. => true
  | _ => false

namespace FlightRun

/-- The exposure of what is filled, and the unfilled rest of the open orders. -/
def committed (s : FlightRun) (scope : Scope) : Usd :=
  s.app.portfolio.exposureIn scope + (s.runs.map (Stage.filledIn scope)).sum +
    s.app.orders.orders.total (Order.unfilledIn scope)

def WithinCaps (s : FlightRun) : Prop :=
  ∀ scope, s.committed scope ≤ s.app.risk.limits.cap scope

/-- Answers are proper ones. -/
def Proper (s : FlightRun) : FlightEvent → Prop
  | .answer i response _ => s.ProperAnswer i response
  | _ => True

/-- An order is approved while there is room for it beside everything committed. -/
def Fits (s : FlightRun) : FlightEvent → Prop
  | .approve _ order _ _ _ _ => ∀ scope : Scope, scope.covers order.tokenId →
    s.committed scope + order.notional ≤ s.app.risk.limits.cap scope
  | _ => True

instance (s : FlightRun) : ∀ e, Decidable (s.Proper e)
  | .answer i response _ => inferInstanceAs (Decidable (s.ProperAnswer i response))
  | .approve .. | .book .. => isTrue trivial

theorem fits_iff (s : FlightRun) (signal : CopySignal) (order : OrderRequest)
    (wallet : TargetWallet) (book : Option OrderBook) (stamps : LatencyStamps) (now : DateTime) :
    s.Fits (.approve signal order wallet book stamps now) ↔
      s.committed (.token order.tokenId) + order.notional ≤ s.app.risk.limits.maxPositionUsd ∧
        s.committed .all + order.notional ≤ s.app.risk.limits.maxPortfolioExposureUsd := by
  constructor
  · intro fits
    exact ⟨fits (.token order.tokenId) (decide_eq_true rfl), fits .all rfl⟩
  · rintro ⟨token, total⟩ scope covers
    cases scope with
    | token t =>
      cases of_decide_eq_true covers
      exact token
    | all => exact total

instance (s : FlightRun) : ∀ e, Decidable (s.Fits e)
  | .approve signal order wallet book stamps now =>
    decidable_of_iff _ (s.fits_iff signal order wallet book stamps now).symm
  | .answer .. | .book .. => isTrue trivial

end FlightRun

namespace Calc.FlightRun

variable (E : AList.Enumeration TokenId Position)

/-- An approved buy is registered and submitted. -/
def approve (s : FlightRun) (signal : CopySignal) (order : OrderRequest) (wallet : TargetWallet)
    (book : Option OrderBook) (stamps : LatencyStamps) (now : DateTime) : Option FlightRun :=
  -- order ids are freshly drawn
  if order.side = .buy ∧ s.app.orders.get order.orderId = none ∧
      (verdict E s.app order wallet book now).run rounded = some .approved then
    match s.app.handOver signal order stamps now with
    | (app, .submitting sent) => some ⟨app, s.runs ++ [.submitting signal sent]⟩
    | (app, _) => some { s with app := app }
  else none

/-- What an event computes, where it can take place. -/
def eval (s : FlightRun) : FlightEvent → Option (Calc FlightRun)
  | .approve signal order wallet book stamps now =>
    (approve E s signal order wallet book stamps now).map pure
  | .answer i response now =>
    match s.runs[i]? with
    | some (.submitting signal order) => some do
      let (app, stage) ← answer s.app signal order response now
      pure ⟨app, s.runs.set i stage⟩
    | _ => none
  | .book i now =>
    match s.runs[i]? with
    | some (.booking signal (f :: fs)) => some do
      let app ← bookFill E signal s.app f
      pure ⟨app, s.runs.set i (.booking signal fs)⟩
    | some (.booking signal []) => some do
      let app ← report E s.app signal now
      pure ⟨app, s.runs.set i .done⟩
    | _ => none

def step (s : FlightRun) (e : FlightEvent) : Option FlightRun :=
  (eval E s e).bind (Calculation.run rounded)

/-- The event rounds nothing that an exposure is made of. -/
def Exact (s : FlightRun) (e : FlightEvent) : Prop := ∀ p ∈ eval E s e, p.Keeps OfExposure

instance (s : FlightRun) (e : FlightEvent) : Decidable (Exact E s e) :=
  inferInstanceAs (Decidable (∀ p ∈ eval E s e, p.Keeps OfExposure))

variable {E} {s s' : FlightRun}

theorem step_approve (signal : CopySignal) (order : OrderRequest) (wallet : TargetWallet)
    (book : Option OrderBook) (stamps : LatencyStamps) (now : DateTime) :
    step E s (.approve signal order wallet book stamps now) =
      approve E s signal order wallet book stamps now := by
  unfold step eval
  simp only
  cases approve E s signal order wallet book stamps now <;> rfl

theorem step_exact {e : FlightEvent} (exact_ : Exact E s e) (taken : step E s e = some s') :
    ∃ p, eval E s e = some p ∧ p.run (guarded OfExposure) = some s' := by
  obtain ⟨p, computes, ran⟩ := Option.bind_eq_some_iff.mp taken
  exact ⟨p, computes, (exact_ p computes).run.symm.trans ran⟩

end Calc.FlightRun

section Exposure

variable {p : Portfolio} {scope : Scope}

/-- A position that only bought, and has no mark. -/
structure Position.Bought (q : Position) : Prop where
  unmarked : q.markPrice = none
  long : 0 ≤ q.netQuantity
  paid : 0 ≤ q.costBasis

theorem Position.Bought.apply {q : Position} (h : q.Bought) (qty : Qty) (price : Price) (fee : Usd)
    (at_ : DateTime) :
    let q' := (q.apply .buy qty price fee at_).2
    q'.Bought ∧ q'.exposure = q.exposure + qty.notional price := by
  have ahead : 0 ≤ q.towards .buy := by
    unfold towards
    rw [Side.sign, one_mul]
    exact h.long
  have size := qty.nonneg
  have spent : 0 ≤ qty.notional price := mul_nonneg size price.pos.le
  have rolled : (q.towards .buy + qty.get) * (q.book (Side.buy.sign * qty.get) price.get).2 =
      q.towards .buy * q.avgEntry + qty.notional price := book_onward ahead size
  have cost : (q.apply .buy qty price fee at_).2.costBasis = q.costBasis + qty.notional price := by
    unfold towards at rolled
    simp only [Side.sign, one_mul] at rolled
    show (q.netQuantity + 1 * qty.get) * (q.book (1 * qty.get) price.get).2 = _
    rw [one_mul]
    exact rolled
  have net : (q.apply .buy qty price fee at_).2.netQuantity = q.netQuantity + 1 * qty.get := rfl
  have unmarked : (q.apply .buy qty price fee at_).2.markPrice = none := h.unmarked
  have exposure : ∀ r : Position, r.markPrice = none → r.exposure = |r.costBasis| := by
    intro r none_
    unfold Position.exposure costBasis
    rw [none_, Option.elim_none]
  simp only
  refine ⟨⟨unmarked, ?_, ?_⟩, ?_⟩
  · rw [net, one_mul]
    exact add_nonneg h.long size
  · rw [cost]
    exact add_nonneg h.paid spent
  · rw [exposure _ unmarked, exposure _ h.unmarked, cost, abs_of_nonneg h.paid,
      abs_of_nonneg (add_nonneg h.paid spent)]

def Portfolio.OnlyBought (p : Portfolio) : Prop := ∀ q ∈ p.positions.values, q.Bought

/-- What is bought and what it is worth does not depend on the position's money. -/
theorem Position.Bought.of_bare {q r : Position} (same : q.bare = r.bare) (h : r.Bought) :
    q.Bought := by
  have mark : q.bare.markPrice = r.bare.markPrice := congrArg markPrice same
  have net : q.bare.netQuantity = r.bare.netQuantity := congrArg netQuantity same
  have cost : q.bare.costBasis = r.bare.costBasis := congrArg costBasis same
  exact ⟨mark.trans h.unmarked, h.long.trans_eq net.symm, h.paid.trans_eq cost.symm⟩

/-- A buy adds its notional to the exposure of an unmarked long book, where nothing that the
exposure is made of is rounded. -/
theorem Portfolio.OnlyBought.applyFill (h : p.OnlyBought) (scope : Scope)
    {E : AList.Enumeration TokenId Position} {f : Fill} {outcomeName : String} {gain booked : Usd}
    {q : Position} {p' : Portfolio} (buy : f.side = .buy)
    (filled : Calc.Portfolio.FilledBy (Calc.guarded Calc.OfExposure) E p f outcomeName gain booked
      q p') :
    p'.OnlyBought ∧ p'.exposureIn scope = p.exposureIn scope + f.notionalIn scope := by
  let held := Calc.Portfolio.bookedOn p f outcomeName
  have before : held.Bought ∧ held.exposure = p.tokenExposure f.tokenId := by
    unfold tokenExposure position
    show ((p.positions.lookup f.tokenId).getD _).Bought ∧
      ((p.positions.lookup f.tokenId).getD _).exposure = _
    cases stored : p.positions.lookup f.tokenId with
    | some q => exact ⟨h q (AList.mem_values.mpr ⟨_, stored⟩), rfl⟩
    | none =>
      refine ⟨⟨rfl, le_rfl, ?_⟩, Position.new_exposure _ _ _ _⟩
      rw [Option.getD_none, Position.new_costBasis]
  obtain ⟨bought, exposure⟩ := before.1.apply f.quantity f.price f.fee f.filledAt
  have same := filled.applied.bare (.inl rfl) (.inr rfl)
  rw [buy] at same
  have bought' : q.Bought := .of_bare same bought
  have exposure' : q.exposure = held.exposure + f.notional := by
    have equal : q.bare.exposure = _ := congrArg Position.exposure same
    exact equal.trans exposure
  constructor
  · intro r mem
    rw [filled.positions] at mem
    obtain ⟨t, stored⟩ := AList.mem_values.mp mem
    by_cases here : t = f.tokenId
    · subst here
      rw [AList.lookup_insert] at stored
      cases stored
      exact bought'
    · rw [AList.lookup_insert_ne here] at stored
      exact h r (AList.mem_values.mpr ⟨t, stored⟩)
  · cases scope with
    | token t =>
      show (p'.positions.lookup t).elim 0 Position.exposure =
        p.tokenExposure t + if decide (t = f.tokenId) = true then f.notional else 0
      rw [filled.positions]
      by_cases here : t = f.tokenId
      · subst here
        rw [AList.lookup_insert, Option.elim_some, if_pos (decide_eq_true rfl), ← before.2]
        exact exposure'
      · rw [AList.lookup_insert_ne here, if_neg (by simpa using here), add_zero]
        rfl
    | all =>
      have old := AList.total_eq_lookup_add_erase Position.exposure p.positions f.tokenId
      have mine : (p.positions.lookup f.tokenId).elim 0 Position.exposure = held.exposure :=
        before.2.symm
      show p'.positions.total Position.exposure =
        p.positions.total Position.exposure + f.notional
      rw [filled.positions, AList.total_insert_eq, exposure', old, mine]
      ring

end Exposure

theorem Portfolio.exposureIn_of_positions {p p' : Portfolio} (same : p'.positions = p.positions)
    (scope : Scope) : p'.exposureIn scope = p.exposureIn scope := by
  cases scope with
  | token t =>
    unfold exposureIn tokenExposure position
    simp only [same]
  | all =>
    unfold exposureIn grossExposure
    simp only [same]

/-- What every run of buys keeps, whatever is committed. -/
structure FlightInv (s : FlightRun) : Prop where
  flying : InFlight s
  bought : s.app.portfolio.OnlyBought
  fills : ∀ stage ∈ s.runs, ∀ f ∈ stage.unbooked, f.side = .buy

theorem FlightInv.start {app : AppState} (flat : app.portfolio.positions = ∅) :
    FlightInv (.start app) := by
  refine ⟨.start app, ?_, ?_⟩
  · intro q mem
    obtain ⟨t, stored⟩ := AList.mem_values.mp mem
    rw [FlightRun.start, flat] at stored
    cases stored
  · intro stage mem
    cases mem

section Step

variable {E : AList.Enumeration TokenId Position} {s s' : FlightRun} {scope : Scope}

/-- An approved order goes to the adapter, with its whole notional committed. -/
theorem FlightInv.submit (h : FlightInv s) {app : AppState} (signal : CopySignal) {sent : Order}
    (buy : sent.SentBuy) (fresh : s.app.orders.get sent.id = none)
    (orders : app.orders.orders = s.app.orders.orders.insert sent.id sent)
    (positions : app.portfolio.positions = s.app.portfolio.positions) :
    FlightInv ⟨app, s.runs ++ [.submitting signal sent]⟩ ∧
      ∀ scope : Scope, FlightRun.committed ⟨app, s.runs ++ [.submitting signal sent]⟩ scope =
        s.committed scope +
          if scope.covers sent.request.tokenId then sent.request.notional else 0 := by
  have waits : ∀ j o, heldAt Stage.pending (s.runs ++ [.submitting signal sent]) j = some o →
      j = s.runs.length ∧ o = sent ∨ heldAt Stage.pending s.runs j = some o := by
    intro j o waiting
    rw [heldAt_concat] at waiting
    split at waiting
    next last =>
      cases waiting
      exact .inl ⟨last, rfl⟩
    next => exact .inr waiting
  refine ⟨⟨h.flying.submit buy fresh orders waits, ?_, ?_⟩, ?_⟩
  · intro q mem
    refine h.bought q ?_
    rw [← positions]
    exact mem
  · intro stage mem f listed
    rcases List.mem_append.mp mem with old | new
    · exact h.fills stage old f listed
    · rw [List.mem_singleton.mp new] at listed
      cases listed
  · intro scope
    have total := AList.total_eq_lookup_add_erase (Order.unfilledIn scope) s.app.orders.orders
      sent.id
    have absent : s.app.orders.orders.lookup sent.id = none := fresh
    have mine : sent.unfilledIn scope =
        if scope.covers sent.request.tokenId then sent.request.notional else 0 := by
      unfold Order.unfilledIn Order.remainderIn
      rw [buy.state, buy.remaining]
      rfl
    unfold FlightRun.committed
    simp only
    rw [Portfolio.exposureIn_of_positions positions, orders, AList.total_insert_eq, total, absent,
      Option.elim_none, mine, List.map_append, List.sum_append, List.map_singleton,
      List.sum_singleton, show Stage.filledIn scope (.submitting signal sent) = 0 from rfl]
    ring

theorem FlightRun.approve_spec (h : FlightInv s) {signal : CopySignal} {order : OrderRequest}
    {wallet : TargetWallet} {book : Option OrderBook} {stamps : LatencyStamps} {now : DateTime}
    (taken : Calc.FlightRun.approve E s signal order wallet book stamps now = some s') :
    FlightInv s' ∧ s'.app.risk = s.app.risk ∧
      ∀ scope : Scope, s'.committed scope = s.committed scope +
        if scope.covers order.tokenId then order.notional else 0 := by
  unfold Calc.FlightRun.approve at taken
  split at taken
  next asked =>
    obtain ⟨buy, fresh, _⟩ := asked
    have cases_ := s.app.handOver_cases signal order stamps now
    split at taken
    next app sent eq =>
      obtain ⟨portfolio, risk, unfilled⟩ := AppState.handOver_spec eq
      rw [eq] at cases_
      rcases cases_ with ⟨_, ends, _⟩ | ⟨sent', ends, handed⟩
      · cases ends
      · cases ends
        cases taken
        have key : sent.id = order.orderId := congrArg OrderRequest.orderId handed.request
        have orders := handed.orders
        rw [← key] at orders fresh
        have bought : sent.SentBuy := by
          obtain ⟨none_, costless, unpaid⟩ := unfilled sent rfl
          exact ⟨handed.state, by rw [handed.request]; exact buy, none_, costless, unpaid⟩
        have positions : app.portfolio.positions = s.app.portfolio.positions := by
          rw [portfolio]
          rfl
        have moved := h.submit signal bought fresh orders positions
        rw [handed.request] at moved
        exact ⟨moved.1, risk, moved.2⟩
    next app d idle eq =>
      obtain ⟨portfolio, risk, _⟩ := AppState.handOver_spec eq
      have positions : app.portfolio.positions = s.app.portfolio.positions := by
        rw [portfolio]
        rfl
      rw [eq] at cases_
      rcases cases_ with ⟨empty, _, orders, _⟩ | ⟨sent', ends, _⟩
      · cases taken
        have none_ : order.notional = 0 := OrderRequest.notional_of_isZero empty
        refine ⟨⟨h.flying.quiet orders fun _ _ waiting => waiting, ?_, h.fills⟩, risk, ?_⟩
        · intro q mem
          refine h.bought q ?_
          rw [← positions]
          exact mem
        · intro scope
          unfold committed
          simp only
          rw [Portfolio.exposureIn_of_positions positions, orders, none_, ite_self, add_zero]
      · exact (idle sent' ends).elim
  next => cases taken

/-- What an answer leaves to be filled and what it fills cost no more than the order could. -/
theorem Order.SentBuy.acknowledge {o : Order} (h : o.SentBuy) (scope : Scope)
    {ack : Acknowledgement} {now : DateTime} {o' : Order} {fills : List Fill}
    (acks : (Calc.acknowledge o ack now).run (Calc.guarded Calc.OfExposure) = some (o', fills))
    (proper : ∀ f ∈ ack.immediateFills, o.request.MayFill f) :
    o'.remainderIn scope + (fills.map (Fill.notionalIn scope)).sum ≤ o.remainderIn scope ∧
      ∀ f ∈ fills, f.side = .buy := by
  rw [Calc.acknowledge_eq h.state] at acks
  have kept := Calculation.run_foldlM_keeps
    (P := fun acc : Order × List Fill => acc.1.request = o.request ∧
      acc.1.remainderIn scope + (acc.2.map (Fill.notionalIn scope)).sum ≤ o.remainderIn scope ∧
      ∀ f ∈ acc.2, f.side = .buy) ?_ ?_ acks
  · exact kept.2
  · rintro acc f listed acc' ⟨request, cost, sides⟩ turn
    have proper_ := proper f listed
    rcases Calc.receiveFill_guarded (.inl rfl) turn with ⟨took, taken⟩ | ⟨_, rfl⟩
    · rw [← request] at proper_
      have buy : acc.1.request.side = .buy := by rw [request, h.buy]
      have moved := took.remainderIn scope buy proper_
      rw [taken, List.map_append, List.sum_append, List.map_singleton, List.sum_singleton]
      refine ⟨took.request.trans request, by linarith, ?_⟩
      intro g mem
      rcases List.mem_append.mp mem with old | new
      · exact sides g old
      · rw [List.mem_singleton.mp new, proper_.2.2.1, buy]
    · obtain ⟨latency, eq⟩ := acc.1.stampFill_eq f.filledAt
      refine ⟨?_, ?_, sides⟩
      · rw [tryTransition_request, stampFill_request, request]
      · rw [tryTransition_remainderIn, eq]
        exact cost
  · have start : (o.acked ack now).remainderIn scope = o.remainderIn scope := rfl
    refine ⟨rfl, ?_, List.forall_mem_nil _⟩
    rw [start, List.map_nil, List.sum_nil, add_zero]

/-- The answer to an order: what it fills is to be booked, the rest is open or given up. -/
theorem FlightInv.answered (h : FlightInv s) {i : Nat} {signal : CopySignal} {order order' : Order}
    {app : AppState} (new : Stage) (here : s.runs[i]? = some (.submitting signal order))
    (idle : new.pending = none) (portfolio : app.portfolio = s.app.portfolio)
    (orders : app.orders.orders = s.app.orders.orders.insert order.id order')
    (cost : ∀ scope, order'.unfilledIn scope + new.filledIn scope ≤ order.unfilledIn scope)
    (sides : ∀ f ∈ new.unbooked, f.side = .buy) :
    FlightInv ⟨app, s.runs.set i new⟩ ∧
      ∀ scope : Scope, FlightRun.committed ⟨app, s.runs.set i new⟩ scope ≤ s.committed scope := by
  have waiting : heldAt Stage.pending s.runs i = some order := heldAt_of_get here
  obtain ⟨stored, _⟩ := h.flying.pending i order waiting
  refine ⟨⟨h.flying.answered here rfl idle orders, ?_, ?_⟩, ?_⟩
  · simp only
    rw [portfolio]
    exact h.bought
  · intro stage mem f listed
    rcases List.mem_or_eq_of_mem_set mem with old | rfl
    · exact h.fills stage old f listed
    · exact sides f listed
  · intro scope
    have total := AList.total_insert_of_lookup (f := Order.unfilledIn scope) order' stored
    have none_ : Stage.filledIn scope (.submitting signal order) = 0 := rfl
    have less := cost scope
    unfold FlightRun.committed
    simp only
    rw [sum_set_stage here, none_, portfolio, orders]
    linarith

theorem FlightRun.answer_spec (h : FlightInv s) {i : Nat}
    {response : Except ExecutionError Acknowledgement} {now : DateTime}
    (proper : s.ProperAnswer i response) {signal : CopySignal} {order : Order}
    (here : s.runs[i]? = some (.submitting signal order)) {app : AppState} {stage : Stage}
    (ran : (Calc.answer s.app signal order response now).run (Calc.guarded Calc.OfExposure) =
      some (app, stage)) :
    FlightInv ⟨app, s.runs.set i stage⟩ ∧ app.risk = s.app.risk ∧
      ∀ scope : Scope, FlightRun.committed ⟨app, s.runs.set i stage⟩ scope ≤ s.committed scope := by
  obtain ⟨_, sent, fine⟩ := h.flying.asked here proper
  obtain ⟨portfolio, risk, written⟩ := Calc.answer_run (.inl rfl) ran
  have whole (scope : Scope) : order.unfilledIn scope = order.remainderIn scope := by
    unfold Order.unfilledIn
    rw [sent.state]
    rfl
  cases response with
  | ok ack =>
    obtain ⟨o', fills, acks, orders, rfl⟩ := written
    have moved := h.answered (.booking signal fills) here rfl portfolio orders
      (fun scope => by
        obtain ⟨cost, _⟩ := sent.acknowledge scope acks (fine ack rfl)
        have rest := o'.unfilledIn_le scope
        have filled : Stage.filledIn scope (.booking signal fills) =
          (fills.map (Fill.notionalIn scope)).sum := rfl
        rw [whole, filled]
        linarith)
      (sent.acknowledge .all acks (fine ack rfl)).2
    exact ⟨moved.1, risk, moved.2⟩
  | error e =>
    obtain ⟨orders, rfl⟩ := written
    have moved := h.answered .done here rfl portfolio orders
      (fun scope => by
        have rest := (order.answered (.error e) now).unfilledIn_le scope
        have same : (order.answered (.error e) now).remainderIn scope = order.remainderIn scope :=
          order.tryTransition_remainderIn scope _ now
        have none_ : Stage.filledIn scope .done = 0 := rfl
        rw [whole, none_]
        linarith)
      (List.forall_mem_nil _)
    exact ⟨moved.1, risk, moved.2⟩

theorem FlightRun.book_spec (h : FlightInv s) {i : Nat} {signal : CopySignal} {f : Fill}
    {fs : List Fill} (here : s.runs[i]? = some (.booking signal (f :: fs))) {app : AppState}
    (ran : (Calc.bookFill E signal s.app f).run (Calc.guarded Calc.OfExposure) = some app) :
    FlightInv ⟨app, s.runs.set i (.booking signal fs)⟩ ∧ app.risk = s.app.risk ∧
      ∀ scope : Scope,
        FlightRun.committed ⟨app, s.runs.set i (.booking signal fs)⟩ scope = s.committed scope := by
  obtain ⟨_, _, q, portfolio, filled, rfl⟩ := Calc.bookFill_run ran
  have member : Stage.booking signal (f :: fs) ∈ s.runs := List.mem_of_getElem? here
  have buy : f.side = .buy := h.fills _ member f List.mem_cons_self
  refine ⟨⟨h.flying.quiet rfl (fun _ _ later => (heldAt_set_idle here rfl later).2),
    (h.bought.applyFill .all buy filled).1, ?_⟩, rfl, ?_⟩
  · intro stage mem g listed
    rcases List.mem_or_eq_of_mem_set mem with old | rfl
    · exact h.fills stage old g listed
    · exact h.fills _ member g (List.mem_cons_of_mem _ listed)
  · intro scope
    have exposure := (h.bought.applyFill scope buy filled).2
    have old : Stage.filledIn scope (.booking signal (f :: fs)) =
        f.notionalIn scope + Stage.filledIn scope (.booking signal fs) := List.sum_cons
    unfold committed
    rw [sum_set_stage here, old]
    simp only
    rw [exposure]
    ring

theorem FlightRun.report_spec (h : FlightInv s) {i : Nat} {now : DateTime} {signal : CopySignal}
    (here : s.runs[i]? = some (.booking signal [])) {app : AppState}
    (ran : (Calc.report E s.app signal now).run (Calc.guarded Calc.OfExposure) = some app) :
    FlightInv ⟨app, s.runs.set i .done⟩ ∧ app.risk = s.app.risk ∧
      ∀ scope : Scope,
        FlightRun.committed ⟨app, s.runs.set i .done⟩ scope = s.committed scope := by
  obtain ⟨portfolio, orders, risk⟩ := Calc.report_run ran
  refine ⟨⟨h.flying.quiet orders (fun _ _ later => (heldAt_set_idle here rfl later).2), ?_, ?_⟩,
    risk, ?_⟩
  · simp only
    rw [portfolio]
    exact h.bought
  · intro stage mem g listed
    rcases List.mem_or_eq_of_mem_set mem with old | rfl
    · exact h.fills stage old g listed
    · cases listed
  · intro scope
    unfold committed
    rw [sum_set_stage here]
    simp only
    rw [portfolio, orders, show Stage.filledIn scope (.booking signal []) = 0 from rfl,
      show Stage.filledIn scope .done = 0 from rfl]
    ring

/-- An event that is no approval commits nothing more. -/
theorem FlightRun.step_spec {e : FlightEvent} (h : FlightInv s) (proper : s.Proper e)
    (exact_ : Calc.FlightRun.Exact E s e) (taken : Calc.FlightRun.step E s e = some s') :
    FlightInv s' ∧ s'.app.risk = s.app.risk ∧
      (e.isApproval = false → ∀ scope : Scope, s'.committed scope ≤ s.committed scope) := by
  obtain ⟨p, computes, ran⟩ := Calc.FlightRun.step_exact exact_ taken
  cases e with
  | approve signal order wallet book stamps now =>
    obtain ⟨u, approves, rfl⟩ := Option.map_eq_some_iff.mp computes
    cases ran
    obtain ⟨inv, risk, _⟩ := approve_spec h approves
    exact ⟨inv, risk, nofun⟩
  | answer i response now =>
    unfold Calc.FlightRun.eval at computes
    simp only at computes
    split at computes
    next signal order here =>
      cases computes
      rw [Calculation.run_bind] at ran
      obtain ⟨⟨app, stage⟩, answers, ran⟩ := Option.bind_eq_some_iff.mp ran
      cases ran
      obtain ⟨inv, risk, less⟩ := answer_spec h proper here answers
      exact ⟨inv, risk, fun _ => less⟩
    next => cases computes
  | book i now =>
    unfold Calc.FlightRun.eval at computes
    simp only at computes
    split at computes
    next signal f fs here =>
      cases computes
      rw [Calculation.run_bind] at ran
      obtain ⟨app, books, ran⟩ := Option.bind_eq_some_iff.mp ran
      cases ran
      obtain ⟨inv, risk, same⟩ := book_spec h here books
      exact ⟨inv, risk, fun _ scope => (same scope).le⟩
    next signal here =>
      cases computes
      rw [Calculation.run_bind] at ran
      obtain ⟨app, reports, ran⟩ := Option.bind_eq_some_iff.mp ran
      cases ran
      obtain ⟨inv, risk, same⟩ := report_spec h here reports
      exact ⟨inv, risk, fun _ scope => (same scope).le⟩
    next => cases computes

/-- As `WithinCaps`, where a cap below zero admits nothing. -/
def FlightRun.Capped (s : FlightRun) : Prop :=
  ∀ scope, s.committed scope ≤ max 0 (s.app.risk.limits.cap scope)

theorem FlightRun.committed_nonneg (s : FlightRun) (scope : Scope) : 0 ≤ s.committed scope := by
  have held : 0 ≤ s.app.portfolio.exposureIn scope := by
    cases scope with
    | token t =>
      show 0 ≤ (s.app.portfolio.position t).elim 0 Position.exposure
      cases s.app.portfolio.position t with
      | none => exact le_rfl
      | some q => exact abs_nonneg _
    | all =>
      show 0 ≤ (s.app.portfolio.positions.values.map Position.exposure).sum
      refine List.sum_nonneg ?_
      intro x mem
      obtain ⟨q, _, rfl⟩ := List.mem_map.mp mem
      exact abs_nonneg _
  have unbooked : 0 ≤ (s.runs.map (Stage.filledIn scope)).sum := by
    refine List.sum_nonneg ?_
    intro x mem
    obtain ⟨stage, _, rfl⟩ := List.mem_map.mp mem
    refine List.sum_nonneg ?_
    intro y mem
    obtain ⟨f, _, rfl⟩ := List.mem_map.mp mem
    exact f.notionalIn_nonneg scope
  have open_ : 0 ≤ s.app.orders.orders.total (Order.unfilledIn scope) := by
    refine List.sum_nonneg ?_
    intro x mem
    obtain ⟨o, _, rfl⟩ := List.mem_map.mp mem
    exact o.unfilledIn_nonneg scope
  exact add_nonneg (add_nonneg held unbooked) open_

/-- No cap is below zero where an order has room. -/
theorem FlightRun.Fits.cap_nonneg {signal : CopySignal} {order : OrderRequest}
    {wallet : TargetWallet} {book : Option OrderBook} {stamps : LatencyStamps} {now : DateTime}
    (fits : s.Fits (.approve signal order wallet book stamps now)) (scope : Scope) :
    0 ≤ s.app.risk.limits.cap scope := by
  have cost : 0 ≤ order.notional := mul_nonneg order.quantity.nonneg order.limitPrice.pos.le
  obtain ⟨token, total⟩ := (s.fits_iff signal order wallet book stamps now).mp fits
  cases scope with
  | token t => exact (add_nonneg (s.committed_nonneg _) cost).trans token
  | all => exact (add_nonneg (s.committed_nonneg _) cost).trans total

/-- An approval that fits keeps the caps, and one that does not breaks them. -/
theorem FlightRun.approve_withinCaps (h : FlightInv s) (capped : s.Capped) {signal : CopySignal}
    {order : OrderRequest} {wallet : TargetWallet} {book : Option OrderBook}
    {stamps : LatencyStamps} {now : DateTime}
    (taken : Calc.FlightRun.approve E s signal order wallet book stamps now = some s') :
    s'.WithinCaps ↔ s.Fits (.approve signal order wallet book stamps now) := by
  obtain ⟨_, risk, more⟩ := approve_spec h taken
  constructor
  · intro within scope covers
    have here := within scope
    rw [more, if_pos covers, risk] at here
    exact here
  · intro fits scope
    rw [more, risk]
    cases covers : scope.covers order.tokenId with
    | true =>
      rw [if_pos rfl]
      exact fits scope covers
    | false =>
      rw [if_neg Bool.false_ne_true, add_zero]
      have before := capped scope
      rw [max_eq_right (Fits.cap_nonneg fits scope)] at before
      exact before

theorem FlightRun.Capped.step {e : FlightEvent} (h : FlightInv s) (capped : s.Capped)
    (proper : s.Proper e) (exact_ : Calc.FlightRun.Exact E s e) (fits : s.Fits e)
    (taken : Calc.FlightRun.step E s e = some s') : s'.Capped := by
  cases kind : e.isApproval with
  | true =>
    cases e with
    | approve signal order wallet book stamps now =>
      rw [Calc.FlightRun.step_approve] at taken
      intro scope
      exact ((approve_withinCaps h capped taken).mpr fits scope).trans (le_max_right _ _)
    | answer | book => cases kind
  | false =>
    obtain ⟨_, risk, less⟩ := step_spec h proper exact_ taken
    intro scope
    rw [risk]
    exact (less kind scope).trans (capped scope)

end Step

theorem FlightRun.Capped.start {app : AppState} (flat : app.portfolio.positions = ∅)
    (empty : app.orders.orders = ∅) : (FlightRun.start app).Capped := by
  intro scope
  have none_ : app.portfolio.exposureIn scope = 0 := by
    rw [Portfolio.exposureIn_of_positions (p := Portfolio.new 0 0) flat scope]
    cases scope with
    | token t => rfl
    | all => rfl
  refine le_trans (le_of_eq ?_) (le_max_left _ _)
  unfold FlightRun.committed FlightRun.start
  simp only
  rw [none_, empty]
  show (0 : Usd) + 0 + 0 = 0
  rw [add_zero, add_zero]

/-- The caps hold after every approval of the run. -/
def FlightRun.CapsHold (E : AList.Enumeration TokenId Position) (app : AppState)
    (es : List FlightEvent) : Prop :=
  ∀ before e t, before ++ [e] <+: es → e.isApproval →
    Run (Calc.FlightRun.step E) Anywhere (.start app) (before ++ [e]) t → t.WithinCaps

/-- With orders in flight the caps hold after every approval exactly in the runs that approve an
order only while it fits beside all that is committed, in runs that round nothing on the way into
an exposure. -/
theorem caps_hold_iff {E : AList.Enumeration TokenId Position} {app : AppState}
    {es : List FlightEvent} {s : FlightRun}
    (flat : app.portfolio.positions = ∅) (empty : app.orders.orders = ∅)
    (run : Run (Calc.FlightRun.step E) (fun s e => s.Proper e ∧ Calc.FlightRun.Exact E s e)
      (.start app) es s) :
    FlightRun.CapsHold E app es ↔
      Run (Calc.FlightRun.step E) FlightRun.Fits (.start app) es s := by
  induction run with
  | nil =>
    constructor
    · intro _
      exact .nil
    · intro _ before e t inside
      simp at inside
  | @snoc es s u a before proper taken ih =>
    have inv : FlightInv s := before.keeps
      (fun _ _ _ h ok taken => (FlightRun.step_spec h ok.1 ok.2 taken).1) (.start flat)
    have capped : Run (Calc.FlightRun.step E) FlightRun.Fits (.start app) es s → s.Capped := by
      intro fits
      have both := (before.and fits).keeps (I := fun t => FlightInv t ∧ t.Capped)
        (fun _ _ _ h ok taken => ⟨(FlightRun.step_spec h.1 ok.1.1 ok.1.2 taken).1,
          h.2.step h.1 ok.1.1 ok.1.2 ok.2 taken⟩)
        ⟨.start flat, .start flat empty⟩
      exact both.2
    constructor
    · intro holds
      have fits := ih.mp fun before e t inside => holds before e t
        (inside.trans (List.prefix_append es [a]))
      refine fits.snoc ?_ taken
      cases a with
      | approve signal order wallet book stamps now =>
        have whole : Run (Calc.FlightRun.step E) Anywhere (.start app)
            (es ++ [.approve signal order wallet book stamps now]) u :=
          (before.mono fun _ _ _ => trivial).snoc trivial taken
        rw [Calc.FlightRun.step_approve] at taken
        exact (FlightRun.approve_withinCaps inv (capped fits) taken).mp
          (holds es _ u List.prefix_rfl rfl whole)
      | answer i response now => trivial
      | book i now => trivial
    · intro fits earlier e t inside approval ran
      obtain ⟨s', fits', admitted, _⟩ := fits.last
      cases before.unique fits'
      rcases List.prefix_concat_iff.mp inside with whole | shorter
      · obtain ⟨rfl, same⟩ := List.append_inj' whole rfl
        cases same
        cases ran.unique (before.snoc proper taken)
        cases a with
        | approve signal order wallet book stamps now =>
          rw [Calc.FlightRun.step_approve] at taken
          exact (FlightRun.approve_withinCaps inv (capped fits') taken).mpr admitted
        | answer i response now => cases approval
        | book i now => cases approval
      · exact ih.mpr fits' earlier e t shorter approval ran

/-- An approval of a buy. -/
def FlightEvent.buying (k : Nat) (t : TokenId) (quantity : Qty) (price : Price) : FlightEvent :=
  .approve
    (CopyTrader.signalFor .sample ⟨k⟩ ⟨quantity, quantity.notional price, "fixed_usd", none⟩
      price 1 0)
    { OrderRequest.sample .gtc with
      orderId := ⟨k⟩
      tokenId := t
      quantity := quantity
      limitPrice := price }
    (.new .zero "Target") none (.fromSource 0 false 0) 0

/-- The answer to the `k`-th order, with fills of the given quantities at the given price. -/
def FlightEvent.filling (k : Nat) (price : Price) (quantities : List Qty) : FlightEvent :=
  .answer k (.ok ⟨⟨k⟩, none, 0,
    quantities.map fun quantity =>
      { (OrderRequest.sample .gtc).fullFill price with orderId := ⟨k⟩, quantity := quantity },
    false⟩) 0

/-- Orders of a hundred dollars each, acknowledged without a fill. -/
def restingOrders (n : Nat) : List FlightEvent :=
  (List.range n).flatMap fun k => [.buying k .zero (.whole 200) .half, .filling k .half []]

/-- Two orders: the first is filled in two parts and booked, the second is filled in part. -/
def partlyFilled : List FlightEvent :=
  [.buying 0 .zero (.whole 200) .half, .filling 0 .half [.whole 50, .whole 70], .book 0 0,
    .book 0 0, .book 0 0, .buying 1 .zero (.whole 50) .twoFifths,
    .filling 1 .twoFifths [.whole 30], .book 1 0]

theorem caps_hold_iff_partlyFilled : ∃ s,
    Run (Calc.FlightRun.step .own) (fun s e => s.Proper e ∧ Calc.FlightRun.Exact .own s e)
      (.start .sample) partlyFilled s ∧
    FlightRun.CapsHold .own .sample partlyFilled := by
  have ran : (partlyFilled.foldlM (fun (s : FlightRun) e =>
      if (s.Proper e ∧ Calc.FlightRun.Exact .own s e) ∧ s.Fits e then Calc.FlightRun.step .own s e
      else none) (.start .sample)).isSome = true := by
    decide +kernel
  obtain ⟨s, executed⟩ := Option.isSome_iff_exists.mp ran
  have run : Run (Calc.FlightRun.step .own)
      (fun s e => (s.Proper e ∧ Calc.FlightRun.Exact .own s e) ∧ s.Fits e) (.start .sample)
      partlyFilled s :=
    run_of_foldlM executed
  have quiet := run.mono fun _ _ both => both.1
  exact ⟨s, quiet, (caps_hold_iff rfl rfl quiet).mpr (run.mono fun _ _ both => both.2)⟩

/-- A limit of 17 dollars on a position. -/
def smallCap : AppState :=
  { AppState.sample with
    risk := { AppState.sample.risk with
      limits := { AppState.sample.risk.limits with maxPositionUsd := 17 } } }

/-- Ten shares at a half and twenty at 0.6 cost the limit when they are filled and booked. -/
def atTheCap : List FlightEvent :=
  [.buying 0 .zero (.whole 10) .half, .filling 0 .half [.whole 10], .book 0 0, .book 0 0,
    .buying 1 .zero (.whole 20) (OrderRequest.sample .gtc).limitPrice,
    .filling 1 (OrderRequest.sample .gtc).limitPrice [.whole 20], .book 1 0, .book 1 0]

/-- The eleventh of the resting orders is approved next to a thousand dollars of them. And a
position filled up to its limit is beyond it by the rounded average entry, when an order that fits
is approved for another token. -/
theorem position_cap_passed :
    (¬ ∀ s, Run (Calc.FlightRun.step .own) FlightRun.Proper (.start .sample)
        (restingOrders 10 ++ [.buying 10 .zero (.whole 200) .half]) s →
      FlightRun.CapsHold .own .sample
        (restingOrders 10 ++ [.buying 10 .zero (.whole 200) .half])) ∧
    ¬ ∀ s, Run (Calc.FlightRun.step .own) (fun s e => s.Proper e ∧ s.Fits e) (.start smallCap)
        (atTheCap ++ [.buying 2 .one (.whole 10) .half]) s →
      FlightRun.CapsHold .own smallCap (atTheCap ++ [.buying 2 .one (.whole 10) .half]) := by
  constructor
  · intro all
    have ran : ((restingOrders 10 ++ [FlightEvent.buying 10 .zero (.whole 200) .half]).foldlM
        (fun (s : FlightRun) e => if s.Proper e then Calc.FlightRun.step .own s e else none)
        (.start .sample)).any
          (fun s => s.app.risk.limits.cap (.token .zero) < s.committed (.token .zero)) = true := by
      decide +kernel
    obtain ⟨s, executed, passed⟩ := (Option.any_eq_true _ _).mp ran
    have run := run_of_foldlM executed
    have within := all s run _ _ s List.prefix_rfl rfl (run.mono fun _ _ _ => trivial)
      (.token .zero)
    exact absurd within (not_le.mpr (of_decide_eq_true passed))
  · intro all
    have ran : ((atTheCap ++ [FlightEvent.buying 2 .one (.whole 10) .half]).foldlM
        (fun (s : FlightRun) e =>
          if s.Proper e ∧ s.Fits e then Calc.FlightRun.step .own s e else none)
        (.start smallCap)).any
          (fun s => s.app.risk.limits.cap (.token .zero) < s.committed (.token .zero)) = true := by
      decide +kernel
    obtain ⟨s, executed, passed⟩ := (Option.any_eq_true _ _).mp ran
    have run := run_of_foldlM executed
    have within := all s run _ _ s List.prefix_rfl rfl (run.mono fun _ _ _ => trivial)
      (.token .zero)
    exact absurd within (not_le.mpr (of_decide_eq_true passed))

end CopyTrading
