import CopyTrading.ConfirmedCancels

namespace CopyTrading

open StepRun

def HttpResponse.isServerError (r : HttpResponse) : Bool := 500 ≤ r.status ∧ r.status < 600

/-- Nothing but a status that says so means that the venue has not created the order. -/
def mayHaveCreated : HttpOutcome → Bool
  | .error _ => true
  | .ok r => r.isSuccess || r.isServerError

/-- The venue has answered with a status that is no success. -/
def Refused : HttpOutcome → Prop
  | .error _ => False
  | .ok r => r.isSuccess = false

def AnsweredServerError : HttpOutcome → Prop
  | .error _ => False
  | .ok r => r.isServerError

/-- The states of an order that is taken to exist, or to have existed, at the venue. -/
inductive OrderState.Placed : OrderState → Prop
  | acknowledged : Placed .acknowledged
  | partiallyFilled : Placed .partiallyFilled
  | filled : Placed .filled
  | cancelRequested : Placed .cancelRequested
  | cancelled : Placed .cancelled
  | unknown : Placed .unknown

/-- What the answer to its POST makes of an order for good. -/
structure Settled (outcome : HttpOutcome) (st : OrderState) : Prop where
  refused : Refused outcome → st = .rejected
  placed : ¬Refused outcome → st.Placed

theorem Settled.not_validated {outcome : HttpOutcome} {st : OrderState} (h : Settled outcome st) :
    st ≠ .validated := by
  rintro rfl
  by_cases refused : Refused outcome
  · cases h.refused refused
  · cases h.placed refused

theorem Settled.of_placed {outcome : HttpOutcome} {st st' : OrderState} (h : Settled outcome st)
    (before : st ≠ .rejected) (after : st'.Placed) : Settled outcome st' :=
  ⟨fun refused => absurd (h.refused refused) before, fun _ => after⟩

/-- The order manager files the order as the adapter reads the answer. -/
theorem Order.answered_settled (o : Order) (parse : String → Option JsonValue)
    (order : OrderRequest) (sentAt now at_ : DateTime) (outcome : HttpOutcome) :
    Settled outcome
      ((o.sent now).answered (acknowledgementOf parse order sentAt outcome) at_).state := by
  cases outcome with
  | error e =>
    refine ⟨False.elim, fun _ => ?_⟩
    cases e with
    | timeout _ =>
      rw [acknowledgementOf, (o.answered_error _ now at_).1]
      exact .unknown
    | other _ =>
      rw [acknowledgementOf, (o.answered_error _ now at_).1]
      exact .unknown
  | ok r =>
    cases success : r.isSuccess with
    | false =>
      refine ⟨fun _ => ?_, fun accepted => absurd success accepted⟩
      simp only [acknowledgementOf, success]
      exact (o.answered_error _ now at_).1
    | true =>
      refine ⟨fun refused => ?_, fun _ => ?_⟩
      · rw [Refused, success] at refused
        cases refused
      · simp only [acknowledgementOf, success]
        rw [if_neg (by simp), (o.answered_nil now at_ rfl).1]
        exact .acknowledged

section Runs

variable {N : Type} {client : HttpClient N} {parse : String → Option JsonValue}
  {live : LiveExecution} {s t : OrderManager × Wire N} {e : OrderEvent}

/-- Every order that was posted is filed as its answer says. -/
structure PostedInv (s : OrderManager × Wire N) : Prop where
  keyed : s.1.Keyed
  posted : ∀ x ∈ s.2.sent, ∀ signed, x.request = .postOrder signed →
    ∃ o, s.1.get x.order = some o ∧ Settled x.outcome o.state

/-- A cancellation posts nothing. -/
theorem LiveExecution.cancel_posts {w : Wire N} {id : OrderId} {venueOrderId : Option String}
    {x : Exchange} {signed : SignedOrder} (post : x.request = .postOrder signed)
    (mem : x ∈ (live.cancel client w id venueOrderId).2.sent) : x ∈ w.sent := by
  rcases live.cancel_cases client w id venueOrderId with eq | ⟨vid, outcome, eq⟩
  · rw [eq] at mem
    exact mem
  · rw [eq] at mem
    rcases List.mem_append.mp mem with before | new_
    · exact before
    · rw [List.mem_singleton.mp new_] at post
      cases post

/-- An order that was filed is never filed otherwise. -/
theorem Settled.effect (h : OrderEffect (live.adapter client parse) s e t) {id : OrderId}
    {o : Order} {outcome : HttpOutcome} (stored : s.1.get id = some o)
    (settled : Settled outcome o.state) :
    ∃ o', t.1.get id = some o' ∧ Settled outcome o'.state := by
  obtain ⟨o', stored', write⟩ := h.write stored
  refine ⟨o', stored', ?_⟩
  cases write with
  | other => exact settled
  | idle => exact settled
  | submitted validated => exact absurd validated settled.not_validated
  | filled may =>
    refine settled.of_placed ?_ ?_
    · intro rejected
      rw [rejected] at may
      cases may
    · rw [Order.withFill_state]
      split
      · exact .filled
      · exact .partiallyFilled
  | cancelled working =>
    exact settled.of_placed (working.ne (by simp [OrderState.Working])) .cancelled
  | requested working =>
    exact settled.of_placed (working.ne (by simp [OrderState.Working])) .cancelRequested

theorem PostedInv.effect (inv : PostedInv s) (h : OrderEffect (live.adapter client parse) s e t) :
    PostedInv t := by
  refine ⟨h.keyed inv.keyed, ?_⟩
  intro x mem signed post
  have older : x ∈ s.2.sent → ∃ o, t.1.get x.order = some o ∧ Settled x.outcome o.state := by
    intro before
    obtain ⟨o, stored, settled⟩ := inv.posted x before signed post
    exact Settled.effect h stored settled
  cases h with
  | kept => exact older mem
  | registered => exact older mem
  | filled => exact older mem
  | @submitted om id now at_ o stored _ orders =>
    rcases live.submit_cases client parse s.2 o.request with ⟨e, eq, _⟩ | ⟨signed', eq⟩
    · have same : ((live.adapter client parse).submit s.2 o.request).2 = s.2 :=
        congrArg Prod.snd eq
      rw [same] at mem
      exact older mem
    · have answer : (live.adapter client parse).submit s.2 o.request = _ := eq
      rw [answer] at mem
      rcases List.mem_append.mp mem with before | new_
      · exact older before
      · rw [List.mem_singleton.mp new_]
        have key : o.request.orderId = id := inv.keyed id o stored
        rw [answer] at orders
        rw [key] at orders ⊢
        exact ⟨_, OrderManager.get_written orders,
          o.answered_settled parse o.request _ now at_ _⟩
  | cancelled => exact older (LiveExecution.cancel_posts post mem)
  | requested => exact older (LiveExecution.cancel_posts post mem)

end Runs

/-- An answer that may stand for an order at the venue is no refusal, unless it is a server
error. -/
theorem not_refused_iff {outcome : HttpOutcome} (may : mayHaveCreated outcome) :
    ¬Refused outcome ↔ ¬AnsweredServerError outcome := by
  cases outcome with
  | error e => exact iff_of_true id id
  | ok r =>
    have range : r.isSuccess = true → r.isServerError = false := by
      intro success
      have within : 200 ≤ r.status ∧ r.status < 300 := of_decide_eq_true success
      exact decide_eq_false (by omega)
    have either : (r.isSuccess || r.isServerError) = true := may
    simp only [Refused, AnsweredServerError]
    cases success : r.isSuccess with
    | true => simp [range success]
    | false =>
      rw [success, Bool.false_or] at either
      simp [either]

/-- Over every run, an order that may have been created is never filed as rejected or failed
exactly if no POST of an order was answered with a server error. -/
theorem OrderManager.never_rejected_iff {N : Type} (client : HttpClient N)
    (parse : String → Option JsonValue) (live : LiveExecution) (network : N) {es : List OrderEvent}
    {s : OrderManager × Wire N}
    (run : Run (OrderEvent.step (live.adapter client parse)) Anywhere (.new, ⟨network, []⟩) es s) :
    (∀ x ∈ s.2.sent, ∀ signed, x.request = .postOrder signed → mayHaveCreated x.outcome →
      ∀ o, s.1.get x.order = some o → o.state ≠ .rejected ∧ o.state ≠ .failed) ↔
    ∀ x ∈ s.2.sent, ∀ signed, x.request = .postOrder signed → ¬AnsweredServerError x.outcome := by
  have start : PostedInv ((OrderManager.new, ⟨network, []⟩) : OrderManager × Wire N) :=
    ⟨keyed_new, fun x mem => absurd mem List.not_mem_nil⟩
  have inv : PostedInv s := run.keeps
    (fun t a u inv _ taken => PostedInv.effect inv (OrderEvent.effect inv.keyed taken)) start
  constructor
  · intro alive x mem signed post serverError
    have may : mayHaveCreated x.outcome := by
      unfold AnsweredServerError at serverError
      unfold mayHaveCreated
      split at serverError
      next => exact serverError.elim
      next => simp [serverError]
    obtain ⟨o, stored, settled⟩ := inv.posted x mem signed post
    refine (alive x mem signed post may o stored).1 (settled.refused ?_)
    by_contra accepted
    exact (not_refused_iff may).mp accepted serverError
  · intro none_ x mem signed post may o stored
    obtain ⟨o', stored', settled⟩ := inv.posted x mem signed post
    rw [stored] at stored'
    cases stored'
    have placed := settled.placed ((not_refused_iff may).mpr (none_ x mem signed post))
    constructor
    · intro state
      rw [state] at placed
      cases placed
    · intro state
      rw [state] at placed
      cases placed

def submitOnce : List OrderEvent := [.register (.sample .gtc) (.begin 0) 1, .submit ⟨0⟩ 2 3]

/-- A submission whose answer never comes. -/
theorem OrderManager.never_rejected_timeout :
    ∃ s, Run (OrderEvent.step (LiveExecution.sample.adapter
        (.constant (.error (.timeout "operation timed out"))) parseSample)) Anywhere
        (.new, ⟨(), []⟩) submitOnce s ∧
      ∀ x ∈ s.2.sent, ∀ signed, x.request = .postOrder signed → mayHaveCreated x.outcome →
        ∀ o, s.1.get x.order = some o → o.state ≠ .rejected ∧ o.state ≠ .failed := by
  have start : Run (OrderEvent.step (LiveExecution.sample.adapter
      (.constant (.error (.timeout "operation timed out"))) parseSample)) Anywhere
      (.new, ⟨(), []⟩) [] _ := .nil
  have registered := start.snoc (a := .register (.sample .gtc) (.begin 0) 1) trivial rfl
  have submitted := registered.snoc (a := .submit ⟨0⟩ 2 3) trivial rfl
  refine ⟨_, submitted, (never_rejected_iff _ _ _ () submitted).mpr ?_⟩
  intro x mem signed _ serverError
  rw [List.mem_singleton.mp mem] at serverError
  exact serverError

/-- A gateway gives up on the venue, and the order is filed as rejected. -/
theorem OrderManager.rejected_badGateway :
    ∃ s x signed o, Run (OrderEvent.step (LiveExecution.sample.adapter
        (.constant (.ok ⟨502, "502 Bad Gateway", some ""⟩)) parseSample)) Anywhere
        (.new, ⟨(), []⟩) submitOnce s ∧
      x ∈ s.2.sent ∧ x.request = .postOrder signed ∧ mayHaveCreated x.outcome ∧
      s.1.get x.order = some o ∧ o.state = .rejected := by
  have start : Run (OrderEvent.step (LiveExecution.sample.adapter
      (.constant (.ok ⟨502, "502 Bad Gateway", some ""⟩)) parseSample)) Anywhere
      (.new, ⟨(), []⟩) [] _ := .nil
  have registered := start.snoc (a := .register (.sample .gtc) (.begin 0) 1) trivial rfl
  have submitted := registered.snoc (a := .submit ⟨0⟩ 2 3) trivial rfl
  exact ⟨_, _, _, _, submitted, List.mem_cons_self, rfl, rfl, rfl, rfl⟩

end CopyTrading
