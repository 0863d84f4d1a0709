import CopyTrading.LiveExecution
import CopyTrading.OrderEvents

namespace CopyTrading

open StepRun

/-- A DELETE of the order was answered with a success status. -/
def Confirmed (sent : List Exchange) (id : OrderId) (o : Order) : Prop :=
  ∃ vid r, o.venueOrderId = some vid ∧ r.isSuccess ∧ ⟨id, .deleteOrder vid, .ok r⟩ ∈ sent

theorem Confirmed.mono {sent sent' : List Exchange} {id : OrderId} {o : Order}
    (h : Confirmed sent id o) (more : sent <+: sent') : Confirmed sent' id o := by
  obtain ⟨vid, r, known, success, mem⟩ := h
  exact ⟨vid, r, known, success, more.subset mem⟩

section Live

variable {N : Type} {client : HttpClient N} {parse : String → Option JsonValue}
  {live : LiveExecution} {s t : OrderManager × Wire N} {e : OrderEvent}

theorem LiveExecution.submit_sent (w : Wire N) (order : OrderRequest) :
    w.sent <+: (live.submit client parse w order).2.sent := by
  rcases live.submit_cases client parse w order with ⟨e, eq, _⟩ | ⟨signed, eq⟩
  · rw [eq]
  · rw [eq]
    exact List.prefix_append _ _

/-- A cancellation sends nothing, or one DELETE. -/
theorem LiveExecution.cancel_cases (live : LiveExecution) (client : HttpClient N) (w : Wire N)
    (id : OrderId) (venueOrderId : Option String) :
    (live.cancel client w id venueOrderId).2.sent = w.sent ∨
      ∃ vid outcome, (live.cancel client w id venueOrderId).2.sent =
        w.sent ++ [⟨id, .deleteOrder vid, outcome⟩] := by
  unfold cancel
  cases live.creds with
  | none => exact .inl rfl
  | some _ =>
    cases venueOrderId with
    | none => exact .inl rfl
    | some vid => exact .inr ⟨vid, _, rfl⟩

theorem LiveExecution.cancel_sent (w : Wire N) (id : OrderId) (venueOrderId : Option String) :
    w.sent <+: (live.cancel client w id venueOrderId).2.sent := by
  rcases live.cancel_cases client w id venueOrderId with eq | ⟨vid, outcome, eq⟩
  · rw [eq]
  · rw [eq]
    exact List.prefix_append _ _

theorem OrderEffect.sent (h : OrderEffect (live.adapter client parse) s e t) :
    s.2.sent <+: t.2.sent := by
  cases h with
  | kept => exact List.prefix_rfl
  | registered => exact List.prefix_rfl
  | submitted => exact LiveExecution.submit_sent _ _
  | filled => exact List.prefix_rfl
  | cancelled => exact LiveExecution.cancel_sent _ _ _
  | requested => exact LiveExecution.cancel_sent _ _ _

/-- A cancellation finds the id of the order at the venue, or no credentials to use it with. -/
def CancelsKnown (live : LiveExecution) (s : OrderManager × Wire N) : OrderEvent → Prop
  | .cancel id _ _ => ∀ o, s.1.get id = some o → o.state.Working → live.creds.isSome →
      o.venueOrderId.isSome
  | _ => True

end Live

/-- The answer to a submission never leaves the order cancelled. -/
theorem Order.answered_not_cancelled (o : Order) (response : Except ExecutionError Acknowledgement)
    (now at_ : DateTime) : ((o.sent now).answered response at_).state ≠ .cancelled := by
  cases response with
  | ok ack =>
    have sent : (o.sent now).state = .submitted := rfl
    intro state
    rcases acknowledge_state sent ack at_ with eq | eq | eq | eq <;>
      · rw [show ((o.sent now).acknowledge ack at_).1.state = .cancelled from state] at eq
        cases eq
  | error e =>
    rw [(o.answered_error e now at_).1]
    split <;> exact nofun

/-- No call writes a cancelled order. -/
theorem OrderEffect.cancelled_stays {A : Type} {adapter : ExecutionAdapter A}
    {s t : OrderManager × A} {e : OrderEvent} (h : OrderEffect adapter s e t) {id : OrderId}
    {o : Order} (stored : s.1.get id = some o) (cancelled : o.state = .cancelled) :
    t.1.get id = some o := by
  obtain ⟨o', stored', write⟩ := h.write stored
  cases write with
  | other => exact stored'
  | idle => exact stored'
  | submitted validated =>
    rw [cancelled] at validated
    cases validated
  | filled may =>
    rw [cancelled] at may
    cases may
  | cancelled working => exact absurd cancelled (working.ne (by simp [OrderState.Working]))
  | requested working => exact absurd cancelled (working.ne (by simp [OrderState.Working]))

section Runs

variable {N : Type} {client : HttpClient N} {parse : String → Option JsonValue}
  {live : LiveExecution} {s t : OrderManager × Wire N} {e : OrderEvent}

/-- Without an id at the venue the live adapter takes every order for gone. -/
theorem LiveExecution.cancel_unknown (creds : live.creds.isSome) (w : Wire N) (id : OrderId) :
    Gone (live.cancel client w id none).1 := by
  unfold cancel
  cases held : live.creds with
  | none =>
    rw [held] at creds
    cases creds
  | some _ => trivial

/-- An order that a step has cancelled is confirmed, or was never known to the venue. -/
theorem OrderEffect.cancels (h : OrderEffect (live.adapter client parse) s e t) {id : OrderId}
    {o : Order} (stored : t.1.get id = some o) (cancelled : o.state = .cancelled) :
    s.1.get id = some o ∨ Confirmed t.2.sent id o ∨
      (o.venueOrderId = none ∧ ¬CancelsKnown live s e) := by
  by_cases about : id = e.target
  · cases h with
    | kept => exact .inl stored
    | @registered _ req _ _ o' _ validated orders =>
      have here : id = req.orderId := about
      rw [here, OrderManager.get_written orders] at stored
      cases stored
      rw [validated.fields.1] at cancelled
      cases cancelled
    | @submitted _ id' _ _ o' _ _ orders =>
      have here : id = id' := about
      rw [here, OrderManager.get_written orders] at stored
      cases stored
      exact absurd cancelled (o'.answered_not_cancelled _ _ _)
    | @filled _ f o' _ _ _ orders =>
      have here : id = f.orderId := about
      rw [here, OrderManager.get_written orders] at stored
      cases stored
      rw [Order.withFill_state] at cancelled
      split at cancelled <;> cases cancelled
    | @cancelled _ id' _ _ o' stored' working gone orders =>
      have here : id = id' := about
      subst here
      rw [OrderManager.get_written orders] at stored
      cases stored
      refine .inr ?_
      rcases LiveExecution.cancel_gone gone with ⟨creds, none_, _⟩ | ⟨vid, r, known, success, eq⟩
      · refine .inr ⟨none_, fun known => ?_⟩
        have some_ := known o' stored' working creds
        rw [none_] at some_
        cases some_
      · refine .inl ⟨vid, r, known, success, ?_⟩
        have sent : ((live.adapter client parse).cancel s.2 id o'.venueOrderId).2.sent =
            s.2.sent ++ [⟨id, .deleteOrder vid, .ok r⟩] := eq
        rw [sent]
        exact List.mem_append_right _ List.mem_cons_self
    | @requested _ id' _ _ o' _ _ _ orders =>
      have here : id = id' := about
      rw [here, OrderManager.get_written orders] at stored
      cases stored
      cases cancelled
  · rw [h.frame about] at stored
    exact .inl stored

/-- A cancellation of an order without an id at the venue marks it cancelled all the same. -/
theorem OrderEffect.cancels_unknown (h : OrderEffect (live.adapter client parse) s e t)
    (unknown : ¬CancelsKnown live s e) :
    ∃ id o, t.1.get id = some o ∧ o.state = .cancelled ∧ o.venueOrderId = none := by
  have blind : ∀ {id : OrderId} {now at_ : DateTime} {o : Order}, s.1.get id = some o →
      ¬CancelsKnown live s (.cancel id now at_) →
      live.creds.isSome ∧ o.venueOrderId = none := by
    intro id now at_ o stored unknown
    unfold CancelsKnown at unknown
    push Not at unknown
    obtain ⟨o', stored', _, creds, none_⟩ := unknown
    rw [stored] at stored'
    cases stored'
    exact ⟨creds, Option.not_isSome_iff_eq_none.mp none_⟩
  cases h with
  | kept idle =>
    cases e with
    | cancel id now at_ =>
      exact absurd (fun o stored working => absurd working (idle o stored)) unknown
    | _ => exact absurd trivial unknown
  | registered => exact absurd trivial unknown
  | submitted => exact absurd trivial unknown
  | filled => exact absurd trivial unknown
  | cancelled stored _ _ orders =>
    exact ⟨_, _, OrderManager.get_written orders, rfl, (blind stored unknown).2⟩
  | @requested _ id _ _ o stored _ refused _ =>
    obtain ⟨creds, none_⟩ := blind stored unknown
    have gone : Gone (live.cancel client s.2 id none).1 :=
      LiveExecution.cancel_unknown creds s.2 id
    rw [← none_] at gone
    exact absurd gone refused

/-- Every cancelled order is confirmed. -/
def AllConfirmed (s : OrderManager × Wire N) : Prop :=
  ∀ id o, s.1.get id = some o → o.state = .cancelled → Confirmed s.2.sent id o

/-- Every cancelled order is confirmed or without an id at the venue. -/
structure CancelledInv (s : OrderManager × Wire N) : Prop where
  keyed : s.1.Keyed
  cancelled : ∀ id o, s.1.get id = some o → o.state = .cancelled →
    Confirmed s.2.sent id o ∨ o.venueOrderId = none

theorem CancelledInv.new (w : Wire N) : CancelledInv (OrderManager.new, w) := by
  refine ⟨OrderManager.keyed_new, ?_⟩
  intro id o stored
  cases stored

theorem CancelledInv.effect (inv : CancelledInv s)
    (h : OrderEffect (live.adapter client parse) s e t) : CancelledInv t := by
  refine ⟨h.keyed inv.keyed, ?_⟩
  intro id o stored cancelled
  rcases h.cancels stored cancelled with before | confirmed | ⟨none_, _⟩
  · rcases inv.cancelled id o before cancelled with confirmed | none_
    · exact .inl (confirmed.mono h.sent)
    · exact .inr none_
  · exact .inl confirmed
  · exact .inr none_

/-- A step keeps every cancelled order confirmed exactly if its cancellation knows the order. -/
theorem AllConfirmed.effect_iff (inv : CancelledInv s)
    (h : OrderEffect (live.adapter client parse) s e t) :
    AllConfirmed t ↔ AllConfirmed s ∧ CancelsKnown live s e := by
  constructor
  · intro all
    constructor
    · intro id o stored cancelled
      rcases inv.cancelled id o stored cancelled with confirmed | none_
      · exact confirmed
      · obtain ⟨vid, _, known, _⟩ := all id o (h.cancelled_stays stored cancelled) cancelled
        rw [none_] at known
        cases known
    · by_contra unknown
      obtain ⟨id, o, stored, cancelled, none_⟩ := h.cancels_unknown unknown
      obtain ⟨vid, _, known, _⟩ := all id o stored cancelled
      rw [none_] at known
      cases known
  · rintro ⟨all, known⟩ id o stored cancelled
    rcases h.cancels stored cancelled with before | confirmed | ⟨_, unknown⟩
    · exact (all id o before cancelled).mono h.sent
    · exact confirmed
    · exact absurd known unknown

end Runs

/-- Over every run, the orders that are marked cancelled are those the venue has confirmed exactly
if each cancellation finds the order's id at the venue or no credentials. -/
theorem OrderManager.cancelled_confirmed_iff {N : Type} (client : HttpClient N)
    (parse : String → Option JsonValue) (live : LiveExecution) (w : Wire N) {es : List OrderEvent}
    {s : OrderManager × Wire N}
    (run : Run (OrderEvent.step (live.adapter client parse)) Anywhere (.new, w) es s) :
    (AllConfirmed s ↔
      Run (OrderEvent.step (live.adapter client parse)) (CancelsKnown live) (.new, w) es s) ∧
    ∀ now at_, Run (OrderEvent.step (live.adapter client parse)) Anywhere s
      (s.1.openOrders.map fun o => .cancel o.id (now o.id) (at_ o.id))
      (s.1.cancelAll (live.adapter client parse) s.2 now at_).2 := by
  constructor
  · refine run.iff_admitted ?_ ?_ (CancelledInv.new w) ?_
    · exact fun t a u inv taken => inv.effect (OrderEvent.effect inv.keyed taken)
    · exact fun t a u inv taken => AllConfirmed.effect_iff inv (OrderEvent.effect inv.keyed taken)
    · intro id o stored
      cases stored
  · exact fun now at_ => cancelAll_run (live.adapter client parse) s.1 s.2 now at_

def LiveExecution.sample : LiveExecution where
  creds := some ⟨"key", "secret", "passphrase"⟩
  signer := some ⟨fun _ _ => .ok ⟨.null, "0x1"⟩, "0x1"⟩
  armed := true
  funderAddress := some "0x1"

/-- A network on which every request has the same outcome. -/
def HttpClient.constant (outcome : HttpOutcome) : HttpClient Unit where
  send n _ := (outcome, n)
  now _ := 0

/-- A parser that knows one body, and no other JSON text. -/
def parseSample (text : String) : Option JsonValue :=
  if text = "\x7b\"orderID\":\"0xab\"\x7d" then some (.object [("orderID", .string "0xab")])
  else none

def cancelAfterAck : List OrderEvent :=
  [.register (.sample .gtc) (.begin 0) 1, .submit ⟨0⟩ 2 3, .cancel ⟨0⟩ 4 5]

/-- The acknowledgement carries the order's id at the venue. -/
theorem OrderManager.cancelled_confirmed_sample :
    ∃ s, Run (OrderEvent.step (LiveExecution.sample.adapter
        (.constant (.ok ⟨200, "200 OK", some "\x7b\"orderID\":\"0xab\"\x7d"⟩)) parseSample)) Anywhere
        (.new, ⟨(), []⟩) cancelAfterAck s ∧
      AllConfirmed s ∧ (s.1.get ⟨0⟩).map Order.state = some .cancelled := by
  have start : Run (OrderEvent.step (LiveExecution.sample.adapter
      (.constant (.ok ⟨200, "200 OK", some "\x7b\"orderID\":\"0xab\"\x7d"⟩)) parseSample))
      (CancelsKnown .sample) (.new, ⟨(), []⟩) [] _ := .nil
  have registered := start.snoc (a := .register (.sample .gtc) (.begin 0) 1) (by trivial) rfl
  have submitted := registered.snoc (a := .submit ⟨0⟩ 2 3) (by trivial) rfl
  have cancelled := submitted.snoc (a := .cancel ⟨0⟩ 4 5) (by
    intro o stored _ _
    cases stored
    rfl) rfl
  have run := cancelled.mono fun _ _ _ => trivial
  exact ⟨_, run, (cancelled_confirmed_iff _ _ _ _ run).1.mpr cancelled, rfl⟩

/-- The acknowledgement's body is not understood, and the order is marked cancelled without a
DELETE. -/
theorem OrderManager.cancelled_unconfirmed :
    ∃ s o, Run (OrderEvent.step (LiveExecution.sample.adapter
        (.constant (.ok ⟨200, "200 OK", some "accepted"⟩)) parseSample)) Anywhere
        (.new, ⟨(), []⟩) cancelAfterAck s ∧
      s.1.get ⟨0⟩ = some o ∧ o.state = .cancelled ∧
      s.2.sent.map (fun x => x.request matches .deleteOrder _) = [false] := by
  have start : Run (OrderEvent.step (LiveExecution.sample.adapter
      (.constant (.ok ⟨200, "200 OK", some "accepted"⟩)) parseSample)) Anywhere
      (.new, ⟨(), []⟩) [] _ := .nil
  have registered := start.snoc (a := .register (.sample .gtc) (.begin 0) 1) trivial rfl
  have submitted := registered.snoc (a := .submit ⟨0⟩ 2 3) trivial rfl
  have cancelled := submitted.snoc (a := .cancel ⟨0⟩ 4 5) trivial rfl
  exact ⟨_, _, cancelled, rfl, rfl, rfl⟩

end CopyTrading
