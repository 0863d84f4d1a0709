import CopyTrading.OrderManager
import CopyTrading.WireTrades

namespace CopyTrading

/-- A signed order payload, and the address it is signed for. -/
structure SignedOrder where
  body : JsonValue
  address : String

structure OrderSigner where
  sign : OrderRequest → Decimal → Except String SignedOrder
  address : String

structure L2Credentials where
  apiKey : String
  secret : String
  passphrase : String

inductive HttpRequest
  | postOrder (signed : SignedOrder)
  /-- A DELETE of the order with this id at the venue. -/
  | deleteOrder (venueOrderId : String)

/-- A response: its status, as it is printed too, and its body, which may fail to arrive. -/
structure HttpResponse where
  status : Nat
  printed : String
  body : Option String

def HttpResponse.isSuccess (r : HttpResponse) : Bool := 200 ≤ r.status ∧ r.status < 300

inductive HttpError
  | timeout (detail : String)
  | other (detail : String)

def HttpError.detail : HttpError → String
  | timeout detail => detail
  | other detail => detail

abbrev HttpOutcome := Except HttpError HttpResponse

/-- The network with the venue behind it, whose own state is `N`. -/
structure HttpClient (N : Type) where
  send : N → HttpRequest → HttpOutcome × N
  now : N → DateTime

/-- One request, the order it was sent for and what came of it. -/
structure Exchange where
  order : OrderId
  request : HttpRequest
  outcome : HttpOutcome

/-- The network, with all that was sent through it. -/
structure Wire (N : Type) where
  network : N
  sent : List Exchange

structure LiveExecution where
  creds : Option L2Credentials
  signer : Option OrderSigner
  /-- Both switches for live trading are on. -/
  armed : Bool
  funderAddress : Option String

/-- All that is missing before a real order can be sent. -/
def LiveExecution.readinessGaps (live : LiveExecution) : List String :=
  (if !live.armed then ["APP_MODE=live and LIVE_TRADING_ENABLED=true"] else []) ++
  (if live.creds.isNone then ["L2 API credentials (key/secret/passphrase)"] else []) ++
  (if live.signer.isNone then ["an OrderSigner implementation (EIP-712 L1 signing)"] else []) ++
  (if live.funderAddress.isNone then ["POLYMARKET_FUNDER_ADDRESS"] else [])

/-- The hyphenated form of a UUID. -/
def OrderId.display (id : OrderId) : String :=
  let digits := Nat.toDigits 16 id.uuid
  let hex := List.replicate (32 - digits.length) '0' ++ digits
  String.ofList (hex.take 8 ++ '-' :: (hex.drop 8).take 4 ++ '-' :: (hex.drop 12).take 4 ++
    '-' :: (hex.drop 16).take 4 ++ '-' :: hex.drop 20)

section Adapter

variable {N : Type} (client : HttpClient N) (parse : String → Option JsonValue)

def Wire.send (w : Wire N) (order : OrderId) (request : HttpRequest) : HttpOutcome × Wire N :=
  let (outcome, network) := client.send w.network request
  (outcome, ⟨network, w.sent ++ [⟨order, request, outcome⟩]⟩)

/-- The venue's id in the body of an acknowledgement, under any of the three names. -/
def venueIdOf (text : String) : Option String :=
  let v := (parse text).getD .null
  (((v.get "orderID").or (v.get "orderId")).or (v.get "id")).bind JsonValue.asStr

/-- What the answer to the POST of an order says about the order. -/
def acknowledgementOf (order : OrderRequest) (sentAt : DateTime) :
    HttpOutcome → Except ExecutionError Acknowledgement
  | .error (.timeout _) => .error (.ambiguous ("timeout after sending order " ++
      order.orderId.display ++ ": it may exist at the venue"))
  | .error (.other detail) => .error (.transport detail)
  | .ok r =>
    let text := r.body.getD ""
    if !r.isSuccess then .error (.rejected ("HTTP " ++ r.printed ++ ": " ++ text))
    else .ok {
      orderId := order.orderId
      venueOrderId := venueIdOf parse text
      acceptedAt := sentAt
      -- fills are left to reconciliation: none is ever invented here
      immediateFills := []
      terminal := false }

def LiveExecution.submit (live : LiveExecution) (w : Wire N) (order : OrderRequest) :
    Except ExecutionError Acknowledgement × Wire N :=
  match live.readinessGaps, live.signer with
  | [], some signer =>
    match signer.sign order order.tickSize with
    | .error e => (.error (.auth ("order signing failed: " ++ e)), w)
    | .ok signed =>
      let sentAt := client.now w.network
      let (outcome, w) := w.send client order.orderId (.postOrder signed)
      (acknowledgementOf parse order sentAt outcome, w)
  | gaps, _ => (.error (.notReady ("live execution is not configured; missing: " ++
      ", ".intercalate gaps ++ ". See docs/LIVE_MODE.md — no order was sent.")), w)

/-- What the answer to a DELETE says about the cancellation. -/
def cancellationOf : HttpOutcome → Except ExecutionError Unit
  | .error e => .error (.transport e.detail)
  | .ok r =>
    if r.isSuccess then .ok () else .error (.rejected ("cancel HTTP " ++ r.printed))

def LiveExecution.cancel (live : LiveExecution) (w : Wire N) (id : OrderId)
    (venueOrderId : Option String) : Except ExecutionError Unit × Wire N :=
  match live.creds with
  | none => (.error (.notReady "no L2 credentials"), w)
  | some _ =>
    match venueOrderId with
    | none => (.error (.unknownOrder id), w)
    | some vid =>
      let (outcome, w) := w.send client id (.deleteOrder vid)
      (cancellationOf outcome, w)

def LiveExecution.adapter (live : LiveExecution) : ExecutionAdapter (Wire N) where
  submit := live.submit client parse
  cancel := live.cancel client

variable {client} {live : LiveExecution}

/-- A submission sends nothing, and is refused, or it sends the signed order. -/
theorem LiveExecution.submit_cases (live : LiveExecution) (client : HttpClient N)
    (parse : String → Option JsonValue) (w : Wire N) (order : OrderRequest) :
    (∃ e, live.submit client parse w order = (.error e, w) ∧ e.requiresReconciliation = false) ∨
      ∃ signed, live.submit client parse w order =
        (acknowledgementOf parse order (client.now w.network)
          (w.send client order.orderId (.postOrder signed)).1,
          (w.send client order.orderId (.postOrder signed)).2) := by
  unfold submit
  split
  next signer _ _ =>
    cases signer.sign order order.tickSize with
    | error e => exact .inl ⟨_, rfl, rfl⟩
    | ok signed => exact .inr ⟨signed, rfl⟩
  next => exact .inl ⟨_, rfl, rfl⟩

theorem gone_cancellationOf {outcome : HttpOutcome} :
    Gone (cancellationOf outcome) ↔ ∃ r, outcome = .ok r ∧ r.isSuccess := by
  cases outcome with
  | error e => exact iff_of_false not_false (by simp)
  | ok r =>
    simp only [cancellationOf]
    cases success : r.isSuccess with
    | true => exact iff_of_true trivial ⟨r, rfl, success⟩
    | false =>
      refine iff_of_false not_false ?_
      rintro ⟨r', same, success'⟩
      cases same
      rw [success] at success'
      cases success'

/-- The live adapter confirms a cancellation after a successful DELETE, and takes an order without
an id at the venue for gone. -/
theorem LiveExecution.cancel_gone {w : Wire N} {id : OrderId} {venueOrderId : Option String}
    (gone : Gone (live.cancel client w id venueOrderId).1) :
    (live.creds.isSome ∧ venueOrderId = none ∧
        live.cancel client w id venueOrderId = (.error (.unknownOrder id), w)) ∨
      ∃ vid r, venueOrderId = some vid ∧ r.isSuccess ∧
        (live.cancel client w id venueOrderId).2.sent =
          w.sent ++ [⟨id, .deleteOrder vid, .ok r⟩] := by
  unfold cancel at gone ⊢
  cases creds : live.creds with
  | none =>
    rw [creds] at gone
    cases gone
  | some c =>
    rw [creds] at gone
    cases venueOrderId with
    | none => exact .inl ⟨rfl, rfl, rfl⟩
    | some vid =>
      obtain ⟨r, outcome, success⟩ := gone_cancellationOf.mp gone
      exact .inr ⟨vid, r, rfl, success, by rw [← outcome]; rfl⟩

end Adapter

end CopyTrading
