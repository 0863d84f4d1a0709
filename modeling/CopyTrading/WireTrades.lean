import CopyTrading.Clock
import CopyTrading.Trade

namespace CopyTrading

/-- What the error of one field says. -/
inductive FieldError
  | id (e : IdError)
  | money (e : MoneyError)
  | unknownSide (text : String)
  | epoch (text : String)
  deriving DecidableEq

inductive ParseError
  | json (detail : String)
  | field (field : String) (detail : FieldError)
  | notATrade
  | noPayload
  deriving DecidableEq

def fieldId {α : Type} (name : String) (r : Except IdError α) : Except ParseError α :=
  r.mapError fun e => .field name (.id e)

def fieldMoney {α : Type} (name : String) (r : Except MoneyError α) : Except ParseError α :=
  r.mapError fun e => .field name (.money e)

/-- A float of the feed, as far as it is read: whether it is finite, and its shortest text. -/
structure FeedF64 where
  isFinite : Bool
  text : String
  deriving DecidableEq

/-- `serde_json::Value`, with the keys of an object distinct. -/
inductive JsonValue
  | null
  | bool (b : Bool)
  | number (n : FeedF64)
  | string (s : String)
  | array (items : List JsonValue)
  | object (fields : List (String × JsonValue))

namespace JsonValue

def get (v : JsonValue) (key : String) : Option JsonValue :=
  match v with
  | .object fields => fields.lookup key
  | _ => none

def asStr : JsonValue → Option String
  | .string s => some s
  | _ => none

def asBool : JsonValue → Option Bool
  | .bool b => some b
  | _ => none

def asF64 : JsonValue → Option FeedF64
  | .number n => some n
  | _ => none

def asArray : JsonValue → Option (List JsonValue)
  | .array items => some items
  | _ => none

/-- A flag that the row carries itself, as a boolean. -/
def flag (v : JsonValue) (key : String) : Option Bool := (v.get key).bind asBool

end JsonValue

/-- The fields that both wires give of a trade. -/
structure WireTrade where
  proxyWallet : String
  side : String
  asset : String
  conditionId : String
  outcome : String
  price : FeedF64
  size : FeedF64
  /-- Whole seconds. -/
  timestamp : Int
  transactionHash : String
  title : String
  slug : String
  deriving DecidableEq

/-- Envelope of a frame of the activity feed. -/
structure RtdsEnvelope where
  kind : Option String
  /-- Milliseconds. -/
  timestamp : Option Int
  payload : Option WireTrade

/-- Outcome of parsing one frame. -/
inductive RtdsFrame
  | trade (t : ParsedTrade)
  /-- Keepalive, empty string, or a topic we do not consume. Not an error. -/
  | ignored

def Wire.parseSide (text : String) : Except ParseError Side :=
  match String.ofList ((trim text.toList).map Char.toUpper) with
  | "BUY" => .ok .buy
  | "SELL" => .ok .sell
  | other => .error (.field "side" (.unknownSide other))

section Parse

-- `str::parse::<Decimal>`, and `serde_json::from_str` on an envelope
variable (parse : String → Option Decimal) (read : String → Except String RtdsEnvelope)

def feedDecimal (v : FeedF64) : Except MoneyError Decimal :=
  if !v.isFinite then .error (.notFinite v.text)
  else
    match parse v.text with
    | some d => .ok d
    | none => .error (.notFinite v.text)

/-- Ingest boundary for float-encoded prices. -/
def Price.fromFeedF64 (v : FeedF64) : Except MoneyError Price := do
  Price.new (← feedDecimal parse v)

def Qty.fromFeedF64 (v : FeedF64) : Except MoneyError Qty := do
  Qty.new (← feedDecimal parse v)

/-- The millisecond stamp of the envelope, or the payload's own, marked as coarse. -/
def rtdsStamp (env : RtdsEnvelope) (p : WireTrade) : Except ParseError (DateTime × Bool) :=
  match env.timestamp.bind epochToUtc with
  | some t => .ok (t, false)
  | none =>
    match epochToUtc p.timestamp with
    | some t => .ok (t, true)
    | none => .error (.field "timestamp" (.epoch (toString p.timestamp ++ " is not a valid epoch")))

/-- Parses one text frame. -/
def parseRtdsFrame (raw : String) (receivedAt : DateTime) : Except ParseError RtdsFrame :=
  let trimmed := trim raw.toList
  -- an opening brace starts a frame; anything else is a keepalive
  if trimmed.head? ≠ some (Char.ofNat 0x7b) then .ok .ignored
  else do
    let env ← (read (String.ofList trimmed)).mapError .json
    if env.kind ≠ some "trades" then .ok .ignored
    else
      match env.payload with
      | none => .error .noPayload
      | some p => do
        let (sourceTs, coarse) ← rtdsStamp env p
        let trader ← fieldId "proxyWallet" (Address.new p.proxyWallet)
        let marketId ← fieldId "conditionId" (MarketId.new p.conditionId)
        let tokenId ← fieldId "asset" (TokenId.new p.asset)
        let side ← Wire.parseSide p.side
        let price ← fieldMoney "price" (Price.fromFeedF64 parse p.price)
        let quantity ← fieldMoney "size" (Qty.fromFeedF64 parse p.size)
        let txHash ← fieldId "transactionHash" (TxHash.new p.transactionHash)
        return .trade {
          trader := trader
          marketId := marketId
          tokenId := tokenId
          outcome := p.outcome
          side := side
          price := price
          quantity := quantity
          txHash := txHash
          sourceTs := sourceTs
          sourceIsCoarse := coarse
          detectedTs := receivedAt
          marketTitle := p.title
          marketSlug := p.slug
          source := .rtdsWebsocket }

def dataApiStamp (t : WireTrade) : Except ParseError DateTime :=
  match epochToUtc t.timestamp with
  | some ts => .ok ts
  | none => .error (.field "timestamp" (.epoch (toString t.timestamp ++ " invalid")))

/-- Converts a row of the REST backfill. -/
def parseDataApiTrade (t : WireTrade) (receivedAt : DateTime) : Except ParseError ParsedTrade := do
  let trader ← fieldId "proxyWallet" (Address.new t.proxyWallet)
  let marketId ← fieldId "conditionId" (MarketId.new t.conditionId)
  let tokenId ← fieldId "asset" (TokenId.new t.asset)
  let side ← Wire.parseSide t.side
  let price ← fieldMoney "price" (Price.fromFeedF64 parse t.price)
  let quantity ← fieldMoney "size" (Qty.fromFeedF64 parse t.size)
  let txHash ← fieldId "transactionHash" (TxHash.new t.transactionHash)
  let sourceTs ← dataApiStamp t
  return {
    trader := trader
    marketId := marketId
    tokenId := tokenId
    outcome := t.outcome
    side := side
    price := price
    quantity := quantity
    txHash := txHash
    sourceTs := sourceTs
    sourceIsCoarse := true
    detectedTs := receivedAt
    marketTitle := t.title
    marketSlug := t.slug
    source := .restBackfill }

end Parse

end CopyTrading
