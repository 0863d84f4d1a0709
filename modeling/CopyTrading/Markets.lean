import CopyTrading.Fallible
import CopyTrading.WireTrades

namespace CopyTrading

/-- One outcome leg of a market. -/
structure Outcome where
  tokenId : TokenId
  name : String
  deriving DecidableEq

structure Market where
  marketId : MarketId
  slug : String
  title : String
  outcomes : List Outcome
  tickSize : Decimal
  minOrderSize : Decimal
  negRisk : Bool
  active : Bool
  closed : Bool
  acceptingOrders : Bool

def Market.isTradable (m : Market) : Bool := m.active && !m.closed && m.acceptingOrders

/-- One entry of a row's `tokens`. -/
def clobOutcome (t : JsonValue) : Option Outcome := do
  let text ← (t.get "token_id").bind JsonValue.asStr
  let tokenId ← (TokenId.new text).toOption
  let name ← (t.get "outcome").bind JsonValue.asStr
  return ⟨tokenId, name⟩

section Rows

-- `Decimal::try_from` on a float
variable (tryFrom : FeedF64 → Option Decimal)

/-- A row of the order book service, whose shape is flat and already decoded. -/
def clobMarketToDomain (v : JsonValue) : Except ParseError Market := do
  let cid := ((v.get "condition_id").bind JsonValue.asStr).getD ""
  let marketId ← fieldId "condition_id" (MarketId.new cid)
  let rows := ((v.get "tokens").bind JsonValue.asArray).getD []
  return {
    marketId := marketId
    slug := ((v.get "market_slug").bind JsonValue.asStr).getD ""
    title := ((v.get "question").bind JsonValue.asStr).getD ""
    outcomes := rows.filterMap clobOutcome
    tickSize := (((v.get "minimum_tick_size").bind JsonValue.asF64).bind tryFrom).getD (1 / 100)
    minOrderSize := (((v.get "minimum_order_size").bind JsonValue.asF64).bind tryFrom).getD 5
    negRisk := (v.flag "neg_risk").getD false
    active := (v.flag "active").getD false
    closed := (v.flag "closed").getD true
    acceptingOrders := (v.flag "accepting_orders").getD false }

/-- Markets that have an active book; a row that does not parse is left out. -/
def samplingMarkets (rows : List JsonValue) : List Market :=
  rows.filterMap fun v => (clobMarketToDomain tryFrom v).toOption

end Rows

/-- What a row must say of itself for its market to be traded. -/
structure SaysTradable (v : JsonValue) : Prop where
  active : v.flag "active" = some true
  closed : v.flag "closed" = some false
  acceptingOrders : v.flag "accepting_orders" = some true

/-- The row lists the token among its outcomes. -/
def ListsToken (v : JsonValue) (t : TokenId) : Prop :=
  ∃ items, v.get "tokens" = some (.array items) ∧ ∃ item ∈ items, ∃ o,
    clobOutcome item = some o ∧ o.tokenId = t

theorem JsonValue.asArray_eq_some {v : JsonValue} {items : List JsonValue}
    (h : v.asArray = some items) : v = .array items := by
  cases v with
  | array xs =>
    cases h
    rfl
  | _ => cases h

variable {tryFrom : FeedF64 → Option Decimal}

/-- An incomplete row is never tradable: each of the three flags must be there, as it should. -/
theorem clobMarketToDomain_tradable {v : JsonValue} {m : Market}
    (parsed : clobMarketToDomain tryFrom v = .ok m) (tradable : m.isTradable = true) :
    SaysTradable v := by
  obtain ⟨marketId, _, same⟩ := Fallible.bind_eq_ok parsed
  cases same
  obtain ⟨open_, accepting⟩ := Bool.and_eq_true_iff.mp tradable
  obtain ⟨active, closed⟩ := Bool.and_eq_true_iff.mp open_
  have closed : (v.flag "closed").getD true = false := by simpa using closed
  refine ⟨?_, ?_, ?_⟩
  · cases h : v.flag "active" with
    | none => simp [h] at active
    | some b => simpa [h] using active
  · cases h : v.flag "closed" with
    | none => simp [h] at closed
    | some b => simpa [h] using closed
  · cases h : v.flag "accepting_orders" with
    | none => simp [h] at accepting
    | some b => simpa [h] using accepting

theorem clobMarketToDomain_outcome {v : JsonValue} {m : Market}
    (parsed : clobMarketToDomain tryFrom v = .ok m) {o : Outcome} (listed : o ∈ m.outcomes) :
    ListsToken v o.tokenId := by
  obtain ⟨marketId, _, same⟩ := Fallible.bind_eq_ok parsed
  cases same
  obtain ⟨item, mem, read⟩ := List.mem_filterMap.mp listed
  cases h : (v.get "tokens").bind JsonValue.asArray with
  | none => simp [h] at mem
  | some items =>
    obtain ⟨value, got, isArray⟩ := Option.bind_eq_some_iff.mp h
    cases JsonValue.asArray_eq_some isArray
    rw [h] at mem
    exact ⟨items, got, item, mem, o, read, rfl⟩

end CopyTrading
