import CopyTrading.Trade

namespace CopyTrading

/-- Rounding of a NUMERIC column of that scale, a half away from zero. -/
def numeric (scale : Nat) (d : Decimal) : Decimal :=
  let whole := ⌊|d| * 10 ^ scale + 1 / 2⌋
  (if d < 0 then -whole else whole) / 10 ^ scale

structure SourceEventRow where
  eventId : SourceEventId
  txHash : TxHash
  trader : Address
  tokenId : TokenId
  side : Side
  price : Decimal
  size : Decimal
  occurrence : Int
  sourceTs : DateTime
  detectedTs : DateTime
  deriving DecidableEq

/-- `x as i32`. -/
def toI32 (n : Nat) : Int := (n + 2 ^ 31 : Int) % 2 ^ 32 - 2 ^ 31

def SourceTrade.row (t : SourceTrade) : SourceEventRow where
  eventId := t.eventId
  txHash := t.txHash
  trader := t.trader
  tokenId := t.tokenId
  side := t.side
  price := numeric 10 t.price.get
  size := numeric 10 t.quantity.get
  occurrence := toI32 t.occurrence
  sourceTs := t.sourceTs
  detectedTs := t.detectedTs

def SourceEventRow.content (r : SourceEventRow) :
    TxHash × Address × TokenId × Side × Decimal × Decimal × Int :=
  (r.txHash, r.trader, r.tokenId, r.side, r.price, r.size, r.occurrence)

/-- NUMERIC(20,10) and NUMERIC(20,6) hold ten and fourteen digits before the point. -/
def SourceTrade.fitsColumns (t : SourceTrade) : Bool :=
  numeric 10 t.quantity.get < 10 ^ 10 ∧ numeric 6 t.notional < 10 ^ 14

inductive StoreError
  | unavailable
  | numericOverflow
  | uniqueViolation
  deriving DecidableEq

/-- The `source_events` table, absent when the store is ephemeral. -/
structure Repositories where
  sourceEvents : Option (List SourceEventRow)

def Repositories.isEphemeral (r : Repositories) : Bool := r.sourceEvents.isNone

/-- `INSERT … ON CONFLICT (event_id) DO NOTHING`; true when the row is new. The statement may not
be executed at all. -/
def Repositories.insertSourceEvent (r : Repositories) (executed : Bool) (t : SourceTrade) :
    Except StoreError Bool × Repositories :=
  match r.sourceEvents with
  | none => (.ok true, r)
  | some rows =>
    if !executed then (.error .unavailable, r)
    else if !t.fitsColumns then (.error .numericOverflow, r)
    else if rows.any fun row => row.eventId = t.eventId then (.ok false, r)
    -- only a conflict on the primary key is passed over
    else if rows.any fun row => row.content = t.row.content then (.error .uniqueViolation, r)
    else (.ok true, ⟨some (rows ++ [t.row])⟩)

end CopyTrading
