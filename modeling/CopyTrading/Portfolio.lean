import CopyTrading.AssocSum
import CopyTrading.Clock
import CopyTrading.Position

namespace CopyTrading

structure Portfolio where
  cash : Usd
  startingCash : Usd
  positions : AList fun _ : TokenId => Position
  realized : Usd
  fees : Usd
  peakEquity : Usd
  /-- The ordinal day of the year, and the realised PnL booked that day. -/
  daily : Nat × Usd
  byWallet : AList fun _ : Address => Usd
  byMarket : AList fun _ : MarketId => Usd
  /-- Which wallet's signal produced which order. -/
  orderWallet : AList fun _ : OrderId => Address

def Portfolio.new (startingCash : Usd) (now : DateTime) : Portfolio where
  cash := startingCash
  startingCash := startingCash
  positions := ∅
  realized := 0
  fees := 0
  peakEquity := startingCash
  daily := (ordinal now, 0)
  byWallet := ∅
  byMarket := ∅
  orderWallet := ∅

def Portfolio.attributeOrder (p : Portfolio) (order : OrderId) (wallet : Address) : Portfolio :=
  { p with orderWallet := p.orderWallet.insert order wallet }

def Portfolio.position (p : Portfolio) (t : TokenId) : Option Position := p.positions.lookup t

def Portfolio.activePositions (p : Portfolio) : List Position :=
  p.positions.values.filter fun q => !q.isFlat

def Portfolio.netQuantity (p : Portfolio) (t : TokenId) : Decimal :=
  (p.position t).elim 0 Position.netQuantity

def Portfolio.tokenExposure (p : Portfolio) (t : TokenId) : Usd :=
  (p.position t).elim 0 Position.exposure

def Portfolio.marketExposure (p : Portfolio) (m : MarketId) : Usd :=
  ((p.positions.values.filter fun q => q.marketId = m).map Position.exposure).sum

def Portfolio.grossExposure (p : Portfolio) : Usd := p.positions.total Position.exposure

/-- Mark-to-market value of the open positions; `none` if one of them is unmarked. -/
def Portfolio.positionValue (p : Portfolio) : Option Usd :=
  if p.activePositions.any fun q => q.markPrice.isNone then none
  else some (p.activePositions.map fun q => q.netQuantity * q.markPrice.elim 0 Price.get).sum

def Portfolio.unrealizedPnl (p : Portfolio) : Option Usd :=
  if p.activePositions.isEmpty then some 0
  else if p.activePositions.any fun q => q.markPrice.isNone then none
  else some (p.activePositions.filterMap Position.unrealizedPnl).sum

/-- Cash plus position value, or plus the cost basis while a position is unmarked. -/
def Portfolio.equity (p : Portfolio) : Usd :=
  p.cash + p.positionValue.getD (p.positions.total Position.costBasis)

def Portfolio.totalPnl (p : Portfolio) : Usd := p.realized + p.unrealizedPnl.getD 0

def Portfolio.dailyPnl (p : Portfolio) (now : DateTime) : Usd :=
  if p.daily.1 ≠ ordinal now then 0 else p.daily.2

def Portfolio.refreshPeak (p : Portfolio) : Portfolio :=
  { p with peakEquity := if p.equity > p.peakEquity then p.equity else p.peakEquity }

/-- The daily bucket, rolling over when the ordinal day changes. -/
def rollDaily (daily : Nat × Usd) (at_ : DateTime) (realized : Usd) : Nat × Usd :=
  if daily.1 ≠ ordinal at_ then (ordinal at_, realized) else (daily.1, daily.2 + realized)

/-- Applies a fill: cash, fees, position, realised PnL, the daily bucket and attribution. -/
def Portfolio.applyFill (p : Portfolio) (f : Fill) (outcomeName : String) : Position × Portfolio :=
  let held := (p.positions.lookup f.tokenId).getD
    (.new f.marketId f.tokenId outcomeName f.filledAt)
  let (realized, position) := held.apply f.side f.quantity f.price f.fee f.filledAt
  (position, Portfolio.refreshPeak { p with
    cash := p.cash + f.cashDelta
    fees := p.fees + f.fee
    positions := p.positions.insert f.tokenId position
    realized := p.realized + realized
    daily := rollDaily p.daily f.filledAt realized
    byMarket := p.byMarket.upsert f.marketId 0 (· + realized)
    byWallet := match p.orderWallet.lookup f.orderId with
      | some w => p.byWallet.upsert w 0 (· + realized)
      | none => p.byWallet })

def Portfolio.bookFills (p : Portfolio) (outcomeName : String) (fills : List Fill) : Portfolio :=
  fills.foldl (fun p f => (p.applyFill f outcomeName).2) p

def Portfolio.mark (p : Portfolio) (t : TokenId) (price : Price) (at_ : DateTime) : Portfolio :=
  match p.positions.lookup t with
  | some q => Portfolio.refreshPeak { p with positions := p.positions.insert t (q.mark price at_) }
  | none => p.refreshPeak

structure PnlSnapshot where
  at_ : DateTime
  cash : Usd
  positionValue : Usd
  equity : Usd
  realizedPnl : Usd
  /-- `none` when any held position lacks a mark. -/
  unrealizedPnl : Option Usd
  feesPaid : Usd
  grossExposure : Usd
  dailyPnl : Usd
  peakEquity : Usd
  openOrders : Nat
  activePositions : Nat
  deriving DecidableEq

def Portfolio.snapshot (p : Portfolio) (openOrders : Nat) (now : DateTime) : PnlSnapshot where
  at_ := now
  cash := p.cash
  positionValue := p.positionValue.getD 0
  equity := p.equity
  realizedPnl := p.realized
  unrealizedPnl := p.unrealizedPnl
  feesPaid := p.fees
  grossExposure := p.grossExposure
  dailyPnl := p.dailyPnl now
  peakEquity := p.peakEquity
  openOrders := openOrders
  activePositions := p.activePositions.length

def Portfolio.restore (p : Portfolio) (cash : Usd) (positions : List Position) (realized : Usd)
    (fees : Usd) : Portfolio :=
  Portfolio.refreshPeak { p with
    cash := cash
    realized := realized
    fees := fees
    positions := positions.foldl (fun m q => m.insert q.tokenId q) ∅ }

def Portfolio.reset (p : Portfolio) (now : DateTime) : Portfolio := .new p.startingCash now

@[simp] theorem Portfolio.refreshPeak_positions (p : Portfolio) :
    p.refreshPeak.positions = p.positions := rfl

@[simp] theorem Portfolio.refreshPeak_realized (p : Portfolio) :
    p.refreshPeak.realized = p.realized := rfl

theorem Portfolio.applyFill_netQuantity (p : Portfolio) (f : Fill) (outcomeName : String)
    (t : TokenId) : (p.applyFill f outcomeName).2.netQuantity t =
      p.netQuantity t + if t = f.tokenId then f.signedQty else 0 := by
  unfold applyFill netQuantity position
  simp only [refreshPeak_positions]
  by_cases same : t = f.tokenId
  · subst same
    rw [AList.lookup_insert, if_pos rfl]
    show ((p.positions.lookup f.tokenId).getD _).netQuantity + _ = _
    cases p.positions.lookup f.tokenId with
    | none => rfl
    | some q => rfl
  · rw [AList.lookup_insert_ne same, if_neg same, add_zero]

end CopyTrading
