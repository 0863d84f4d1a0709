import CopyTrading.CalcMoney
import CopyTrading.Portfolio

namespace CopyTrading

/-- The position without the money it made and the fees it paid. -/
def Position.bare (q : Position) : Position := { q with realizedPnl := 0, feesPaid := 0 }

namespace Calc

/-- The sum of what `f` makes of each, from nothing and in this order. -/
def sumOf {α : Type} (add : Decimal → Calc Decimal) (f : α → Calc Usd) (xs : List α) : Calc Usd :=
  xs.foldlM (fun total x => do
    let part ← f x
    add (total + part)) 0

def cashDelta (f : Fill) : Calc Usd := do
  let cost ← account (f.quantity.get * f.price.get)
  match f.side with
  | .buy => do
    let out ← account (cost + f.fee)
    pure (-out)
  | .sell => account (cost - f.fee)

namespace Position

def exposure (p : Position) : Calc Usd := do
  let value ← op (p.netQuantity * p.markPrice.elim p.avgEntry Price.get)
  pure |value|

def costBasis (p : Position) : Calc Usd := account (p.netQuantity * p.avgEntry)

/-- What a fill of `signed` shares at `px` realises, and the quantity and the average entry it
leaves. -/
def book (p : Position) (signed px : Decimal) : Calc (Decimal × Decimal × Decimal) :=
  let oldQty := p.netQuantity
  if oldQty = 0 ∨ (0 < oldQty ↔ 0 < signed) then do
    let newQty ← sizes (oldQty + signed)
    if newQty ≠ 0 then
      let held ← op (oldQty * p.avgEntry)
      let traded ← op (signed * px)
      let cost ← op (held + traded)
      let avgEntry ← op (cost / newQty)
      pure (0, newQty, avgEntry)
    else pure (0, newQty, p.avgEntry)
  else do
    let closing := min |signed| |oldQty|
    let gain ← account (if 0 < oldQty then px - p.avgEntry else p.avgEntry - px)
    let realized ← account (closing * gain)
    let newQty ← sizes (oldQty + signed)
    pure (realized, newQty,
      if newQty = 0 then 0
      else if ¬(0 < newQty ↔ 0 < oldQty) then px
      else p.avgEntry)

/-- Multiplying by the sign of a side is exact. -/
def apply (p : Position) (side : Side) (qty : Qty) (price : Price) (fee : Usd) (at_ : DateTime) :
    Calc (Usd × Position) := do
  let (realized, newQty, avgEntry) ← book p (side.sign * qty.get) price.get
  let gained ← profits (p.realizedPnl + realized)
  let paid ← fees (p.feesPaid + fee)
  let kept ← profits (gained - fee)
  let booked ← profits (realized - fee)
  pure (booked,
    { p with
      netQuantity := newQty
      avgEntry := avgEntry
      realizedPnl := kept
      feesPaid := paid
      updatedAt := at_ })

end Position

namespace Portfolio

variable (E : AList.Enumeration TokenId Position)

def tokenExposure (p : Portfolio) (t : TokenId) : Calc Usd :=
  (p.position t).elim (pure 0) Position.exposure

def marketExposure (p : Portfolio) (m : MarketId) : Calc Usd :=
  sumOf op Position.exposure ((E.list p.positions).filter fun q => q.marketId = m)

def grossExposure (p : Portfolio) : Calc Usd := sumOf op Position.exposure (E.list p.positions)

def positionValue (p : Portfolio) : Calc (Option Usd) :=
  let held := (E.list p.positions).filter fun q => !q.isFlat
  if held.any fun q => q.markPrice.isNone then pure none
  else do
    let value ← sumOf account (fun q => account (q.netQuantity * q.markPrice.elim 0 Price.get)) held
    pure (some value)

def equity (p : Portfolio) : Calc Usd := do
  match ← positionValue E p with
  | some value => account (p.cash + value)
  | none => do
    let cost ← sumOf account Position.costBasis (E.list p.positions)
    account (p.cash + cost)

def refreshPeak (p : Portfolio) : Calc Portfolio := do
  let equity ← equity E p
  pure { p with peakEquity := if equity > p.peakEquity then equity else p.peakEquity }

def rollDaily (daily : Nat × Usd) (at_ : DateTime) (realized : Usd) : Calc (Nat × Usd) := do
  let before := if daily.1 ≠ ordinal at_ then 0 else daily.2
  let booked ← account (before + realized)
  pure (ordinal at_, booked)

def unrealizedPnl (p : Portfolio) : Calc (Option Usd) :=
  let held := (E.list p.positions).filter fun q => !q.isFlat
  if held.isEmpty then pure (some 0)
  else if held.any fun q => q.markPrice.isNone then pure none
  else do
    let gained ← sumOf account (fun q => do
      let gain ← account (q.markPrice.elim 0 Price.get - q.avgEntry)
      account (q.netQuantity * gain)) held
    pure (some gained)

def snapshot (p : Portfolio) (openOrders : Nat) (now : DateTime) : Calc PnlSnapshot := do
  let equity ← equity E p
  let value ← positionValue E p
  let unrealized ← unrealizedPnl E p
  let gross ← grossExposure E p
  pure {
    at_ := now
    cash := p.cash
    positionValue := value.getD 0
    equity := equity
    realizedPnl := p.realized
    unrealizedPnl := unrealized
    feesPaid := p.fees
    grossExposure := gross
    dailyPnl := p.dailyPnl now
    peakEquity := p.peakEquity
    openOrders := openOrders
    activePositions := p.activePositions.length }

/-- The wallet breakdown, where the fill's order is attributed. -/
def attributed (p : Portfolio) (f : Fill) (realized : Usd) :
    Calc (AList fun _ : Address => Usd) :=
  match p.orderWallet.lookup f.orderId with
  | some w => do
    let booked ← profits ((p.byWallet.lookup w).getD 0 + realized)
    pure (p.byWallet.insert w booked)
  | none => pure p.byWallet

/-- The position that a fill is applied to. -/
def bookedOn (p : Portfolio) (f : Fill) (outcomeName : String) : Position :=
  (p.positions.lookup f.tokenId).getD (.new f.marketId f.tokenId outcomeName f.filledAt)

def applyFill (p : Portfolio) (f : Fill) (outcomeName : String) : Calc (Position × Portfolio) := do
  let delta ← cashDelta f
  let cash ← account (p.cash + delta)
  let paid ← fees (p.fees + f.fee)
  let (realized, position) ←
    Position.apply (bookedOn p f outcomeName) f.side f.quantity f.price f.fee f.filledAt
  let total ← profits (p.realized + realized)
  let daily ← rollDaily p.daily f.filledAt realized
  let market ← profits ((p.byMarket.lookup f.marketId).getD 0 + realized)
  let byWallet ← attributed p f realized
  let p ← refreshPeak E { p with
    cash := cash
    fees := paid
    positions := p.positions.insert f.tokenId position
    realized := total
    daily := daily
    byMarket := p.byMarket.insert f.marketId market
    byWallet := byWallet }
  pure (position, p)

def bookFills (p : Portfolio) (outcomeName : String) (fills : List Fill) : Calc Portfolio :=
  fills.foldlM (fun p f => do
    let (_, p) ← applyFill E p f outcomeName
    pure p) p

def mark (p : Portfolio) (t : TokenId) (price : Price) (at_ : DateTime) : Calc Portfolio :=
  match p.positions.lookup t with
  | some q => refreshPeak E { p with positions := p.positions.insert t (q.mark price at_) }
  | none => refreshPeak E p

end Portfolio

variable {machine : Operands → Decimal → Option Decimal} {E : AList.Enumeration TokenId Position}

/-- What a machine makes of a fill on a position. -/
structure Position.AppliedBy (machine : Operands → Decimal → Option Decimal) (p : Position)
    (side : Side) (qty : Qty) (price : Price) (fee : Usd) (at_ : DateTime) (gain booked : Usd)
    (p' : Position) : Prop where
  book : (book p (side.sign * qty.get) price.get).run machine =
    some (gain, p'.netQuantity, p'.avgEntry)
  profits : (do
    let gained ← profits (p.realizedPnl + gain)
    profits (gained - fee)).run machine = some p'.realizedPnl
  fees : machine .fees (p.feesPaid + fee) = some p'.feesPaid
  booked : machine .profits (gain - fee) = some booked
  rest : p' = { p with
    netQuantity := p'.netQuantity
    avgEntry := p'.avgEntry
    realizedPnl := p'.realizedPnl
    feesPaid := p'.feesPaid
    updatedAt := at_ }

theorem Position.apply_run {p p' : Position} {side : Side} {qty : Qty} {price : Price} {fee : Usd}
    {at_ : DateTime} {booked : Usd}
    (h : (apply p side qty price fee at_).run machine = some (booked, p')) :
    ∃ gain, AppliedBy machine p side qty price fee at_ gain booked p' := by
  unfold apply at h
  rw [Calculation.run_bind] at h
  obtain ⟨⟨gain, newQty, avgEntry⟩, books, h⟩ := Option.bind_eq_some_iff.mp h
  simp only [Calculation.run_bind] at h
  obtain ⟨gained, gains, h⟩ := Option.bind_eq_some_iff.mp h
  obtain ⟨paid, pays, h⟩ := Option.bind_eq_some_iff.mp h
  obtain ⟨kept, keeps, h⟩ := Option.bind_eq_some_iff.mp h
  obtain ⟨net, nets, h⟩ := Option.bind_eq_some_iff.mp h
  cases h
  unfold Calc.fees at pays
  unfold Calc.profits at nets
  rw [Calculation.run_lift] at pays nets
  refine ⟨gain, books, ?_, pays, nets, rfl⟩
  rw [Calculation.run_bind, gains]
  exact keeps

namespace Portfolio

/-- The peak is at least the equity, as the machine adds it up, and has not fallen. -/
structure Peaked (machine : Operands → Decimal → Option Decimal)
    (E : AList.Enumeration TokenId Position) (p p' : Portfolio) : Prop where
  covers : ∃ now, (equity E p').run machine = some now ∧ now ≤ p'.peakEquity
  higher : p.peakEquity ≤ p'.peakEquity

theorem refreshPeak_run {p p' : Portfolio} (h : (refreshPeak E p).run machine = some p') :
    Peaked machine E p p' ∧ p' = { p with peakEquity := p'.peakEquity } := by
  unfold refreshPeak at h
  rw [Calculation.run_bind] at h
  obtain ⟨equity, adds, h⟩ := Option.bind_eq_some_iff.mp h
  cases h
  refine ⟨⟨⟨equity, adds, ?_⟩, ?_⟩, rfl⟩
  · simp only
    split
    next => exact le_rfl
    next lower => exact not_lt.mp lower
  · simp only
    split
    next higher => exact higher.le
    next => exact le_rfl

/-- What a machine makes of a fill on the portfolio. -/
structure FilledBy (machine : Operands → Decimal → Option Decimal)
    (E : AList.Enumeration TokenId Position) (p : Portfolio) (f : Fill) (outcomeName : String)
    (gain booked : Usd) (q : Position) (p' : Portfolio) : Prop where
  applied : Position.AppliedBy machine (bookedOn p f outcomeName) f.side f.quantity f.price f.fee
    f.filledAt gain booked q
  positions : p'.positions = p.positions.insert f.tokenId q
  fees : machine .fees (p.fees + f.fee) = some p'.fees
  realized : machine .profits (p.realized + booked) = some p'.realized
  market : ∃ total, machine .profits ((p.byMarket.lookup f.marketId).getD 0 + booked) = some total ∧
    p'.byMarket = p.byMarket.insert f.marketId total
  wallet : (attributed p f booked).run machine = some p'.byWallet
  peaked : Peaked machine E p p'
  orderWallet : p'.orderWallet = p.orderWallet
  startingCash : p'.startingCash = p.startingCash

theorem applyFill_run {p p' : Portfolio} {f : Fill} {outcomeName : String} {q : Position}
    (h : (applyFill E p f outcomeName).run machine = some (q, p')) :
    ∃ gain booked, FilledBy machine E p f outcomeName gain booked q p' := by
  unfold applyFill at h
  simp only [Calculation.run_bind] at h
  obtain ⟨delta, _, h⟩ := Option.bind_eq_some_iff.mp h
  obtain ⟨cash, _, h⟩ := Option.bind_eq_some_iff.mp h
  obtain ⟨paid, pays, h⟩ := Option.bind_eq_some_iff.mp h
  obtain ⟨⟨booked, position⟩, applies, h⟩ := Option.bind_eq_some_iff.mp h
  simp only at h
  obtain ⟨total, totals, h⟩ := Option.bind_eq_some_iff.mp h
  obtain ⟨daily, _, h⟩ := Option.bind_eq_some_iff.mp h
  obtain ⟨market, markets, h⟩ := Option.bind_eq_some_iff.mp h
  obtain ⟨byWallet, wallets, h⟩ := Option.bind_eq_some_iff.mp h
  obtain ⟨p'', refreshes, h⟩ := Option.bind_eq_some_iff.mp h
  cases h
  obtain ⟨gain, applied⟩ := Position.apply_run applies
  obtain ⟨peaked, same⟩ := refreshPeak_run refreshes
  unfold Calc.fees at pays
  unfold profits at totals markets
  rw [Calculation.run_lift] at pays totals markets
  refine ⟨gain, booked, applied, ?_, ?_, ?_, ⟨market, markets, ?_⟩, ?_,
    ⟨peaked.covers, peaked.higher⟩, ?_, ?_⟩
  · rw [same]
  · rw [same]
    exact pays
  · rw [same]
    exact totals
  · rw [same]
  · rw [same]
    exact wallets
  · rw [same]
  · rw [same]

/-- A mark moves no quantity and no sum but the equity. -/
theorem mark_run {p p' : Portfolio} {t : TokenId} {price : Price} {at_ : DateTime}
    (h : (mark E p t price at_).run machine = some p') : Peaked machine E p p' ∧
      p' = { p with
        positions := (p.positions.lookup t).elim p.positions fun q =>
          p.positions.insert t (q.mark price at_)
        peakEquity := p'.peakEquity } := by
  unfold mark at h
  cases held : p.positions.lookup t with
  | none =>
    rw [held] at h
    exact refreshPeak_run h
  | some q =>
    rw [held] at h
    obtain ⟨peaked, same⟩ := refreshPeak_run h
    exact ⟨⟨peaked.covers, peaked.higher⟩, same⟩

theorem mark_netQuantity {p p' : Portfolio} {t : TokenId} {price : Price} {at_ : DateTime}
    (h : (mark E p t price at_).run machine = some p') (t' : TokenId) :
    p'.netQuantity t' = p.netQuantity t' := by
  obtain ⟨_, same⟩ := mark_run h
  unfold CopyTrading.Portfolio.netQuantity CopyTrading.Portfolio.position
  rw [same]
  simp only
  cases held : p.positions.lookup t with
  | none => rfl
  | some q =>
    rw [Option.elim_some]
    by_cases here : t' = t
    · subst here
      rw [AList.lookup_insert, held]
      rfl
    · rw [AList.lookup_insert_ne here]

end Portfolio

section Guarded

variable {kinds : Operands → Prop} [DecidablePred kinds]

theorem sumOf_guarded (exact_ : kinds .other) {α : Type} {f : α → Calc Usd} {g : α → Usd}
    (each : ∀ x v, (f x).run (guarded kinds) = some v → v = g x) {xs : List α} {total : Usd}
    (h : (sumOf op f xs).run (guarded kinds) = some total) : total = (xs.map g).sum := by
  have sum := Calculation.run_foldlM_sum id g (fun n x n' turn => by
    rw [Calculation.run_bind] at turn
    obtain ⟨part, parts, adds⟩ := Option.bind_eq_some_iff.mp turn
    rw [← each x part parts]
    exact op_guarded exact_ adds) h
  exact sum.trans (zero_add _)

theorem Position.book_quantity (amounts : kinds .sizes) {p : Position}
    {signed px gain newQty avgEntry : Decimal}
    (h : (book p signed px).run (guarded kinds) = some (gain, newQty, avgEntry)) :
    newQty = p.netQuantity + signed := by
  unfold book at h
  simp only at h
  split at h
  next =>
    rw [Calculation.run_bind] at h
    obtain ⟨net, adds, h⟩ := Option.bind_eq_some_iff.mp h
    rw [sizes_guarded amounts adds] at h
    split at h
    next =>
      simp only [Calculation.run_bind] at h
      obtain ⟨_, _, h⟩ := Option.bind_eq_some_iff.mp h
      obtain ⟨_, _, h⟩ := Option.bind_eq_some_iff.mp h
      obtain ⟨_, _, h⟩ := Option.bind_eq_some_iff.mp h
      obtain ⟨_, _, h⟩ := Option.bind_eq_some_iff.mp h
      cases h
      rfl
    next =>
      cases h
      rfl
  next =>
    simp only [Calculation.run_bind] at h
    obtain ⟨_, _, h⟩ := Option.bind_eq_some_iff.mp h
    obtain ⟨_, _, h⟩ := Option.bind_eq_some_iff.mp h
    obtain ⟨net, adds, h⟩ := Option.bind_eq_some_iff.mp h
    rw [sizes_guarded amounts adds] at h
    cases h
    rfl

theorem Position.book_average (amounts : kinds .sizes) (prices : kinds .other) {p : Position}
    {signed px gain newQty avgEntry : Decimal}
    (h : (book p signed px).run (guarded kinds) = some (gain, newQty, avgEntry)) :
    avgEntry = (p.book signed px).2 := by
  unfold book at h
  unfold CopyTrading.Position.book
  simp only at h ⊢
  split at h
  next onward =>
    rw [if_pos onward]
    rw [Calculation.run_bind] at h
    obtain ⟨net, adds, h⟩ := Option.bind_eq_some_iff.mp h
    rw [sizes_guarded amounts adds] at h
    split at h
    next some_ =>
      simp only [Calculation.run_bind] at h
      obtain ⟨held, holds, h⟩ := Option.bind_eq_some_iff.mp h
      obtain ⟨traded, trades, h⟩ := Option.bind_eq_some_iff.mp h
      obtain ⟨cost, costs, h⟩ := Option.bind_eq_some_iff.mp h
      obtain ⟨average, divides, h⟩ := Option.bind_eq_some_iff.mp h
      cases h
      rw [if_pos some_, op_guarded prices divides, op_guarded prices costs,
        op_guarded prices holds, op_guarded prices trades]
    next none_ =>
      cases h
      exact (if_neg none_).symm
  next against =>
    rw [if_neg against]
    simp only [Calculation.run_bind] at h
    obtain ⟨_, _, h⟩ := Option.bind_eq_some_iff.mp h
    obtain ⟨_, _, h⟩ := Option.bind_eq_some_iff.mp h
    obtain ⟨net, adds, h⟩ := Option.bind_eq_some_iff.mp h
    rw [sizes_guarded amounts adds] at h
    cases h
    rfl

/-- With exact quantities and prices, a fill leaves the position of the plain model but for its
money. -/
theorem Position.AppliedBy.bare {p p' : Position} {side : Side} {qty : Qty} {price : Price}
    {fee gain booked : Usd} {at_ : DateTime} (amounts : kinds .sizes) (prices : kinds .other)
    (h : AppliedBy (guarded kinds) p side qty price fee at_ gain booked p') :
    p'.bare = (p.apply side qty price fee at_).2.bare := by
  have net := book_quantity amounts h.book
  have average := book_average amounts prices h.book
  rw [h.rest]
  unfold CopyTrading.Position.bare
  simp only [net, average]
  rfl

theorem Position.exposure_guarded (prices : kinds .other) {q : Position} {x : Usd}
    (h : (exposure q).run (guarded kinds) = some x) : x = q.exposure := by
  unfold exposure at h
  rw [Calculation.run_bind] at h
  obtain ⟨value, multiplies, h⟩ := Option.bind_eq_some_iff.mp h
  cases h
  rw [op_guarded prices multiplies]
  rfl

namespace Portfolio

theorem FilledBy.netQuantity (amounts : kinds .sizes) {p p' : Portfolio} {f : Fill}
    {outcomeName : String} {gain booked : Usd} {q : Position}
    (h : FilledBy (guarded kinds) E p f outcomeName gain booked q p') (t : TokenId) :
    p'.netQuantity t = p.netQuantity t + if f.tokenId = t then f.signedQty else 0 := by
  unfold CopyTrading.Portfolio.netQuantity CopyTrading.Portfolio.position
  rw [h.positions]
  by_cases same : f.tokenId = t
  · subst same
    have net := Position.book_quantity amounts h.applied.book
    rw [AList.lookup_insert, if_pos rfl, Option.elim_some, net]
    unfold bookedOn
    cases p.positions.lookup f.tokenId with
    | none => rfl
    | some q => rfl
  · rw [AList.lookup_insert_ne (Ne.symm same), if_neg same, add_zero]

theorem FilledBy.paid (exact_ : kinds .fees) {p p' : Portfolio} {f : Fill} {outcomeName : String}
    {gain booked : Usd} {q : Position}
    (h : FilledBy (guarded kinds) E p f outcomeName gain booked q p') :
    p'.fees = p.fees + f.fee :=
  (guarded_eq_some h.fees).2 exact_

theorem grossExposure_guarded (prices : kinds .other) {p : Portfolio} {x : Usd}
    (h : (grossExposure E p).run (guarded kinds) = some x) : x = p.grossExposure := by
  rw [sumOf_guarded prices (fun _ _ => Position.exposure_guarded prices) h]
  exact ((E.perm p.positions).map _).sum_eq

theorem marketExposure_guarded (prices : kinds .other) {p : Portfolio} {m : MarketId} {x : Usd}
    (h : (marketExposure E p m).run (guarded kinds) = some x) : x = p.marketExposure m := by
  rw [sumOf_guarded prices (fun _ _ => Position.exposure_guarded prices) h]
  exact (((E.perm p.positions).filter _).map _).sum_eq

theorem tokenExposure_guarded (prices : kinds .other) {p : Portfolio} {t : TokenId} {x : Usd}
    (h : (tokenExposure p t).run (guarded kinds) = some x) : x = p.tokenExposure t := by
  unfold tokenExposure at h
  unfold CopyTrading.Portfolio.tokenExposure
  cases held : p.position t with
  | none =>
    rw [held] at h
    exact (Option.some.inj h).symm
  | some q =>
    rw [held] at h
    exact Position.exposure_guarded prices h

end Portfolio

end Guarded

end Calc

end CopyTrading
