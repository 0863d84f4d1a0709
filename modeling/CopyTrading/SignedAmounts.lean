import CopyTrading.PolymarketOrder

namespace CopyTrading

variable {req : OrderRequest} {maker signer : String} {signatureType : SignatureType}
  {salt : U128} {timestamp : UInt64} {decimals : UInt32} {o : PolymarketOrder}

/-- The request's cost in base units, as the two products of decimals come out. -/
def OrderRequest.scaledCost (req : OrderRequest) (decimals : UInt32) : Option Decimal :=
  (rustDecimal.round (req.quantity.get * req.limitPrice.get)).bind fun notional =>
    rustDecimal.round (notional * baseScale decimals)

/-- Its size in base units. -/
def OrderRequest.scaledSize (req : OrderRequest) (decimals : UInt32) : Option Decimal :=
  rustDecimal.round (req.quantity.get * baseScale decimals)

/-- Base units are the scaled amount, rounded as asked. -/
theorem toBase_ok {scale : Nat} {d : Decimal} {roundUp : Bool} {v : U128}
    (h : (toBase scale d roundUp).run Calc.rounded = some (.ok v)) :
    ∃ scaled, rustDecimal.round (d * scale) = some scaled ∧
      (v.toNat : ℤ) = roundBase scaled roundUp := by
  unfold toBase Calc.op at h
  rw [Calculation.run_bind, Calculation.run_lift] at h
  obtain ⟨scaled, scales, h⟩ := Option.bind_eq_some_iff.mp h
  refine ⟨scaled, scales, ?_⟩
  have amount := Option.some.inj h
  split at amount
  next fits =>
    cases amount
    have narrow : (roundBase scaled roundUp).toNat < 2 ^ 128 := by omega
    rw [BitVec.toNat_ofNat, Nat.mod_eq_of_lt narrow]
    omega
  next => cases amount

theorem toBasePair_ok {given asked : Calc (Except SigningError U128)} {v w : U128}
    (h : (toBasePair given asked).run Calc.rounded = some (.ok (v, w))) :
    given.run Calc.rounded = some (.ok v) ∧ asked.run Calc.rounded = some (.ok w) := by
  unfold toBasePair at h
  rw [Calculation.run_bind] at h
  obtain ⟨first, gives, h⟩ := Option.bind_eq_some_iff.mp h
  cases first with
  | error e => cases h
  | ok v' =>
    simp only [Calculation.run_bind] at h
    obtain ⟨second, asks, h⟩ := Option.bind_eq_some_iff.mp h
    cases second with
    | error e => cases h
    | ok w' =>
      cases h
      exact ⟨gives, asks⟩

/-- What each side offers and asks for, in base units. -/
theorem PolymarketOrder.fromRequest_amounts
    (h : (fromRequest req maker signer signatureType salt timestamp decimals).run Calc.rounded =
      some (.ok o)) :
    ∃ cost size, req.scaledCost decimals = some cost ∧ req.scaledSize decimals = some size ∧
      match req.side with
      | .buy => (o.makerAmount.toNat : ℤ) = ⌊cost⌋ ∧ (o.takerAmount.toNat : ℤ) = ⌊size⌋
      | .sell => (o.makerAmount.toNat : ℤ) = ⌊size⌋ ∧ (o.takerAmount.toNat : ℤ) = ⌈cost⌉ := by
  unfold fromRequest at h
  rw [Calculation.run_bind] at h
  obtain ⟨amounts, prices, h⟩ := Option.bind_eq_some_iff.mp h
  cases amounts with
  | error e => cases h
  | ok amounts =>
    obtain ⟨makerAmount, takerAmount⟩ := amounts
    have kept : o.makerAmount = makerAmount ∧ o.takerAmount = takerAmount := by
      simp only at h
      split at h
      next => cases h
      next =>
        cases h
        exact ⟨rfl, rfl⟩
    rw [kept.1, kept.2]
    unfold OrderRequest.baseAmounts Calc.op at prices
    rw [Calculation.run_bind, Calculation.run_lift] at prices
    obtain ⟨notional, costs, prices⟩ := Option.bind_eq_some_iff.mp prices
    have product : rustDecimal.round (req.quantity.get * req.limitPrice.get) = some notional :=
      costs
    unfold OrderRequest.scaledCost
    rw [product, Option.bind_some]
    cases side : req.side with
    | buy =>
      rw [side] at prices
      obtain ⟨gives, asks⟩ := toBasePair_ok prices
      obtain ⟨cost, scales, offered⟩ := toBase_ok gives
      obtain ⟨size, scales', asked⟩ := toBase_ok asks
      exact ⟨cost, size, scales, scales', offered, asked⟩
    | sell =>
      rw [side] at prices
      obtain ⟨gives, asks⟩ := toBasePair_ok prices
      obtain ⟨size, scales', offered⟩ := toBase_ok gives
      obtain ⟨cost, scales, asked⟩ := toBase_ok asks
      exact ⟨cost, size, scales, scales', offered, asked⟩

/-- The two amounts respect the limit price, and offer no more than the request. -/
def PolymarketOrder.WithinLimit (o : PolymarketOrder) (req : OrderRequest) (decimals : UInt32) :
    Prop :=
  match req.side with
  | .buy => (o.makerAmount.toNat : ℚ) ≤ req.limitPrice.get * o.takerAmount.toNat ∧
    (o.makerAmount.toNat : ℚ) ≤ req.quantity.get * req.limitPrice.get * 10 ^ decimals.toNat
  | .sell => req.limitPrice.get * o.makerAmount.toNat ≤ (o.takerAmount.toNat : ℚ) ∧
    (o.makerAmount.toNat : ℚ) ≤ req.quantity.get * 10 ^ decimals.toNat

/-- What is cut off to whole base units covers what the rounded products are in excess. -/
def OrderRequest.UnitsFair (req : OrderRequest) (decimals : UInt32) (cost size : Decimal) : Prop :=
  let limit := req.limitPrice.get
  match req.side with
  | .buy => limit * Int.fract size + (cost - limit * size) ≤ Int.fract cost ∧
    cost - req.quantity.get * limit * 10 ^ decimals.toNat ≤ Int.fract cost
  | .sell => limit * size - cost ≤ limit * Int.fract size + (⌈cost⌉ - cost) ∧
    size - req.quantity.get * 10 ^ decimals.toNat ≤ Int.fract size

def OrderRequest.RoundsFairly (req : OrderRequest) (decimals : UInt32) : Prop :=
  ∀ cost ∈ req.scaledCost decimals, ∀ size ∈ req.scaledSize decimals,
    req.UnitsFair decimals cost size

/-- The order of thirty shares at 0.6. -/
def PolymarketOrder.thirty : PolymarketOrder :=
  ⟨1, "", "", "0", 18000000, 30000000, 0, .eoa, 1, .zero, .zero⟩

/-- A buy of 1.9 base units at 0.6: the cost of 1.14 rounds down to one unit, as the size does. -/
def OrderRequest.dust : OrderRequest :=
  { OrderRequest.sample .gtc with quantity := ⟨19 / 10000000, by norm_num⟩ }

/-- A buy of a third of a hundred, in 27 places, at 0.15: the cost is rounded up to five dollars. -/
def OrderRequest.third : OrderRequest :=
  { OrderRequest.sample .gtc with
    quantity := ⟨33333333333333333333333333333 / 10 ^ 27, by norm_num⟩
    limitPrice := ⟨3 / 20, by norm_num, by norm_num⟩ }

end CopyTrading
