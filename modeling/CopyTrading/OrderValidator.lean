import CopyTrading.Order
import CopyTrading.TickGrid

namespace CopyTrading

open TickGrid

inductive ValidationError
  | zeroQuantity
  | belowMinSize (qty min : Decimal)
  | offTick (price tick : Decimal)
  | buyLimitBelowReference (limit reference : Decimal)
  | sellLimitAboveReference (limit reference : Decimal)
  deriving DecidableEq

namespace OrderValidator

def validate (o : OrderRequest) (minOrderSize : Decimal) : Except ValidationError Unit :=
  if o.quantity.isZero then .error .zeroQuantity
  else if o.quantity.get < minOrderSize then
    .error (.belowMinSize o.quantity.get minOrderSize)
  else if o.tickSize > 0 ∧ Int.fract (o.limitPrice.get / o.tickSize) ≠ 0 then
    .error (.offTick o.limitPrice.get o.tickSize)
  else if o.orderType = .market then
    match o.side with
    | .buy =>
      if o.limitPrice.get < o.referencePrice.get then
        .error (.buyLimitBelowReference o.limitPrice.get o.referencePrice.get)
      else .ok ()
    | .sell =>
      if o.limitPrice.get > o.referencePrice.get then
        .error (.sellLimitAboveReference o.limitPrice.get o.referencePrice.get)
      else .ok ()
  else .ok ()

/-- Is `p` a whole multiple of `tick`? -/
def isOnTick (p : Price) (tick : Decimal) : Bool := tick ≤ 0 || Int.fract (p.get / tick) = 0

theorem isOnTick_iff {p : Price} {tick : Decimal} :
    isOnTick p tick = true ↔ tick ≤ 0 ∨ OnGrid tick p.get := by
  unfold isOnTick
  rw [Bool.or_eq_true, decide_eq_true_eq, decide_eq_true_eq]
  rcases le_or_gt tick 0 with none | pos
  · exact ⟨fun _ => .inl none, fun _ => .inl none⟩
  · rw [fract_div_eq_zero_iff pos]

/-- A limit that is not on the wrong side of the reference. -/
def Faces (limit reference : Price) : Side → Prop
  | .buy => reference.get ≤ limit.get
  | .sell => limit.get ≤ reference.get

theorem validate_ok_iff {o : OrderRequest} {minOrderSize : Decimal} :
    validate o minOrderSize = .ok () ↔ o.quantity.isZero = false ∧
      minOrderSize ≤ o.quantity.get ∧ isOnTick o.limitPrice o.tickSize = true ∧
      (o.orderType = .market → Faces o.limitPrice o.referencePrice o.side) := by
  unfold validate
  cases zero : o.quantity.isZero with
  | true => simp
  | false =>
    by_cases small : o.quantity.get < minOrderSize
    · simp [small, not_le.mpr small]
    · have big := not_lt.mp small
      by_cases off : o.tickSize > 0 ∧ Int.fract (o.limitPrice.get / o.tickSize) ≠ 0
      · have offTick : isOnTick o.limitPrice o.tickSize = false := by
          unfold isOnTick
          rw [decide_eq_false (not_le.mpr off.1), decide_eq_false off.2]
          rfl
        simp [small, off, offTick]
      · have onTick : isOnTick o.limitPrice o.tickSize = true := by
          unfold isOnTick
          rw [Bool.or_eq_true, decide_eq_true_eq, decide_eq_true_eq]
          by_contra neither
          push Not at neither
          exact off ⟨neither.1, neither.2⟩
        rw [if_neg (by simp), if_neg small, if_neg off]
        by_cases market : o.orderType = .market
        · rw [if_pos market]
          cases side : o.side with
          | buy => simp [big, onTick, market, Faces]
          | sell => simp [big, onTick, market, Faces]
        · simp [big, onTick, market]

end OrderValidator

end CopyTrading
