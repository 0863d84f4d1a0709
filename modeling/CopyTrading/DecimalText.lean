import Mathlib.Data.List.TakeWhile
import CopyTrading.Dedup

namespace CopyTrading

/-- The value that a decimal text stands for. -/
def decimalValue (text : List Char) : Decimal :=
  let fraction := (text.dropWhile (· != '.')).drop 1
  Nat.ofDigitChars 10 (text.filter (· != '.')) 0 / 10 ^ fraction.length

theorem decimalScale_spec {d : Decimal} (short : (d * 10 ^ 28).den = 1) :
    (d * 10 ^ decimalScale d).den = 1 := by
  have found : ∃ s, (List.range 29).find? (fun k => (d * 10 ^ k).den == 1) = some s := by
    refine Option.isSome_iff_exists.mp (List.find?_isSome.mpr ⟨28, ?_, ?_⟩)
    · exact List.mem_range.mpr (by omega)
    · exact beq_iff_eq.mpr short
  obtain ⟨s, eq⟩ := found
  have whole := List.find?_some eq
  unfold decimalScale
  rw [eq, Option.getD_some]
  exact beq_iff_eq.mp whole

/-- The mantissa that is printed is the whole value at its scale. -/
theorem decimalMantissa {d : Decimal} (nonneg : 0 ≤ d) (short : (d * 10 ^ 28).den = 1) :
    (⌊|d| * 10 ^ decimalScale d⌋.toNat : Decimal) = d * 10 ^ decimalScale d := by
  have whole := decimalScale_spec short
  have value : ((d * 10 ^ decimalScale d).num : Decimal) = d * 10 ^ decimalScale d :=
    Rat.den_eq_one_iff _ |>.mp whole
  have positive : 0 ≤ (d * 10 ^ decimalScale d).num :=
    Rat.num_nonneg.mpr (mul_nonneg nonneg (by positivity))
  rw [abs_of_nonneg nonneg, ← value, Int.floor_intCast]
  exact_mod_cast Int.toNat_of_nonneg positive

theorem noPoint_of_mem_toDigits {n : Nat} {c : Char} (mem : c ∈ Nat.toDigits 10 n) :
    (c != '.') = true := by
  have digit := Nat.isDigit_of_mem_toDigits (by decide) (by decide) mem
  refine bne_iff_ne.mpr ?_
  rintro rfl
  exact absurd digit (by decide)

theorem takeNoPoint (n : Nat) (rest : List Char) :
    (Nat.toDigits 10 n ++ '.' :: rest).dropWhile (· != '.') = '.' :: rest := by
  rw [List.dropWhile_append_of_pos fun c mem => noPoint_of_mem_toDigits mem]
  rfl

/-- A fraction that is padded to the scale has its length and its value. -/
theorem padded_fraction {scale m : Nat} (pos : 0 < scale) (init : Nat) :
    let text := List.replicate (scale - (toString (m % 10 ^ scale)).length) '0' ++
      Nat.toDigits 10 (m % 10 ^ scale)
    text.length = scale ∧ (∀ c ∈ text, (c != '.') = true) ∧
      Nat.ofDigitChars 10 text init = 10 ^ scale * init + m % 10 ^ scale := by
  have under : m % 10 ^ scale < 10 ^ scale := Nat.mod_lt _ (by positivity)
  have digits := (Nat.length_toDigits_le_iff (b := 10) (by decide) pos).mpr under
  have width : (toString (m % 10 ^ scale)).length = (Nat.toDigits 10 (m % 10 ^ scale)).length := by
    rw [← String.length_toList]
    exact congrArg List.length Nat.toList_repr
  have length : (List.replicate (scale - (toString (m % 10 ^ scale)).length) '0' ++
      Nat.toDigits 10 (m % 10 ^ scale)).length = scale := by
    rw [List.length_append, List.length_replicate, width]
    omega
  refine ⟨length, ?_, ?_⟩
  · intro c mem
    rcases List.mem_append.mp mem with zero | digit
    · rw [(List.mem_replicate.mp zero).2]
      rfl
    · exact noPoint_of_mem_toDigits digit
  · rw [Nat.ofDigitChars_eq_ofDigitChars_zero, length, Nat.ofDigitChars_append,
      Nat.ofDigitChars_replicate_zero, Nat.mul_zero, Nat.ofDigitChars_ten_toDigits]

/-- The text of a decimal of at most 28 digits tells its value. -/
theorem decimalValue_decimalText {d : Decimal} (nonneg : 0 ≤ d)
    (short : (d * 10 ^ 28).den = 1) : decimalValue (decimalText d).toList = d := by
  have mantissa := decimalMantissa nonneg short
  have power : (10 : Decimal) ^ decimalScale d ≠ 0 := by positivity
  have value : (⌊|d| * 10 ^ decimalScale d⌋.toNat : Decimal) / 10 ^ decimalScale d = d := by
    rw [mantissa]
    exact mul_div_cancel_right₀ d power
  unfold decimalText
  simp only [if_neg nonneg.not_gt, String.empty_append]
  generalize decimalScale d = scale at value ⊢
  generalize ⌊|d| * 10 ^ scale⌋.toNat = m at value ⊢
  split
  next zero =>
    subst zero
    have digits : (toString (m / 10 ^ 0)).toList = Nat.toDigits 10 m := by
      rw [pow_zero, Nat.div_one]
      exact Nat.toList_repr
    have all : ∀ c ∈ Nat.toDigits 10 m, (c != '.') = true := fun _ => noPoint_of_mem_toDigits
    have rest : (Nat.toDigits 10 m).dropWhile (· != '.') = [] := List.dropWhile_eq_nil_iff.mpr all
    unfold decimalValue
    simp only [digits, rest, List.filter_eq_self.mpr all, Nat.ofDigitChars_ten_toDigits]
    exact value
  next more =>
    have pos : 0 < scale := Nat.pos_of_ne_zero more
    obtain ⟨length, plain, number⟩ := padded_fraction (m := m) pos (m / 10 ^ scale)
    have text : (toString (m / 10 ^ scale) ++ "." ++
        String.ofList (List.replicate (scale - (toString (m % 10 ^ scale)).length) '0') ++
        toString (m % 10 ^ scale)).toList = Nat.toDigits 10 (m / 10 ^ scale) ++ '.' ::
          (List.replicate (scale - (toString (m % 10 ^ scale)).length) '0' ++
            Nat.toDigits 10 (m % 10 ^ scale)) := by
      have whole : (toString (m / 10 ^ scale)).toList = Nat.toDigits 10 (m / 10 ^ scale) :=
        Nat.toList_repr
      have part : (toString (m % 10 ^ scale)).toList = Nat.toDigits 10 (m % 10 ^ scale) :=
        Nat.toList_repr
      simp only [String.toList_append, whole, part, String.toList_ofList, List.append_assoc]
      rfl
    rw [text]
    generalize List.replicate (scale - (toString (m % 10 ^ scale)).length) '0' ++
      Nat.toDigits 10 (m % 10 ^ scale) = fraction at length plain number ⊢
    have all : ∀ c ∈ Nat.toDigits 10 (m / 10 ^ scale), (c != '.') = true :=
      fun _ => noPoint_of_mem_toDigits
    unfold decimalValue
    rw [takeNoPoint, List.filter_append, List.filter_eq_self.mpr all,
      List.filter_cons_of_neg (by decide), List.filter_eq_self.mpr plain, List.drop_one,
      List.tail_cons]
    show ((_ : Nat) : Decimal) / 10 ^ fraction.length = d
    rw [length, Nat.ofDigitChars_append, Nat.ofDigitChars_ten_toDigits, number, Nat.div_add_mod]
    exact value

theorem decimalText_injective {d e : Decimal} (nonneg : 0 ≤ d) (short : (d * 10 ^ 28).den = 1)
    (nonneg' : 0 ≤ e) (short' : (e * 10 ^ 28).den = 1) (h : decimalText d = decimalText e) :
    d = e := by
  rw [← decimalValue_decimalText nonneg short, h, decimalValue_decimalText nonneg' short']

end CopyTrading
