import Mathlib.Data.List.Basic

namespace HexText

def value (c : Char) : Option Nat :=
  if '0' ≤ c ∧ c ≤ '9' then some (c.toNat - 48)
  else if 'a' ≤ c ∧ c ≤ 'f' then some (c.toNat - 87)
  else if 'A' ≤ c ∧ c ≤ 'F' then some (c.toNat - 55)
  else none

/-- A pair of hex digits of either case makes a byte; anything else does not decode. -/
def bytes : List Char → Option (List UInt8)
  | [] => some []
  | [_] => none
  | c :: d :: s => do
    let high ← value c
    let low ← value d
    let rest ← bytes s
    some (UInt8.ofNat (high * 16 + low) :: rest)

/-- A byte as two lower-case digits. -/
def pair (b : UInt8) : List Char := [(b.toNat / 16).digitChar, (b.toNat % 16).digitChar]

theorem forall_char {p : Char → Prop} (ascii : ∀ n < 128, p (Char.ofNat n))
    (rest : ∀ c : Char, 128 ≤ c.toNat → p c) (c : Char) : p c := by
  by_cases small : c.toNat < 128
  · have here := ascii c.toNat small
    rwa [Char.ofNat_toNat] at here
  · exact rest c (Nat.not_lt.mp small)

theorem le_iff_toNat {c d : Char} : c ≤ d ↔ c.toNat ≤ d.toNat := UInt32.le_iff_toNat_le

theorem value_of_large {c : Char} (large : 128 ≤ c.toNat) : value c = none := by
  have digit : ¬('0' ≤ c ∧ c ≤ '9') := by
    rintro ⟨_, high⟩
    have bound : c.toNat ≤ 57 := le_iff_toNat.mp high
    omega
  have lower : ¬('a' ≤ c ∧ c ≤ 'f') := by
    rintro ⟨_, high⟩
    have bound : c.toNat ≤ 102 := le_iff_toNat.mp high
    omega
  have upper : ¬('A' ≤ c ∧ c ≤ 'F') := by
    rintro ⟨_, high⟩
    have bound : c.toNat ≤ 70 := le_iff_toNat.mp high
    omega
  unfold value
  rw [if_neg digit, if_neg lower, if_neg upper]

theorem toLower_of_large {c : Char} (large : 128 ≤ c.toNat) : c.toLower = c := by
  have upper : ¬(c.val ≥ 'A'.val ∧ c.val ≤ 'Z'.val) := by
    rintro ⟨_, high⟩
    have bound : c.toNat ≤ 90 := UInt32.le_iff_toNat_le.mp high
    omega
  unfold Char.toLower
  exact dif_neg upper

theorem value_toLower (c : Char) : value c.toLower = value c := by
  have all : ∀ c : Char, value c.toLower = value c := by
    refine forall_char (by decide) ?_
    intro c large
    rw [toLower_of_large large]
  exact all c

theorem toLower_of_value {c : Char} {v : Nat} (h : value c = some v) :
    v < 16 ∧ c.toLower = v.digitChar := by
  have all : ∀ c : Char, (value c).all fun v => v < 16 && c.toLower == v.digitChar := by
    refine forall_char (by decide) ?_
    intro c large
    rw [value_of_large large]
    rfl
  have here := all c
  rw [h] at here
  simpa using here

/-- Decoding does not look at the case. -/
theorem bytes_toLower (s : List Char) : bytes (s.map Char.toLower) = bytes s := by
  fun_induction bytes s with
  | case1 => rfl
  | case2 c => rfl
  | case3 c d s ih =>
    simp only [List.map_cons]
    rw [bytes, value_toLower, value_toLower, ih]

theorem lower_of_bytes {s : List Char} {bs : List UInt8} (h : bytes s = some bs) :
    s.map Char.toLower = bs.flatMap pair := by
  induction s using bytes.induct generalizing bs with
  | case1 =>
    cases h
    rfl
  | case2 c => cases h
  | case3 c d s ih =>
    obtain ⟨high, first, h⟩ := Option.bind_eq_some_iff.mp h
    obtain ⟨low, second, h⟩ := Option.bind_eq_some_iff.mp h
    obtain ⟨rest, others, h⟩ := Option.bind_eq_some_iff.mp h
    cases h
    obtain ⟨small, lower⟩ := toLower_of_value first
    obtain ⟨small', lower'⟩ := toLower_of_value second
    have byte : (UInt8.ofNat (high * 16 + low)).toNat = high * 16 + low := by
      rw [UInt8.toNat_ofNat']
      omega
    have halves : pair (UInt8.ofNat (high * 16 + low)) = [high.digitChar, low.digitChar] := by
      unfold pair
      rw [byte, show (high * 16 + low) / 16 = high by omega,
        show (high * 16 + low) % 16 = low by omega]
    rw [List.map_cons, List.map_cons, List.flatMap_cons, halves, ih others, lower, lower']
    rfl

/-- Texts that decode give the same bytes exactly if they agree up to case. -/
theorem bytes_eq_iff {s t : List Char} {bs cs : List UInt8} (left : bytes s = some bs)
    (right : bytes t = some cs) : bs = cs ↔ s.map Char.toLower = t.map Char.toLower := by
  constructor
  · intro same
    rw [lower_of_bytes left, lower_of_bytes right, same]
  · intro same
    apply Option.some.inj
    rw [← left, ← right, ← bytes_toLower, same, bytes_toLower]

end HexText
