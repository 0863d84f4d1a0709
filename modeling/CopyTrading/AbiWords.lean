import CopyTrading.BigEndian

namespace CopyTrading

inductive SigningError
  | badKey (reason : String)
  | badAddress (text : String)
  | badAmount (text : String)
  | unsupportedSignatureType (given : UInt8)
  | ecdsa (reason : String)
  deriving DecidableEq

/-- A fallible step of signing; `none` where the source panics. -/
abbrev Signing := ExceptT SigningError Option

/-- A 32-byte ABI word, the most significant byte first. -/
structure Word where
  bytes : List UInt8
  size : bytes.length = 32
  deriving DecidableEq

theorem Word.eq_of_bytes {v w : Word} (same : v.bytes = w.bytes) : v = w := by
  obtain ⟨_, _⟩ := v
  obtain ⟨_, _⟩ := w
  cases same
  rfl

def Word.zero : Word := ⟨List.replicate 32 0, rfl⟩

/-- The word that writes `n`, which must fit. -/
def Word.ofNat (n : Nat) : Word := ⟨BigEndian.bytes 32 n, BigEndian.length_bytes 32 n⟩

def Word.value (w : Word) : Nat := BigEndian.value w.bytes

theorem Word.value_lt (w : Word) : w.value < 2 ^ 256 := by
  have bound := BigEndian.value_lt w.bytes
  rw [w.size] at bound
  exact bound

theorem Word.value_ofNat {n : Nat} (fits : n < 2 ^ 256) : (Word.ofNat n).value = n :=
  BigEndian.value_bytes fits

theorem Word.eq_of_value {v w : Word} (same : v.value = w.value) : v = w :=
  eq_of_bytes (BigEndian.value_inj (v.size.trans w.size.symm) same)

theorem Word.ofNat_value (w : Word) : Word.ofNat w.value = w :=
  eq_of_value (value_ofNat w.value_lt)

/-- `acc[i] as u16 * 10 + carry`. -/
def timesTen (byte : UInt8) (carry : UInt16) : Option UInt16 :=
  if byte.toNat * 10 + carry.toNat < 2 ^ 16 then some (byte.toUInt16 * 10 + carry) else none

/-- The inner loop, from the last byte to the first, and the carry that is left. -/
def mulAdd : (acc : List UInt8) → UInt16 →
    Option ({ bytes : List UInt8 // bytes.length = acc.length } × UInt16)
  | [], carry => some (⟨[], rfl⟩, carry)
  | byte :: acc, carry => do
    let (rest, carry) ← mulAdd acc carry
    let v ← timesTen byte carry
    some (⟨(v &&& 0xff).toUInt8 :: rest.1, congrArg (· + 1) rest.2⟩, v >>> 8)

/-- `b'0'..=b'9'` -/
def isAsciiDigit (ch : UInt8) : Bool := 48 ≤ ch && ch ≤ 57

/-- The outer loop over the bytes of `text`. -/
def digitsToWord (text : String) : Word → List UInt8 → Signing Word
  | acc, [] => pure acc
  | acc, ch :: s =>
    if isAsciiDigit ch then
      match mulAdd acc.bytes (ch - 48).toUInt16 with
      | some (bytes, carry) =>
        if carry ≠ 0 then throw (.badAmount text)
        else digitsToWord text ⟨bytes.1, bytes.2.trans acc.size⟩ s
      | none => none
    else throw (.badAmount text)

def wordFromDecimalBytes (text : String) (s : List UInt8) : Signing Word :=
  digitsToWord text .zero s

/-- Parses a decimal uint256 string: token ids are far larger than `u128`. -/
def wordFromDecimalString (s : String) : Signing Word := wordFromDecimalBytes s s.toUTF8.toList

/-- The number that a string of decimal digits writes. -/
def decimalNumber (s : List UInt8) : Nat := BigEndian.number 10 (s.map fun ch => ch.toNat - 48)

theorem decimalNumber_cons (ch : UInt8) (s : List UInt8) :
    decimalNumber (ch :: s) = (ch.toNat - 48) * 10 ^ s.length + decimalNumber s := by
  unfold decimalNumber
  rw [List.map_cons, BigEndian.number_cons, List.length_map]

/-- A carry below ten stays below ten, and no step leaves `u16`. -/
theorem timesTen_spec (byte : UInt8) {carry : UInt16} (small : carry.toNat < 10) :
    ∃ v, timesTen byte carry = some v ∧ (v >>> 8).toNat < 10 ∧
      (v >>> 8).toNat * 256 + (v &&& 0xff).toUInt8.toNat = byte.toNat * 10 + carry.toNat := by
  have narrow := byte.toNat_lt
  have fits : byte.toNat * 10 + carry.toNat < 2 ^ 16 := by omega
  have exact_ : (byte.toUInt16 * 10 + carry).toNat = byte.toNat * 10 + carry.toNat := by
    rw [UInt16.toNat_add, UInt16.toNat_mul, UInt8.toNat_toUInt16]
    show (byte.toNat * 10 % 2 ^ 16 + carry.toNat) % 2 ^ 16 = _
    omega
  refine ⟨_, if_pos fits, ?_⟩
  rw [UInt16.toNat_shiftRight, UInt16.toNat_toUInt8, UInt16.toNat_and, exact_]
  show (byte.toNat * 10 + carry.toNat) >>> 8 < 10 ∧ (byte.toNat * 10 + carry.toNat) >>> 8 * 256 +
    ((byte.toNat * 10 + carry.toNat) &&& (2 ^ 8 - 1)) % 2 ^ 8 = _
  rw [Nat.and_two_pow_sub_one_eq_mod, Nat.shiftRight_eq_div_pow]
  omega

/-- The inner loop multiplies by ten and adds the carry. -/
theorem mulAdd_spec (acc : List UInt8) {carry : UInt16} (small : carry.toNat < 10) :
    ∃ bytes over_, mulAdd acc carry = some (bytes, over_) ∧ over_.toNat < 10 ∧
      over_.toNat * 256 ^ acc.length + BigEndian.value bytes.1 =
        BigEndian.value acc * 10 + carry.toNat := by
  induction acc with
  | nil => exact ⟨⟨[], rfl⟩, carry, rfl, small, by simp⟩
  | cons byte acc ih =>
    obtain ⟨rest, inner, ran, less, exact_⟩ := ih
    obtain ⟨v, stepped, below, split_⟩ := timesTen_spec byte less
    refine ⟨⟨(v &&& 0xff).toUInt8 :: rest.1, congrArg (· + 1) rest.2⟩, v >>> 8, ?_, below, ?_⟩
    · rw [mulAdd, ran]
      show (timesTen byte inner >>= fun v => _) = _
      rw [stepped]
      rfl
    · rw [BigEndian.value_cons, BigEndian.value_cons, rest.2, List.length_cons]
      calc (v >>> 8).toNat * 256 ^ (acc.length + 1) +
            ((v &&& 0xff).toUInt8.toNat * 256 ^ acc.length + BigEndian.value rest.1)
          = ((v >>> 8).toNat * 256 + (v &&& 0xff).toUInt8.toNat) * 256 ^ acc.length +
              BigEndian.value rest.1 := by ring
        _ = byte.toNat * 10 * 256 ^ acc.length +
              (inner.toNat * 256 ^ acc.length + BigEndian.value rest.1) := by rw [split_]; ring
        _ = _ := by rw [exact_]; ring

/-- One digit: the word times ten plus the digit, unless that leaves 256 bits. -/
theorem digitsToWord_cons (text : String) (acc : Word) {ch : UInt8} (digit : isAsciiDigit ch = true)
    (s : List UInt8) : digitsToWord text acc (ch :: s) =
      if acc.value * 10 + (ch.toNat - 48) < 2 ^ 256 then
        digitsToWord text (.ofNat (acc.value * 10 + (ch.toNat - 48))) s
      else throw (.badAmount text) := by
  obtain ⟨low, high⟩ := Bool.and_eq_true_iff.mp digit
  have least : 48 ≤ ch.toNat := UInt8.le_iff_toNat_le.mp (of_decide_eq_true low)
  have most : ch.toNat ≤ 57 := UInt8.le_iff_toNat_le.mp (of_decide_eq_true high)
  have read : (ch - 48).toUInt16.toNat = ch.toNat - 48 := by
    rw [UInt8.toNat_toUInt16]
    exact UInt8.toNat_sub_of_le _ _ (UInt8.le_iff_toNat_le.mpr least)
  have small : (ch - 48).toUInt16.toNat < 10 := by omega
  obtain ⟨bytes, carry, ran, _, exact_⟩ := mulAdd_spec acc.bytes small
  have wide : 256 ^ acc.bytes.length = 2 ^ 256 := by
    rw [acc.size]
    rfl
  rw [read, wide] at exact_
  change carry.toNat * 2 ^ 256 + BigEndian.value bytes.1 = acc.value * 10 + _ at exact_
  have word := Word.value_lt ⟨bytes.1, bytes.2.trans acc.size⟩
  change BigEndian.value bytes.1 < 2 ^ 256 at word
  rw [digitsToWord, if_pos digit, ran]
  by_cases none : carry = 0
  · subst none
    change 0 * 2 ^ 256 + _ = _ at exact_
    rw [zero_mul, zero_add] at exact_
    have same : Word.ofNat (acc.value * 10 + (ch.toNat - 48)) =
        ⟨bytes.1, bytes.2.trans acc.size⟩ := by
      rw [← exact_]
      exact Word.ofNat_value ⟨bytes.1, bytes.2.trans acc.size⟩
    rw [if_pos (exact_ ▸ word), same]
    rfl
  · have carried : 0 < carry.toNat :=
      Nat.pos_of_ne_zero fun zero => none (UInt16.toNat_inj.mp zero)
    rw [if_neg (by omega)]
    exact if_pos none

theorem digitsToWord_eq (text : String) (s : List UInt8) (acc : Word) :
    digitsToWord text acc s =
      if s.all isAsciiDigit = true ∧ acc.value * 10 ^ s.length + decimalNumber s < 2 ^ 256 then
        pure (.ofNat (acc.value * 10 ^ s.length + decimalNumber s))
      else throw (.badAmount text) := by
  induction s generalizing acc with
  | nil =>
    have total : acc.value * 10 ^ ([] : List UInt8).length + decimalNumber [] = acc.value :=
      Nat.mul_one _
    rw [total, if_pos ⟨rfl, acc.value_lt⟩, acc.ofNat_value]
    rfl
  | cons ch s ih =>
    by_cases digit : isAsciiDigit ch = true
    · have total : acc.value * 10 ^ (ch :: s).length + decimalNumber (ch :: s) =
          (acc.value * 10 + (ch.toNat - 48)) * 10 ^ s.length + decimalNumber s := by
        rw [decimalNumber_cons, List.length_cons]
        ring
      rw [digitsToWord_cons text acc digit, total, List.all_cons, digit, Bool.true_and]
      by_cases fits : acc.value * 10 + (ch.toNat - 48) < 2 ^ 256
      · rw [if_pos fits, ih, Word.value_ofNat fits]
      · have pow : 0 < 10 ^ s.length := Nat.pow_pos (by decide)
        have grows := Nat.le_mul_of_pos_right (acc.value * 10 + (ch.toNat - 48)) pow
        rw [if_neg fits, if_neg]
        rintro ⟨_, small⟩
        omega
    · rw [digitsToWord, if_neg digit, List.all_cons, if_neg]
      rintro ⟨all, _⟩
      exact digit (Bool.and_eq_true_iff.mp all).1

theorem wordFromDecimalBytes_eq (text : String) (s : List UInt8) :
    wordFromDecimalBytes text s =
      if s.all isAsciiDigit = true ∧ decimalNumber s < 2 ^ 256 then pure (.ofNat (decimalNumber s))
      else throw (.badAmount text) := by
  have zero : Word.zero.value * 10 ^ s.length + decimalNumber s = decimalNumber s := by
    have none : Word.zero.value = 0 := by decide
    rw [none, zero_mul, zero_add]
  rw [wordFromDecimalBytes, digitsToWord_eq, zero]

/-- The parse yields a word exactly for digits that write a number below 2 ^ 256, then the number's
own big-endian bytes; it fails on all other input, and the accumulator never overflows. -/
theorem wordFromDecimalBytes_exact (text : String) (s : List UInt8) :
    (∀ w, wordFromDecimalBytes text s = some (.ok w) ↔
      (∀ ch ∈ s, 48 ≤ ch ∧ ch ≤ 57) ∧ decimalNumber s < 2 ^ 256 ∧
        w.bytes = BigEndian.bytes 32 (decimalNumber s)) ∧
    (¬((∀ ch ∈ s, 48 ≤ ch ∧ ch ≤ 57) ∧ decimalNumber s < 2 ^ 256) →
      wordFromDecimalBytes text s = some (.error (.badAmount text))) ∧
    wordFromDecimalBytes text s ≠ none := by
  have digits : s.all isAsciiDigit = true ↔ ∀ ch ∈ s, 48 ≤ ch ∧ ch ≤ 57 := by
    simp [isAsciiDigit]
  simp only [wordFromDecimalBytes_eq, digits]
  by_cases accepted : (∀ ch ∈ s, 48 ≤ ch ∧ ch ≤ 57) ∧ decimalNumber s < 2 ^ 256
  · rw [if_pos accepted]
    refine ⟨?_, fun refused => absurd accepted refused, Option.some_ne_none _⟩
    intro w
    constructor
    · intro same
      cases same
      exact ⟨accepted.1, accepted.2, rfl⟩
    · rintro ⟨_, _, bytes⟩
      have word : w = .ofNat (decimalNumber s) := Word.eq_of_bytes bytes
      rw [word]
      rfl
  · rw [if_neg accepted]
    refine ⟨?_, fun _ => rfl, Option.some_ne_none _⟩
    intro w
    constructor
    · intro same
      cases same
    · exact fun h => absurd ⟨h.1, h.2.1⟩ accepted

end CopyTrading
