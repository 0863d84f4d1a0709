import CopyTrading.AbiWords
import CopyTrading.Ids
import CopyTrading.Utf8Text

namespace CopyTrading

/-- The digits of a token id, as they are stored. -/
def TokenId.digits (t : TokenId) : List Nat := t.asStr.toList.map fun c => c.toNat - 48

/-- The venue token that the id writes. -/
def TokenId.number (t : TokenId) : Nat := BigEndian.number 10 t.digits

theorem TokenId.digits_lt (t : TokenId) : ∀ d ∈ t.digits, d < 10 := by
  intro d mem
  obtain ⟨c, listed, rfl⟩ := List.mem_map.mp mem
  have bounds := isDigit_bounds (t.isDigit c listed)
  omega

theorem TokenId.toUTF8 (t : TokenId) :
    t.asStr.toUTF8.toList = t.asStr.toList.map fun c => UInt8.ofNat c.toNat := by
  have ascii : ∀ c ∈ t.asStr.toList, c.toNat < 128 := by
    intro c mem
    have bounds := isDigit_bounds (t.isDigit c mem)
    omega
  have bytes := Utf8Text.toUTF8_ascii ascii
  rwa [String.ofList_toList] at bytes

/-- A validated id fails to encode only by its size. -/
theorem TokenId.word_eq (t : TokenId) : wordFromDecimalString t.asStr =
    if t.number < 2 ^ 256 then pure (.ofNat t.number) else throw (.badAmount t.asStr) := by
  have byte : ∀ c ∈ t.asStr.toList, (UInt8.ofNat c.toNat).toNat = c.toNat := by
    intro c mem
    have bounds := isDigit_bounds (t.isDigit c mem)
    rw [UInt8.toNat_ofNat']
    omega
  have all : t.asStr.toUTF8.toList.all isAsciiDigit = true := by
    rw [t.toUTF8, List.all_map]
    refine List.all_eq_true.mpr ?_
    intro c mem
    have bounds := isDigit_bounds (t.isDigit c mem)
    have read := byte c mem
    refine Bool.and_eq_true_iff.mpr ⟨decide_eq_true ?_, decide_eq_true ?_⟩
    · rw [UInt8.le_iff_toNat_le, read]
      exact bounds.1
    · rw [UInt8.le_iff_toNat_le, read]
      exact bounds.2
  have value : decimalNumber t.asStr.toUTF8.toList = t.number := by
    unfold decimalNumber number digits
    rw [t.toUTF8, List.map_map]
    exact congrArg _ (List.map_congr_left fun c mem => congrArg (· - 48) (byte c mem))
  rw [wordFromDecimalString, wordFromDecimalBytes_eq, value]
  simp only [all, true_and]

theorem TokenId.word_ok_iff (t : TokenId) :
    (∃ w, wordFromDecimalString t.asStr = some (.ok w)) ↔ t.number < 2 ^ 256 := by
  rw [word_eq]
  by_cases fits : t.number < 2 ^ 256
  · rw [if_pos fits]
    exact iff_of_true ⟨_, rfl⟩ fits
  · rw [if_neg fits]
    refine iff_of_false ?_ fits
    rintro ⟨w, same⟩
    cases same

/-- The stored digits without the zeros in front. -/
def TokenId.significant (t : TokenId) : List Nat := BigEndian.significant t.digits

theorem TokenId.number_eq_iff (a b : TokenId) :
    a.number = b.number ↔ a.significant = b.significant :=
  BigEndian.number_eq_iff (by decide) a.digits_lt b.digits_lt

theorem TokenId.same_word_iff {a b : TokenId} (left : a.number < 2 ^ 256)
    (right : b.number < 2 ^ 256) : (∃ w, wordFromDecimalString a.asStr = some (.ok w) ∧
      wordFromDecimalString b.asStr = some (.ok w)) ↔ a.significant = b.significant := by
  rw [a.word_eq, b.word_eq, if_pos left, if_pos right, ← number_eq_iff]
  constructor
  · rintro ⟨w, this_, that⟩
    have here : Word.ofNat a.number = w := Except.ok.inj (Option.some.inj this_)
    have there : Word.ofNat b.number = w := Except.ok.inj (Option.some.inj that)
    have words : Word.ofNat a.number = Word.ofNat b.number := here.trans there.symm
    rw [← Word.value_ofNat left, words, Word.value_ofNat right]
  · intro same
    exact ⟨.ofNat a.number, rfl, by rw [same]; rfl⟩

/-- Two ids encode, and to different words if they differ, exactly if both are below 2 ^ 256 and
they do not differ in leading zeros alone. -/
theorem TokenId.words_agree_iff (a b : TokenId) :
    ((∃ w, wordFromDecimalString a.asStr = some (.ok w)) ∧
      (∃ w, wordFromDecimalString b.asStr = some (.ok w)) ∧
      (a ≠ b → ¬∃ w, wordFromDecimalString a.asStr = some (.ok w) ∧
        wordFromDecimalString b.asStr = some (.ok w))) ↔
    a.number < 2 ^ 256 ∧ b.number < 2 ^ 256 ∧ (a ≠ b → a.significant ≠ b.significant) := by
  rw [word_ok_iff, word_ok_iff]
  refine and_congr_right fun left => and_congr_right fun right => ?_
  rw [same_word_iff left right]

/-- Seventy-eight nines are accepted and do not encode; "1" and "01" encode to one word. -/
theorem TokenId.words_disagree :
    (¬∀ s a, TokenId.new s = .ok a → ∃ w, wordFromDecimalString a.asStr = some (.ok w)) ∧
    ¬∀ s t a b, TokenId.new s = .ok a → TokenId.new t = .ok b → a ≠ b →
      ¬∃ w, wordFromDecimalString a.asStr = some (.ok w) ∧
        wordFromDecimalString b.asStr = some (.ok w) := by
  constructor
  · intro all
    have encoded := all _ _ (new_asStr
      ⟨"999999999999999999999999999999999999999999999999999999999999999999999999999999",
        by decide⟩)
    rw [word_ok_iff] at encoded
    revert encoded
    decide +kernel
  · intro apart
    obtain ⟨one, text⟩ : ∃ t : TokenId, t.asStr = "1" := ⟨⟨"1", by decide⟩, rfl⟩
    obtain ⟨padded, text'⟩ : ∃ t : TokenId, t.asStr = "01" := ⟨⟨"01", by decide⟩, rfl⟩
    have differ : one ≠ padded := by
      rintro rfl
      rw [text] at text'
      revert text'
      decide
    refine apart _ _ one padded one.new_asStr padded.new_asStr differ ?_
    refine (same_word_iff ?_ ?_).mpr ?_
    · rw [number, digits, text]
      decide
    · rw [number, digits, text']
      decide
    · rw [significant, significant, digits, digits, text, text']
      decide

end CopyTrading
