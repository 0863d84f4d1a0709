import Mathlib.Data.List.DropRight

namespace CopyTrading

def isLowerHexDigit (c : Char) : Bool := c.isDigit || ('a' ≤ c && c ≤ 'f')

/-- The stored form of a hex identifier: `0x` and `want` lower-case hex digits. -/
def isHexText (want : Nat) : List Char → Bool
  | '0' :: 'x' :: body => body.length == want && body.all isLowerHexDigit
  | _ => false

/-- The stored form of a token id: a non-empty decimal text of at most 78 digits. -/
def isTokenText (s : List Char) : Bool := s != [] && s.length ≤ 78 && s.all Char.isDigit

/-- A proxy wallet address, always stored lower-case. -/
structure Address where
  asStr : String
  valid : isHexText 40 asStr.toList = true
  deriving DecidableEq

/-- `conditionId`: a market, not an outcome leg. -/
structure MarketId where
  asStr : String
  valid : isHexText 64 asStr.toList = true
  deriving DecidableEq

/-- `asset`: one outcome leg, a uint256 in decimal form. -/
structure TokenId where
  asStr : String
  valid : isTokenText asStr.toList = true
  deriving DecidableEq

/-- A transaction hash. Not unique per trade. -/
structure TxHash where
  asStr : String
  valid : isHexText 64 asStr.toList = true
  deriving DecidableEq

structure SourceEventId where
  asStr : String
  deriving DecidableEq

def Address.zero : Address := ⟨"0x0000000000000000000000000000000000000000", by decide⟩

def MarketId.zero : MarketId :=
  ⟨"0x0000000000000000000000000000000000000000000000000000000000000000", by decide⟩

def TokenId.zero : TokenId := ⟨"0", by decide⟩

def TokenId.one : TokenId := ⟨"1", by decide⟩

def TxHash.zero : TxHash :=
  ⟨"0x0000000000000000000000000000000000000000000000000000000000000000", by decide⟩

structure OrderId where
  uuid : Nat
  deriving DecidableEq

structure SignalId where
  uuid : Nat
  deriving DecidableEq

structure FillId where
  uuid : Nat
  deriving DecidableEq

structure CorrelationId where
  uuid : Nat
  deriving DecidableEq

inductive IdError
  | badAddress (text : String)
  | badConditionId (text : String)
  | badTxHash (text : String)
  | badTokenId (text : String)
  deriving DecidableEq

/-- `char::is_whitespace`: the Unicode property White_Space. -/
def isWhitespace (c : Char) : Bool :=
  (9 ≤ c.toNat && c.toNat ≤ 13) || (0x2000 ≤ c.toNat && c.toNat ≤ 0x200a) ||
    [0x20, 0x85, 0xa0, 0x1680, 0x2028, 0x2029, 0x202f, 0x205f, 0x3000].contains c.toNat

def trim (s : List Char) : List Char := s.dropWhile isWhitespace |>.rdropWhile isWhitespace

def isHexDigit (c : Char) : Bool := isLowerHexDigit c || ('A' ≤ c && c ≤ 'F')

def isHexBody (s : List Char) (want : Nat) : Bool := s.length == want && s.all isHexDigit

/-- The body with `0x` before it, in lower case. -/
def hexText (body : List Char) : String := String.ofList ('0' :: 'x' :: body.map Char.toLower)

theorem isHexDigit_lower {c : Char} (hex : isHexDigit c = true) :
    isLowerHexDigit c.toLower = true ∧ (isLowerHexDigit c = true → c.toLower = c) := by
  have small : c.toNat < 128 := by
    simp only [isHexDigit, isLowerHexDigit, Char.isDigit, Bool.or_eq_true, Bool.and_eq_true,
      decide_eq_true_eq, Char.le_def, UInt32.le_iff_toNat_le] at hex
    have value : c.toNat = c.val.toNat := rfl
    simp at hex
    omega
  have all : ∀ n < 128, isHexDigit (Char.ofNat n) = true →
      isLowerHexDigit (Char.ofNat n).toLower = true ∧
        (isLowerHexDigit (Char.ofNat n) = true → (Char.ofNat n).toLower = Char.ofNat n) := by
    decide
  have here := all c.toNat small
  rw [Char.ofNat_toNat] at here
  exact here hex

theorem hexText_valid {body : List Char} {want : Nat} (hex : isHexBody body want = true) :
    isHexText want (hexText body).toList = true := by
  obtain ⟨length, digits⟩ := Bool.and_eq_true_iff.mp hex
  unfold hexText
  rw [String.toList_ofList]
  refine Bool.and_eq_true_iff.mpr ⟨?_, ?_⟩
  · rw [List.length_map]
    exact length
  · refine List.all_eq_true.mpr ?_
    intro c mem
    obtain ⟨c, listed, rfl⟩ := List.mem_map.mp mem
    exact (isHexDigit_lower (List.all_eq_true.mp digits c listed)).1

def Address.new (text : String) : Except IdError Address :=
  match trim text.toList with
  | '0' :: x :: body =>
    if h : (x = 'x' ∨ x = 'X') ∧ isHexBody body 40 = true then .ok ⟨hexText body, hexText_valid h.2⟩
    else .error (.badAddress (String.ofList ('0' :: x :: body)))
  | s => .error (.badAddress (String.ofList s))

def MarketId.new (text : String) : Except IdError MarketId :=
  match trim text.toList with
  | '0' :: 'x' :: body =>
    if h : isHexBody body 64 = true then .ok ⟨hexText body, hexText_valid h⟩
    else .error (.badConditionId (String.ofList ('0' :: 'x' :: body)))
  | s => .error (.badConditionId (String.ofList s))

def TxHash.new (text : String) : Except IdError TxHash :=
  match trim text.toList with
  | '0' :: 'x' :: body =>
    if h : isHexBody body 64 = true then .ok ⟨hexText body, hexText_valid h⟩
    else .error (.badTxHash (String.ofList ('0' :: 'x' :: body)))
  | s => .error (.badTxHash (String.ofList s))

def TokenId.new (text : String) : Except IdError TokenId :=
  let s := trim text.toList
  if h : isTokenText s = true then .ok ⟨String.ofList s, by rw [String.toList_ofList]; exact h⟩
  else .error (.badTokenId (String.ofList s))

theorem trim_of_plain {s : List Char} (plain : ∀ c ∈ s, isWhitespace c = false) : trim s = s := by
  have front : s.dropWhile isWhitespace = s := by
    refine List.dropWhile_eq_self_iff.mpr ?_
    intro some
    rw [plain _ (List.getElem_mem some)]
    exact Bool.false_ne_true
  unfold trim
  rw [front]
  refine List.rdropWhile_eq_self_iff.mpr ?_
  intro some
  rw [plain _ (List.getLast_mem some)]
  exact Bool.false_ne_true

theorem not_isWhitespace {c : Char} (hex : isLowerHexDigit c = true ∨ c = 'x') :
    isWhitespace c = false := by
  have small : c.toNat < 128 := by
    rcases hex with hex | rfl
    · simp only [isLowerHexDigit, Char.isDigit, Bool.or_eq_true, Bool.and_eq_true,
        decide_eq_true_eq, Char.le_def, UInt32.le_iff_toNat_le] at hex
      have value : c.toNat = c.val.toNat := rfl
      simp at hex
      omega
    · decide
  have all : ∀ n < 128, isLowerHexDigit (Char.ofNat n) = true ∨ Char.ofNat n = 'x' →
      isWhitespace (Char.ofNat n) = false := by
    decide
  have here := all c.toNat small
  rw [Char.ofNat_toNat] at here
  exact here hex

/-- A stored hex identifier, taken apart. -/
theorem isHexText_cases {want : Nat} {s : List Char} (h : isHexText want s = true) :
    ∃ body, s = '0' :: 'x' :: body ∧ isHexBody body want = true ∧ body.map Char.toLower = body ∧
      trim s = '0' :: 'x' :: body := by
  unfold isHexText at h
  split at h
  next body =>
    obtain ⟨length, digits⟩ := Bool.and_eq_true_iff.mp h
    have lower : ∀ c ∈ body, isLowerHexDigit c = true := List.all_eq_true.mp digits
    have hex : ∀ c ∈ body, isHexDigit c = true := by
      intro c mem
      unfold isHexDigit
      rw [lower c mem, Bool.true_or]
    refine ⟨body, rfl, Bool.and_eq_true_iff.mpr ⟨length, List.all_eq_true.mpr hex⟩, ?_, ?_⟩
    · have same : ∀ c ∈ body, c.toLower = id c :=
        fun c mem => (isHexDigit_lower (hex c mem)).2 (lower c mem)
      rw [List.map_congr_left same, List.map_id]
    · refine trim_of_plain ?_
      intro c mem
      rcases List.mem_cons.mp mem with rfl | mem
      · rfl
      rcases List.mem_cons.mp mem with rfl | mem
      · rfl
      exact not_isWhitespace (.inl (lower c mem))
  next => cases h

/-- A stored hex identifier is the text its constructor makes of its own body. -/
theorem hexText_of_stored {want : Nat} {text : String} (valid : isHexText want text.toList = true) :
    ∃ body, hexText body = text ∧ isHexBody body want = true ∧
      trim text.toList = '0' :: 'x' :: body := by
  obtain ⟨body, eq, hex, lower, trimmed⟩ := isHexText_cases valid
  refine ⟨body, ?_, hex, trimmed⟩
  unfold hexText
  rw [lower, ← eq, String.ofList_toList]

theorem Address.new_asStr (a : Address) : Address.new a.asStr = .ok a := by
  obtain ⟨text, valid⟩ := a
  obtain ⟨body, rfl, hex, trimmed⟩ := hexText_of_stored valid
  unfold new
  simp only [trimmed, hex, true_or, and_self, dite_true]

theorem TxHash.new_asStr (t : TxHash) : TxHash.new t.asStr = .ok t := by
  obtain ⟨text, valid⟩ := t
  obtain ⟨body, rfl, hex, trimmed⟩ := hexText_of_stored valid
  unfold new
  simp only [trimmed, hex, dite_true]

theorem MarketId.new_asStr (m : MarketId) : MarketId.new m.asStr = .ok m := by
  obtain ⟨text, valid⟩ := m
  obtain ⟨body, rfl, hex, trimmed⟩ := hexText_of_stored valid
  unfold new
  simp only [trimmed, hex, dite_true]

theorem TokenId.new_asStr (t : TokenId) : TokenId.new t.asStr = .ok t := by
  obtain ⟨text, valid⟩ := t
  have digits : ∀ c ∈ text.toList, isLowerHexDigit c = true := by
    intro c mem
    have all := (Bool.and_eq_true_iff.mp valid).2
    unfold isLowerHexDigit
    rw [List.all_eq_true.mp all c mem, Bool.true_or]
  have trimmed := trim_of_plain fun c mem => not_isWhitespace (.inl (digits c mem))
  unfold new
  simp only [trimmed, valid, dite_true, String.ofList_toList]

theorem isDigit_bounds {c : Char} (digit : c.isDigit = true) : 48 ≤ c.toNat ∧ c.toNat ≤ 57 := by
  obtain ⟨low, high⟩ := Bool.and_eq_true_iff.mp digit
  exact ⟨UInt32.le_iff_toNat_le.mp (of_decide_eq_true low),
    UInt32.le_iff_toNat_le.mp (of_decide_eq_true high)⟩

theorem TokenId.isDigit (t : TokenId) : ∀ c ∈ t.asStr.toList, c.isDigit = true :=
  List.all_eq_true.mp (Bool.and_eq_true_iff.mp t.valid).2

end CopyTrading
