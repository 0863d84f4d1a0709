import Mathlib.Data.Nat.Bitwise
import CopyTrading.Utf8Text

namespace CopyTrading

def b64urlTable : List Char :=
  "ABCDEFGHIJKLMNOPQRSTUVWXYZabcdefghijklmnopqrstuvwxyz0123456789-_".toList

theorem b64urlTable_length : b64urlTable.length = 64 := by decide

theorem and63_lt (n : UInt32) : (n &&& 63).toNat < b64urlTable.length := by
  rw [UInt32.toNat_and, b64urlTable_length]
  exact Nat.lt_succ_of_le Nat.and_le_right

/-- `T[(n >> shift & 63) as usize] as char` -/
def b64urlSymbol (n shift : UInt32) : Char :=
  b64urlTable.get ⟨(n >>> shift &&& 63).toNat, and63_lt _⟩

/-- The four characters of a chunk of one, two or three bytes. -/
def b64urlGroup (c0 : UInt8) (c1 c2 : Option UInt8) : List Char :=
  let n := c0.toUInt32 <<< 16 ||| (c1.getD 0).toUInt32 <<< 8 ||| (c2.getD 0).toUInt32
  [b64urlSymbol n 18, b64urlSymbol n 12, if c1.isSome then b64urlSymbol n 6 else '=',
    if c2.isSome then b64urlSymbol n 0 else '=']

def b64urlGroups : List UInt8 → List Char
  | [] => []
  | [a] => b64urlGroup a none none
  | [a, b] => b64urlGroup a (some b) none
  | a :: b :: c :: rest => b64urlGroup a (some b) (some c) ++ b64urlGroups rest

def b64urlEncode (b : List UInt8) : String := String.ofList (b64urlGroups b)

def b64urlValue (c : UInt8) : Option UInt32 :=
  if 65 ≤ c ∧ c ≤ 90 then some (c - 65).toUInt32
  else if 97 ≤ c ∧ c ≤ 122 then some ((c - 97).toUInt32 + 26)
  else if 48 ≤ c ∧ c ≤ 57 then some ((c - 48).toUInt32 + 52)
  -- both alphabets are read
  else if c = 43 ∨ c = 45 then some 62
  else if c = 47 ∨ c = 95 then some 63
  else none

/-- `u8::is_ascii_whitespace` -/
def isAsciiWhitespace (c : UInt8) : Bool := [32, 9, 10, 12, 13].contains c

/-- The bytes of a chunk of at most four characters. -/
def b64urlChunk (chunk : List UInt8) : Option (List UInt8) := do
  let n ← chunk.zipIdx.foldlM (fun n c => do
    return n ||| (← b64urlValue c.1) <<< UInt32.ofNat (18 - 6 * c.2)) 0
  some ([(n >>> 16).toUInt8, (n >>> 8).toUInt8, n.toUInt8].take (chunk.length - 1))

def b64urlChunks : List UInt8 → Option (List UInt8)
  | a :: b :: c :: d :: rest => do
    let bytes ← b64urlChunk [a, b, c, d]
    return bytes ++ (← b64urlChunks rest)
  | [] => some []
  | chunk => b64urlChunk chunk

/-- The `clean` bytes: padding and whitespace are dropped before anything is read. -/
def b64urlClean (bytes : List UInt8) : List UInt8 :=
  bytes.filter fun c => c ≠ 61 ∧ !isAsciiWhitespace c

def b64urlDecode (s : String) : Option (List UInt8) := b64urlChunks (b64urlClean s.toUTF8.toList)

example : b64urlEncode [255] = "_w==" := by decide +kernel

/-- The byte a character of the table takes in UTF-8. -/
def b64urlByte (c : Char) : UInt8 := UInt8.ofNat c.toNat

theorem b64urlTable_read (i : Fin 64) :
    b64urlValue (b64urlByte (b64urlTable.get i)) = some (UInt32.ofNat i) := by
  revert i
  decide +kernel

theorem b64urlTable_kept (i : Fin 64) :
    b64urlClean [b64urlByte (b64urlTable.get i)] = [b64urlByte (b64urlTable.get i)] := by
  revert i
  decide +kernel

/-- The characters a URL may hold unescaped, of those the alphabet draws on. -/
def urlSafe (c : Char) : Bool := c.isAlphanum || c == '-' || c == '_'

theorem b64urlTable_urlSafe (i : Fin 64) : urlSafe (b64urlTable.get i) := by
  revert i
  decide +kernel

theorem b64urlSymbol_read (n shift : UInt32) :
    b64urlValue (b64urlByte (b64urlSymbol n shift)) = some (n >>> shift &&& 63) := by
  have read := b64urlTable_read ⟨(n >>> shift &&& 63).toNat, and63_lt _⟩
  rwa [UInt32.ofNat_toNat] at read

theorem b64urlSymbol_urlSafe (n shift : UInt32) : urlSafe (b64urlSymbol n shift) :=
  b64urlTable_urlSafe ⟨(n >>> shift &&& 63).toNat, and63_lt _⟩

theorem b64urlSymbol_kept (n shift : UInt32) :
    b64urlClean [b64urlByte (b64urlSymbol n shift)] = [b64urlByte (b64urlSymbol n shift)] :=
  b64urlTable_kept ⟨(n >>> shift &&& 63).toNat, and63_lt _⟩

theorem b64urlClean_cons (c : UInt8) (bytes : List UInt8) :
    b64urlClean (c :: bytes) = b64urlClean [c] ++ b64urlClean bytes := by
  simp only [b64urlClean, ← List.filter_append, List.cons_append, List.nil_append]

theorem b64urlClean_symbol (n shift : UInt32) (bytes : List UInt8) :
    b64urlClean (b64urlByte (b64urlSymbol n shift) :: bytes) =
      b64urlByte (b64urlSymbol n shift) :: b64urlClean bytes := by
  rw [b64urlClean_cons, b64urlSymbol_kept, List.cons_append, List.nil_append]

theorem b64urlClean_pad (bytes : List UInt8) :
    b64urlClean (b64urlByte '=' :: bytes) = b64urlClean bytes := by
  rw [b64urlClean_cons]
  rfl

theorem sextet_toNat (n : UInt32) {k : Nat} (bound : k < 32) :
    (n >>> UInt32.ofNat k &&& 63).toNat = n.toNat / 2 ^ k % 64 := by
  have shift : (UInt32.ofNat k).toNat = k := by
    rw [UInt32.toNat_ofNat']
    omega
  rw [UInt32.toNat_and, UInt32.toNat_shiftRight, shift, Nat.mod_eq_of_lt bound,
    Nat.shiftRight_eq_div_pow]
  exact Nat.and_two_pow_sub_one_eq_mod _ 6

/-- A digit written below the ones that are already there is added to them. -/
theorem or_sextet {acc v : UInt32} {k : Nat} (bound : k ≤ 18) (digit : v.toNat < 64)
    (clear : 2 ^ (k + 6) ∣ acc.toNat) :
    (acc ||| v <<< UInt32.ofNat k).toNat = acc.toNat + v.toNat * 2 ^ k := by
  have shift : (UInt32.ofNat k).toNat = k := by
    rw [UInt32.toNat_ofNat']
    omega
  have below : v.toNat * 2 ^ k < 2 ^ (k + 6) := by
    rw [Nat.add_comm, Nat.pow_add]
    exact Nat.mul_lt_mul_of_pos_right digit (Nat.two_pow_pos k)
  have fits : 2 ^ (k + 6) ≤ 2 ^ 32 := Nat.pow_le_pow_right (by omega) (by omega)
  have place : k % 32 = k := by omega
  obtain ⟨m, high⟩ := clear
  rw [UInt32.toNat_or, UInt32.toNat_shiftLeft, shift, place, Nat.shiftLeft_eq,
    Nat.mod_eq_of_lt (Nat.lt_of_lt_of_le below fits), high]
  exact (Nat.two_pow_add_eq_or_of_lt below m).symm

/-- What the three bytes of a chunk come to as one number. -/
theorem group_toNat (a b c : UInt8) :
    (a.toUInt32 <<< 16 ||| b.toUInt32 <<< 8 ||| c.toUInt32).toNat =
      a.toNat * 65536 + b.toNat * 256 + c.toNat := by
  have ha := a.toNat_lt
  have hb := b.toNat_lt
  have hc := c.toNat_lt
  have high : (a.toUInt32 <<< 16).toNat = a.toNat * 2 ^ 16 := by
    have fits : a.toNat * 2 ^ 16 < 2 ^ 32 := by omega
    rw [UInt32.toNat_shiftLeft, UInt8.toNat_toUInt32, Nat.shiftLeft_eq]
    exact Nat.mod_eq_of_lt fits
  have middle : (b.toUInt32 <<< 8).toNat = b.toNat * 2 ^ 8 := by
    have fits : b.toNat * 2 ^ 8 < 2 ^ 32 := by omega
    rw [UInt32.toNat_shiftLeft, UInt8.toNat_toUInt32, Nat.shiftLeft_eq]
    exact Nat.mod_eq_of_lt fits
  have first : (a.toUInt32 <<< 16 ||| b.toUInt32 <<< 8).toNat =
      2 ^ 8 * (a.toNat * 2 ^ 8 + b.toNat) := by
    rw [UInt32.toNat_or, high, middle, Nat.mul_comm,
      ← Nat.two_pow_add_eq_or_of_lt (by omega) a.toNat]
    omega
  rw [UInt32.toNat_or, first, UInt8.toNat_toUInt32, ← Nat.two_pow_add_eq_or_of_lt hc]
  omega

/-- The number the first digits of `n` write, each at its own place. -/
def b64urlDigits (n : UInt32) : List Nat → UInt32
  | [] => 0
  | k :: places => b64urlDigits n places ||| (n >>> UInt32.ofNat k &&& 63) <<< UInt32.ofNat k

/-- The digits from one place on are the number above it, if those above it were. -/
theorem digits_cons (n : UInt32) {k : Nat} {places : List Nat} (bound : k ≤ 18)
    (before : (b64urlDigits n places).toNat =
      n.toNat / 2 ^ (k + 6) % 2 ^ (18 - k) * 2 ^ (k + 6)) :
    (b64urlDigits n (k :: places)).toNat = n.toNat / 2 ^ k % 2 ^ (18 - k + 6) * 2 ^ k := by
  have digit := sextet_toNat n (Nat.lt_of_le_of_lt bound (by omega : 18 < 32))
  have small : (n >>> UInt32.ofNat k &&& 63).toNat < 64 := by
    rw [digit]
    exact Nat.mod_lt _ (by omega)
  have clear : 2 ^ (k + 6) ∣ (b64urlDigits n places).toNat := by
    rw [before]
    exact Nat.dvd_mul_left _ _
  unfold b64urlDigits
  rw [or_sextet bound small clear, before, digit, Nat.pow_add, Nat.pow_add,
    ← Nat.div_div_eq_div_mul, Nat.mul_comm (2 ^ (18 - k)), Nat.mod_mul, Nat.add_mul,
    Nat.add_comm, Nat.mul_comm (2 ^ k) (2 ^ 6), ← Nat.mul_assoc, Nat.mul_comm _ (2 ^ 6)]

theorem two_digits (n : UInt32) :
    (b64urlDigits n [12, 18]).toNat = n.toNat / 4096 % 4096 * 4096 := by
  have none_ : (b64urlDigits n []).toNat = n.toNat / 2 ^ 24 % 1 * 2 ^ 24 := by
    rw [Nat.mod_one, Nat.zero_mul]
    rfl
  exact digits_cons n (by omega) (digits_cons n (by omega) none_)

theorem three_digits (n : UInt32) :
    (b64urlDigits n [6, 12, 18]).toNat = n.toNat / 64 % 262144 * 64 :=
  digits_cons n (by omega) (two_digits n)

theorem four_digits (n : UInt32) :
    (b64urlDigits n [0, 6, 12, 18]).toNat = n.toNat % 16777216 := by
  have whole := digits_cons n (Nat.zero_le 18) (three_digits n)
  rwa [Nat.pow_zero, Nat.div_one, Nat.mul_one] at whole

theorem chunk_two (n : UInt32) :
    b64urlChunk [b64urlByte (b64urlSymbol n 18), b64urlByte (b64urlSymbol n 12)] =
      some [(b64urlDigits n [12, 18] >>> 16).toUInt8] := by
  simp only [b64urlChunk, List.zipIdx_cons, List.zipIdx_nil, List.foldlM_cons, List.foldlM_nil,
    b64urlSymbol_read]
  rfl

theorem chunk_three (n : UInt32) :
    b64urlChunk [b64urlByte (b64urlSymbol n 18), b64urlByte (b64urlSymbol n 12),
      b64urlByte (b64urlSymbol n 6)] =
      some [(b64urlDigits n [6, 12, 18] >>> 16).toUInt8,
        (b64urlDigits n [6, 12, 18] >>> 8).toUInt8] := by
  simp only [b64urlChunk, List.zipIdx_cons, List.zipIdx_nil, List.foldlM_cons, List.foldlM_nil,
    b64urlSymbol_read]
  rfl

theorem chunk_four (n : UInt32) :
    b64urlChunk [b64urlByte (b64urlSymbol n 18), b64urlByte (b64urlSymbol n 12),
      b64urlByte (b64urlSymbol n 6), b64urlByte (b64urlSymbol n 0)] =
      some [(b64urlDigits n [0, 6, 12, 18] >>> 16).toUInt8,
        (b64urlDigits n [0, 6, 12, 18] >>> 8).toUInt8,
        (b64urlDigits n [0, 6, 12, 18]).toUInt8] := by
  simp only [b64urlChunk, List.zipIdx_cons, List.zipIdx_nil, List.foldlM_cons, List.foldlM_nil,
    b64urlSymbol_read]
  rfl

theorem byte_at {m : UInt32} {a : UInt8} {k : Nat} (bound : k < 32)
    (value : m.toNat / 2 ^ k % 256 = a.toNat) : (m >>> UInt32.ofNat k).toUInt8 = a := by
  have shift : (UInt32.ofNat k).toNat = k := by
    rw [UInt32.toNat_ofNat']
    omega
  apply UInt8.toNat_inj.mp
  rw [UInt32.toNat_toUInt8, UInt32.toNat_shiftRight, shift, Nat.mod_eq_of_lt bound,
    Nat.shiftRight_eq_div_pow]
  exact value

/-- The group's characters as the decoder takes them up. -/
def b64urlRead (cs : List Char) : List UInt8 := b64urlClean (cs.map b64urlByte)

theorem one_byte_read (a : UInt8) :
    b64urlChunks (b64urlRead (b64urlGroup a none none)) = some [a] := by
  have number := group_toNat a 0 0
  have low := a.toNat_lt
  have zero : (0 : UInt8).toNat = 0 := rfl
  set n := a.toUInt32 <<< 16 ||| (0 : UInt8).toUInt32 <<< 8 ||| (0 : UInt8).toUInt32
  have read : b64urlRead (b64urlGroup a none none) =
      [b64urlByte (b64urlSymbol n 18), b64urlByte (b64urlSymbol n 12)] := by
    have group : b64urlGroup a none none = [b64urlSymbol n 18, b64urlSymbol n 12, '=', '='] := rfl
    simp only [b64urlRead, group, List.map_cons, b64urlClean_symbol, b64urlClean_pad]
    rfl
  have high : (b64urlDigits n [12, 18] >>> 16).toUInt8 = a := by
    apply byte_at (k := 16) (by omega)
    rw [two_digits]
    omega
  rw [read]
  exact (chunk_two n).trans (by rw [high])

theorem two_bytes_read (a b : UInt8) :
    b64urlChunks (b64urlRead (b64urlGroup a (some b) none)) = some [a, b] := by
  have number := group_toNat a b 0
  have low := a.toNat_lt
  have low' := b.toNat_lt
  have zero : (0 : UInt8).toNat = 0 := rfl
  set n := a.toUInt32 <<< 16 ||| b.toUInt32 <<< 8 ||| (0 : UInt8).toUInt32
  have read : b64urlRead (b64urlGroup a (some b) none) =
      [b64urlByte (b64urlSymbol n 18), b64urlByte (b64urlSymbol n 12),
        b64urlByte (b64urlSymbol n 6)] := by
    have group : b64urlGroup a (some b) none =
        [b64urlSymbol n 18, b64urlSymbol n 12, b64urlSymbol n 6, '='] := rfl
    simp only [b64urlRead, group, List.map_cons, b64urlClean_symbol, b64urlClean_pad]
    rfl
  have high : (b64urlDigits n [6, 12, 18] >>> 16).toUInt8 = a := by
    apply byte_at (k := 16) (by omega)
    rw [three_digits]
    omega
  have middle : (b64urlDigits n [6, 12, 18] >>> 8).toUInt8 = b := by
    apply byte_at (k := 8) (by omega)
    rw [three_digits]
    omega
  rw [read]
  exact (chunk_three n).trans (by rw [high, middle])

theorem three_bytes_read (a b c : UInt8) (rest : List Char) :
    b64urlChunks (b64urlRead (b64urlGroup a (some b) (some c) ++ rest)) =
      (b64urlChunks (b64urlRead rest)).map fun bytes => a :: b :: c :: bytes := by
  have number := group_toNat a b c
  have low := a.toNat_lt
  have low' := b.toNat_lt
  have low'' := c.toNat_lt
  set n := a.toUInt32 <<< 16 ||| b.toUInt32 <<< 8 ||| c.toUInt32
  have read : b64urlRead (b64urlGroup a (some b) (some c) ++ rest) =
      b64urlByte (b64urlSymbol n 18) :: b64urlByte (b64urlSymbol n 12) ::
        b64urlByte (b64urlSymbol n 6) :: b64urlByte (b64urlSymbol n 0) :: b64urlRead rest := by
    have group : b64urlGroup a (some b) (some c) =
        [b64urlSymbol n 18, b64urlSymbol n 12, b64urlSymbol n 6, b64urlSymbol n 0] := rfl
    simp only [b64urlRead, group, List.cons_append, List.nil_append, List.map_cons,
      b64urlClean_symbol]
  have high : (b64urlDigits n [0, 6, 12, 18] >>> 16).toUInt8 = a := by
    apply byte_at (k := 16) (by omega)
    rw [four_digits]
    omega
  have middle : (b64urlDigits n [0, 6, 12, 18] >>> 8).toUInt8 = b := by
    apply byte_at (k := 8) (by omega)
    rw [four_digits]
    omega
  have last : (b64urlDigits n [0, 6, 12, 18]).toUInt8 = c := by
    apply UInt8.toNat_inj.mp
    rw [UInt32.toNat_toUInt8, four_digits]
    omega
  rw [read, b64urlChunks, chunk_four, high, middle, last]
  cases b64urlChunks (b64urlRead rest) <;> rfl

theorem b64urlGroups_read (b : List UInt8) :
    b64urlChunks (b64urlRead (b64urlGroups b)) = some b := by
  fun_induction b64urlGroups b with
  | case1 => rfl
  | case2 a => exact one_byte_read a
  | case3 a b => exact two_bytes_read a b
  | case4 a b c rest ih =>
    rw [three_bytes_read, ih]
    rfl

theorem b64urlGroups_length (b : List UInt8) :
    (b64urlGroups b).length = 4 * ((b.length + 2) / 3) := by
  fun_induction b64urlGroups b with
  | case1 => rfl
  | case2 a => simp [b64urlGroup]
  | case3 a b => simp [b64urlGroup]
  | case4 a b c rest ih =>
    rw [List.length_append, ih]
    simp only [b64urlGroup, List.length_cons, List.length_nil]
    omega

/-- Padding fills the last group, and nothing else does. -/
theorem b64urlGroups_padded (b : List UInt8) :
    ∃ symbols, b64urlGroups b = symbols ++ List.replicate ((3 - b.length % 3) % 3) '=' ∧
      ∀ c ∈ symbols, urlSafe c := by
  fun_induction b64urlGroups b with
  | case1 => exact ⟨[], rfl, fun c mem => absurd mem List.not_mem_nil⟩
  | case2 a =>
    refine ⟨[_, _], rfl, fun c mem => ?_⟩
    rcases List.mem_pair.mp mem with rfl | rfl <;> exact b64urlSymbol_urlSafe _ _
  | case3 a b =>
    refine ⟨[_, _, _], rfl, fun c mem => ?_⟩
    simp only [List.mem_cons, List.not_mem_nil, or_false] at mem
    rcases mem with rfl | rfl | rfl <;> exact b64urlSymbol_urlSafe _ _
  | case4 a b c rest ih =>
    obtain ⟨symbols, rest_eq, safe⟩ := ih
    have tail : (a :: b :: c :: rest).length % 3 = rest.length % 3 := by
      simp only [List.length_cons]
      omega
    refine ⟨b64urlGroup a (some b) (some c) ++ symbols, ?_, fun x mem => ?_⟩
    · rw [tail, rest_eq, List.append_assoc]
    · rcases List.mem_append.mp mem with here | there
      · simp only [b64urlGroup, Option.isSome_some, if_true, List.mem_cons, List.not_mem_nil,
          or_false] at here
        rcases here with rfl | rfl | rfl | rfl <;> exact b64urlSymbol_urlSafe _ _
      · exact safe x there

theorem urlSafe_ascii {c : Char} (safe : urlSafe c) : c.toNat < 128 := by
  have below {last : Char} (ascii : last.toNat < 128) (le : c.val ≤ last.val) : c.toNat < 128 :=
    Nat.lt_of_le_of_lt (UInt32.le_iff_toNat_le.mp le) ascii
  simp only [urlSafe, Bool.or_eq_true, beq_iff_eq] at safe
  rcases safe with (letter | rfl) | rfl
  · rcases Bool.or_eq_true_iff.mp letter with alpha | digit
    · rcases Bool.or_eq_true_iff.mp alpha with upper | lower
      · have within : c.val ≥ 'A'.val ∧ c.val ≤ 'Z'.val := of_decide_eq_true upper
        exact below (by decide) within.2
      · have within := (Bool.and_eq_true_iff.mp lower).2
        exact below (by decide) (of_decide_eq_true within)
    · have within := (Bool.and_eq_true_iff.mp digit).2
      exact below (by decide) (of_decide_eq_true within)
  · decide
  · decide

theorem b64urlGroups_ascii (b : List UInt8) : ∀ c ∈ b64urlGroups b, c.toNat < 128 := by
  obtain ⟨symbols, groups, safe⟩ := b64urlGroups_padded b
  intro c mem
  rw [groups] at mem
  rcases List.mem_append.mp mem with symbol | pad
  · exact urlSafe_ascii (safe c symbol)
  · rw [List.eq_of_mem_replicate pad]
    decide

/-- What is signed over can be read back: encoding pads to whole groups of URL-safe characters and
decoding undoes it. -/
theorem b64url_round_trip (b : List UInt8) :
    b64urlDecode (b64urlEncode b) = some b ∧
      (b64urlEncode b).length = 4 * ((b.length + 2) / 3) ∧
      ∃ symbols, (b64urlEncode b).toList =
          symbols ++ List.replicate ((3 - b.length % 3) % 3) '=' ∧
        ∀ c ∈ symbols, urlSafe c := by
  have text : (b64urlEncode b).toList = b64urlGroups b := String.toList_ofList
  refine ⟨?_, ?_, ?_⟩
  · rw [b64urlDecode, b64urlEncode, Utf8Text.toUTF8_ascii (b64urlGroups_ascii b)]
    exact b64urlGroups_read b
  · rw [← String.length_toList, text, b64urlGroups_length]
  · rw [text]
    exact b64urlGroups_padded b

end CopyTrading
