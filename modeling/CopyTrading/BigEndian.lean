import Mathlib.Data.Nat.Digits.Defs
import Mathlib.Data.List.TakeWhile
import Mathlib.Tactic.Ring

namespace BigEndian

section Number

variable {b : Nat} {ds es : List Nat}

/-- The number that the digits `ds` write in base `b`, the most significant digit first. -/
def number (b : Nat) (ds : List Nat) : Nat := Nat.ofDigits b ds.reverse

theorem number_append : number b (ds ++ es) = number b ds * b ^ es.length + number b es := by
  unfold number
  rw [List.reverse_append, Nat.ofDigits_append, List.length_reverse]
  ring

theorem number_singleton (d : Nat) : number b [d] = d := Nat.ofDigits_singleton

theorem number_cons (d : Nat) : number b (d :: ds) = d * b ^ ds.length + number b ds := by
  rw [← List.singleton_append, number_append, number_singleton]

theorem number_lt (base : 1 < b) (digits : ∀ d ∈ ds, d < b) : number b ds < b ^ ds.length := by
  have bound := Nat.ofDigits_lt_base_pow_length (l := ds.reverse) base fun d mem =>
    digits d (List.mem_reverse.mp mem)
  rwa [List.length_reverse] at bound

theorem number_inj (base : 1 < b) (length : ds.length = es.length) (left : ∀ d ∈ ds, d < b)
    (right : ∀ d ∈ es, d < b) (same : number b ds = number b es) : ds = es := by
  refine List.reverse_inj.mp (Nat.ofDigits_inj_of_len_eq base ?_ ?_ ?_ same)
  · rw [List.length_reverse, List.length_reverse, length]
  · exact fun d mem => left d (List.mem_reverse.mp mem)
  · exact fun d mem => right d (List.mem_reverse.mp mem)

/-- The digits without the zeros in front. -/
def significant (ds : List Nat) : List Nat := ds.dropWhile (· == 0)

theorem number_significant (b : Nat) (ds : List Nat) :
    number b (significant ds) = number b ds := by
  unfold significant
  induction ds with
  | nil => rfl
  | cons d ds ih =>
    rw [List.dropWhile_cons]
    split
    next zero =>
      rw [ih, number_cons, beq_iff_eq.mp zero, zero_mul, zero_add]
    next => rfl

theorem digits_number (base : 1 < b) (digits : ∀ d ∈ ds, d < b) :
    Nat.digits b (number b ds) = (significant ds).reverse := by
  rw [← number_significant]
  apply Nat.digits_ofDigits b base
  · intro d mem
    exact digits d ((List.dropWhile_sublist _).subset (List.mem_reverse.mp mem))
  · intro some_
    rw [List.getLast_reverse]
    have nonempty : significant ds ≠ [] := fun empty => some_ (List.reverse_eq_nil_iff.mpr empty)
    have front : ((significant ds).head nonempty == 0) = false := List.head_dropWhile_not _ nonempty
    exact beq_eq_false_iff_ne.mp front

/-- Digits write the same number exactly if they agree up to zeros in front. -/
theorem number_eq_iff (base : 1 < b) (left : ∀ d ∈ ds, d < b) (right : ∀ d ∈ es, d < b) :
    number b ds = number b es ↔ significant ds = significant es := by
  constructor
  · intro same
    apply List.reverse_inj.mp
    rw [← digits_number base left, ← digits_number base right, same]
  · intro same
    rw [← number_significant b ds, same, number_significant]

end Number

section Bytes

variable {bs cs : List UInt8}

def value (bs : List UInt8) : Nat := number 256 (bs.map UInt8.toNat)

/-- `n` in `size` bytes, the most significant byte first. -/
def bytes : Nat → Nat → List UInt8
  | 0, _ => []
  | size + 1, n => UInt8.ofNat (n / 256 ^ size) :: bytes size n

@[simp] theorem value_nil : value [] = 0 := rfl

theorem value_cons (c : UInt8) : value (c :: bs) = c.toNat * 256 ^ bs.length + value bs := by
  unfold value
  rw [List.map_cons, number_cons, List.length_map]

theorem value_append : value (bs ++ cs) = value bs * 256 ^ cs.length + value cs := by
  unfold value
  rw [List.map_append, number_append, List.length_map]

theorem toNat_lt_base (bs : List UInt8) : ∀ d ∈ bs.map UInt8.toNat, d < 256 := by
  intro d mem
  obtain ⟨c, _, rfl⟩ := List.mem_map.mp mem
  exact c.toNat_lt

theorem value_lt (bs : List UInt8) : value bs < 256 ^ bs.length := by
  have bound := number_lt (b := 256) (by decide) (toNat_lt_base bs)
  rwa [List.length_map] at bound

/-- As many bytes with the same value are the same bytes. -/
theorem value_inj (length : bs.length = cs.length) (same : value bs = value cs) : bs = cs := by
  refine (List.map_inj_right (f := UInt8.toNat) fun _ _ => UInt8.toNat_inj.mp).mp ?_
  refine number_inj (b := 256) (by decide) ?_ (toNat_lt_base bs) (toNat_lt_base cs) same
  rw [List.length_map, List.length_map, length]

@[simp] theorem length_bytes (size n : Nat) : (bytes size n).length = size := by
  induction size with
  | zero => rfl
  | succ size ih => rw [bytes, List.length_cons, ih]

theorem value_bytes_mod (size n : Nat) : value (bytes size n) = n % 256 ^ size := by
  induction size with
  | zero => rw [bytes, value_nil, pow_zero, Nat.mod_one]
  | succ size ih =>
    rw [bytes, value_cons, ih, length_bytes, Nat.mod_pow_succ, UInt8.toNat_ofNat']
    ring

theorem value_bytes {size n : Nat} (fits : n < 256 ^ size) : value (bytes size n) = n := by
  rw [value_bytes_mod, Nat.mod_eq_of_lt fits]

theorem bytes_inj {size n m : Nat} (left : n < 256 ^ size) (right : m < 256 ^ size) :
    bytes size n = bytes size m ↔ n = m := by
  constructor
  · intro same
    rw [← value_bytes left, same, value_bytes right]
  · exact fun same => congrArg _ same

/-- Zeros in front widen an encoding. -/
theorem replicate_append_bytes {size n : Nat} (pad : Nat) (fits : n < 256 ^ size) :
    List.replicate pad 0 ++ bytes size n = bytes (pad + size) n := by
  refine value_inj ?_ ?_
  · rw [List.length_append, List.length_replicate, length_bytes, length_bytes]
  · have wide : n < 256 ^ (pad + size) :=
      fits.trans_le (Nat.pow_le_pow_right (by decide) (Nat.le_add_left size pad))
    have zeros : value (List.replicate pad 0) = 0 := by
      unfold value number
      rw [List.map_replicate, List.reverse_replicate]
      exact Nat.ofDigits_replicate_zero
    rw [value_append, value_bytes fits, value_bytes wide, zeros, zero_mul, zero_add]

end Bytes

end BigEndian
