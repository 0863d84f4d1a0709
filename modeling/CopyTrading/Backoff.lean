import Mathlib.Data.List.Induction
import Mathlib.Data.Nat.ModEq

namespace CopyTrading

def U64_MAX : Nat := 2 ^ 64 - 1

def U32_MAX : Nat := 2 ^ 32 - 1

namespace U64

def saturatingMul (a b : UInt64) : UInt64 := UInt64.ofNat (min (a.toNat * b.toNat) U64_MAX)

def saturatingPow (a : UInt64) (n : UInt32) : UInt64 :=
  UInt64.ofNat (min (a.toNat ^ n.toNat) U64_MAX)

end U64

def U32.saturatingAdd (a b : UInt32) : UInt32 := UInt32.ofNat (min (a.toNat + b.toNat) U32_MAX)

/-- A counter that is raised by one can be told from the true count only at its top. -/
theorem U32.saturatingAdd_one {a : UInt32} {n : Nat} (counts : a.toNat = min n U32_MAX) :
    (U32.saturatingAdd a 1).toNat = min (n + 1) U32_MAX := by
  have one : (1 : UInt32).toNat = 1 := rfl
  unfold U32.saturatingAdd
  rw [UInt32.toNat_ofNat', one]
  unfold U32_MAX at *
  omega

structure Backoff where
  baseMs : UInt64
  maxMs : UInt64
  factor : UInt32
  attempt : UInt32
  seed : UInt64
deriving DecidableEq

namespace Backoff

def new (baseMs maxMs : UInt64) : Backoff := ⟨baseMs, maxMs, 2, 0, 0x2545F4914F6CDD1D⟩

/-- Clears the backoff after a successful connection. -/
def reset (b : Backoff) : Backoff := { b with attempt := 0 }

/-- The un-jittered ceiling. -/
def ceilingMs (b : Backoff) : UInt64 :=
  min (U64.saturatingMul b.baseMs (U64.saturatingPow b.factor.toUInt64 (min b.attempt 16))) b.maxMs

/-- xorshift64* -/
def xorshift (seed : UInt64) : UInt64 :=
  let seed := seed ^^^ seed >>> 12
  let seed := seed ^^^ seed <<< 25
  seed ^^^ seed >>> 27

/-- The delay before the next attempt in milliseconds; `none` where the remainder would divide by
zero. -/
def nextDelay (b : Backoff) : Option (Backoff × UInt64) :=
  let exp := U64.saturatingMul b.baseMs (U64.saturatingPow b.factor.toUInt64 (min b.attempt 16))
  let ceiling := max (min exp b.maxMs) 1
  let seed := xorshift b.seed
  let r := seed * 0x2545F4914F6CDD1D
  if ceiling = 0 then none
  else some ({ b with attempt := U32.saturatingAdd b.attempt 1, seed },
    r % ceiling)

inductive Call
  | nextDelay
  | reset
deriving DecidableEq

def step (b : Backoff) : Call → Option Backoff
  | .nextDelay => b.nextDelay.map Prod.fst
  | .reset => some b.reset

/-- Delays asked for since the backoff was last cleared. -/
def sinceReset (calls : List Call) : Nat := (calls.reverse.takeWhile (· ≠ .reset)).length

theorem sinceReset_nextDelay (calls : List Call) :
    sinceReset (calls ++ [.nextDelay]) = sinceReset calls + 1 := by
  simp [sinceReset]

theorem sinceReset_reset (calls : List Call) : sinceReset (calls ++ [.reset]) = 0 := by
  simp [sinceReset]

theorem saturatingMul_toNat (a b : UInt64) :
    (U64.saturatingMul a b).toNat = min (a.toNat * b.toNat) U64_MAX := by
  unfold U64.saturatingMul U64_MAX
  rw [UInt64.toNat_ofNat']
  omega

theorem saturatingPow_toNat (a : UInt64) (n : UInt32) :
    (U64.saturatingPow a n).toNat = min (a.toNat ^ n.toNat) U64_MAX := by
  unfold U64.saturatingPow U64_MAX
  rw [UInt64.toNat_ofNat']
  omega

/-- The exponent is cut off long before the power could saturate. -/
theorem factor_pow (attempt : UInt32) :
    (U64.saturatingPow (2 : UInt32).toUInt64 (min attempt 16)).toNat =
      2 ^ min attempt.toNat 16 := by
  have cut : 2 ^ min attempt.toNat 16 ≤ 2 ^ 16 :=
    Nat.pow_le_pow_right (by omega) (Nat.min_le_right _ _)
  rw [saturatingPow_toNat, UInt32.toNat_min]
  exact Nat.min_eq_left (Nat.le_trans cut (by decide))

theorem ceilingMs_toNat {b : Backoff} (doubles : b.factor = 2) :
    b.ceilingMs.toNat =
      min b.maxMs.toNat (min (b.baseMs.toNat * 2 ^ min b.attempt.toNat 16) U64_MAX) := by
  rw [ceilingMs, UInt64.toNat_min, saturatingMul_toNat, doubles, factor_pow, Nat.min_comm]

theorem nextDelay_eq (b : Backoff) :
    b.nextDelay = some ({ b with
      attempt := U32.saturatingAdd b.attempt 1, seed := xorshift b.seed },
      xorshift b.seed * 0x2545F4914F6CDD1D % max b.ceilingMs 1) := by
  have positive : max b.ceilingMs 1 ≠ 0 := by
    intro zero
    have value := UInt64.toNat_max b.ceilingMs 1
    rw [zero] at value
    have one : (1 : UInt64).toNat = 1 := rfl
    have none_ : (0 : UInt64).toNat = 0 := rfl
    omega
  exact if_neg positive

theorem xor_shiftRight_ne_zero {x : UInt64} {k : UInt64} (low : 0 < k.toNat) (high : k.toNat < 64)
    (nonzero : x ≠ 0) : x ^^^ x >>> k ≠ 0 := by
  intro zero
  apply nonzero
  have same := congrArg UInt64.toNat (UInt64.xor_eq_zero_iff.mp zero)
  rw [UInt64.toNat_shiftRight, Nat.mod_eq_of_lt high, Nat.shiftRight_eq_div_pow] at same
  apply UInt64.toNat_inj.mp
  have two : 2 ≤ 2 ^ k.toNat := Nat.le_self_pow (by omega) 2
  rcases Nat.eq_zero_or_pos x.toNat with none_ | some_
  · exact none_
  · have smaller := Nat.div_lt_self some_ (by omega : 1 < 2 ^ k.toNat)
    omega

/-- Only zero is its own shift: `2 ^ 25 - 1` is odd. -/
theorem zero_of_shifted {x : Nat} (bound : x < 2 ^ 64) (same : x = x * 2 ^ 25 % 2 ^ 64) :
    x = 0 := by
  have grows : x ≤ x * 2 ^ 25 := Nat.le_mul_of_pos_right x (Nat.two_pow_pos 25)
  have congruent : x ≡ x * 2 ^ 25 [MOD 2 ^ 64] := by
    rw [Nat.ModEq, ← same, Nat.mod_eq_of_lt bound]
  have divides : 2 ^ 64 ∣ x * 2 ^ 25 - x := (Nat.modEq_iff_dvd' grows).mp congruent
  have factor : x * 2 ^ 25 - x = x * (2 ^ 25 - 1) := (Nat.mul_sub_one x (2 ^ 25)).symm
  have odd : Nat.Coprime 2 (2 ^ 25 - 1) := by decide
  rw [factor] at divides
  exact Nat.eq_zero_of_dvd_of_lt ((odd.pow_left 64).dvd_of_dvd_mul_right divides) bound

theorem xor_shiftLeft_ne_zero {x : UInt64} (nonzero : x ≠ 0) : x ^^^ x <<< 25 ≠ 0 := by
  intro zero
  apply nonzero
  have same := congrArg UInt64.toNat (UInt64.xor_eq_zero_iff.mp zero)
  have shift : (25 : UInt64).toNat % 64 = 25 := rfl
  rw [UInt64.toNat_shiftLeft, shift, Nat.shiftLeft_eq] at same
  exact UInt64.toNat_inj.mp (zero_of_shifted x.toNat_lt same)

theorem xorshift_ne_zero {seed : UInt64} (nonzero : seed ≠ 0) : xorshift seed ≠ 0 := by
  have first : seed ^^^ seed >>> 12 ≠ 0 := xor_shiftRight_ne_zero (by decide) (by decide) nonzero
  have second := xor_shiftLeft_ne_zero first
  exact xor_shiftRight_ne_zero (by decide) (by decide) second

/-- What the calls made so far leave behind. -/
structure After (baseMs maxMs : UInt64) (calls : List Call) (b : Backoff) : Prop where
  base : b.baseMs = baseMs
  max : b.maxMs = maxMs
  factor : b.factor = 2
  attempt : b.attempt.toNat = min (sinceReset calls) U32_MAX
  seed : b.seed ≠ 0

theorem after_new (baseMs maxMs : UInt64) : After baseMs maxMs [] (new baseMs maxMs) where
  base := rfl
  max := rfl
  factor := rfl
  attempt := rfl
  seed := (by decide : (0x2545F4914F6CDD1D : UInt64) ≠ 0)

theorem After.step {baseMs maxMs : UInt64} {calls : List Call} {b : Backoff}
    (h : After baseMs maxMs calls b) (c : Call) :
    ∃ b', b.step c = some b' ∧ After baseMs maxMs (calls ++ [c]) b' := by
  cases c with
  | nextDelay =>
    have counted : (U32.saturatingAdd b.attempt 1).toNat =
        min (sinceReset (calls ++ [.nextDelay])) U32_MAX := by
      rw [sinceReset_nextDelay]
      exact U32.saturatingAdd_one h.attempt
    refine ⟨_, congrArg (Option.map Prod.fst) b.nextDelay_eq, ?_⟩
    exact ⟨h.base, h.max, h.factor, counted, xorshift_ne_zero h.seed⟩
  | reset =>
    have counted : (0 : UInt32).toNat = min (sinceReset (calls ++ [.reset])) U32_MAX := by
      rw [sinceReset_reset]
      rfl
    exact ⟨b.reset, rfl, h.base, h.max, h.factor, counted, h.seed⟩

theorem after_calls (baseMs maxMs : UInt64) (calls : List Call) :
    ∃ b, calls.foldlM step (new baseMs maxMs) = some b ∧ After baseMs maxMs calls b := by
  induction calls using List.reverseRecOn with
  | nil => exact ⟨_, rfl, after_new baseMs maxMs⟩
  | append_singleton calls c ih =>
    obtain ⟨b, ran, after⟩ := ih
    obtain ⟨b', taken, after'⟩ := after.step c
    refine ⟨b', ?_, after'⟩
    rw [List.foldlM_append, ran]
    simpa using taken

/-- However often a connection fails, the next delay is drawn below the ceiling of its attempt. -/
theorem delay_below_ceiling (baseMs maxMs : UInt64) (calls : List Call) :
    ∃ b b' delay, calls.foldlM step (new baseMs maxMs) = some b ∧
      b.nextDelay = some (b', delay) ∧
      delay.toNat <
        max 1 (min maxMs.toNat (min (baseMs.toNat * 2 ^ min b.attempt.toNat 16) U64_MAX)) ∧
      b.seed ≠ 0 ∧ b.attempt.toNat = min (sinceReset calls) U32_MAX := by
  obtain ⟨b, ran, after⟩ := after_calls baseMs maxMs calls
  refine ⟨b, _, _, ran, b.nextDelay_eq, ?_, after.seed, after.attempt⟩
  have ceiling := ceilingMs_toNat after.factor
  rw [after.base, after.max] at ceiling
  have one : (1 : UInt64).toNat = 1 := rfl
  rw [UInt64.toNat_mod, UInt64.toNat_max, ceiling, one, Nat.max_comm]
  exact Nat.mod_lt _ (by omega)

end Backoff

end CopyTrading
