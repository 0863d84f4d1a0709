import Mathlib.Algebra.BigOperators.Group.List.Basic

/-- A computation that hands the exact result of each operator to a machine, with the kind of
number it is, and goes on with what the machine holds of it. -/
inductive Calculation (K N α : Type) where
  | done (a : α)
  | op (k : K) (x : N) (next : N → Calculation K N α)

namespace Calculation

variable {K N α β : Type}

def bind : Calculation K N α → (α → Calculation K N β) → Calculation K N β
  | done a, f => f a
  | op k x next, f => op k x fun y => (next y).bind f

instance : Monad (Calculation K N) where
  pure := done
  bind := bind

/-- A single operator. -/
def lift (k : K) (x : N) : Calculation K N N := op k x done

/-- The outcome on a machine that may panic at an operator. -/
def run (machine : K → N → Option N) : Calculation K N α → Option α
  | done a => some a
  | op k x next => (machine k x).bind fun y => (next y).run machine

/-- The outcome where every result is held exactly. -/
def value : Calculation K N α → α
  | done a => a
  | op _ x next => (next x).value

/-- What holds of every exact result that a run on the machine meets. -/
def Along (machine : K → N → Option N) (holds : K → N → Prop) : Calculation K N α → Prop
  | done _ => True
  | op k x next => holds k x ∧ ∀ y ∈ machine k x, (next y).Along machine holds

instance decidableAlong (machine : K → N → Option N) (holds : K → N → Prop)
    [∀ k x, Decidable (holds k x)] :
    (p : Calculation K N α) → Decidable (p.Along machine holds)
  | done _ => .isTrue trivial
  | op k x next =>
    have : ∀ y, Decidable ((next y).Along machine holds) :=
      fun y => decidableAlong machine holds (next y)
    inferInstanceAs (Decidable (holds k x ∧ ∀ y ∈ machine k x, (next y).Along machine holds))

section Laws

variable {machine machine' : K → N → Option N} {holds : K → N → Prop}

theorem bind_assoc {γ : Type} (p : Calculation K N α) (f : α → Calculation K N β)
    (g : β → Calculation K N γ) : (p.bind f).bind g = p.bind fun a => (f a).bind g := by
  induction p with
  | done a => rfl
  | op k x next ih => exact congrArg (op k x) (funext ih)

theorem bind_done (p : Calculation K N α) : p.bind done = p := by
  induction p with
  | done a => rfl
  | op k x next ih => exact congrArg (op k x) (funext ih)

instance : LawfulMonad (Calculation K N) :=
  .mk' _ bind_done (fun _ _ => rfl) bind_assoc

@[simp] theorem run_pure (a : α) : (pure a : Calculation K N α).run machine = some a := rfl

@[simp] theorem run_lift (k : K) (x : N) : (lift k x).run machine = machine k x :=
  Option.bind_fun_some (machine k x)

@[simp] theorem run_bind (p : Calculation K N α) (f : α → Calculation K N β) :
    (p >>= f).run machine = (p.run machine).bind fun a => (f a).run machine := by
  induction p with
  | done a => rfl
  | op k x next ih =>
    show ((machine k x).bind fun y => (next y >>= f).run machine) = _
    rw [run, Option.bind_assoc]
    exact congrArg _ (funext ih)

@[simp] theorem run_ite (c : Prop) [Decidable c] (p q : Calculation K N α) :
    (if c then p else q).run machine = if c then p.run machine else q.run machine :=
  apply_ite _ _ _ _

@[simp] theorem value_lift (k : K) (x : N) : (lift k x).value = x := rfl

@[simp] theorem value_pure (a : α) : (pure a : Calculation K N α).value = a := rfl

@[simp] theorem value_bind (p : Calculation K N α) (f : α → Calculation K N β) :
    (p >>= f).value = (f p.value).value := by
  induction p with
  | done a => rfl
  | op k x next ih => exact ih x

theorem value_foldlM {γ : Type} (f : β → γ → Calculation K N β) (b : β) (cs : List γ) :
    (cs.foldlM f b).value = cs.foldl (fun b c => (f b c).value) b := by
  induction cs generalizing b with
  | nil => rfl
  | cons c cs ih =>
    rw [List.foldlM_cons, value_bind, List.foldl_cons, ih]

/-- Machines that agree on every result met give one outcome. -/
theorem run_congr {p : Calculation K N α} (met : p.Along machine holds)
    (same : ∀ k x, holds k x → machine k x = machine' k x) : p.run machine = p.run machine' := by
  induction p with
  | done a => rfl
  | op k x next ih =>
    have here : holds k x := met.1
    have later := met.2
    unfold run
    rw [← same k x here]
    cases held : machine k x with
    | none => rfl
    | some y => exact ih y (later y held)

/-- A machine that goes on wherever another one does has the other's outcomes. -/
theorem run_mono {p : Calculation K N α} {a : α}
    (more : ∀ k x y, machine k x = some y → machine' k x = some y)
    (h : p.run machine = some a) : p.run machine' = some a := by
  induction p with
  | done b => exact h
  | op k x next ih =>
    obtain ⟨y, held, rest⟩ := Option.bind_eq_some_iff.mp h
    exact Option.bind_eq_some_iff.mpr ⟨y, more k x y held, ih y rest⟩

theorem run_exact (p : Calculation K N α) : p.run (fun _ => some) = some p.value := by
  induction p with
  | done a => rfl
  | op k x next ih => exact ih x

/-- Where the machine holds every exact result, the outcome is the exact one. -/
theorem run_of_along {p : Calculation K N α} (met : p.Along (fun _ => some) holds)
    (same : ∀ k x, holds k x → machine k x = some x) : p.run machine = some p.value := by
  rw [← run_congr met fun k x here => (same k x here).symm]
  exact run_exact p

/-- What every turn of a loop keeps, the loop keeps. -/
theorem run_foldlM_keeps {γ : Type} {f : β → γ → Calculation K N β} {P : β → Prop} {cs : List γ}
    (turn : ∀ b, ∀ c ∈ cs, ∀ b', P b → (f b c).run machine = some b' → P b') {b b' : β}
    (start : P b) (h : (cs.foldlM f b).run machine = some b') : P b' := by
  induction cs generalizing b with
  | nil =>
    cases h
    exact start
  | cons c cs ih =>
    rw [List.foldlM_cons, run_bind] at h
    obtain ⟨next, first, rest⟩ := Option.bind_eq_some_iff.mp h
    exact ih (fun b c mem => turn b c (List.mem_cons_of_mem _ mem))
      (turn b c List.mem_cons_self next start first) rest

/-- A loop each of whose turns adds a part to a total. -/
theorem run_foldlM_sum {M γ : Type} [AddMonoid M] {f : β → γ → Calculation K N β} (total : β → M)
    (part : γ → M)
    (turn : ∀ b c b', (f b c).run machine = some b' → total b' = total b + part c) {cs : List γ}
    {b b' : β} (h : (cs.foldlM f b).run machine = some b') :
    total b' = total b + (cs.map part).sum := by
  induction cs generalizing b with
  | nil =>
    cases h
    rw [List.map_nil, List.sum_nil, add_zero]
  | cons c cs ih =>
    rw [List.foldlM_cons, run_bind] at h
    obtain ⟨next, first, rest⟩ := Option.bind_eq_some_iff.mp h
    rw [ih rest, turn b c next first, List.map_cons, List.sum_cons, add_assoc]

end Laws

end Calculation
