import Mathlib.Algebra.Order.BigOperators.Group.List
import Mathlib.Algebra.Order.Group.Abs

namespace RangedArith

variable {α β γ : Type}

section Checked

variable [AddCommGroup α] [LinearOrder α]

/-- The result of an operation, which panics outside the range. -/
def checked (bound x : α) : Option α := if |x| < bound then some x else none

end Checked

/-- `m` is `x` where `P` holds, and panics where it does not. -/
structure Computes (m : Option β) (P : Prop) (x : β) : Prop where
  ok : P → m = some x
  panics : ¬P → m = none

namespace Computes

variable {m : Option β} {f : β → Option γ} {P P' Q : Prop} {x : β} {y : γ}

theorem pure (x : β) : Computes (some x) True x := ⟨fun _ => rfl, fun h => absurd trivial h⟩

theorem checked [AddCommGroup α] [LinearOrder α] (bound x : α) :
    Computes (RangedArith.checked bound x) (|x| < bound) x := by
  constructor
  · exact fun within => if_pos within
  · exact fun beyond => if_neg beyond

/-- A computation goes on where its first step does. -/
theorem bind (first : Computes m P x) (rest : P → Computes (f x) Q y) :
    Computes (m >>= f) (P ∧ Q) y := by
  constructor
  · rintro ⟨p, q⟩
    rw [first.ok p]
    exact (rest p).ok q
  · intro fails
    by_cases p : P
    · rw [first.ok p]
      exact (rest p).panics fun q => fails ⟨p, q⟩
    · rw [first.panics p]
      rfl

/-- What is left after the only step that can panic. -/
theorem last (first : Computes m P x) (rest : f x = some y) : Computes (m >>= f) P y := by
  constructor
  · intro p
    rw [first.ok p]
    exact rest
  · intro fails
    rw [first.panics fails]
    rfl

theorem map {g : β → γ} (first : Computes m P x) :
    Computes (m >>= fun b => some (g b)) P (g x) :=
  first.last rfl

/-- A first step that cannot panic. -/
theorem step (first : Computes m P x) (p : P) (rest : Computes (f x) Q y) :
    Computes (m >>= f) Q y := by
  rw [first.ok p]
  exact rest

theorem congr (h : Computes m P x) (same : P ↔ P') : Computes m P' x :=
  ⟨fun p => h.ok (same.mpr p), fun p => h.panics fun q => p (same.mp q)⟩

theorem ends (p : P) : Computes (some x) P x := (pure x).congr (iff_of_true trivial p)

/-- The guard of a branch that ends without another operation. -/
theorem guarded {c : Prop} (ends : ¬c → m = some x) (goes : c → Computes m P x) :
    Computes m (c → P) x := by
  by_cases h : c
  · exact (goes h).congr ⟨fun p _ => p, fun p => p h⟩
  · exact ⟨fun _ => ends h, fun fails => absurd (fun c => absurd c h) fails⟩

/-- The same guard in the code and in what it computes. -/
theorem past {c Q : Prop} [Decidable c] {a b : β} (guard : ¬c ↔ Q)
    (goes : Q → Computes m P b) :
    Computes (if c then some a else m) (Q → P) (if c then a else b) := by
  by_cases ends : c
  · rw [if_pos ends, if_pos ends]
    exact .ends fun q => absurd ends (guard.mpr q)
  · rw [if_neg ends, if_neg ends]
    exact (goes (guard.mp ends)).congr ⟨fun p _ => p, fun p => p (guard.mp ends)⟩

/-- What is asked of every value of a known result is asked of the one it has. -/
theorem only {δ : Type} {g : γ → δ} (inj : g.Injective) {R : γ → Prop} {c : γ}
    (h : Computes m (R c) x) : Computes m (∀ d, g c = g d → R d) x := by
  refine h.congr ⟨?_, fun all => all c rfl⟩
  intro r d same
  rw [← inj same]
  exact r

theorem only_pair {δ ε : Type} {g : γ × δ → ε} (inj : g.Injective) {R : γ → δ → Prop} {c : γ}
    {d : δ} (h : Computes m (R c d) x) : Computes m (∀ c' d', g (c, d) = g (c', d') → R c' d') x := by
  refine h.congr ⟨?_, fun all => all c d rfl⟩
  intro r c' d' same
  cases inj same
  exact r

theorem isSome_iff (h : Computes m P x) : m.isSome = true ↔ P := by
  by_cases p : P
  · rw [h.ok p]
    exact iff_of_true rfl p
  · rw [h.panics p]
    exact iff_of_false (by simp) p

end Computes

/-- A check, and the rest of the checks where it refuses nothing. -/
def firstOf (check rest : Option (Option β)) : Option (Option β) := do
  let refusal ← check
  match refusal with
  | some r => some (some r)
  | none => rest

theorem computes_firstOf {check rest : Option (Option β)} {P Q : Prop} {x y : Option β}
    (first : Computes check P x) (next : x = none → Computes rest Q y) :
    Computes (firstOf check rest) (P ∧ (x = none → Q)) (x <|> y) := by
  unfold firstOf
  refine first.bind fun _ => ?_
  cases x with
  | some r => exact .ends nofun
  | none => exact (next rfl).congr ⟨fun q _ => q, fun q => q rfl⟩

section Sum

variable [AddCommGroup α] [LinearOrder α] [IsOrderedAddMonoid α]

/-- One turn of a loop that adds up `term`. -/
def addTerm (bound : α) (term : β → Option α) (acc : α) (x : β) : Option α :=
  (term x).bind fun t => checked bound (acc + t)

/-- A running sum of what is not negative stays in the range exactly if the total does. -/
theorem computes_sum (bound : α) (value : β → α) {term : β → Option α} {xs : List β}
    (terms : ∀ x ∈ xs, term x = some (value x)) (nonneg : ∀ x ∈ xs, 0 ≤ value x) {acc : α}
    (low : 0 ≤ acc) (high : acc < bound) :
    Computes (xs.foldlM (addTerm bound term) acc) (acc + (xs.map value).sum < bound)
      (acc + (xs.map value).sum) := by
  induction xs generalizing acc with
  | nil =>
    rw [List.map_nil, List.sum_nil, add_zero]
    exact .ends high
  | cons x xs ih =>
    have rest : 0 ≤ (xs.map value).sum := by
      refine List.sum_nonneg ?_
      intro v mem
      obtain ⟨z, listed, rfl⟩ := List.mem_map.mp mem
      exact nonneg z (List.mem_cons_of_mem x listed)
    have next : 0 ≤ acc + value x := add_nonneg low (nonneg x List.mem_cons_self)
    have turn : Computes (addTerm bound term acc x) (|acc + value x| < bound) (acc + value x) := by
      unfold addTerm
      rw [terms x List.mem_cons_self]
      exact .checked bound (acc + value x)
    have sum := turn.bind (f := fun acc => xs.foldlM (addTerm bound term) acc) fun within =>
      ih (fun z mem => terms z (List.mem_cons_of_mem x mem))
        (fun z mem => nonneg z (List.mem_cons_of_mem x mem)) next (abs_of_nonneg next ▸ within)
    rw [List.foldlM_cons, List.map_cons, List.sum_cons, ← add_assoc]
    refine sum.congr ⟨And.right, fun whole => ⟨?_, whole⟩⟩
    rw [abs_of_nonneg next]
    exact (le_add_of_nonneg_right rest).trans_lt whole

end Sum

end RangedArith
