import Mathlib.Data.List.Basic

namespace Holders

variable {α β κ : Type} {f : α → Option β} {xs : List α}

/-- What the holder at an index holds. -/
def heldAt (f : α → Option β) (xs : List α) (i : Nat) : Option β := xs[i]?.bind f

theorem heldAt_of_get {i : Nat} {x : α} (here : xs[i]? = some x) : heldAt f xs i = f x := by
  unfold heldAt
  rw [here, Option.bind_some]

theorem heldAt_mem {i : Nat} {b : β} (held : heldAt f xs i = some b) : ∃ x ∈ xs, f x = some b := by
  obtain ⟨x, here, holds⟩ := Option.bind_eq_some_iff.mp held
  exact ⟨x, List.mem_of_getElem? here, holds⟩

theorem heldAt_set {i : Nat} {old : α} (here : xs[i]? = some old) (new : α) (j : Nat) :
    heldAt f (xs.set i new) j = if i = j then f new else heldAt f xs j := by
  unfold heldAt
  rw [List.getElem?_set]
  split
  next same =>
    subst same
    rw [if_pos (List.getElem?_eq_some_iff.mp here).1, Option.bind_some]
  next => rfl

theorem heldAt_concat (new : α) (j : Nat) :
    heldAt f (xs ++ [new]) j = if j = xs.length then f new else heldAt f xs j := by
  unfold heldAt
  by_cases last : j = xs.length
  · rw [last, List.getElem?_concat_length, if_pos rfl, Option.bind_some]
  · rw [if_neg last]
    by_cases inside : j < xs.length
    · rw [List.getElem?_append_left inside]
    · have past : (xs ++ [new]).length ≤ j := by
        simp only [List.length_append, List.length_singleton]
        omega
      rw [List.getElem?_eq_none past, List.getElem?_eq_none (by omega)]

/-- Whoever holds something after one of them was replaced. -/
theorem heldAt_set_some {i j : Nat} {old new : α} {b : β} (here : xs[i]? = some old)
    (held : heldAt f (xs.set i new) j = some b) :
    (i = j ∧ f new = some b) ∨ (i ≠ j ∧ heldAt f xs j = some b) := by
  rw [heldAt_set here] at held
  split at held
  next same => exact .inl ⟨same, held⟩
  next apart => exact .inr ⟨apart, held⟩

/-- Whoever lets go of what it holds leaves the others holding. -/
theorem heldAt_set_idle {i j : Nat} {old new : α} {b : β} (here : xs[i]? = some old)
    (idle : f new = none) (held : heldAt f (xs.set i new) j = some b) :
    i ≠ j ∧ heldAt f xs j = some b := by
  rcases heldAt_set_some here held with ⟨_, takes⟩ | others
  · rw [idle] at takes
    cases takes
  · exact others

theorem heldAt_concat_idle {new : α} (idle : f new = none) (j : Nat) :
    heldAt f (xs ++ [new]) j = heldAt f xs j := by
  rw [heldAt_concat]
  split
  next last =>
    unfold heldAt
    rw [idle, List.getElem?_eq_none (Nat.le_of_eq last.symm)]
    rfl
  next => rfl

theorem heldAt_concat_some {j : Nat} {new : α} {b : β}
    (held : heldAt f (xs ++ [new]) j = some b) :
    (j = xs.length ∧ f new = some b) ∨ heldAt f xs j = some b := by
  rw [heldAt_concat] at held
  split at held
  next last => exact .inl ⟨last, held⟩
  next => exact .inr held

/-- All others are still there after one of them was replaced. -/
theorem mem_set_of_ne {i : Nat} {old new x : α} (here : xs[i]? = some old) (mem : x ∈ xs)
    (other : x ≠ old) : x ∈ xs.set i new := by
  obtain ⟨j, at_⟩ := List.mem_iff_getElem?.mp mem
  have apart : i ≠ j := by
    rintro rfl
    exact other (Option.some.inj (at_.symm.trans here))
  refine List.mem_iff_getElem?.mpr ⟨j, ?_⟩
  rw [List.getElem?_set_ne apart]
  exact at_

theorem mem_set_self {i : Nat} {old : α} (here : xs[i]? = some old) (new : α) :
    new ∈ xs.set i new :=
  List.mem_set (List.getElem?_eq_some_iff.mp here).1 new

/-- No two hold things of the same key. -/
def Apart (f : α → Option β) (key : β → κ) (xs : List α) : Prop :=
  ∀ i j a b, heldAt f xs i = some a → heldAt f xs j = some b → key a = key b → i = j

variable {key : β → κ}

theorem Apart.nil : Apart f key [] := by
  intro i j a b held
  cases held

/-- One of them takes something new, or lets go of what it holds, or keeps it. -/
theorem Apart.set (h : Apart f key xs) {i : Nat} {old new : α} (here : xs[i]? = some old)
    (fresh : ∀ b, f new = some b →
      f old = some b ∨ ∀ j a, heldAt f xs j = some a → key a ≠ key b) :
    Apart f key (xs.set i new) := by
  have others : ∀ j a b, i ≠ j → f new = some b → heldAt f xs j = some a → key a = key b →
      False := by
    intro j a b apart takes held same
    rcases fresh b takes with kept | never
    · have before : heldAt f xs i = some b := (heldAt_of_get here).trans kept
      exact apart (h i j b a before held same.symm)
    · exact never j a held same
  intro j k a b first second same
  rcases heldAt_set_some here first with ⟨rfl, takes⟩ | ⟨apart, held⟩
  · rcases heldAt_set_some here second with ⟨rfl, _⟩ | ⟨apart', held'⟩
    · rfl
    · exact absurd same.symm fun eq => others k b a apart' takes held' eq
  · rcases heldAt_set_some here second with ⟨rfl, takes'⟩ | ⟨_, held'⟩
    · exact absurd same fun eq => others j a b apart takes' held eq
    · exact h j k a b held held' same

theorem Apart.concat (h : Apart f key xs) {new : α}
    (fresh : ∀ b, f new = some b → ∀ j a, heldAt f xs j = some a → key a ≠ key b) :
    Apart f key (xs ++ [new]) := by
  intro j k a b first second same
  rcases heldAt_concat_some first with ⟨rfl, takes⟩ | held
  · rcases heldAt_concat_some second with ⟨rfl, _⟩ | held'
    · rfl
    · exact absurd same.symm (fresh a takes k b held')
  · rcases heldAt_concat_some second with ⟨rfl, takes'⟩ | held'
    · exact absurd same (fresh b takes' j a held)
    · exact h j k a b held held' same

section Extends

variable {δ : Type} [DecidableEq δ] {g g' : δ → Option β} {d : δ} {b : β}

/-- One more key is known, and nothing else changes. -/
structure Extends (g g' : δ → Option β) (d : δ) (b : β) : Prop where
  absent : g d = none
  reads : ∀ d', g' d' = if d' = d then some b else g d'

theorem Extends.new (h : Extends g g' d b) : g' d = some b := by
  rw [h.reads, if_pos rfl]

theorem Extends.older (h : Extends g g' d b) {d' : δ} {b' : β} (known : g d' = some b') :
    d' ≠ d ∧ g' d' = some b' := by
  have other : d' ≠ d := by
    rintro rfl
    rw [h.absent] at known
    cases known
  refine ⟨other, ?_⟩
  rw [h.reads, if_neg other]
  exact known

theorem Extends.new_or_older (h : Extends g g' d b) {d' : δ} {b' : β} (known : g' d' = some b') :
    (d' = d ∧ b' = b) ∨ g d' = some b' := by
  rw [h.reads] at known
  split at known
  next same => exact .inl ⟨same, (Option.some.inj known).symm⟩
  next => exact .inr known

end Extends

end Holders
