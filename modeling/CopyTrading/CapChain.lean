import Mathlib.Order.Lattice

namespace CapChain

variable {α ν : Type} [LinearOrder α]

/-- A value, and the name of the cap that reduced it last. -/
abbrev Capped (α ν : Type) := α × Option ν

def cap (n : Capped α ν) (c : ν × α) : Capped α ν :=
  if c.2 < n.1 then (c.2, some c.1) else n

def capAll (caps : List (ν × α)) (n : Capped α ν) : Capped α ν := caps.foldl cap n

theorem capAll_cons (c : ν × α) (caps : List (ν × α)) (n : Capped α ν) :
    capAll (c :: caps) n = capAll caps (cap n c) := rfl

theorem capAll_append (caps more : List (ν × α)) (n : Capped α ν) :
    capAll (caps ++ more) n = capAll more (capAll caps n) := List.foldl_append

theorem le_cap_iff {x : α} {n : Capped α ν} {c : ν × α} :
    x ≤ (cap n c).1 ↔ x ≤ n.1 ∧ x ≤ c.2 := by
  unfold cap
  split
  next less => exact ⟨fun h => ⟨h.trans less.le, h⟩, And.right⟩
  next more => exact ⟨fun h => ⟨h, h.trans (not_lt.mp more)⟩, And.left⟩

/-- What is left is the least of the value and the caps. -/
theorem le_capAll_iff {x : α} {caps : List (ν × α)} {n : Capped α ν} :
    x ≤ (capAll caps n).1 ↔ x ≤ n.1 ∧ ∀ c ∈ caps, x ≤ c.2 := by
  induction caps generalizing n with
  | nil => simp [capAll]
  | cons c caps ih =>
    rw [capAll_cons, ih, le_cap_iff, List.forall_mem_cons, and_assoc]

theorem capAll_le (caps : List (ν × α)) (n : Capped α ν) : (capAll caps n).1 ≤ n.1 :=
  (le_capAll_iff.mp le_rfl).1

theorem capAll_le_cap {caps : List (ν × α)} (n : Capped α ν) {c : ν × α} (mem : c ∈ caps) :
    (capAll caps n).1 ≤ c.2 :=
  (le_capAll_iff.mp le_rfl).2 c mem

theorem capAll_reached (caps : List (ν × α)) (n : Capped α ν) :
    (capAll caps n).1 = n.1 ∨ ∃ c ∈ caps, (capAll caps n).1 = c.2 := by
  induction caps generalizing n with
  | nil => exact .inl rfl
  | cons c caps ih =>
    rw [capAll_cons]
    rcases ih (cap n c) with same | ⟨d, mem, least⟩
    · rw [same]
      unfold cap
      split
      next => exact .inr ⟨c, List.mem_cons_self, rfl⟩
      next => exact .inl rfl
    · exact .inr ⟨d, List.mem_cons_of_mem c mem, least⟩

/-- No cap is named exactly when none is below the value. -/
theorem capAll_none_iff {caps : List (ν × α)} {v : α} :
    (capAll caps (v, none)).2 = none ↔ ∀ c ∈ caps, v ≤ c.2 := by
  have named : ∀ (caps : List (ν × α)) (n : Capped α ν), n.2 ≠ none →
      (capAll caps n).2 ≠ none := by
    intro caps
    induction caps with
    | nil => exact fun _ some_ => some_
    | cons c caps ih =>
      intro n some_
      refine ih _ ?_
      unfold cap
      split
      · simp
      · exact some_
  induction caps with
  | nil => simp [capAll]
  | cons c caps ih =>
    rw [capAll_cons, List.forall_mem_cons]
    by_cases less : c.2 < v
    · have bound : cap (v, none) c = (c.2, some c.1) := if_pos less
      rw [bound]
      refine iff_of_false (named caps _ (by simp)) ?_
      exact fun h => absurd h.1 (not_le.mpr less)
    · have free : cap (v, none) c = (v, none) := if_neg less
      rw [free]
      exact ih.trans ⟨fun rest => ⟨not_lt.mp less, rest⟩, And.right⟩

/-- The cap that is named is what is left. -/
theorem capAll_named {caps : List (ν × α)} {n : Capped α ν} {name : ν}
    (h : (capAll caps n).2 = some name) :
    (∃ c ∈ caps, c.1 = name ∧ c.2 = (capAll caps n).1) ∨ capAll caps n = n := by
  induction caps generalizing n with
  | nil => exact .inr rfl
  | cons c caps ih =>
    rw [capAll_cons] at h ⊢
    rcases ih h with ⟨d, mem, named, least⟩ | stays
    · exact .inl ⟨d, List.mem_cons_of_mem c mem, named, least⟩
    · rw [stays] at h ⊢
      by_cases less : c.2 < n.1
      · have bound : cap n c = (c.2, some c.1) := if_pos less
        rw [bound] at h ⊢
        exact .inl ⟨c, List.mem_cons_self, Option.some.inj h, rfl⟩
      · exact .inr (if_neg less)

/-- Larger values under larger caps leave more. -/
theorem capAll_mono {caps caps' : List (ν × α)} {n n' : Capped α ν} (value : n.1 ≤ n'.1)
    (limits : ∀ c' ∈ caps', ∃ c ∈ caps, c.2 ≤ c'.2) :
    (capAll caps n).1 ≤ (capAll caps' n').1 := by
  refine le_capAll_iff.mpr ⟨(capAll_le caps n).trans value, ?_⟩
  intro c' mem'
  obtain ⟨c, mem, le⟩ := limits c' mem'
  exact (capAll_le_cap n mem).trans le

end CapChain
