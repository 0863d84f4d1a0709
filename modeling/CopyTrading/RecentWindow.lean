import Mathlib.Data.List.Basic

namespace RecentWindow

variable {α β : Type}

/-- A new entry goes in front; what no longer fits falls off the end. -/
def push (cap : Nat) (x : α) (xs : List α) : List α := (x :: xs).take cap

/-- The first entry that matches is changed. -/
def amend (here : α → Bool) (f : α → α) : List α → List α
  | [] => []
  | x :: xs => if here x then f x :: xs else x :: amend here f xs

/-- The window does not look past its end. -/
theorem push_take (cap : Nat) (x : α) (xs : List α) :
    push cap x (xs.take cap) = push cap x xs := by
  unfold push
  cases cap with
  | zero => rfl
  | succ n =>
    simp only [List.take_succ_cons, List.take_take]
    rw [Nat.min_eq_left (Nat.le_succ n)]

/-- A change inside the window is the same change of all there ever was. -/
theorem amend_take (here : α → Bool) (f : α → α) (xs : List α) (n : Nat) :
    amend here f (xs.take n) = (amend here f xs).take n := by
  induction xs generalizing n with
  | nil => simp [amend]
  | cons x xs ih =>
    cases n with
    | zero => simp [amend]
    | succ n =>
      simp only [List.take_succ_cons, amend]
      split
      next => rw [List.take_succ_cons]
      next => rw [List.take_succ_cons, ih]

/-- Where one name alone can match, what it shows is changed and no other. -/
theorem amend_filterMap {here : α → Bool} {f : α → α} {show_ show' : β → Option α}
    {names : List β} {name : β} (nodup : names.Nodup)
    (alone : ∀ n ∈ names, ∀ x, show_ n = some x → (here x = true ↔ n = name))
    (changed : show' name = (show_ name).map f) (others : ∀ n, n ≠ name → show' n = show_ n) :
    amend here f (names.filterMap show_) = names.filterMap show' := by
  induction names with
  | nil => rfl
  | cons n names ih =>
    obtain ⟨absent, nodup⟩ := List.nodup_cons.mp nodup
    have rest := ih nodup fun m mem => alone m (List.mem_cons_of_mem n mem)
    cases shown : show_ n with
    | none =>
      have still : show' n = none := by
        by_cases same : n = name
        · rw [same] at shown
          rw [same, changed, shown, Option.map_none]
        · rw [others n same, shown]
      rw [List.filterMap_cons_none shown, List.filterMap_cons_none still, rest]
    | some x =>
      have first := alone n List.mem_cons_self x shown
      rw [List.filterMap_cons_some shown, amend]
      by_cases same : n = name
      · have now : show' n = some (f x) := by
          rw [same] at shown
          rw [same, changed, shown, Option.map_some]
        have untouched : ∀ m ∈ names, show_ m = show' m := by
          intro m mem
          exact (others m fun eq => absent (same.trans eq.symm ▸ mem)).symm
        rw [if_pos (first.mpr same), List.filterMap_cons_some now,
          List.filterMap_congr untouched]
      · have miss : ¬here x = true := fun found => same (first.mp found)
        rw [if_neg miss, List.filterMap_cons_some ((others n same).trans shown), rest]

end RecentWindow
