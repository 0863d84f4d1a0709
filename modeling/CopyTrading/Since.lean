import CopyTrading.StepRun

namespace Since

open StepRun

variable {σ α : Type} {step : σ → α → Option σ} {ok puts keeps : σ → α → Prop}

/-- Every one of these steps, each where it is taken, keeps what there is. -/
def Kept (step : σ → α → Option σ) (ok keeps : σ → α → Prop) (s : σ) (before after : List α) :
    Prop :=
  ∀ mid a rest t, after = mid ++ a :: rest → Run step ok s (before ++ mid) t → keeps t a

theorem Kept.nil (s : σ) (before : List α) : Kept step ok keeps s before [] := by
  intro mid a rest t eq
  simp at eq

theorem Kept.concat_iff {s t : σ} {before after : List α} {a : α}
    (run : Run step ok s (before ++ after) t) :
    Kept step ok keeps s before (after ++ [a]) ↔
      Kept step ok keeps s before after ∧ keeps t a := by
  constructor
  · intro kept
    refine ⟨fun mid b rest u eq run' => kept mid b (rest ++ [a]) u (by simp [eq]) run', ?_⟩
    exact kept after a [] t rfl run
  · rintro ⟨kept, last⟩ mid b rest u eq run'
    rcases rest.eq_nil_or_concat' with rfl | ⟨rest, x, rfl⟩
    · obtain ⟨rfl, same⟩ := List.append_inj' eq rfl
      cases same
      rw [run'.unique run]
      exact last
    · have eq' : after ++ [a] = (mid ++ b :: rest) ++ [x] := by simpa using eq
      exact kept mid b rest u (List.append_inj' eq' rfl).1 run'

/-- Some step of a run puts it, and every later one keeps it. -/
def Holds (step : σ → α → Option σ) (ok puts keeps : σ → α → Prop) (s : σ) (as : List α) : Prop :=
  ∃ before a after t, as = before ++ a :: after ∧ Run step ok s before t ∧ puts t a ∧
    Kept step ok keeps s (before ++ [a]) after

theorem not_holds_nil (s : σ) : ¬Holds step ok puts keeps s [] := by
  rintro ⟨before, a, after, t, eq, _⟩
  simp at eq

theorem holds_concat_iff {s t : σ} {as : List α} {a : α} (run : Run step ok s as t) :
    Holds step ok puts keeps s (as ++ [a]) ↔
      puts t a ∨ Holds step ok puts keeps s as ∧ keeps t a := by
  constructor
  · rintro ⟨before, b, after, u, eq, earlier, put, kept⟩
    rcases after.eq_nil_or_concat' with rfl | ⟨after, x, rfl⟩
    · obtain ⟨rfl, same⟩ := List.append_inj' eq rfl
      cases same
      rw [run.unique earlier]
      exact .inl put
    · have eq' : as ++ [a] = (before ++ b :: after) ++ [x] := by simpa using eq
      obtain ⟨rfl, same⟩ := List.append_inj' eq' rfl
      cases same
      have through : Run step ok s ((before ++ [b]) ++ after) t := by simpa using run
      obtain ⟨kept, last⟩ := (Kept.concat_iff through).mp kept
      exact .inr ⟨⟨before, b, after, u, rfl, earlier, put, kept⟩, last⟩
  · rintro (put | ⟨⟨before, b, after, u, rfl, earlier, put, kept⟩, last⟩)
    · exact ⟨as, a, [], t, rfl, run, put, .nil s _⟩
    · have through : Run step ok s ((before ++ [b]) ++ after) t := by simpa using run
      have later := (Kept.concat_iff (a := a) through).mpr ⟨kept, last⟩
      exact ⟨before, b, after ++ [a], u, by simp, earlier, put, later⟩

/-- What every step either puts or finds and keeps holds at the end of a run exactly if some step of
it has put it and every step since has kept it. -/
theorem holds_iff {H : σ → Prop}
    (law : ∀ t a u, ok t a → step t a = some u → (H u ↔ puts t a ∨ H t ∧ keeps t a))
    {s t : σ} {as : List α} (none_ : ¬H s) (run : Run step ok s as t) :
    H t ↔ Holds step ok puts keeps s as := by
  induction run with
  | nil => exact iff_of_false none_ (not_holds_nil s)
  | snoc before admitted taken ih =>
    rw [law _ _ _ admitted taken, holds_concat_iff before, ih]

end Since
