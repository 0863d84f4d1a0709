import Mathlib.Data.List.Basic
import Mathlib.Data.List.Induction

namespace StepRun

variable {σ α : Type}

/-- The runs of a partial step function in which every step is taken where `ok` holds. -/
inductive Run (step : σ → α → Option σ) (ok : σ → α → Prop) (s : σ) : List α → σ → Prop
  | nil : Run step ok s [] s
  | snoc {as : List α} {t u : σ} {a : α} : Run step ok s as t → ok t a → step t a = some u →
      Run step ok s (as ++ [a]) u

/-- No condition on the steps: every run of the system. -/
def Anywhere : σ → α → Prop := fun _ _ => True

instance (s : σ) (a : α) : Decidable (Anywhere s a) := isTrue trivial

variable {step : σ → α → Option σ} {ok : σ → α → Prop}

/-- What one admitted step keeps, every run of admitted steps keeps. -/
theorem Run.keeps {I : σ → Prop}
    (keep : ∀ t a u, I t → ok t a → step t a = some u → I u)
    {s t : σ} {as : List α} (h : Run step ok s as t) (hs : I s) : I t := by
  induction h with
  | nil => exact hs
  | snoc _ admitted taken ih => exact keep _ _ _ ih admitted taken

theorem Run.single {s t : σ} {a : α} (admitted : ok s a) (taken : step s a = some t) :
    Run step ok s [a] t := by
  have start : Run step ok s [] s := .nil
  exact start.snoc admitted taken

theorem Run.last {s u : σ} {as : List α} {a : α} (h : Run step ok s (as ++ [a]) u) :
    ∃ t, Run step ok s as t ∧ ok t a ∧ step t a = some u := by
  generalize eq : as ++ [a] = bs at h
  cases h with
  | nil => simp at eq
  | snoc before admitted taken =>
    obtain ⟨rfl, same⟩ := List.append_inj' eq rfl
    cases same
    exact ⟨_, before, admitted, taken⟩

theorem Run.unique {ok' : σ → α → Prop} {s t t' : σ} {as : List α} (h : Run step ok s as t)
    (h' : Run step ok' s as t') : t = t' := by
  induction h generalizing t' with
  | nil =>
    generalize eq : ([] : List α) = bs at h'
    cases h' with
    | nil => rfl
    | snoc => simp at eq
  | snoc _ _ taken ih =>
    obtain ⟨r, before, _, taken'⟩ := h'.last
    rw [ih before] at taken
    exact Option.some.inj (taken.symm.trans taken')

theorem Run.mono {ok' : σ → α → Prop} (weaker : ∀ s a, ok s a → ok' s a) {s t : σ} {as : List α}
    (h : Run step ok s as t) : Run step ok' s as t := by
  induction h with
  | nil => exact .nil
  | snoc _ admitted taken ih => exact ih.snoc (weaker _ _ admitted) taken

theorem Run.and {ok' : σ → α → Prop} {s t : σ} {as : List α} (h : Run step ok s as t)
    (h' : Run step ok' s as t) : Run step (fun s a => ok s a ∧ ok' s a) s as t := by
  induction h with
  | nil => exact .nil
  | snoc before admitted taken ih =>
    obtain ⟨r, before', admitted', _⟩ := h'.last
    cases before.unique before'
    exact (ih before').snoc ⟨admitted, admitted'⟩ taken

/-- What each step keeps exactly where `ok'` admits it holds at the end of a run exactly if `ok'`
admits every step. -/
theorem Run.iff_admitted {ok' : σ → α → Prop} {W I : σ → Prop}
    (wf : ∀ t a u, W t → step t a = some u → W u)
    (exact_ : ∀ t a u, W t → step t a = some u → (I u ↔ I t ∧ ok' t a))
    {s t : σ} {as : List α} (h : Run step ok s as t) (hw : W s) (hi : I s) :
    I t ↔ Run step ok' s as t := by
  induction h with
  | nil => exact iff_of_true hi .nil
  | snoc before _ taken ih =>
    have formed := before.keeps (fun t a u hw _ => wf t a u hw) hw
    rw [exact_ _ _ _ formed taken, ih]
    constructor
    · rintro ⟨before', admitted⟩
      exact before'.snoc admitted taken
    · intro whole
      obtain ⟨r, before', admitted, _⟩ := whole.last
      cases before.unique before'
      exact ⟨before', admitted⟩

/-- What a step keeps exactly where `ok'` admits it holds all along a run exactly if `ok'` admits
every step. -/
theorem Run.always_iff {ok' : σ → α → Prop} {W I : σ → Prop}
    (wf : ∀ t a u, W t → step t a = some u → W u)
    (exact_ : ∀ t a u, W t → I t → step t a = some u → (I u ↔ ok' t a))
    {s t : σ} {as : List α} (h : Run step ok s as t) (hw : W s) (hi : I s) :
    (∀ before u, before <+: as → Run step ok s before u → I u) ↔ Run step ok' s as t := by
  induction h with
  | nil =>
    refine iff_of_true (fun before u here run => ?_) .nil
    cases List.prefix_nil.mp here
    cases run.unique (.nil : Run step ok s [] s)
    exact hi
  | snoc before admitted taken ih =>
    have formed := before.keeps (fun t a u hw _ => wf t a u hw) hw
    constructor
    · intro always
      have held := always _ _ (List.prefix_append _ _) before
      have after := always _ _ (List.prefix_refl _) (before.snoc admitted taken)
      have earlier := ih.mp fun b u here run => always b u (here.trans (List.prefix_append _ _)) run
      exact earlier.snoc ((exact_ _ _ _ formed held taken).mp after) taken
    · intro whole b v here run
      obtain ⟨r, before', admitted', _⟩ := whole.last
      cases before.unique before'
      have earlier := ih.mpr before'
      rcases List.prefix_concat_iff.mp here with rfl | shorter
      · cases run.unique (before.snoc admitted taken)
        have held := earlier _ _ (List.prefix_refl _) before
        exact (exact_ _ _ _ formed held taken).mpr admitted'
      · exact earlier b v shorter run

theorem Run.append {s t u : σ} {as bs : List α} (h : Run step ok s as t)
    (h' : Run step ok t bs u) : Run step ok s (as ++ bs) u := by
  induction h' with
  | nil => simpa using h
  | snoc _ admitted taken ih =>
    rw [← List.append_assoc]
    exact ih.snoc admitted taken

/-- Executing a list of events, each checked against `ok` first, is a run of admitted steps. -/
theorem run_of_foldlM [∀ s a, Decidable (ok s a)] {s t : σ} {as : List α}
    (h : as.foldlM (fun s a => if ok s a then step s a else none) s = some t) :
    Run step ok s as t := by
  induction as generalizing s with
  | nil => cases Option.some.inj h; exact .nil
  | cons a as ih =>
    rw [List.foldlM_cons] at h
    obtain ⟨r, hr, hs⟩ := Option.bind_eq_some_iff.mp h
    split at hr
    next admitted => exact (Run.single admitted hr).append (ih hs)
    next => cases hr

/-- The same for a step function that is total. -/
theorem always_foldl_iff {step : σ → α → σ} {W I : σ → Prop} {s : σ} {as : List α}
    (wf : ∀ t, ∀ a ∈ as, W t → W (step t a))
    (exact_ : ∀ t, ∀ a ∈ as, W t → I t → (I (step t a) ↔ ok t a)) (hw : W s) (hi : I s) :
    (∀ before, before <+: as → I (before.foldl step s)) ↔
      ∀ before a, before ++ [a] <+: as → ok (before.foldl step s) a := by
  have last {before : List α} {a : α} (h : before ++ [a] <+: as) : a ∈ as :=
    h.subset (List.mem_append_right _ List.mem_cons_self)
  have shorter {before : List α} {a : α} (h : before ++ [a] <+: as) : before <+: as :=
    (List.prefix_append _ _).trans h
  have formed : ∀ before, before <+: as → W (before.foldl step s) := by
    intro before
    induction before using List.reverseRecOn with
    | nil => exact fun _ => hw
    | append_singleton before a ih =>
      intro h
      rw [List.foldl_append]
      exact wf _ a (last h) (ih (shorter h))
  constructor
  · intro always before a h
    have held := always before (shorter h)
    have after := always _ h
    rw [List.foldl_append] at after
    exact (exact_ _ a (last h) (formed before (shorter h)) held).mp after
  · intro admitted before
    induction before using List.reverseRecOn with
    | nil => exact fun _ => hi
    | append_singleton before a ih =>
      intro h
      have held := ih (shorter h)
      rw [List.foldl_append]
      exact (exact_ _ a (last h) (formed before (shorter h)) held).mpr (admitted before a h)

end StepRun
