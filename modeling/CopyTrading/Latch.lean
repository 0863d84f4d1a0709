import Mathlib.Data.List.DropRight
import Mathlib.Data.List.Induction

namespace Latch

variable {ε κ : Type} (cause : ε → Option κ) (clears : ε → Bool)

/-- A latch keeps the first cause until it is cleared, and counts how often it has closed. -/
def step (s : Option κ × Nat) (e : ε) : Option κ × Nat :=
  if clears e then (none, s.2)
  else match s.1, cause e with
    | none, some c => (some c, s.2 + 1)
    | _, _ => s

def run (es : List ε) : Option κ × Nat := es.foldl (step cause clears) (none, 0)

/-- The first cause since the latch was last cleared. -/
def held (es : List ε) : Option κ := (es.rtakeWhile fun e => !clears e).findSome? cause

/-- The stretches between two clearings in which there was a cause. -/
def closings (es : List ε) : Nat :=
  (es.splitOnP clears).countP fun stretch => stretch.any fun e => (cause e).isSome

variable {cause clears}

theorem step_clear {e : ε} (clear : clears e = true) (s : Option κ × Nat) :
    step cause clears s e = (none, s.2) := by
  unfold step
  rw [if_pos clear]

theorem step_held {e : ε} (kept : clears e = false) (c : κ) (n : Nat) :
    step cause clears (some c, n) e = (some c, n) := by
  unfold step
  rw [kept]
  rfl

theorem step_open {e : ε} (kept : clears e = false) (n : Nat) :
    step cause clears (none, n) e =
      (cause e, n + if (cause e).isSome then 1 else 0) := by
  unfold step
  rw [kept]
  cases cause e <;> rfl

variable (cause clears)

theorem held_concat (es : List ε) (e : ε) : held cause clears (es ++ [e]) =
    if clears e then none else (held cause clears es).or (cause e) := by
  unfold held
  rw [List.rtakeWhile_concat]
  cases clears e with
  | true => rfl
  | false =>
    rw [Bool.not_false, if_pos rfl, List.findSome?_append, List.findSome?_singleton]
    rfl

theorem run_held (es : List ε) : (run cause clears es).1 = held cause clears es := by
  induction es using List.reverseRecOn with
  | nil => rfl
  | append_singleton es e ih =>
    have before : run cause clears (es ++ [e]) = step cause clears (run cause clears es) e := by
      unfold run
      rw [List.foldl_append]
      rfl
    rw [held_concat, before, ← ih]
    cases clear : clears e with
    | true =>
      rw [step_clear clear]
      rfl
    | false =>
      obtain ⟨held, n⟩ := run cause clears es
      cases held with
      | some c =>
        rw [step_held clear]
        rfl
      | none =>
        rw [step_open clear]
        rfl

/-- Within a stretch that has had its cause nothing more is counted. -/
theorem foldl_count (es : List ε) (n : Nat) :
    (es.foldl (step cause clears) (none, n)).2 = n + closings cause clears es ∧
    ∀ c, (es.foldl (step cause clears) (some c, n)).2 = n +
      (es.splitOnP clears).tail.countP fun stretch => stretch.any fun e => (cause e).isSome := by
  induction es generalizing n with
  | nil => exact ⟨rfl, fun _ => rfl⟩
  | cons e es ih =>
    obtain ⟨first, rest, split⟩ := List.exists_cons_of_ne_nil (List.splitOnP_ne_nil clears es)
    unfold closings at ih ⊢
    simp only [List.foldl_cons, List.splitOnP_cons_eq_if_modifyHead]
    cases clear : clears e with
    | true =>
      simp only [step_clear clear, (ih n).1, if_true, List.tail_cons, implies_true, and_true]
      rfl
    | false =>
      rw [split] at ih ⊢
      refine ⟨?_, fun c => ?_⟩
      · rw [step_open clear]
        cases found : cause e with
        | none =>
          rw [(ih _).1]
          simp [List.countP_cons, found]
        | some c =>
          rw [(ih _).2 c]
          simp [found]
          omega
      · rw [step_held clear, (ih n).2 c]
        rfl

theorem run_closings (es : List ε) : (run cause clears es).2 = closings cause clears es := by
  unfold run
  rw [(foldl_count cause clears es 0).1, Nat.zero_add]

end Latch
