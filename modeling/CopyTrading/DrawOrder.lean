import Mathlib.Data.List.Perm.Basic

namespace DrawOrder

variable {α β σ : Type} (f : α → σ → β × σ)

/-- The answer to each element, with one state threaded through them in turn. -/
def runAll : List α → σ → List (α × β) × σ
  | [], s => ([], s)
  | a :: l, s =>
    let (b, s) := f a s
    let (rest, s) := runAll l s
    ((a, b) :: rest, s)

/-- Which of two elements is answered first makes no difference, to them or to the state. -/
structure Commute (a b : α) : Prop where
  state : ∀ s, (f b (f a s).2).2 = (f a (f b s).2).2
  left : ∀ s, (f a (f b s).2).1 = (f a s).1
  right : ∀ s, (f b (f a s).2).1 = (f b s).1

variable {f}

theorem runAll_cons (a : α) (l : List α) (s : σ) :
    runAll f (a :: l) s =
      ((a, (f a s).1) :: (runAll f l (f a s).2).1, (runAll f l (f a s).2).2) := rfl

theorem runAll_fst (l : List α) (s : σ) : (runAll f l s).1.map Prod.fst = l := by
  induction l generalizing s with
  | nil => rfl
  | cons a l ih => rw [runAll_cons, List.map_cons, ih]

/-- Every answer is given in some state. -/
theorem runAll_mem {l : List α} {s : σ} {x : α × β} (mem : x ∈ (runAll f l s).1) :
    x.1 ∈ l ∧ ∃ t, x.2 = (f x.1 t).1 := by
  induction l generalizing s with
  | nil => cases mem
  | cons a l ih =>
    rw [runAll_cons] at mem
    rcases List.mem_cons.mp mem with rfl | mem
    · exact ⟨List.mem_cons_self, s, rfl⟩
    · obtain ⟨listed, answered⟩ := ih mem
      exact ⟨List.mem_cons_of_mem _ listed, answered⟩

/-- Elements that commute are answered alike in whatever order they come. -/
theorem runAll_perm {l l' : List α} (h : l.Perm l')
    (commute : ∀ a ∈ l, ∀ b ∈ l, a ≠ b → Commute f a b) (s : σ) :
    (runAll f l s).1.Perm (runAll f l' s).1 ∧ (runAll f l s).2 = (runAll f l' s).2 := by
  induction h generalizing s with
  | nil => exact ⟨.nil, rfl⟩
  | @cons a l l' _ ih =>
    obtain ⟨answers, state⟩ := ih (fun b hb c hc => commute b (List.mem_cons_of_mem _ hb) c
      (List.mem_cons_of_mem _ hc)) (f a s).2
    rw [runAll_cons, runAll_cons]
    exact ⟨answers.cons _, state⟩
  | swap a b l =>
    by_cases same : a = b
    · rw [same]
      exact ⟨.refl _, rfl⟩
    · have swaps : Commute f a b :=
        commute a (List.mem_cons_of_mem _ List.mem_cons_self) b List.mem_cons_self same
      have state := swaps.state s
      simp only [runAll_cons]
      rw [swaps.left s, swaps.right s, state]
      exact ⟨.swap _ _ _, rfl⟩
  | @trans l m n first _ ih ih' =>
    obtain ⟨answers, state⟩ := ih commute s
    obtain ⟨answers', state'⟩ := ih' (fun a ha b hb => commute a (first.mem_iff.mpr ha) b
      (first.mem_iff.mpr hb)) s
    exact ⟨answers.trans answers', state.trans state'⟩

/-- Elements whose answers are fixed commute when their moves of the state do. -/
theorem Commute.of_const {a b : α} {x y : β} {ta tb : σ → σ} (ha : ∀ s, f a s = (x, ta s))
    (hb : ∀ s, f b s = (y, tb s)) (moves : ∀ s, tb (ta s) = ta (tb s)) : Commute f a b := by
  refine ⟨?_, ?_, ?_⟩
  · intro s
    simp only [ha, hb, moves]
  · intro s
    rw [ha, ha]
  · intro s
    rw [hb, hb]

/-- An element that leaves the state alone, and is always answered alike, commutes. -/
theorem Commute.of_idle {a b : α} {x : β} (ha : ∀ s, f a s = (x, s)) : Commute f a b := by
  refine ⟨?_, ?_, ?_⟩
  · intro s
    rw [ha, ha]
  · intro s
    rw [ha, ha]
  · intro s
    rw [ha]

theorem Commute.symm {a b : α} (h : Commute f a b) : Commute f b a :=
  ⟨fun s => (h.state s).symm, h.right, h.left⟩

end DrawOrder
