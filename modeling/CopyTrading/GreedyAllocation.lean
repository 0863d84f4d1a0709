import Mathlib.Algebra.Order.BigOperators.Group.List
import Mathlib.Data.List.Forall2
import Mathlib.Tactic.Linarith

namespace GreedyAllocation

section Spending

variable {ι K : Type} [CommRing K]

def spent (cost : ι → K) (is : List ι) (as : List K) : K :=
  (List.zipWith (fun i a => cost i * a) is as).sum

theorem spent_cons (cost : ι → K) (i : ι) (a : K) (is : List ι) (as : List K) :
    spent cost (i :: is) (a :: as) = cost i * a + spent cost is as := by
  unfold spent
  rw [List.zipWith_cons_cons, List.sum_cons]

theorem spent_scaled (c : K) (cost : ι → K) (is : List ι) (as : List K) :
    spent (fun i => c * cost i) is as = c * spent cost is as := by
  induction is generalizing as with
  | nil => simp [spent]
  | cons i is ih =>
    cases as with
    | nil => simp [spent]
    | cons a as =>
      rw [spent_cons, spent_cons, ih, mul_add, mul_assoc]

end Spending

section Handing

variable {ι K : Type} [CommRing K] [LinearOrder K] {cap : ι → K} {is : List ι}

/-- A divisible amount handed out from the front, as much to each as it can take. -/
def greedy (cap : ι → K) : K → List ι → List K
  | _, [] => []
  | rest, i :: is => min rest (cap i) :: greedy cap (rest - min rest (cap i)) is

theorem greedy_cons (cap : ι → K) (rest : K) (i : ι) (is : List ι) :
    greedy cap rest (i :: is) =
      min rest (cap i) :: greedy cap (rest - min rest (cap i)) is := rfl

/-- Nobody gets less than nothing or more than it can take. -/
def Fits (cap : ι → K) (is : List ι) (as : List K) : Prop :=
  List.Forall₂ (fun i a => 0 ≤ a ∧ a ≤ cap i) is as

theorem Fits.room {as : List K} (h : Fits cap is as) : ∀ i ∈ is, 0 ≤ cap i := by
  induction h with
  | nil => simp
  | cons here _ ih =>
    intro j mem
    rcases List.mem_cons.mp mem with rfl | behind
    · exact here.1.trans here.2
    · exact ih j behind

/-- Nothing goes to those who can take nothing. -/
theorem greedy_of_full (cost : ι → K) {rest : K} (none_ : ∀ i ∈ is, cap i = 0) (left : 0 ≤ rest) :
    (greedy cap rest is).sum = 0 ∧ spent cost is (greedy cap rest is) = 0 := by
  induction is with
  | nil => simp [greedy, spent]
  | cons i is ih =>
    have head : min rest (cap i) = 0 := by
      rw [none_ i List.mem_cons_self]
      exact min_eq_right left
    obtain ⟨sum, spend⟩ := ih fun j mem => none_ j (List.mem_cons_of_mem i mem)
    rw [greedy_cons, head, sub_zero, List.sum_cons, spent_cons, sum, spend, mul_zero, add_zero]
    exact ⟨rfl, rfl⟩

end Handing

variable {ι K : Type} [CommRing K] [LinearOrder K] [IsStrictOrderedRing K] {cap cost : ι → K}
  {is : List ι} {as : List K}

theorem Fits.sum_nonneg (h : Fits cap is as) : 0 ≤ as.sum := by
  induction h with
  | nil => simp
  | cons here _ ih =>
    rw [List.sum_cons]
    exact add_nonneg here.1 ih

theorem Fits.sum_le (h : Fits cap is as) : as.sum ≤ (is.map cap).sum := by
  induction h with
  | nil => simp
  | cons here _ ih =>
    rw [List.sum_cons, List.map_cons, List.sum_cons]
    exact add_le_add here.2 ih

theorem left_nonneg (rest room : K) : 0 ≤ rest - min rest room :=
  sub_nonneg.mpr (min_le_left _ _)

theorem left_mono {less more : K} (le : less ≤ more) (room : K) :
    less - min less room ≤ more - min more room := by
  rcases le_total more room with all | part
  · rw [min_eq_left all, min_eq_left (le.trans all), sub_self, sub_self]
  · rw [min_eq_right part]
    rcases le_total less room with all' | part'
    · rw [min_eq_left all']
      linarith
    · rw [min_eq_right part']
      linarith

theorem greedy_fits {rest : K} (room : ∀ i ∈ is, 0 ≤ cap i) (left : 0 ≤ rest) :
    Fits cap is (greedy cap rest is) := by
  induction is generalizing rest with
  | nil => exact .nil
  | cons i is ih =>
    have here := room i List.mem_cons_self
    refine .cons ⟨le_min left here, min_le_right _ _⟩ ?_
    exact ih (fun j mem => room j (List.mem_cons_of_mem i mem)) (left_nonneg rest (cap i))

/-- All of it is handed out as far as there is room. -/
theorem greedy_sum {rest : K} (room : ∀ i ∈ is, 0 ≤ cap i) (left : 0 ≤ rest) :
    (greedy cap rest is).sum = min rest (is.map cap).sum := by
  induction is generalizing rest with
  | nil => exact (min_eq_right left).symm
  | cons i is ih =>
    have others : ∀ j ∈ is, 0 ≤ cap j := fun j mem => room j (List.mem_cons_of_mem i mem)
    have more : 0 ≤ (is.map cap).sum := by
      refine List.sum_nonneg ?_
      intro x mem
      obtain ⟨j, here, rfl⟩ := List.mem_map.mp mem
      exact others j here
    rw [greedy_cons, List.sum_cons, ih others (left_nonneg rest (cap i)), List.map_cons,
      List.sum_cons]
    rcases le_total rest (cap i) with all | part
    · rw [min_eq_left all, sub_self, min_eq_left more, add_zero, min_eq_left (by linarith)]
    · rw [min_eq_right part, ← min_add_add_left, add_sub_cancel]

/-- What finds no room changes nothing. -/
theorem greedy_cut {rest : K} (room : ∀ i ∈ is, 0 ≤ cap i) (left : 0 ≤ rest) :
    greedy cap (greedy cap rest is).sum is = greedy cap rest is := by
  induction is generalizing rest with
  | nil => rfl
  | cons i is ih =>
    have others : ∀ j ∈ is, 0 ≤ cap j := fun j mem => room j (List.mem_cons_of_mem i mem)
    have behind := Fits.sum_nonneg (greedy_fits others (left_nonneg rest (cap i)))
    have head : min (min rest (cap i) + (greedy cap (rest - min rest (cap i)) is).sum) (cap i) =
        min rest (cap i) := by
      rcases le_total rest (cap i) with all | part
      · rw [min_eq_left all, sub_self, greedy_sum others le_rfl]
        have none_ : min 0 (is.map cap).sum ≤ 0 := min_le_left _ _
        have some_ : 0 ≤ min 0 (is.map cap).sum := by
          rw [← greedy_sum others le_rfl]
          exact Fits.sum_nonneg (greedy_fits others le_rfl)
        rw [le_antisymm none_ some_, add_zero, min_eq_left all]
      · rw [min_eq_right part] at behind ⊢
        exact min_eq_right (le_add_of_nonneg_right behind)
    rw [greedy_cons cap rest, List.sum_cons, greedy_cons, head, add_sub_cancel_left,
      ih others (left_nonneg rest (cap i))]

/-- What a larger amount adds goes to those who cost no less than any bound on their cost. -/
theorem spent_extra (cost : ι → K) {c less more : K} (room : ∀ i ∈ is, 0 ≤ cap i)
    (dear : ∀ i ∈ is, c ≤ cost i)
    (le : less ≤ more) :
    c * ((greedy cap more is).sum - (greedy cap less is).sum) ≤
      spent cost is (greedy cap more is) - spent cost is (greedy cap less is) := by
  induction is generalizing less more with
  | nil => simp [greedy, spent]
  | cons i is ih =>
    have tail := ih (fun j mem => room j (List.mem_cons_of_mem i mem))
      (fun j mem => dear j (List.mem_cons_of_mem i mem)) (left_mono le (cap i))
    have more_ : min less (cap i) ≤ min more (cap i) := min_le_min_right _ le
    have head := mul_le_mul_of_nonneg_right (dear i List.mem_cons_self) (sub_nonneg.mpr more_)
    rw [greedy_cons, greedy_cons, List.sum_cons, List.sum_cons, spent_cons, spent_cons]
    linarith

/-- Among all that hand out the same amount, the greedy one spends least if it starts with the
cheapest. -/
theorem greedy_cheapest (cheap : is.Pairwise fun i j => cost i ≤ cost j)
    (h : Fits cap is as) : spent cost is (greedy cap as.sum is) ≤ spent cost is as := by
  induction h with
  | nil => simp [greedy, spent]
  | @cons i a is as here rest ih =>
    obtain ⟨dear, tail⟩ := List.pairwise_cons.mp cheap
    have room := Fits.room rest
    have taken : a ≤ min (a + as.sum) (cap i) :=
      le_min (le_add_of_nonneg_right (Fits.sum_nonneg rest)) here.2
    have most : min (a + as.sum) (cap i) ≤ a + as.sum := min_le_left _ _
    -- what the head takes on top is taken from the dearer ones behind it
    have extra := spent_extra cost room dear (sub_le_sub_left taken (a + as.sum))
    rw [add_sub_cancel_left, greedy_sum room (Fits.sum_nonneg rest),
      min_eq_left (Fits.sum_le rest), greedy_sum room (sub_nonneg.mpr most),
      min_eq_left (by linarith [Fits.sum_le rest])] at extra
    have behind := ih tail
    rw [List.sum_cons]
    rw [greedy_cons, spent_cons, spent_cons]
    linarith

end GreedyAllocation
