import Mathlib.Data.List.Sort

namespace SortedListing

variable {α κ : Type} [LinearOrder κ] {key : α → κ} {l l' : List α}

/-- Strictly ascending in the key, so that no key is listed twice. -/
def Sorted (key : α → κ) (l : List α) : Prop := l.Pairwise fun a b => key a < key b

theorem Sorted.nodup_keys (h : Sorted key l) : (l.map key).Nodup := by
  refine List.pairwise_map.mpr (h.imp ?_)
  intro a b lt
  exact ne_of_lt lt

/-- A weakly ascending list without a repeated key is strictly ascending. -/
theorem Sorted.of_le (le : l.Pairwise fun a b => key a ≤ key b) (nodup : (l.map key).Nodup) :
    Sorted key l := by
  have ne : l.Pairwise fun a b => key a ≠ key b := List.pairwise_map.mp nodup
  refine (le.and ne).imp ?_
  rintro a b ⟨le, ne⟩
  exact lt_of_le_of_ne le ne

/-- At most one listed element has a given key. -/
theorem Sorted.inj (h : Sorted key l) {a b : α} (ha : a ∈ l) (hb : b ∈ l) (same : key a = key b) :
    a = b :=
  List.inj_on_of_nodup_map h.nodup_keys ha hb same

/-- A sorted listing is determined by what it lists. -/
theorem Sorted.ext (h : Sorted key l) (h' : Sorted key l') (mem : ∀ a, a ∈ l ↔ a ∈ l') :
    l = l' := by
  have nodup : l.Nodup := h.nodup_keys.of_map
  have nodup' : l'.Nodup := h'.nodup_keys.of_map
  have perm : l.Perm l' := (List.perm_ext_iff_of_nodup nodup nodup').mpr mem
  refine perm.eq_of_pairwise ?_ h h'
  intro a b _ _ lt gt
  exact absurd lt gt.not_gt

/-- Without a repeated key, a list has one ascending order. -/
theorem eq_of_ascending (perm : l.Perm l') (nodup : (l.map key).Nodup)
    (le : l.Pairwise fun a b => key a ≤ key b) (le' : l'.Pairwise fun a b => key a ≤ key b) :
    l = l' := by
  have nodup' : (l'.map key).Nodup := (perm.map key).nodup_iff.mp nodup
  have mem : ∀ a, a ∈ l ↔ a ∈ l' := fun _ => perm.mem_iff
  exact (Sorted.of_le le nodup).ext (.of_le le' nodup') mem

/-- The head is the element with the least key. -/
theorem Sorted.head_iff (h : Sorted key l) {a : α} :
    l.head? = some a ↔ a ∈ l ∧ ∀ b ∈ l, key a ≤ key b := by
  cases l with
  | nil => simp
  | cons c l =>
    have first := (List.pairwise_cons.mp h).1
    rw [List.head?_cons, Option.some.injEq]
    constructor
    · rintro rfl
      refine ⟨List.mem_cons_self, ?_⟩
      intro b hb
      rcases List.mem_cons.mp hb with rfl | hb
      · exact le_rfl
      · exact (first b hb).le
    · rintro ⟨ha, least⟩
      rcases List.mem_cons.mp ha with rfl | ha
      · rfl
      · exact absurd (first a ha) (least c List.mem_cons_self).not_gt

/-- Replacing what is listed under one key, and sorting again. -/
theorem Sorted.replace (h : Sorted key l) {k : κ} {p : α → Bool} (new : Option α)
    (other : ∀ a ∈ l, p a = true → key a ≠ k) (here : ∀ a, new = some a → key a = k)
    (le : l'.Pairwise fun a b => key a ≤ key b) (perm : l'.Perm (l.filter p ++ new.toList)) :
    Sorted key l' := by
  refine .of_le le ((perm.map key).nodup_iff.mpr ?_)
  have kept : ((l.filter p).map key).Nodup := h.nodup_keys.sublist (List.filter_sublist.map key)
  rw [List.map_append]
  cases new with
  | none => simpa using kept
  | some a =>
    refine kept.append (List.nodup_singleton _) ?_
    intro j left right
    obtain ⟨b, hb, rfl⟩ := List.mem_map.mp left
    obtain ⟨listed, passes⟩ := List.mem_filter.mp hb
    have same : key b = key a := by simpa using right
    exact other b listed passes (same.trans (here a rfl))

end SortedListing
