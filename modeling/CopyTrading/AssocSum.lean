import Mathlib.Data.List.AList
import Mathlib.Algebra.BigOperators.Group.List.Basic
import Mathlib.Tactic.Abel

namespace AList

variable {κ β M : Type} [DecidableEq κ]

/-- The stored values, in the map's own enumeration order. -/
def values (m : AList fun _ : κ => β) : List β := m.entries.map Sigma.snd

theorem mem_values {m : AList fun _ : κ => β} {v : β} :
    v ∈ m.values ↔ ∃ k, m.lookup k = some v := by
  constructor
  · intro h
    obtain ⟨⟨k, w⟩, hm, rfl⟩ := List.mem_map.mp h
    exact ⟨k, mem_lookup_iff.mpr hm⟩
  · rintro ⟨k, h⟩
    exact List.mem_map.mpr ⟨⟨k, v⟩, mem_lookup_iff.mp h, rfl⟩

/-- An order in which a hash map may list its values. -/
structure Enumeration (κ β : Type) [DecidableEq κ] where
  list : (AList fun _ : κ => β) → List β
  perm : ∀ m, (list m).Perm m.values

/-- The map's own order. -/
def Enumeration.own : Enumeration κ β := ⟨values, fun _ => .refl _⟩

theorem mem_entries_iff {m : AList fun _ : κ => β} {e : Σ _ : κ, β} :
    e ∈ m.entries ↔ m.lookup e.1 = some e.2 := mem_lookup_iff.symm

/-- The entry API's `*entry(k).or_insert(d) = g old`. -/
def upsert (m : AList fun _ : κ => β) (k : κ) (d : β) (g : β → β) : AList fun _ : κ => β :=
  m.insert k (g ((m.lookup k).getD d))

theorem lookup_upsert (m : AList fun _ : κ => β) (k : κ) (d : β) (g : β → β) :
    (m.upsert k d g).lookup k = some (g ((m.lookup k).getD d)) := lookup_insert m

theorem lookup_upsert_ne {m : AList fun _ : κ => β} {k j : κ} (d : β) (g : β → β) (h : j ≠ k) :
    (m.upsert k d g).lookup j = m.lookup j := lookup_insert_ne h

theorem erase_of_lookup_none {m : AList fun _ : κ => β} {k : κ} (h : m.lookup k = none) :
    m.erase k = m :=
  AList.ext (List.kerase_of_notMem_keys (lookup_eq_none.mp h))

theorem lookup_foldl_erase (ks : List κ) (m : AList fun _ : κ => β) (k : κ) :
    (ks.foldl (fun m k => m.erase k) m).lookup k = if k ∈ ks then none else m.lookup k := by
  induction ks generalizing m with
  | nil => simp
  | cons j ks ih =>
    rw [List.foldl_cons, ih]
    by_cases same : k = j
    · subst same
      simp [lookup_erase k m]
    · simp [same, lookup_erase_ne same]

/-- The map with `f` applied to every value. -/
def mapValues {γ : Type} (f : β → γ) (m : AList fun _ : κ => β) : AList fun _ : κ => γ :=
  ⟨m.entries.map fun e => ⟨e.1, f e.2⟩, by
    show ((m.entries.map fun e => (⟨e.1, f e.2⟩ : Σ _ : κ, γ)).map Sigma.fst).Nodup
    rw [List.map_map]
    exact m.nodupKeys⟩

theorem lookup_mapValues {γ : Type} (f : β → γ) (m : AList fun _ : κ => β) (k : κ) :
    (m.mapValues f).lookup k = (m.lookup k).map f := by
  refine Option.ext fun c => ?_
  rw [Option.map_eq_some_iff]
  constructor
  · intro held
    obtain ⟨e, mem, eq⟩ := List.mem_map.mp (mem_lookup_iff.mp held)
    cases eq
    exact ⟨e.2, mem_entries_iff.mp mem, rfl⟩
  · rintro ⟨v, held, rfl⟩
    exact mem_lookup_iff.mpr (List.mem_map.mpr ⟨⟨k, v⟩, mem_lookup_iff.mp held, rfl⟩)

theorem mapValues_insert {γ : Type} (f : β → γ) (m : AList fun _ : κ => β) (k : κ) (v : β) :
    (m.insert k v).mapValues f = (m.mapValues f).insert k (f v) := by
  refine AList.ext ?_
  show ((m.insert k v).entries.map fun e => (⟨e.1, f e.2⟩ : Σ _ : κ, γ)) = _
  rw [entries_insert, entries_insert, List.map_cons]
  congr 1
  have others : (m.mapValues f).entries =
      m.entries.map fun e => (⟨e.1, f e.2⟩ : Σ _ : κ, γ) := rfl
  rw [others]
  unfold List.kerase
  rw [List.eraseP_map]
  rfl

omit [DecidableEq κ] in
/-- Entries passed on under their own key list the keys in order, none twice. -/
theorem sublist_keys_filterMap {γ : Type} {f : (Σ _ : κ, β) → Option γ} {key : γ → κ}
    (own : ∀ e c, f e = some c → key c = e.1) (m : AList fun _ : κ => β) :
    ((m.entries.filterMap f).map key).Sublist m.keys := by
  unfold keys List.keys
  induction m.entries with
  | nil => exact List.Sublist.refl _
  | cons e es ih =>
    cases passed : f e with
    | none =>
      rw [List.filterMap_cons_none passed]
      exact ih.cons _
    | some c =>
      rw [List.filterMap_cons_some passed, List.map_cons, List.map_cons, own e c passed]
      exact ih.cons_cons _

section Keyed

variable {m : AList fun _ : κ => β} {key : β → κ}

/-- Values that know their key list no key twice. -/
theorem nodup_map_key (h : ∀ k v, m.lookup k = some v → key v = k) (p : β → Bool) :
    ((m.values.filter p).map key).Nodup := by
  have keys : m.values.map key = m.keys := by
    unfold values
    rw [List.map_map]
    exact List.map_congr_left fun e mem => h e.1 e.2 (mem_entries_iff.mp mem)
  have all : (m.values.map key).Nodup := keys ▸ m.nodupKeys
  exact all.sublist (List.filter_sublist.map key)

theorem mem_map_key (h : ∀ k v, m.lookup k = some v → key v = k) {p : β → Bool} {k : κ} :
    k ∈ (m.values.filter p).map key ↔ ∃ v, m.lookup k = some v ∧ p v := by
  constructor
  · intro mem
    obtain ⟨v, listed, rfl⟩ := List.mem_map.mp mem
    obtain ⟨held, passes⟩ := List.mem_filter.mp listed
    obtain ⟨k, stored⟩ := mem_values.mp held
    exact ⟨v, by rw [h k v stored]; exact stored, passes⟩
  · rintro ⟨v, stored, passes⟩
    refine List.mem_map.mpr ⟨v, List.mem_filter.mpr ⟨?_, passes⟩, h k v stored⟩
    exact mem_values.mpr ⟨k, stored⟩

variable (key)

/-- A map into which values are put under their own keys stays keyed. -/
theorem keyed_foldl_insert (h : ∀ k v, m.lookup k = some v → key v = k) (xs : List β) :
    ∀ k v, (xs.foldl (fun m x => m.insert (key x) x) m).lookup k = some v → key v = k := by
  induction xs generalizing m with
  | nil => exact h
  | cons x xs ih =>
    refine ih fun k v held => ?_
    by_cases same : k = key x
    · subst same
      rw [lookup_insert] at held
      cases held
      rfl
    · rw [lookup_insert_ne same] at held
      exact h k v held

/-- Values put into a map one after the other, none of them under the key of another. -/
theorem lookup_foldl_insert {xs : List β} (nodup : (xs.map key).Nodup)
    (m : AList fun _ : κ => β) (k : κ) :
    (xs.foldl (fun m x => m.insert (key x) x) m).lookup k =
      (xs.find? fun x => key x = k).or (m.lookup k) := by
  induction xs generalizing m with
  | nil => rfl
  | cons x xs ih =>
    obtain ⟨absent, rest⟩ := List.nodup_cons.mp nodup
    rw [List.foldl_cons, ih rest]
    by_cases same : key x = k
    · subst same
      have none_ : (xs.find? fun y => key y = key x) = none := by
        refine List.find?_eq_none.mpr fun y mem => ?_
        have other : key y ≠ key x := fun eq => absent (eq ▸ List.mem_map_of_mem mem)
        simpa using other
      rw [none_, List.find?_cons_of_pos (by simp), lookup_insert]
      rfl
    · rw [List.find?_cons_of_neg (by simpa using same), lookup_insert_ne (Ne.symm same)]

/-- The values of a keyed map, each changed in place and put into another map in any order, replace
what that map holds under their keys. -/
theorem lookup_foldl_insert_values (f : β → β) (h : ∀ k v, m.lookup k = some v → key (f v) = k)
    {xs : List β} (perm : xs.Perm (m.values.map f)) (m' : AList fun _ : κ => β) (k : κ) :
    (xs.foldl (fun m x => m.insert (key x) x) m').lookup k =
      ((m.lookup k).map f).or (m'.lookup k) := by
  have nodup : (xs.map key).Nodup := by
    rw [(perm.map key).nodup_iff, List.map_map]
    exact (List.filter_true m.values ▸ nodup_map_key h fun _ => true : _)
  rw [lookup_foldl_insert key nodup]
  congr 1
  cases stored : m.lookup k with
  | none =>
    refine List.find?_eq_none.mpr fun x mem => ?_
    obtain ⟨v, listed, rfl⟩ := List.mem_map.mp (perm.mem_iff.mp mem)
    obtain ⟨j, held⟩ := mem_values.mp listed
    have other : key (f v) ≠ k := by
      rw [h j v held]
      rintro rfl
      rw [stored] at held
      cases held
    simpa using other
  | some v =>
    have mem : f v ∈ xs := perm.mem_iff.mpr (List.mem_map_of_mem (mem_values.mpr ⟨k, stored⟩))
    have some_ : (xs.find? fun x => key x = k).isSome = true :=
      List.find?_isSome.mpr ⟨f v, mem, by simpa using h k v stored⟩
    obtain ⟨y, found⟩ := Option.isSome_iff_exists.mp some_
    have own : key y = k := by simpa using List.find?_some found
    have same : key y = key (f v) := own.trans (h k v stored).symm
    rw [found, List.inj_on_of_nodup_map nodup (List.mem_of_find?_eq_some found) mem same]
    rfl

end Keyed

section Total

variable [AddCommMonoid M]

/-- The sum of `f` over the stored values. -/
def total (f : β → M) (m : AList fun _ : κ => β) : M := (m.values.map f).sum

omit [DecidableEq κ] in
/-- The sum over values changed in no respect that counts. -/
theorem total_mapValues {γ : Type} (g : β → γ) {f : β → M} {f' : γ → M} (same : ∀ v, f' (g v) = f v)
    (m : AList fun _ : κ => β) : total f' (m.mapValues g) = total f m := by
  have listed : (m.mapValues g).values = m.values.map g := by
    show (m.entries.map _).map _ = (m.entries.map _).map _
    rw [List.map_map, List.map_map]
    rfl
  unfold total
  rw [listed, List.map_map]
  exact congrArg List.sum (List.map_congr_left fun v _ => same v)

theorem total_insert_eq (f : β → M) (m : AList fun _ : κ => β) (k : κ) (v : β) :
    total f (m.insert k v) = f v + total f (m.erase k) := by
  simp only [total, values, entries_insert, List.map_cons, List.sum_cons]
  rfl

theorem total_eq_lookup_add_erase (f : β → M) (m : AList fun _ : κ => β) (k : κ) :
    total f m = (m.lookup k).elim 0 f + total f (m.erase k) := by
  by_cases hk : k ∈ m
  · obtain ⟨v, l₁, l₂, _, hl, he⟩ := List.exists_of_kerase hk
    have hv : m.lookup k = some v := mem_lookup_iff.mpr (by simp [hl])
    have here : (m.erase k).entries = l₁ ++ l₂ := he
    simp only [total, values, hv, hl, here, Option.elim_some, List.map_append, List.map_cons,
      List.sum_append, List.sum_cons]
    exact add_left_comm _ _ _
  · have hn : m.lookup k = none := lookup_eq_none.mpr hk
    simp [hn, erase_of_lookup_none hn]

theorem total_insert_of_lookup {f : β → M} {m : AList fun _ : κ => β} {k : κ} {old : β} (v : β)
    (h : m.lookup k = some old) : total f (m.insert k v) + f old = total f m + f v := by
  rw [total_insert_eq, total_eq_lookup_add_erase f m k, h, Option.elim_some]
  abel

/-- Replacing a value by one that counts the same, or adding one that counts for nothing. -/
theorem total_insert_same {f : β → M} {m : AList fun _ : κ => β} {k : κ} {v : β}
    (h : f v = (m.lookup k).elim 0 f) : total f (m.insert k v) = total f m := by
  rw [total_insert_eq, total_eq_lookup_add_erase f m k, h]

/-- A key whose value counts for `x` more than before moves the total by `x`. -/
theorem total_insert_moved {f : β → M} {m : AList fun _ : κ => β} {k : κ} {v : β} {x : M}
    (h : f v = (m.lookup k).elim 0 f + x) : total f (m.insert k v) = total f m + x := by
  rw [total_insert_eq, total_eq_lookup_add_erase f m k, h, add_right_comm]

/-- The values under the listed keys are the stored values. -/
theorem total_eq_sum_keys (m : AList fun _ : κ => M) :
    total id m = (m.keys.map fun k => (m.lookup k).getD 0).sum := by
  unfold total values keys List.keys
  rw [List.map_id, List.map_map]
  congr 1
  apply List.map_congr_left
  intro e mem
  rw [Function.comp_apply, mem_entries_iff.mp mem]
  rfl

end Total

end AList
