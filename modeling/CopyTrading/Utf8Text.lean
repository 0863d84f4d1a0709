import Mathlib.Data.List.Basic

namespace Utf8Text

theorem loop_eq (b : ByteArray) (i : Nat) (read : List UInt8) :
    ByteArray.toList.loop b i read = read.reverse ++ b.data.toList.drop i := by
  fun_induction ByteArray.toList.loop b i read with
  | case1 i read more ih =>
    have inside : i < b.data.toList.length := by simpa using more
    have byte : b.get! i = b.data.toList[i] := by
      rw [Array.getElem_toList]
      exact getElem!_pos b.data i more
    rw [ih, List.drop_eq_getElem_cons inside, List.reverse_cons, List.append_assoc, byte]
    rfl
  | case2 i read done =>
    have past : b.data.toList.length ≤ i := by simpa using done
    rw [List.drop_eq_nil_of_le past, List.append_nil]

theorem toList_eq (b : ByteArray) : b.toList = b.data.toList := by
  unfold ByteArray.toList
  rw [loop_eq]
  rfl

theorem toUTF8_inj {s t : String} (same : s.toUTF8.toList = t.toUTF8.toList) : s = t := by
  rw [toList_eq, toList_eq] at same
  exact String.toByteArray_inj.mp (ByteArray.ext (Array.toList_inj.mp same))

theorem toUTF8_ofList (cs : List Char) :
    (String.ofList cs).toUTF8.toList = cs.flatMap String.utf8EncodeChar := by
  rw [toList_eq, String.toUTF8_eq_toByteArray, String.toByteArray_ofList]
  exact List.toList_data_toByteArray

/-- ASCII text takes one byte a character. -/
theorem toUTF8_ascii {cs : List Char} (ascii : ∀ c ∈ cs, c.toNat < 128) :
    (String.ofList cs).toUTF8.toList = cs.map fun c => UInt8.ofNat c.toNat := by
  rw [toUTF8_ofList, List.map_eq_flatMap]
  refine List.flatMap_congr fun c mem => ?_
  have low : c.val ≤ 127 := by
    have small := ascii c mem
    rw [UInt32.le_iff_toNat_le]
    exact Nat.le_of_lt_succ small
  exact String.utf8EncodeChar_eq_singleton (Char.utf8Size_eq_one_iff.mpr low)

theorem upTo_inj {α : Type} {sep : α} {x y r s : List α} (left : sep ∉ x) (right : sep ∉ y)
    (same : x ++ sep :: r = y ++ sep :: s) : x = y ∧ r = s := by
  induction x generalizing y with
  | nil =>
    cases y with
    | nil => exact ⟨rfl, (List.cons.inj same).2⟩
    | cons b y =>
      obtain ⟨rfl, _⟩ := List.cons.inj same
      exact absurd List.mem_cons_self right
  | cons a x ih =>
    cases y with
    | nil =>
      obtain ⟨rfl, _⟩ := List.cons.inj same
      exact absurd List.mem_cons_self left
    | cons b y =>
      obtain ⟨rfl, rest⟩ := List.cons.inj same
      obtain ⟨rfl, tail⟩ := ih (mt (List.mem_cons_of_mem a) left)
        (mt (List.mem_cons_of_mem a) right) rest
      exact ⟨rfl, tail⟩

/-- Fields that are each ended by a separator none of them holds can be told apart again. -/
theorem terminated_inj {α : Type} {sep : α} {xs ys : List (List α)} {r s : List α}
    (length : xs.length = ys.length) (left : ∀ x ∈ xs, sep ∉ x) (right : ∀ y ∈ ys, sep ∉ y)
    (same : (xs.flatMap fun x => x ++ [sep]) ++ r = (ys.flatMap fun y => y ++ [sep]) ++ s) :
    xs = ys ∧ r = s := by
  induction xs generalizing ys with
  | nil =>
    cases ys with
    | nil => exact ⟨rfl, same⟩
    | cons y ys => cases length
  | cons x xs ih =>
    cases ys with
    | nil => cases length
    | cons y ys =>
      have others : ∀ z ∈ xs, sep ∉ z := fun z mem => left z (List.mem_cons_of_mem x mem)
      have others' : ∀ z ∈ ys, sep ∉ z := fun z mem => right z (List.mem_cons_of_mem y mem)
      simp only [List.flatMap_cons, List.append_assoc, List.cons_append, List.nil_append] at same
      obtain ⟨here, rest⟩ :=
        upTo_inj (left x List.mem_cons_self) (right y List.mem_cons_self) same
      obtain ⟨fields, tail⟩ := ih (Nat.succ.inj length) others others' rest
      exact ⟨by rw [here, fields], tail⟩

end Utf8Text
