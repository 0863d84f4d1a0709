import Mathlib.Data.List.DropRight
import Mathlib.Data.List.Induction
import Mathlib.Data.List.Rotate

namespace RingBuffer

/-- A buffer that grows to its capacity and is written over from then on, the oldest first. -/
structure Ring (α : Type) where
  buf : List α
  next : Nat
deriving DecidableEq

variable {α : Type}

namespace Ring

def new : Ring α := ⟨[], 0⟩

def push (capacity : Nat) (r : Ring α) (v : α) : Ring α :=
  if r.buf.length < capacity then { r with buf := r.buf ++ [v] }
  else ⟨r.buf.set r.next v, (r.next + 1) % capacity⟩

/-- What the ring holds, the oldest first. -/
def contents (r : Ring α) : List α := r.buf.rotate r.next

/-- The next write goes over the oldest entry. -/
structure WellFormed (capacity : Nat) (r : Ring α) : Prop where
  fits : r.buf.length ≤ capacity
  growing : r.buf.length < capacity → r.next = 0
  inside : r.next < capacity

theorem wellFormed_new {capacity : Nat} (pos : 0 < capacity) :
    (new : Ring α).WellFormed capacity :=
  ⟨Nat.zero_le _, fun _ => rfl, pos⟩

variable {capacity : Nat} {r : Ring α}

theorem WellFormed.push (h : r.WellFormed capacity) (v : α) :
    (r.push capacity v).WellFormed capacity := by
  unfold Ring.push
  split
  next room =>
    refine ⟨?_, fun _ => h.growing room, h.inside⟩
    rw [List.length_append]
    exact room
  next full =>
    refine ⟨?_, fun room => ?_, Nat.mod_lt _ (Nat.zero_lt_of_lt h.inside)⟩
    · rw [List.length_set]
      exact h.fits
    · rw [List.length_set] at room
      exact absurd room full

/-- Overwriting the head of the walk and stepping past it puts the new entry last. -/
theorem rotate_set (l : List α) {k : Nat} (v : α) (inside : k < l.length) :
    (l.set k v).rotate (k + 1) = (l.rotate k).tail ++ [v] := by
  have written : k + 1 ≤ (l.set k v).length := by rw [List.length_set]; exact inside
  have after : (l.set k v).drop (k + 1) = l.drop (k + 1) := List.drop_set_of_lt (by omega)
  have upTo : (l.set k v).take (k + 1) = l.take k ++ [v] := by
    have held : k < (l.set k v).length := written
    rw [List.take_succ_eq_append_getElem held, List.take_set_of_le (Nat.le_refl k),
      List.getElem_set_self]
  have head : l.drop k = l[k] :: l.drop (k + 1) := List.drop_eq_getElem_cons inside
  rw [List.rotate_eq_drop_append_take written,
    List.rotate_eq_drop_append_take (Nat.le_of_lt inside), after, upTo, head, List.cons_append,
    List.tail_cons, List.append_assoc]

theorem tail_rtake (l : List α) {n : Nat} (long : n < l.length) :
    (l.rtake (n + 1)).tail = l.rtake n := by
  have place : l.length - (n + 1) + 1 = l.length - n := by omega
  rw [List.rtake, List.rtake, List.tail_drop, place]

theorem rtake_of_le (l : List α) {n : Nat} (short : l.length ≤ n) : l.rtake n = l := by
  rw [List.rtake, Nat.sub_eq_zero_of_le short, List.drop_zero]

/-- The ring after a history: its latest entries, as many as there is room for. -/
structure Holds (capacity : Nat) (history : List α) (r : Ring α) : Prop where
  formed : r.WellFormed capacity
  length : r.buf.length = min capacity history.length
  latest : r.contents = history.rtake capacity

theorem holds_new {capacity : Nat} (pos : 0 < capacity) :
    Holds capacity [] (new : Ring α) where
  formed := wellFormed_new pos
  length := (Nat.min_zero capacity).symm
  latest := (List.rtake_nil capacity).symm

theorem Holds.push {history : List α} (h : Holds capacity history r) (v : α) :
    Holds capacity (history ++ [v]) (r.push capacity v) := by
  have pos := Nat.zero_lt_of_lt h.formed.inside
  obtain ⟨n, rfl⟩ : ∃ n, capacity = n + 1 := ⟨capacity - 1, by omega⟩
  have length := h.length
  by_cases room : r.buf.length < n + 1
  · have eq : r.push (n + 1) v = { r with buf := r.buf ++ [v] } := if_pos room
    have start := h.formed.growing room
    have latest := h.latest
    rw [contents, start, List.rotate_zero, rtake_of_le history (by omega)] at latest
    refine ⟨h.formed.push v, ?_, ?_⟩
    · rw [eq, List.length_append, List.length_append, List.length_singleton]
      omega
    · rw [eq, contents, start, List.rotate_zero, latest, List.rtake_concat_succ,
        rtake_of_le history (by omega)]
  · have eq : r.push (n + 1) v = ⟨r.buf.set r.next v, (r.next + 1) % (n + 1)⟩ := if_neg room
    have full : (r.buf.set r.next v).length = n + 1 := by
      rw [List.length_set]
      omega
    have inside : r.next < r.buf.length := by
      have inside := h.formed.inside
      omega
    refine ⟨h.formed.push v, ?_, ?_⟩
    · rw [eq, full, List.length_append, List.length_singleton]
      omega
    · have wrapped := List.rotate_mod (r.buf.set r.next v) (r.next + 1)
      rw [full] at wrapped
      rw [eq, contents, wrapped, rotate_set r.buf v inside, List.rtake_concat_succ,
        ← tail_rtake history (by omega)]
      exact congrArg (fun l => l.tail ++ [v]) h.latest

theorem holds_pushes {capacity : Nat} (pos : 0 < capacity) (history : List α) :
    Holds capacity history (history.foldl (push capacity) new) := by
  induction history using List.reverseRecOn with
  | nil => exact holds_new pos
  | append_singleton history v ih =>
    rw [List.foldl_append]
    exact ih.push v

/-- In some order the buffer is the latest part of the history. -/
theorem Holds.perm {history : List α} (h : Holds capacity history r) :
    r.buf.Perm (history.rtake capacity) :=
  h.latest ▸ (List.rotate_perm r.buf r.next).symm

end Ring

end RingBuffer
