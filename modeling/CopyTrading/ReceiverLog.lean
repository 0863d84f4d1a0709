import CopyTrading.BoundedBroadcast

namespace BoundedBroadcast

variable {α : Type}

namespace Bus

variable {capacity n : Nat} {b b' : Bus α} {r : Received α}

theorem recv_sent (h : b.recv capacity = some (r, b')) : b'.sent = b.sent := by
  cases r with
  | message => exact (recv_message h).2.2.1
  | lagged => exact (recv_lagged h).1

/-- A receiver is told how far it jumps. -/
theorem recv_skipped (h : b.recv capacity = some (.lagged n, b')) :
    b'.next = b.next + n ∧ b'.next + capacity = b.sent.length := by
  unfold recv at h
  split at h
  next behind =>
    cases h
    unfold oldest at *
    constructor <;> simp only <;> omega
  next =>
    obtain ⟨_, _, eq⟩ := Option.map_eq_some_iff.mp h
    cases eq

theorem next_of_idle (idle : b.recv capacity = none) : b.sent.length ≤ b.next := by
  unfold recv at idle
  split at idle
  next => cases idle
  next =>
    rw [Option.map_eq_none_iff, List.getElem?_eq_none_iff] at idle
    exact idle

end Bus

/-- What a receiver that notes down all it is given has of it, position by position. -/
def Received.unroll : Received α → List (Option α)
  | .message _ a => [some a]
  | .lagged skipped => List.replicate skipped none

/-- The notes are a copy of what was sent as far as the receiver has read, blank where it lagged. -/
structure Copies (b : Bus α) (notes : List (Option α)) : Prop where
  within : b.next ≤ b.sent.length
  length : notes.length = b.next
  entry : ∀ (i : Nat) (a : α), notes[i]? = some (some a) → b.sent[i]? = some a

namespace Copies

variable {capacity : Nat} {b b' : Bus α} {notes : List (Option α)} {r : Received α}

theorem start : Copies (⟨[], 0⟩ : Bus α) [] := by
  refine ⟨le_rfl, rfl, ?_⟩
  intro i a noted
  cases noted

theorem send (h : Copies b notes) (a : α) : Copies (b.send a) notes := by
  have length : (b.send a).sent.length = b.sent.length + 1 := by simp [Bus.send]
  refine ⟨?_, h.length, ?_⟩
  · have within := h.within
    show b.next ≤ (b.send a).sent.length
    omega
  · intro i c noted
    have sent := h.entry i c noted
    obtain ⟨inside, _⟩ := List.getElem?_eq_some_iff.mp sent
    show (b.sent ++ [a])[i]? = some c
    rw [List.getElem?_append_left inside]
    exact sent

theorem recv (h : Copies b notes) (received : b.recv capacity = some (r, b')) :
    Copies b' (notes ++ r.unroll) := by
  have length := h.length
  cases r with
  | message i a =>
    obtain ⟨at_, held, sent, next, _⟩ := Bus.recv_message received
    have inside := (List.getElem?_eq_some_iff.mp held).1
    refine ⟨?_, ?_, ?_⟩
    · rw [sent]
      omega
    · simp only [Received.unroll, List.length_append, List.length_singleton]
      omega
    · intro j c noted
      rw [sent]
      by_cases before : j < notes.length
      · rw [List.getElem?_append_left before] at noted
        exact h.entry j c noted
      · rw [List.getElem?_append_right (not_lt.mp before)] at noted
        obtain ⟨_, eq⟩ := List.getElem?_eq_some_iff.mp noted
        have first : j - notes.length = 0 := by
          have bound := (List.getElem?_eq_some_iff.mp noted).1
          simp only [Received.unroll, List.length_singleton] at bound
          omega
        have same : a = c := by simpa [Received.unroll, first] using noted
        have here : j = i := by omega
        rw [here, held, same]
  | lagged skipped =>
    obtain ⟨sent, _, within, _⟩ := Bus.recv_lagged received
    have jumped := (Bus.recv_skipped received).1
    refine ⟨?_, ?_, ?_⟩
    · rw [sent]
      exact within
    · simp only [Received.unroll, List.length_append, List.length_replicate]
      omega
    · intro j c noted
      rw [sent]
      by_cases before : j < notes.length
      · rw [List.getElem?_append_left before] at noted
        exact h.entry j c noted
      · rw [List.getElem?_append_right (not_lt.mp before)] at noted
        have blank := List.mem_of_getElem? noted
        simp [Received.unroll] at blank

/-- With nothing left to receive, everything that was sent is copied or left blank. -/
theorem length_of_idle (h : Copies b notes) (idle : b.recv capacity = none) :
    notes.length = b.sent.length := by
  have reached := Bus.next_of_idle idle
  have within := h.within
  have length := h.length
  omega

end Copies

/-- A receiver that was never a whole capacity behind has left nothing blank. -/
def Complete (capacity : Nat) (b : Bus α) (notes : List (Option α)) : Prop :=
  b.sent.length ≤ capacity → none ∉ notes

namespace Complete

variable {capacity : Nat} {b b' : Bus α} {notes : List (Option α)} {r : Received α}

theorem send (h : Complete capacity b notes) (a : α) : Complete capacity (b.send a) notes := by
  intro few
  have length : (b.send a).sent.length = b.sent.length + 1 := by simp [Bus.send]
  exact h (by omega)

theorem recv (h : Complete capacity b notes) (received : b.recv capacity = some (r, b')) :
    Complete capacity b' (notes ++ r.unroll) := by
  intro few
  cases r with
  | message i a =>
    obtain ⟨_, _, sent, _⟩ := Bus.recv_message received
    rw [sent] at few
    simpa [Received.unroll] using h few
  | lagged skipped =>
    obtain ⟨sent, ahead, _, _⟩ := Bus.recv_lagged received
    have oldest := (Bus.recv_skipped received).2
    rw [sent] at few
    omega

end Complete

end BoundedBroadcast
