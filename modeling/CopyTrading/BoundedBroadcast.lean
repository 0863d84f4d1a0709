import Mathlib.Order.Lattice

namespace BoundedBroadcast

variable {α : Type}

/-- What was sent since a receiver subscribed, and the position it reads next. -/
structure Bus (α : Type) where
  sent : List α
  next : Nat

inductive Received (α : Type)
  | message (pos : Nat) (a : α)
  | lagged (skipped : Nat)

namespace Bus

/-- The first position that a channel of this capacity still holds. -/
def oldest (capacity : Nat) (b : Bus α) : Nat := b.sent.length - capacity

def send (b : Bus α) (a : α) : Bus α := { b with sent := b.sent ++ [a] }

/-- A receiver whose next message has been overwritten jumps to the oldest one that is left. -/
def recv (capacity : Nat) (b : Bus α) : Option (Received α × Bus α) :=
  if b.next < b.oldest capacity then
    some (.lagged (b.oldest capacity - b.next), { b with next := b.oldest capacity })
  else
    (b.sent[b.next]?).map fun a => (.message b.next a, { b with next := b.next + 1 })

/-- Neither read nor overwritten. -/
def Pending (capacity : Nat) (b : Bus α) (i : Nat) : Prop :=
  b.next ≤ i ∧ b.oldest capacity ≤ i

variable {capacity : Nat} {b b' : Bus α} {a : α} {i : Nat}

/-- A message that is sent overwrites the one that lies the whole capacity before it. -/
theorem pending_send_iff :
    (b.send a).Pending capacity i ↔ b.Pending capacity i ∧ i + capacity ≠ b.sent.length := by
  have length : (b.send a).sent.length = b.sent.length + 1 := by simp [send]
  have next : (b.send a).next = b.next := rfl
  unfold Pending oldest
  rw [length, next]
  omega

theorem pending_sent (pos : 0 < capacity) (within : b.next ≤ b.sent.length) :
    (b.send a).Pending capacity b.sent.length := by
  have length : (b.send a).sent.length = b.sent.length + 1 := by simp [send]
  have next : (b.send a).next = b.next := rfl
  unfold Pending oldest
  rw [length, next]
  omega

theorem recv_lagged {n : Nat} (h : b.recv capacity = some (.lagged n, b')) :
    b'.sent = b.sent ∧ b.next < b'.next ∧ b'.next ≤ b.sent.length ∧
      ∀ i, b'.Pending capacity i ↔ b.Pending capacity i := by
  unfold recv at h
  split at h
  next behind =>
    cases h
    refine ⟨rfl, behind, Nat.sub_le _ _, ?_⟩
    intro i
    have least : oldest capacity ⟨b.sent, b.oldest capacity⟩ = b.oldest capacity := rfl
    unfold Pending
    rw [least]
    simp only
    omega
  next =>
    obtain ⟨_, _, eq⟩ := Option.map_eq_some_iff.mp h
    cases eq

/-- A message is received at its position, which is pending until then and not after. -/
theorem recv_message (h : b.recv capacity = some (.message i a, b')) :
    i = b.next ∧ b.sent[i]? = some a ∧ b'.sent = b.sent ∧ b'.next = i + 1 ∧
      b.Pending capacity i ∧ ∀ j, b.Pending capacity j ↔ j = i ∨ b'.Pending capacity j := by
  unfold recv at h
  split at h
  next => cases h
  next reached =>
    obtain ⟨m, held, eq⟩ := Option.map_eq_some_iff.mp h
    cases eq
    refine ⟨rfl, held, rfl, rfl, ⟨le_rfl, not_lt.mp reached⟩, ?_⟩
    intro j
    have least : oldest capacity ⟨b.sent, b.next + 1⟩ = b.oldest capacity := rfl
    unfold Pending
    rw [least]
    simp only
    omega

/-- A receiver that has not lagged reads what it is at. -/
theorem recv_of_pending (held : b.sent[b.next]? = some a) (kept : b.oldest capacity ≤ b.next) :
    b.recv capacity = some (.message b.next a, { b with next := b.next + 1 }) := by
  unfold recv
  rw [if_neg (not_lt.mpr kept), held, Option.map_some]

end Bus

end BoundedBroadcast
