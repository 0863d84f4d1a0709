namespace Fallible

variable {α β ε ε' : Type}

/-- A computation that goes on has had its first step succeed. -/
theorem bind_eq_ok {m : Except ε α} {f : α → Except ε β} {b : β} (h : m >>= f = .ok b) :
    ∃ a, m = .ok a ∧ f a = .ok b := by
  cases m with
  | error e => cases h
  | ok a => exact ⟨a, rfl, h⟩

theorem mapError_eq_ok {m : Except ε α} {g : ε → ε'} {a : α} (h : m.mapError g = .ok a) :
    m = .ok a := by
  cases m with
  | error e => cases h
  | ok b =>
    cases h
    rfl

theorem toOption_eq_some {m : Except ε α} {a : α} (h : m.toOption = some a) : m = .ok a := by
  cases m with
  | error e => cases h
  | ok b =>
    cases h
    rfl

/-- A step that goes on in a computation that may also panic has succeeded as well. -/
theorem bindT_eq_ok {m : ExceptT ε Option α} {f : α → ExceptT ε Option β} {b : β}
    (h : (m >>= f) = some (.ok b)) : ∃ a, m = some (.ok a) ∧ f a = some (.ok b) := by
  match m with
  | none => cases h
  | some (.error e) => cases h
  | some (.ok a) => exact ⟨a, rfl, h⟩

end Fallible
