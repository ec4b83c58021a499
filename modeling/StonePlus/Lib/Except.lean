/-!
# StonePlus.Lib.Except

What a computation that returns has been through.
-/

namespace StonePlus.Lib

variable {ε α β : Type}

theorem bind_eq_ok {f : α → Except ε β} : (x >>= f) = .ok b ↔ ∃ a, x = .ok a ∧ f a = .ok b := by
  cases x with
  | error e =>
      constructor
      · intro h
        cases h
      · rintro ⟨a, ha, -⟩
        cases ha
  | ok a =>
      constructor
      · intro h
        exact ⟨a, rfl, h⟩
      · rintro ⟨a, ⟨⟩, h⟩
        exact h

end StonePlus.Lib
