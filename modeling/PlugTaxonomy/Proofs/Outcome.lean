/-!
# Outcomes of one step after the other

* `ok_of_bind`, `error_of_bind` — what the outcome of two steps tells about each of them;
* `ok_of_guard` — what the outcome tells about a check in front.
-/

namespace PlugTaxonomy

variable {ε α β : Type} {b : β}

/-- What succeeds has succeeded at first, and then later. -/
theorem ok_of_bind {x : Except ε α} {f : α → Except ε β} (h : (x >>= f) = .ok b) :
    ∃ a, x = .ok a ∧ f a = .ok b := by
  cases x with
  | error error => cases h
  | ok a => exact ⟨a, rfl, h⟩

/-- What fails has failed at first, or later. -/
theorem error_of_bind {error : ε} {x : Except ε α} {f : α → Except ε β}
    (h : (x >>= f) = .error error) : x = .error error ∨ ∃ a, x = .ok a ∧ f a = .error error := by
  cases x with
  | error error' =>
    cases h
    exact Or.inl rfl
  | ok a => exact Or.inr ⟨a, rfl, h⟩

/-- What succeeds has not been stopped in front of the rest. -/
theorem ok_of_guard {stopped : Prop} [Decidable stopped] {error : ε} {f : α → Except ε β}
    {rest : Except ε β} (h : (if stopped then throw error >>= f else rest) = .ok b) :
    ¬stopped ∧ rest = .ok b := by
  by_cases hstopped : stopped
  · rw [if_pos hstopped] at h
    cases h
  · rw [if_neg hstopped] at h
    exact ⟨hstopped, h⟩

end PlugTaxonomy
