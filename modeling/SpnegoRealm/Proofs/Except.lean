/-! # When a computation that can fail comes to an answer

A sequence of two steps answers when both do, and fails with the error of the step that fails first.
-/

namespace SpnegoRealm

variable {ε α β : Type} {answer : Except ε α} {next : α → Except ε β}

/-- Two steps answer if and only if the first one does and the second one does after it. -/
theorem bind_eq_ok_iff {result : β} :
    (answer >>= next) = .ok result ↔ ∃ value, answer = .ok value ∧ next value = .ok result := by
  cases answer <;> simp [bind, Except.bind]

/-- Two steps fail with the error of the step that fails first. -/
theorem bind_eq_error_iff {error : ε} :
    (answer >>= next) = .error error ↔
      answer = .error error ∨ ∃ value, answer = .ok value ∧ next value = .error error := by
  cases answer <;> simp [bind, Except.bind]

/-- There is a changed answer if and only if there is an answer to change. -/
theorem map_eq_ok_iff {change : α → β} {result : β} :
    answer.map change = .ok result ↔ ∃ value, answer = .ok value ∧ change value = result := by
  cases answer <;> simp [Except.map]

/-- To change an answer leaves an error as it is. -/
theorem map_eq_error_iff {change : α → β} {error : ε} :
    answer.map change = .error error ↔ answer = .error error := by
  cases answer <;> simp [Except.map]

section Errors

variable {ε' : Type} {change : ε → ε'}

private theorem mapError_error (error : ε) :
    (.error error : Except ε α).mapError change = .error (change error) := rfl

private theorem mapError_ok (value : α) :
    (.ok value : Except ε α).mapError change = .ok value := rfl

/-- To change an error leaves an answer as it is. -/
theorem mapError_eq_ok_iff {result : α} :
    answer.mapError change = .ok result ↔ answer = .ok result := by
  cases answer <;> simp [mapError_error, mapError_ok]

/-- There is a changed error if and only if there is an error to change. -/
theorem mapError_eq_error_iff {error : ε'} :
    answer.mapError change = .error error ↔
      ∃ cause, answer = .error cause ∧ change cause = error := by
  cases answer <;> simp [mapError_error, mapError_ok]

end Errors

end SpnegoRealm
