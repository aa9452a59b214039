import DocQuery.Proofs.Results
import DocQuery.Rows.Evaluation

set_option autoImplicit false

/-! # Fields, conjunctions and disjunctions

Reading a field of a document gives its value or misses it. An argument of `and` or `or` that reads
a missing field counts as false, so neither of the two ever fails for a missing field. That is why a
conjunction of one argument may be that argument itself (`holdsIfPresent_conjunction`): wherever it
is used, a missing field makes it false as well. -/

namespace DocQuery

/-! ## Reading a field -/

/-- A row that is an object or null has a field or lacks it; no other fault can come up. -/
theorem readField_of_document {row : Value} (hrow : row.isObject = true ∨ row.isNull = true)
    (name : String) : readField name row =
      match row.field? name with
      | some v => .ok v
      | none => .error (.nonExistence name) := by
  cases row with
  | null => rfl
  | object fields => rfl
  | _ => simp [Value.isObject, Value.isNull] at hrow

/-- Only an object has a field to read. -/
theorem readField_of_field? {row v : Value} {name : String} (hfield : row.field? name = some v) :
    readField name row = .ok v := by
  cases row with
  | object fields =>
    rw [readField_of_document (Or.inl rfl), hfield]
  | _ => cases hfield

theorem evaluate_row [PatternLibrary] {tables : Tables} {row : Value} (name : String) :
    (Expr.field .row name).evaluate tables ⟨row, none⟩ = readField name row := by
  simp [Expr.evaluate, Scope.resolve]

/-! ## Missing fields count as false -/

theorem holdsIfPresent_ne_nonExistence (result : Except QueryError Value) (name : String) :
    holdsIfPresent result ≠ .error (.nonExistence name) := by
  intro h
  unfold holdsIfPresent at h
  split at h
  · cases h
  · cases h
  · next hne => exact hne name (by simpa using h)

/-- A truth value that was computed counts as what it is. -/
theorem holdsIfPresent_map_bool (result : Except QueryError Bool)
    (h : ∀ name, result ≠ .error (.nonExistence name)) :
    holdsIfPresent (result.map .bool) = result := by
  cases result with
  | ok b => rfl
  | error e =>
    rw [map_error, holdsIfPresent]
    intro name he
    exact h name (he ▸ rfl)

namespace Expr

variable [PatternLibrary]

theorem everyHolds_ne_nonExistence (tables : Tables) (args : List Expr) (scope : Scope)
    (name : String) : everyHolds tables args scope ≠ .error (.nonExistence name) := by
  induction args with
  | nil => simp [everyHolds]
  | cons arg rest ih =>
    have hne := holdsIfPresent_ne_nonExistence (arg.evaluate tables scope) name
    rw [everyHolds]
    cases hholds : holdsIfPresent (arg.evaluate tables scope) with
    | error e =>
      rw [hholds] at hne
      simpa using hne
    | ok b => cases b <;> simp [ih]

theorem someHolds_ne_nonExistence (tables : Tables) (args : List Expr) (scope : Scope)
    (name : String) : someHolds tables args scope ≠ .error (.nonExistence name) := by
  induction args with
  | nil => simp [someHolds]
  | cons arg rest ih =>
    have hne := holdsIfPresent_ne_nonExistence (arg.evaluate tables scope) name
    rw [someHolds]
    cases hholds : holdsIfPresent (arg.evaluate tables scope) with
    | error e =>
      rw [hholds] at hne
      simpa using hne
    | ok b => cases b <;> simp [ih]

/-- A conjunction holds as its arguments do one after the other, whatever their number. -/
theorem holdsIfPresent_conjunction (tables : Tables) (args : List Expr) (scope : Scope) :
    holdsIfPresent ((conjunction args).evaluate tables scope) = everyHolds tables args scope := by
  match args with
  | [] => rw [conjunction, evaluate, everyHolds]; rfl
  | [arg] =>
    rw [conjunction, everyHolds]
    cases holdsIfPresent (arg.evaluate tables scope) with
    | error e => rfl
    | ok b => cases b <;> simp [everyHolds]
  | first :: second :: rest =>
    show holdsIfPresent ((Expr.and (first :: second :: rest)).evaluate tables scope) = _
    rw [evaluate]
    exact holdsIfPresent_map_bool _ (everyHolds_ne_nonExistence tables _ scope)

/-- A disjunction holds as its arguments do one after the other, whatever their number. -/
theorem holdsIfPresent_disjunction (tables : Tables) (args : List Expr) (scope : Scope) :
    holdsIfPresent ((disjunction args).evaluate tables scope) = someHolds tables args scope := by
  match args with
  | [] => rw [disjunction, evaluate, someHolds]; rfl
  | [arg] =>
    rw [disjunction, someHolds]
    cases holdsIfPresent (arg.evaluate tables scope) with
    | error e => rfl
    | ok b => cases b <;> simp [someHolds]
  | first :: second :: rest =>
    show holdsIfPresent ((Expr.or (first :: second :: rest)).evaluate tables scope) = _
    rw [evaluate]
    exact holdsIfPresent_map_bool _ (someHolds_ne_nonExistence tables _ scope)

end Expr

end DocQuery
