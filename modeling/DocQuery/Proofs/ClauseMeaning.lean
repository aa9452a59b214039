import DocQuery.Descriptor.Clause
import DocQuery.Plan.Compile
import DocQuery.Proofs.Connectives
import DocQuery.Proofs.WrittenPatterns

set_option autoImplicit false

/-! # What a clause means

Every condition either passes or does not pass on a value, and a clause holds of a row or does not:
all its entries must hold, a group holds if some or all of its clauses do, and a condition on a
field asks that the field be there and its value pass. `Clause.holds` is that reading. The predicate
that a clause is compiled to is evaluated in three ways, since a field may be missing; the theorem
says that it comes to the same two (`accepts_compile_eq_holds`), for rows that have fields at all
and patterns that are not too large. Hence the order of entries and of clauses in a group has no
meaning. With a pattern that is too large the predicate may fail, and in no other way
(`Clause.tells_accepts`). -/

namespace DocQuery

/-! ## Conditions on a value -/

/-- The value is a text in which the atoms occur. -/
def hasPattern (atoms : List Atom) : Value → Bool
  | .string s => Pattern.occursIn atoms s
  | _ => false

namespace Condition

/-- The value passes the condition. -/
def passes : Condition → Value → Bool
  | .equal operand, v => v.equals operand
  | .notEqual operand, v => !v.equals operand
  | .less operand, v => v.compare? operand == some .lt
  | .lessOrEqual operand, v => v.compare? operand == some .lt || v.compare? operand == some .eq
  | .greater operand, v => v.compare? operand == some .gt
  | .greaterOrEqual operand, v => v.compare? operand == some .gt || v.compare? operand == some .eq
  | .oneOf operands, v => operands.any (·.equals v)
  | .noneOf operands, v => !operands.any (·.equals v)
  | .contains operands, .array items =>
    operands.all (fun operand => items.any (fun item => item.equals operand))
  | .contains _, _ => false
  | .like wildcards, v => hasPattern (Pattern.wildcardAtoms wildcards) v
  | .startsWith beginning, v => hasPattern (Pattern.beginningAtoms beginning) v
  | .endsWith ending, v => hasPattern (Pattern.endAtoms ending) v

/-- A value contains others if it is an array that does. -/
theorem passes_contains (operands : List Value) (v : Value) :
    (contains operands).passes v = containsAll operands v := by
  cases v <;> rfl

/-- The pattern that a text condition is searched with. -/
def pattern? : Condition → Option String
  | .like wildcards => some (Pattern.ofWildcards wildcards)
  | .startsWith beginning => some (Pattern.ofBeginning beginning)
  | .endsWith ending => some (Pattern.ofEnd ending)
  | _ => none

/-- The fault of a condition whose pattern the search refuses. -/
def refusal? (condition : Condition) : Option QueryError :=
  condition.pattern?.bind (fun pattern =>
    if (Pattern.usable? pattern).isSome then none
    else some (.execution (.invalidPattern pattern)))

theorem eq_invalidPattern_of_refusal? {condition : Condition} {e : QueryError}
    (h : condition.refusal? = some e) :
    ∃ pattern, e = .execution (.invalidPattern pattern) := by
  obtain ⟨pattern, -, h⟩ := Option.bind_eq_some_iff.mp h
  split_ifs at h
  exact ⟨pattern, (Option.some.inj h).symm⟩

end Condition

theorem Condition.isBuilt_of_pattern? {condition : Condition} {pattern : String}
    (h : condition.pattern? = some pattern) : Pattern.IsBuilt pattern := by
  cases condition with
  | like wildcards => exact Option.some.inj h ▸ .wildcards wildcards
  | startsWith beginning => exact Option.some.inj h ▸ .beginning beginning
  | endsWith ending => exact Option.some.inj h ▸ .ending ending
  | _ => cases h

/-- A search with the pattern of a text condition tells whether it occurs, unless the pattern is
    refused. -/
theorem patternHolds_eq [PatternLibrary] {pattern : String} {atoms : List Atom}
    (hbuilt : Pattern.IsBuilt pattern) (hread : Pattern.ofText? pattern = some atoms) (v : Value) :
    patternHolds pattern v =
      if (Pattern.usable? pattern).isSome then .ok (.bool (hasPattern atoms v))
      else .error (.execution (.invalidPattern pattern)) := by
  rw [patternHolds, PatternLibrary.search?_of_isBuilt pattern hbuilt,
    Pattern.usable?_eq_of_ofText? hread]
  cases Pattern.fits atoms with
  | false => rfl
  | true => cases v <;> simp [hasPattern]

variable {tables : Tables} {scope : Scope} {subject : Expr}

section

variable [PatternLibrary]

theorem Condition.evaluate_compile_pattern {condition : Condition} {pattern : String}
    {atoms : List Atom} {v : Value} (hread : Pattern.ofText? pattern = some atoms)
    (hpattern : condition.pattern? = some pattern)
    (hcompile : condition.compile subject = .matchText subject pattern)
    (hpasses : condition.passes v = hasPattern atoms v)
    (hsubject : subject.evaluate tables scope = .ok v) :
    (condition.compile subject).evaluate tables scope =
      condition.refusal?.elim (.ok (.bool (condition.passes v))) .error := by
  rw [hcompile, Expr.evaluate, hsubject, ok_bind,
    patternHolds_eq (isBuilt_of_pattern? hpattern) hread, refusal?, hpattern, Option.bind_some,
    hpasses]
  split_ifs <;> rfl

/-- A compiled condition tells whether the value of its subject passes, unless its pattern is
    refused. -/
theorem Condition.evaluate_compile (condition : Condition) {v : Value}
    (hsubject : subject.evaluate tables scope = .ok v) :
    (condition.compile subject).evaluate tables scope =
      condition.refusal?.elim (.ok (.bool (condition.passes v))) .error := by
  cases condition with
  | like wildcards =>
    exact evaluate_compile_pattern (Pattern.ofText?_ofWildcards wildcards) rfl rfl rfl hsubject
  | startsWith beginning =>
    exact evaluate_compile_pattern (Pattern.ofText?_ofBeginning beginning) rfl rfl rfl hsubject
  | endsWith ending =>
    exact evaluate_compile_pattern (Pattern.ofText?_ofEnd ending) rfl rfl rfl hsubject
  | contains operands =>
    simp [Condition.compile, Expr.evaluate, hsubject, passes_contains, refusal?, pattern?]
  | _ => simp [Condition.compile, Expr.evaluate, hsubject, Comparison.holds, Condition.passes,
      Condition.refusal?, Condition.pattern?, Value.isTruthy]

/-- A compiled condition fails as its subject does. -/
theorem Condition.evaluate_compile_error (condition : Condition) {e : QueryError}
    (hsubject : subject.evaluate tables scope = .error e) :
    (condition.compile subject).evaluate tables scope = .error e := by
  cases condition <;> simp [Condition.compile, Expr.evaluate, hsubject]

/-- On a row with the field a condition tells whether its value passes, unless the pattern is
    refused. -/
theorem Condition.accepts_compile (condition : Condition) {row v : Value} {name : String}
    (hfield : readField name row = .ok v) :
    (condition.compile (.field .row name)).accepts tables row =
      condition.refusal?.elim (.ok (condition.passes v)) .error := by
  rw [Expr.accepts, condition.evaluate_compile ((evaluate_row name).trans hfield)]
  cases hrefusal : condition.refusal? with
  | none => rfl
  | some e =>
    obtain ⟨pattern, rfl⟩ := eq_invalidPattern_of_refusal? hrefusal
    rfl

end

/-! ## Clauses on a row -/

mutual

/-- The row meets the entry. -/
def Entry.holds (row : Value) : Entry → Bool
  | .field name condition => (row.field? name).any condition.passes
  | .anyOf clauses => someClauseHolds row clauses
  | .allOf clauses => everyClauseHolds row clauses

/-- The row meets every entry. -/
def everyEntryHolds (row : Value) : List Entry → Bool
  | [] => true
  | entry :: rest => entry.holds row && everyEntryHolds row rest

/-- The row meets some clause. -/
def someClauseHolds (row : Value) : List (List Entry) → Bool
  | [] => false
  | clause :: rest => everyEntryHolds row clause || someClauseHolds row rest

/-- The row meets every clause. -/
def everyClauseHolds (row : Value) : List (List Entry) → Bool
  | [] => true
  | clause :: rest => everyEntryHolds row clause && everyClauseHolds row rest

end

/-- The row meets the clause: it meets every entry. -/
def Clause.holds (clause : Clause) (row : Value) : Bool :=
  everyEntryHolds row clause

mutual

/-- The conditions in an entry, at any depth. -/
def Entry.conditions : Entry → List Condition
  | .field _ condition => [condition]
  | .anyOf clauses => conditionsOfClauses clauses
  | .allOf clauses => conditionsOfClauses clauses

/-- The conditions in entries, at any depth. -/
def conditionsOfEntries : List Entry → List Condition
  | [] => []
  | entry :: rest => entry.conditions ++ conditionsOfEntries rest

/-- The conditions in clauses, at any depth. -/
def conditionsOfClauses : List (List Entry) → List Condition
  | [] => []
  | clause :: rest => conditionsOfEntries clause ++ conditionsOfClauses rest

end

/-- No pattern in the clause is refused, at any depth. -/
def Clause.PatternsFit (clause : Clause) : Prop :=
  ∀ condition ∈ conditionsOfEntries clause, condition.refusal?.isNone = true

instance (clause : Clause) : Decidable clause.PatternsFit :=
  inferInstanceAs (Decidable (∀ condition ∈ conditionsOfEntries clause, _))

/-! ### The groups are the ones of lists -/

theorem everyEntryHolds_eq_all (row : Value) (entries : List Entry) :
    everyEntryHolds row entries = entries.all (·.holds row) := by
  induction entries with
  | nil => simp [everyEntryHolds]
  | cons entry rest ih => simp [everyEntryHolds, ih]

theorem someClauseHolds_eq_any (row : Value) (clauses : List Clause) :
    someClauseHolds row clauses = clauses.any (Clause.holds · row) := by
  induction clauses with
  | nil => simp [someClauseHolds]
  | cons clause rest ih => simp [someClauseHolds, Clause.holds, ih]

theorem everyClauseHolds_eq_all (row : Value) (clauses : List Clause) :
    everyClauseHolds row clauses = clauses.all (Clause.holds · row) := by
  induction clauses with
  | nil => simp [everyClauseHolds]
  | cons clause rest ih => simp [everyClauseHolds, Clause.holds, ih]

theorem mem_conditionsOfEntries (condition : Condition) (entries : List Entry) :
    condition ∈ conditionsOfEntries entries ↔ ∃ entry ∈ entries, condition ∈ entry.conditions := by
  induction entries with
  | nil => simp [conditionsOfEntries]
  | cons entry rest ih => simp [conditionsOfEntries, ih]

theorem mem_conditionsOfClauses (condition : Condition) (clauses : List Clause) :
    condition ∈ conditionsOfClauses clauses ↔
      ∃ clause ∈ clauses, condition ∈ conditionsOfEntries clause := by
  induction clauses with
  | nil => simp [conditionsOfClauses]
  | cons clause rest ih => simp [conditionsOfClauses, ih]

/-! ## The compiled predicate -/

/-- The result is the truth value, or the fault of a condition whose pattern is refused. -/
def Tells (conditions : List Condition) (holds : Bool) (result : Except QueryError Bool) : Prop :=
  result = .ok holds ∨
    ∃ condition ∈ conditions, ∃ e, condition.refusal? = some e ∧ result = .error e

theorem Tells.mono {conditions conditions' : List Condition} {holds : Bool}
    {result : Except QueryError Bool} (h : Tells conditions holds result)
    (hsub : conditions ⊆ conditions') : Tells conditions' holds result := by
  rcases h with h | ⟨condition, hmem, e, he, h⟩
  · exact Or.inl h
  · exact Or.inr ⟨condition, hsub hmem, e, he, h⟩

section

variable {first second : List Condition} {left right : Bool} {result later : Except QueryError Bool}

/-- Two tests of which the second is made only if the first one holds. -/
theorem Tells.and (hfirst : Tells first left result) (hsecond : Tells second right later) :
    Tells (first ++ second) (left && right)
      (result >>= fun holds => if holds then later else pure false) := by
  rcases hfirst with rfl | ⟨condition, hmem, e, he, rfl⟩
  · cases left with
    | false => exact Or.inl rfl
    | true => exact hsecond.mono (List.subset_append_right first second)
  · exact Or.inr ⟨condition, List.mem_append_left second hmem, e, he, rfl⟩

/-- Two tests of which the second is made only if the first one does not hold. -/
theorem Tells.or (hfirst : Tells first left result) (hsecond : Tells second right later) :
    Tells (first ++ second) (left || right)
      (result >>= fun holds => if holds then pure true else later) := by
  rcases hfirst with rfl | ⟨condition, hmem, e, he, rfl⟩
  · cases left with
    | false => exact hsecond.mono (List.subset_append_right first second)
    | true => exact Or.inl rfl
  · exact Or.inr ⟨condition, List.mem_append_left second hmem, e, he, rfl⟩

end

section

variable [PatternLibrary] {row : Value}

/-- A condition on a field holds if the field is there and its value passes. -/
theorem tells_compile_field (hrow : row.isObject = true ∨ row.isNull = true)
    (name : String) (condition : Condition) :
    Tells [condition] ((row.field? name).any condition.passes)
      (holdsIfPresent ((condition.compile (.field .row name)).evaluate tables ⟨row, none⟩)) := by
  have hread := readField_of_document hrow name
  cases hfield : row.field? name with
  | none =>
    rw [hfield] at hread
    rw [condition.evaluate_compile_error ((evaluate_row name).trans hread)]
    exact Or.inl rfl
  | some v =>
    rw [hfield] at hread
    change Tells [condition] (condition.passes v)
      ((condition.compile (.field .row name)).accepts tables row)
    rw [condition.accepts_compile hread]
    cases hrefusal : condition.refusal? with
    | none => exact Or.inl rfl
    | some e => exact Or.inr ⟨condition, List.mem_singleton.mpr rfl, e, hrefusal, rfl⟩

mutual

theorem Entry.tells_compile (hrow : row.isObject = true ∨ row.isNull = true) :
    ∀ entry : Entry, Tells entry.conditions (entry.holds row)
      (holdsIfPresent ((entry.compile .row).evaluate tables ⟨row, none⟩))
  | .field name condition => by
    rw [Entry.compile, Entry.holds, Entry.conditions]
    exact tells_compile_field hrow name condition
  | .anyOf clauses => by
    rw [Entry.compile, Entry.holds, Entry.conditions, Expr.holdsIfPresent_disjunction]
    exact tells_someHolds hrow clauses
  | .allOf clauses => by
    rw [Entry.compile, Entry.holds, Entry.conditions, Expr.holdsIfPresent_conjunction]
    exact tells_everyHolds hrow clauses

theorem tells_compileEntries (hrow : row.isObject = true ∨ row.isNull = true) :
    ∀ entries : List Entry, Tells (conditionsOfEntries entries) (everyEntryHolds row entries)
      (Expr.everyHolds tables (compileEntries .row entries) ⟨row, none⟩)
  | [] => by
    rw [compileEntries, Expr.everyHolds]
    exact Or.inl rfl
  | entry :: rest => by
    rw [compileEntries, Expr.everyHolds, conditionsOfEntries, everyEntryHolds]
    exact (entry.tells_compile hrow).and (tells_compileEntries hrow rest)

theorem tells_everyHolds (hrow : row.isObject = true ∨ row.isNull = true) :
    ∀ clauses : List (List Entry), Tells (conditionsOfClauses clauses)
      (everyClauseHolds row clauses)
      (Expr.everyHolds tables (compileClauses .row clauses) ⟨row, none⟩)
  | [] => by
    rw [compileClauses, Expr.everyHolds]
    exact Or.inl rfl
  | clause :: rest => by
    rw [compileClauses, Expr.everyHolds, Expr.holdsIfPresent_conjunction, conditionsOfClauses,
      everyClauseHolds]
    exact (tells_compileEntries hrow clause).and (tells_everyHolds hrow rest)

theorem tells_someHolds (hrow : row.isObject = true ∨ row.isNull = true) :
    ∀ clauses : List (List Entry), Tells (conditionsOfClauses clauses)
      (someClauseHolds row clauses)
      (Expr.someHolds tables (compileClauses .row clauses) ⟨row, none⟩)
  | [] => by
    rw [compileClauses, Expr.someHolds]
    exact Or.inl rfl
  | clause :: rest => by
    rw [compileClauses, Expr.someHolds, Expr.holdsIfPresent_conjunction, conditionsOfClauses,
      someClauseHolds]
    exact (tells_compileEntries hrow clause).or (tells_someHolds hrow rest)

end

/-- The compiled predicate tells whether a document meets the clause. -/
theorem Clause.tells_accepts (clause : Clause) (hrow : row.isObject = true ∨ row.isNull = true) :
    Tells (conditionsOfEntries clause) (clause.holds row)
      ((clause.compile .row).accepts tables row) := by
  rw [Expr.accepts, Clause.compile, Expr.holdsIfPresent_conjunction]
  exact tells_compileEntries hrow clause

/-- The compiled predicate accepts a document if and only if the document meets the clause. -/
theorem Clause.accepts_compile (clause : Clause)
    (hrow : row.isObject = true ∨ row.isNull = true) (hfits : clause.PatternsFit) :
    (clause.compile .row).accepts tables row = .ok (clause.holds row) := by
  rcases @tells_accepts tables _ row clause hrow with h | ⟨condition, hmem, e, he, -⟩
  · exact h
  · have hnone := hfits condition hmem
    rw [he] at hnone
    cases hnone

end

/-! ## The order of entries -/

/-- Clauses that differ in the order of their entries or of the clauses in a group, at any depth. -/
inductive Clause.Rearranged : Clause → Clause → Prop where
  /-- The entries in another order. -/
  | entries {clause clause' : Clause} (h : clause.Perm clause') : Rearranged clause clause'
  /-- The clauses of a group in another order. -/
  | members (group : GroupKey) (before after : List Entry) {clauses clauses' : List Clause}
      (h : clauses.Perm clauses') :
      Rearranged (before ++ groupEntry group clauses :: after)
        (before ++ groupEntry group clauses' :: after)
  /-- A clause of a group rearranged. -/
  | within (group : GroupKey) (before after : List Entry) (left right : List Clause)
      {clause clause' : Clause} (h : Rearranged clause clause') :
      Rearranged (before ++ groupEntry group (left ++ clause :: right) :: after)
        (before ++ groupEntry group (left ++ clause' :: right) :: after)
  | trans {first second third : Clause} (h₁ : Rearranged first second)
      (h₂ : Rearranged second third) : Rearranged first third

namespace Clause

theorem holds_eq_all (clause : Clause) (row : Value) :
    clause.holds row = clause.all (·.holds row) :=
  everyEntryHolds_eq_all row clause

/-- How a group holds: through some clause or through all of them. -/
theorem holds_groupEntry (group : GroupKey) (clauses : List Clause) (row : Value) :
    (groupEntry group clauses).holds row =
      match group with
      | .or => clauses.any (Clause.holds · row)
      | .and => clauses.all (Clause.holds · row) := by
  cases group with
  | or => rw [groupEntry, Entry.holds, someClauseHolds_eq_any]
  | and => rw [groupEntry, Entry.holds, everyClauseHolds_eq_all]

theorem conditions_groupEntry (group : GroupKey) (clauses : List Clause) :
    (groupEntry group clauses).conditions = conditionsOfClauses clauses := by
  cases group <;> rw [groupEntry, Entry.conditions]

namespace Rearranged

variable {clause clause' : Clause}

theorem holds_eq (h : clause.Rearranged clause') (row : Value) :
    clause'.holds row = clause.holds row := by
  induction h with
  | entries h =>
    rw [holds_eq_all, holds_eq_all]
    exact h.all_eq.symm
  | members group before after h =>
    simp only [holds_eq_all, List.all_append, List.all_cons, holds_groupEntry, h.all_eq, h.any_eq]
  | within group before after left right _ ih =>
    simp only [holds_eq_all (before ++ _), List.all_append, List.all_cons, holds_groupEntry,
      List.any_append, List.any_cons, ih]
  | trans _ _ ih₁ ih₂ => rw [ih₂, ih₁]

theorem mem_conditions_iff (h : clause.Rearranged clause') (condition : Condition) :
    condition ∈ conditionsOfEntries clause' ↔ condition ∈ conditionsOfEntries clause := by
  induction h with
  | entries h => simp only [mem_conditionsOfEntries, h.mem_iff]
  | members group before after h =>
    simp only [mem_conditionsOfEntries, List.mem_append, List.mem_cons, or_and_right, exists_or,
      exists_eq_left, conditions_groupEntry, mem_conditionsOfClauses, h.mem_iff]
  | within group before after left right _ ih =>
    simp only [mem_conditionsOfEntries _ (before ++ _), List.mem_append, List.mem_cons,
      or_and_right, exists_or, exists_eq_left, conditions_groupEntry, mem_conditionsOfClauses, ih]
  | trans _ _ ih₁ ih₂ => rw [ih₂, ih₁]

theorem patternsFit (h : clause.Rearranged clause') (hfits : clause.PatternsFit) :
    clause'.PatternsFit :=
  fun condition hmem => hfits condition ((h.mem_conditions_iff condition).mp hmem)

end Rearranged

end Clause

/-! ## Main statement -/

/-- On a row that is an object or null the compiled predicate gives an answer, never an error: the
    one of the two-valued reading. Rearranging the clause does not change it. -/
theorem accepts_compile_eq_holds [PatternLibrary] (clause : Clause) (tables : Tables) (row : Value)
    (hrow : row.isObject = true ∨ row.isNull = true) (hfits : clause.PatternsFit) :
    (clause.compile .row).accepts tables row = .ok (clause.holds row) ∧
      ∀ clause', clause.Rearranged clause' →
        (clause'.compile .row).accepts tables row = .ok (clause.holds row) := by
  refine ⟨clause.accepts_compile hrow hfits, ?_⟩
  intro clause' hre
  rw [clause'.accepts_compile hrow (hre.patternsFit hfits), hre.holds_eq row]

/-- A missing field fails its condition even where that says "not equal", and an empty group does
    not matter. -/
theorem accepts_compile_eq_holds_missing_field :
    let clause : Clause := [.anyOf [[.field "a" (.notEqual .null)], [.field "s" (.like "m_k%")]],
      .allOf [], .allOf [[]]]
    let row : Value := .object [("s", .string "miku")]
    (row.isObject = true ∨ row.isNull = true) ∧ clause.PatternsFit ∧
      (clause.compile .row).accepts [] row = .ok true ∧
      (Clause.compile .row clause.reverse).accepts [] row = .ok true := by
  intro clause row
  have hrow : row.isObject = true ∨ row.isNull = true := Or.inl rfl
  have hfits : clause.PatternsFit := by decide
  obtain ⟨hanswer, hrearranged⟩ := accepts_compile_eq_holds clause [] row hrow hfits
  have hholds : clause.holds row = true := by decide
  refine ⟨hrow, hfits, ?_, ?_⟩
  · rw [hanswer, hholds]
  · rw [hrearranged clause.reverse (.entries clause.reverse_perm.symm), hholds]

end DocQuery
