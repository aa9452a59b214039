import DocQuery.Proofs.Connectives

set_option autoImplicit false

/-! # Collapsing groups

`conjunction` and `disjunction` make a constant of a group without arguments and leave the argument
of a group of one. A group of one and its argument differ where the argument reads a missing field:
the group turns that into false, and the argument fails. Only a negation can tell the two apart. So
collapsing the groups of a predicate, at any depth, does not change which rows it accepts, unless a
negation stands over a group of one argument and through it over a missing field
(`collapsed_accepts_alike`); and there it does (`negated_group_tells_missing_field`). Clauses never
come to that: what their compilation negates is a search in a list, not a group. -/

namespace DocQuery

namespace Expr

/-- The expression is a conjunction, a disjunction or a negation. -/
def isConnective : Expr → Bool
  | .and _ => true
  | .or _ => true
  | .not _ => true
  | _ => false

mutual

/-- The predicate with `conjunction` and `disjunction` in the place of its groups, at any depth. -/
def collapsed : Expr → Expr
  | .and args => conjunction (collapsedAll args)
  | .or args => disjunction (collapsedAll args)
  | .not arg => .not arg.collapsed
  | e => e

/-- The predicates with their groups collapsed. -/
def collapsedAll : List Expr → List Expr
  | [] => []
  | arg :: rest => arg.collapsed :: collapsedAll rest

end

/-- What a predicate comes down to when the negations and the groups of one argument around it are
    taken off. -/
def core : Expr → Expr
  | .and [arg] => arg.core
  | .or [arg] => arg.core
  | .not arg => arg.core
  | e => e

mutual

/-- The arguments of the negations in a predicate, at any depth. -/
def negated : Expr → List Expr
  | .and args => negatedInAll args
  | .or args => negatedInAll args
  | .not arg => arg :: arg.negated
  | _ => []

/-- The arguments of the negations in predicates, at any depth. -/
def negatedInAll : List Expr → List Expr
  | [] => []
  | arg :: rest => arg.negated ++ negatedInAll rest

end

theorem collapsedAll_eq_map (args : List Expr) : collapsedAll args = args.map collapsed := by
  induction args with
  | nil => rfl
  | cons arg rest ih => rw [collapsedAll, ih, List.map_cons]

theorem mem_negatedInAll {e : Expr} {args : List Expr} :
    e ∈ negatedInAll args ↔ ∃ arg ∈ args, e ∈ arg.negated := by
  induction args with
  | nil => simp [negatedInAll]
  | cons arg rest ih => simp [negatedInAll, ih]

theorem collapsed_of_not_connective {e : Expr} (h : e.isConnective = false) : e.collapsed = e := by
  cases e <;> first | rfl | cases h

theorem core_of_not_connective {e : Expr} (h : e.isConnective = false) : e.core = e := by
  cases e <;> first | rfl | cases h

/-- Induction on the connectives of a predicate; what stands under them is not looked into. -/
theorem connective_induction {motive : Expr → Prop}
    (leaf : ∀ e : Expr, e.isConnective = false → motive e)
    (and : ∀ args : List Expr, (∀ arg ∈ args, motive arg) → motive (.and args))
    (or : ∀ args : List Expr, (∀ arg ∈ args, motive arg) → motive (.or args))
    (not : ∀ arg : Expr, motive arg → motive (.not arg)) (e : Expr) : motive e :=
  match e with
  | .and args => and args (fun arg _ => connective_induction leaf and or not arg)
  | .or args => or args (fun arg _ => connective_induction leaf and or not arg)
  | .not arg => not arg (connective_induction leaf and or not arg)
  | .datum _ => leaf _ rfl
  | .field _ _ => leaf _ rfl
  | .compare _ _ _ => leaf _ rfl
  | .contains _ _ => leaf _ rfl
  | .oneOf _ _ => leaf _ rfl
  | .matchText _ _ => leaf _ rfl
  | .get _ _ _ => leaf _ rfl
  | .getAll _ _ _ => leaf _ rfl
  | .mapItems _ _ => leaf _ rfl
termination_by sizeOf e

/-! ## Predicates that miss a field -/

variable [PatternLibrary]

/-- On the row the expression fails for a field that is missing. -/
def MissesField (e : Expr) (tables : Tables) (row : Value) : Prop :=
  ∃ name, e.evaluate tables ⟨row, none⟩ = .error (.nonExistence name)

variable {tables : Tables} {row : Value}

/-- A comparison of a field with a constant misses the field if the document lacks it. -/
theorem missesField_compare_iff (hrow : row.isObject = true) (comparison : Comparison)
    (name : String) (operand : Value) :
    (Expr.compare comparison (.row name) (.datum operand)).MissesField tables row ↔
      row.field? name = none := by
  have hread := readField_of_document (Or.inl hrow) name
  rw [MissesField, evaluate, Expr.row, evaluate_row, hread]
  cases row.field? name with
  | none => simp
  | some v => simp [evaluate]

theorem not_missesField_and (args : List Expr) : ¬ (Expr.and args).MissesField tables row := by
  rintro ⟨name, h⟩
  rw [evaluate] at h
  have hne := everyHolds_ne_nonExistence tables args ⟨row, none⟩ name
  cases hevery : everyHolds tables args ⟨row, none⟩ with
  | ok b => simp [hevery] at h
  | error e => simp_all

theorem not_missesField_or (args : List Expr) : ¬ (Expr.or args).MissesField tables row := by
  rintro ⟨name, h⟩
  rw [evaluate] at h
  have hne := someHolds_ne_nonExistence tables args ⟨row, none⟩ name
  cases hsome : someHolds tables args ⟨row, none⟩ with
  | ok b => simp [hsome] at h
  | error e => simp_all

theorem missesField_not_iff {arg : Expr} :
    (Expr.not arg).MissesField tables row ↔ arg.MissesField tables row := by
  refine exists_congr (fun name => ?_)
  rw [evaluate]
  cases arg.evaluate tables ⟨row, none⟩ <;> simp

theorem not_missesField_datum (v : Value) : ¬ (Expr.datum v).MissesField tables row := by
  rintro ⟨name, h⟩
  cases h

/-- What a predicate comes down to misses the field that the predicate misses. -/
theorem MissesField.core {e : Expr} (h : e.MissesField tables row) :
    e.core.MissesField tables row := by
  induction e using connective_induction with
  | leaf e hleaf => rwa [core_of_not_connective hleaf]
  | and args _ => exact absurd h (not_missesField_and args)
  | or args _ => exact absurd h (not_missesField_or args)
  | not arg ih => exact ih (missesField_not_iff.mp h)

/-- Without groups of one argument nothing stops a missing field. -/
theorem missesField_collapsed_iff (e : Expr) :
    e.collapsed.MissesField tables row ↔ e.core.MissesField tables row := by
  induction e using connective_induction with
  | leaf e hleaf => rw [collapsed_of_not_connective hleaf, core_of_not_connective hleaf]
  | and args ih =>
    match args, ih with
    | [], _ => exact iff_of_false (not_missesField_datum _) (not_missesField_and [])
    | [arg], ih => exact ih arg (List.mem_singleton.mpr rfl)
    | first :: second :: rest, _ =>
      exact iff_of_false (not_missesField_and _) (not_missesField_and _)
  | or args ih =>
    match args, ih with
    | [], _ => exact iff_of_false (not_missesField_datum _) (not_missesField_or [])
    | [arg], ih => exact ih arg (List.mem_singleton.mpr rfl)
    | first :: second :: rest, _ =>
      exact iff_of_false (not_missesField_or _) (not_missesField_or _)
  | not arg ih =>
    rw [collapsed, missesField_not_iff, ih]
    rfl

/-! ## Predicates that are accepted alike -/

section Members

variable {f : Expr → Expr} {args : List Expr}
  (h : ∀ arg ∈ args, (f arg).accepts tables row = arg.accepts tables row)
include h

/-- Members that are accepted alike can take each other's place. -/
theorem everyHolds_map :
    everyHolds tables (args.map f) ⟨row, none⟩ = everyHolds tables args ⟨row, none⟩ := by
  induction args with
  | nil => rfl
  | cons arg rest ih =>
    obtain ⟨hfirst, hrest⟩ := List.forall_mem_cons.mp h
    unfold accepts at hfirst
    rw [List.map_cons, everyHolds, everyHolds, hfirst, ih hrest]

theorem someHolds_map :
    someHolds tables (args.map f) ⟨row, none⟩ = someHolds tables args ⟨row, none⟩ := by
  induction args with
  | nil => rfl
  | cons arg rest ih =>
    obtain ⟨hfirst, hrest⟩ := List.forall_mem_cons.mp h
    unfold accepts at hfirst
    rw [List.map_cons, someHolds, someHolds, hfirst, ih hrest]

end Members

theorem accepts_and (args : List Expr) (tables : Tables) (row : Value) :
    (Expr.and args).accepts tables row = everyHolds tables args ⟨row, none⟩ := by
  rw [accepts, evaluate]
  exact holdsIfPresent_map_bool _ (everyHolds_ne_nonExistence tables args ⟨row, none⟩)

theorem accepts_or (args : List Expr) (tables : Tables) (row : Value) :
    (Expr.or args).accepts tables row = someHolds tables args ⟨row, none⟩ := by
  rw [accepts, evaluate]
  exact holdsIfPresent_map_bool _ (someHolds_ne_nonExistence tables args ⟨row, none⟩)

theorem accepts_of_missesField {e : Expr} (h : e.MissesField tables row) :
    e.accepts tables row = .ok false := by
  obtain ⟨name, h⟩ := h
  rw [accepts, h]
  rfl

/-- A negation turns round what its argument says, unless that misses a field. -/
theorem accepts_not_of_not_missesField {arg : Expr} (h : ¬ arg.MissesField tables row) :
    (Expr.not arg).accepts tables row = (arg.accepts tables row).map Bool.not := by
  rw [accepts, accepts, evaluate]
  cases harg : arg.evaluate tables ⟨row, none⟩ with
  | ok v => rfl
  | error e =>
    cases e with
    | nonExistence name => exact absurd ⟨name, harg⟩ h
    | _ => rfl

/-- Collapsing the groups does not change whether a predicate is accepted, if each negation of
    something that comes down to a missing field fails either way. -/
theorem accepts_collapsed {e : Expr}
    (h : ∀ arg ∈ e.negated, arg.core.MissesField tables row →
      (Expr.not arg).accepts tables row = .ok false) :
    e.collapsed.accepts tables row = e.accepts tables row := by
  induction e using connective_induction with
  | leaf e hleaf => rw [collapsed_of_not_connective hleaf]
  | and args ih =>
    have hargs : ∀ arg ∈ args, arg.collapsed.accepts tables row = arg.accepts tables row :=
      fun arg hmem => ih arg hmem (fun e he => h e (mem_negatedInAll.mpr ⟨arg, hmem, he⟩))
    rw [collapsed, collapsedAll_eq_map, accepts, holdsIfPresent_conjunction,
      everyHolds_map hargs, accepts_and]
  | or args ih =>
    have hargs : ∀ arg ∈ args, arg.collapsed.accepts tables row = arg.accepts tables row :=
      fun arg hmem => ih arg hmem (fun e he => h e (mem_negatedInAll.mpr ⟨arg, hmem, he⟩))
    rw [collapsed, collapsedAll_eq_map, accepts, holdsIfPresent_disjunction,
      someHolds_map hargs, accepts_or]
  | not arg ih =>
    have harg := ih (fun e he => h e (List.mem_cons_of_mem _ he))
    -- either the collapsed argument misses a field, or neither of the two arguments does
    by_cases hcore : arg.core.MissesField tables row
    · rw [h arg List.mem_cons_self hcore]
      exact accepts_of_missesField ((missesField_collapsed_iff (.not arg)).mpr hcore)
    · have hcollapsed : ¬ arg.collapsed.MissesField tables row :=
        mt (missesField_collapsed_iff arg).mp hcore
      have hself : ¬ arg.MissesField tables row := mt MissesField.core hcore
      rw [collapsed, accepts_not_of_not_missesField hcollapsed,
        accepts_not_of_not_missesField hself, harg]

end Expr

/-! ## Main statement -/

/-- Collapsing the groups of a predicate, at any depth, changes nothing on a row on which every
    negation fails whose argument comes down to a missing field. Once it is collapsed such a
    negation always fails. -/
theorem collapsed_accepts_alike [PatternLibrary] (predicate : Expr) (tables : Tables)
    (row : Value) :
    ((∀ arg ∈ predicate.negated, arg.core.MissesField tables row →
        (Expr.not arg).accepts tables row = .ok false) →
      predicate.collapsed.accepts tables row = predicate.accepts tables row) ∧
    ∀ arg : Expr, arg.core.MissesField tables row →
      (Expr.not arg).collapsed.accepts tables row = .ok false := by
  refine ⟨Expr.accepts_collapsed, fun arg hcore => ?_⟩
  exact Expr.accepts_of_missesField ((Expr.missesField_collapsed_iff (.not arg)).mpr hcore)

/-- A row that lacks the field of a condition that stands in a group and of one that is negated,
    and has the field of the one in a negated group. -/
theorem collapsed_accepts_alike_missing_field :
    let isNull (name : String) : Expr := .compare .eq (.row name) (.datum .null)
    let predicate : Expr :=
      .or [.and [isNull "a"], .not (isNull "a"), .and [.not (.and [.or [isNull "b"]]), .and []]]
    let row : Value := .object [("b", .bool true)]
    (∀ arg ∈ predicate.negated, arg.core.MissesField [] row →
        (Expr.not arg).accepts [] row = .ok false) ∧
      predicate.collapsed.accepts [] row = .ok true ∧
      (Expr.or [.not (isNull "a")]).core.MissesField [] row ∧
      (Expr.not (.or [.not (isNull "a")])).collapsed.accepts [] row = .ok false := by
  intro isNull predicate row
  have hmisses (name : String) :
      (isNull name).core.MissesField [] row ↔ row.field? name = none :=
    Expr.missesField_compare_iff rfl .eq name .null
  have hnegated : ∀ arg ∈ predicate.negated, arg.core.MissesField [] row →
      (Expr.not arg).accepts [] row = .ok false := by
    intro arg hmem hcore
    have hcases : arg = isNull "a" ∨ arg = .and [.or [isNull "b"]] := by
      simpa [predicate, isNull, Expr.negated, Expr.negatedInAll] using hmem
    rcases hcases with rfl | rfl
    · rfl
    · cases (hmisses "b").mp hcore
  have haccepted : predicate.accepts [] row = .ok true := rfl
  have hmissing : (Expr.or [.not (isNull "a")]).core.MissesField [] row := (hmisses "a").mpr rfl
  obtain ⟨halike, hfails⟩ := collapsed_accepts_alike predicate [] row
  exact ⟨hnegated, (halike hnegated).trans haccepted, hmissing, hfails _ hmissing⟩

/-- A negated group of one argument accepts a row for lacking the field, and no longer does so once
    it is collapsed. -/
theorem negated_group_tells_missing_field :
    let isNull : Expr := .compare .eq (.row "a") (.datum .null)
    let row : Value := .object [("b", .null)]
    ((Expr.not (.and [isNull])).accepts [] row = .ok true ∧
        (Expr.not (.and [isNull])).collapsed.accepts [] row = .ok false) ∧
      (Expr.not (.or [isNull])).accepts [] row = .ok true ∧
      (Expr.not (.or [isNull])).collapsed.accepts [] row = .ok false := by
  intro isNull row
  exact ⟨⟨rfl, rfl⟩, rfl, rfl⟩

end DocQuery
