import DocQuery.Proofs.JoinPairing
import DocQuery.Proofs.Stages

set_option autoImplicit false

/-! # The fields that joins are compiled to

A descriptor has no plan if and only if something is wrong with its joins: a hop is a stray one, or
a join lacks the key that it needs (`IsJoinFault`). Every join is looked at, also one whose field a
later join writes again. If nothing is wrong there is one field for each alias, in the order in
which the aliases first occur, and the last plan with an alias says what is attached under it
(`compile_fails_iff_joins_faulty`). -/

namespace DocQuery

/-! ## Keys that joins need -/

namespace Join

/-- The join lacks the key that it needs: one of the children for a has-many join, and one of the
    parent for the others. -/
def lacksKey : Join → Bool
  | .belongsTo lookup => lookup.parentKey.isNone
  | .hasMany lookup => lookup.childKey.isNone
  | .junctionHop lookup => lookup.parentKey.isNone

/-- The fault of a join that lacks its key. -/
def keyFault : Join → JoinFault
  | .belongsTo lookup => .noParentKey lookup
  | .hasMany lookup => .noChildKey lookup
  | .junctionHop lookup => .noParentKey lookup

end Join

/-- What is wrong with a list of joins: the first stray hop, or the first join that lacks its key if
    there is no stray hop. -/
def IsJoinFault (joins : List Join) (fault : JoinFault) : Prop :=
  (∃ i hop, IsFirstStrayHop joins i hop ∧ fault = .strayHop i hop.attachAs) ∨
    (∀ i hop, ¬ IsStrayHop joins i hop) ∧
      ∃ join, joins.find? Join.lacksKey = some join ∧ fault = join.keyFault

variable {primaryKey : String} {fields compiled : Assoc Expr} {plans : List JoinPlan}
  {joins : List Join} {fault : JoinFault}

/-- A plan has a value unless one of its joins lacks its key. -/
theorem JoinPlan.compile_cases (primaryKey : String) (plan : JoinPlan) :
    (∃ join, plan.joins.find? Join.lacksKey = some join ∧
      plan.compile primaryKey = .error join.keyFault) ∨
    plan.joins.find? Join.lacksKey = none ∧ ∃ value, plan.compile primaryKey = .ok value := by
  cases plan with
  | belongsTo lookup =>
    cases hkey : lookup.parentKey with
    | none => simp [joins, Join.lacksKey, hkey, compile, Lookup.compileOne, Join.keyFault]
    | some key => simp [joins, Join.lacksKey, hkey, compile, Lookup.compileOne]
  | hasMany lookup =>
    cases hkey : lookup.childKey with
    | none => simp [joins, Join.lacksKey, hkey, compile, Lookup.compileMany, Join.keyFault]
    | some key => simp [joins, Join.lacksKey, hkey, compile, Lookup.compileMany]
  | manyToMany through hop =>
    cases hthrough : through.childKey with
    | none => simp [joins, Join.lacksKey, hthrough, compile, Lookup.compileMany, Join.keyFault]
    | some key =>
      cases hhop : hop.parentKey with
      | none => simp [joins, Join.lacksKey, hthrough, hhop, compile, Lookup.compileMany,
          Lookup.compileOne, Join.keyFault]
      | some key => simp [joins, Join.lacksKey, hthrough, hhop, compile, Lookup.compileMany,
          Lookup.compileOne]

/-- Compiling plans fails for the first of their joins that lacks its key. -/
theorem compileJoinPlans_eq_error_iff :
    compileJoinPlans primaryKey fields plans = .error fault ↔
      ∃ join, (plans.flatMap JoinPlan.joins).find? Join.lacksKey = some join ∧
        fault = join.keyFault := by
  induction plans generalizing fields with
  | nil => simp [compileJoinPlans]
  | cons plan rest ih =>
    rw [compileJoinPlans, List.flatMap_cons, List.find?_append]
    rcases plan.compile_cases primaryKey with ⟨join, hjoin, hfail⟩ | ⟨hnone, value, hvalue⟩
    · rw [hfail, hjoin, error_bind]
      simp [eq_comm]
    · rw [hvalue, hnone, ok_bind, ih, Option.none_or]

/-! ## The fields of plans -/

/-- The value of a plan that has one. -/
def JoinPlan.value (primaryKey : String) (plan : JoinPlan) : Expr :=
  (plan.compile primaryKey).toOption.getD (.datum .null)

theorem JoinPlan.value_eq {plan : JoinPlan} {value : Expr}
    (h : plan.compile primaryKey = .ok value) : plan.value primaryKey = value := by
  rw [JoinPlan.value, h]
  rfl

/-- Plans that all have values write them one after the other. -/
theorem compileJoinPlans_eq_ok (h : compileJoinPlans primaryKey fields plans = .ok compiled) :
    (∀ plan ∈ plans, plan.compile primaryKey = .ok (plan.value primaryKey)) ∧
      compiled = Assoc.insertAll fields
        (plans.map (fun plan => (plan.attachAs, plan.value primaryKey))) := by
  induction plans generalizing fields with
  | nil => exact ⟨by simp, (Except.ok.inj h).symm⟩
  | cons plan rest ih =>
    obtain ⟨value, hvalue, h⟩ := bind_eq_ok.mp h
    obtain rfl : plan.value primaryKey = value := JoinPlan.value_eq hvalue
    obtain ⟨hrest, hcompiled⟩ := ih h
    exact ⟨List.forall_mem_cons.mpr ⟨hvalue, hrest⟩, hcompiled⟩

/-- To write under the alias of every join is to write under the alias of every plan, since the two
    joins of a pair have one alias. -/
theorem insertAll_attachAs (h : ∀ plan ∈ plans, plan.IsPaired) (entries : Assoc Unit) :
    Assoc.insertAll entries ((plans.flatMap JoinPlan.joins).map
      (fun join => (join.lookup.attachAs, ()))) =
      Assoc.insertAll entries (plans.map (fun plan => (plan.attachAs, ()))) := by
  induction plans generalizing entries with
  | nil => rfl
  | cons plan rest ih =>
    obtain ⟨hplan, hrest⟩ := List.forall_mem_cons.mp h
    cases plan with
    | belongsTo lookup | hasMany lookup => exact ih hrest _
    | manyToMany through hop =>
      have hsame : through.attachAs = hop.attachAs := hplan
      rw [List.flatMap_cons, JoinPlan.joins, List.cons_append, List.cons_append, List.nil_append,
        List.map_cons, List.map_cons, Assoc.insertAll_cons, Assoc.insertAll_cons, Join.lookup,
        Join.lookup, ← hsame, Assoc.insert_insert_self]
      exact ih hrest _

/-- The aliases of the plans are those of the joins. -/
theorem eraseDups_map_attachAs (h : ∀ plan ∈ plans, plan.IsPaired) :
    ((plans.flatMap JoinPlan.joins).map (·.lookup.attachAs)).eraseDups =
      (plans.map JoinPlan.attachAs).eraseDups := by
  have hkeys := congrArg Assoc.keys (insertAll_attachAs h [])
  rw [Assoc.keys_insertAll, Assoc.keys_insertAll] at hkeys
  simpa [Assoc.keys, Function.comp_def] using hkeys

/-! ## The fields of a list of joins -/

/-- The fields that join plans are compiled to. -/
structure AreFieldsOf (primaryKey : String) (joins : List Join) (plans : List JoinPlan)
    (fields : List MergeField) : Prop where
  /-- No two fields have one name. -/
  distinct : (fields.map MergeField.name).Nodup
  /-- The names are the aliases, in the order in which they first occur. -/
  places : fields.map MergeField.name = (joins.map (·.lookup.attachAs)).eraseDups
  /-- The last plan with an alias gives the value under it. -/
  last : ∀ field ∈ fields, ∃ plan,
    (plans.filter (fun plan => plan.attachAs = field.name)).getLast? = some plan ∧
      plan.compile primaryKey = .ok field.value

theorem areFieldsOf_of_compileJoins {merged : List MergeField}
    (h : compileJoins primaryKey joins = .ok merged) :
    ∃ plans, JoinPlan.ofList joins = .ok plans ∧ AreFieldsOf primaryKey joins plans merged := by
  obtain ⟨plans, hplans, h⟩ := bind_eq_ok.mp h
  obtain ⟨compiled, hcompiled, h⟩ := bind_eq_ok.mp h
  have hmerged := Except.ok.inj h
  have hnames : merged.map MergeField.name = compiled.keys := by
    rw [← hmerged, List.map_map]
    rfl
  obtain ⟨hvalues, rfl⟩ := compileJoinPlans_eq_ok hcompiled
  obtain ⟨rfl, hpaired⟩ := JoinPlan.ofList_eq_ok_iff.mp hplans
  refine ⟨plans, hplans, ?_, ?_, ?_⟩
  · rw [hnames]
    exact Assoc.nodup_keys_ofList _
  · have hplaces := Assoc.keys_ofList
      (plans.map (fun plan => (plan.attachAs, plan.value primaryKey)))
    rw [List.map_map] at hplaces
    rw [hnames, eraseDups_map_attachAs hpaired]
    exact hplaces
  · intro field hfield
    rw [← hmerged] at hfield
    obtain ⟨entry, hentry, rfl⟩ := List.mem_map.mp hfield
    have hlast := Assoc.getLast?_of_mem_ofList hentry
    rw [List.filter_map, List.getLast?_map] at hlast
    obtain ⟨plan, hlast, rfl⟩ := Option.map_eq_some_iff.mp hlast
    have hmem : plan ∈ plans := (List.mem_filter.mp (List.mem_of_getLast? hlast)).1
    exact ⟨plan, hlast, hvalues plan hmem⟩

/-- Joins have fields unless something is wrong with them. -/
theorem compileJoins_eq_error_iff :
    compileJoins primaryKey joins = .error fault ↔ IsJoinFault joins fault := by
  have hpaired : (∃ plans, JoinPlan.ofList joins = .ok plans ∧
      compileJoinPlans primaryKey [] plans = .error fault) ↔ (∀ i hop, ¬ IsStrayHop joins i hop) ∧
        ∃ join, joins.find? Join.lacksKey = some join ∧ fault = join.keyFault := by
    rw [← JoinPlan.exists_ofList_eq_ok_iff, ← exists_and_right]
    refine exists_congr (fun plans => and_congr_right (fun hplans => ?_))
    rw [compileJoinPlans_eq_error_iff, (JoinPlan.ofList_eq_ok_iff.mp hplans).1]
  rw [compileJoins, bind_eq_error, JoinPlan.ofList_eq_error_iff, IsJoinFault, ← hpaired]
  simp [bind_eq_error]

theorem exists_isJoinFault_iff : (∃ fault, IsJoinFault joins fault) ↔
    (∃ i hop, IsStrayHop joins i hop) ∨ ∃ join ∈ joins, join.lacksKey = true := by
  constructor
  · rintro ⟨fault, ⟨i, hop, hfirst, -⟩ | ⟨-, join, hjoin, -⟩⟩
    · exact Or.inl ⟨i, hop, hfirst.1⟩
    · exact Or.inr ⟨join, List.mem_of_find?_eq_some hjoin, List.find?_some hjoin⟩
  · intro h
    cases hplans : JoinPlan.ofList joins with
    | error fault => exact ⟨fault, Or.inl (JoinPlan.ofList_eq_error_iff.mp hplans)⟩
    | ok plans =>
      have hnone := JoinPlan.exists_ofList_eq_ok_iff.mp ⟨plans, hplans⟩
      rcases h with ⟨i, hop, hstray⟩ | hlacks
      · exact absurd hstray (hnone i hop)
      · obtain ⟨join, hjoin⟩ := Option.isSome_iff_exists.mp (List.find?_isSome.mpr hlacks)
        exact ⟨join.keyFault, Or.inr ⟨hnone, join, hjoin, rfl⟩⟩

/-! ## Main statement -/

/-- A descriptor has no plan if and only if a hop of its joins is a stray one or a join lacks the
    key that it needs, whether a later join has the same alias or not; the first stray hop, or else
    the first join that lacks its key, is the fault. With a plan there is one field for each alias,
    in the order in which the aliases first occur, with the value of the last plan that has the
    alias. -/
theorem compile_fails_iff_joins_faulty (options : PlanOptions) (input : Plan) (d : Descriptor) :
    ((∃ e, Plan.compile options input d = .error e) ↔ ∃ joins, d.joins = some joins ∧
      ((∃ i hop, IsStrayHop joins i hop) ∨ ∃ join ∈ joins, join.lacksKey = true)) ∧
    (∀ e, Plan.compile options input d = .error e ↔ ∃ joins fault, d.joins = some joins ∧
      IsJoinFault joins fault ∧ e = .invalidJoinSequence fault) ∧
    ∀ joins, d.joins = some joins → ∀ plan, Plan.compile options input d = .ok plan →
      ∃ plans fields, JoinPlan.ofList joins = .ok plans ∧
        compileJoins options.primaryKey joins = .ok fields ∧
        AreFieldsOf options.primaryKey joins plans fields := by
  have hfails : ∀ e, Plan.compile options input d = .error e ↔ ∃ joins fault,
      d.joins = some joins ∧ IsJoinFault joins fault ∧ e = .invalidJoinSequence fault := by
    intro e
    simp only [← @compileJoins_eq_error_iff options.primaryKey,
      ← Descriptor.mergeFields_eq_error_iff, Plan.compile_eq_map_mergeFields]
    cases d.mergeFields options.primaryKey <;> simp
  refine ⟨?_, hfails, ?_⟩
  · simp only [hfails, ← exists_isJoinFault_iff]
    constructor
    · rintro ⟨e, joins, fault, hjoins, hfault, -⟩
      exact ⟨joins, hjoins, fault, hfault⟩
    · rintro ⟨joins, hjoins, fault, hfault⟩
      exact ⟨_, joins, fault, hjoins, hfault, rfl⟩
  · intro joins hjoins plan hplan
    obtain ⟨fields, hfields⟩ := Plan.exists_mergeFields_of_compile_eq_ok hplan
    rw [Descriptor.mergeFields, hjoins] at hfields
    have hcompiled := mapError_eq_ok.mp hfields
    obtain ⟨plans, hplans, hfieldsOf⟩ := areFieldsOf_of_compileJoins hcompiled
    exact ⟨plans, fields, hplans, hcompiled, hfieldsOf⟩

/-- A later join with the alias does not mend one that lacks its key. -/
example : Plan.compile {} (.table "posts") { joins := some [.belongsTo ⟨"by", "people", none, none⟩,
    .belongsTo ⟨"by", "people", none, some "author"⟩] } =
      .error (.invalidJoinSequence (.noParentKey ⟨"by", "people", none, none⟩)) := rfl

end DocQuery
