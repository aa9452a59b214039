import DocQuery.Proofs.Joins

set_option autoImplicit false

/-! # Pairing the hops of a list of joins

A list of joins has plans if and only if each of its hops directly follows a has-many join with the
same alias; the first hop that does not is the fault. A plan stands for the joins it was made from,
so the plans of a list, written out again, are the list, and every list of plans is the one of the
joins that it stands for (`joins_pair_up`). What carries this is that the joins of one plan can be
taken off the front of a list (`JoinPlan.Precedes.ofJoins_eq`, `JoinPlan.Precedes.isStrayHop_iff`).
The plans may as well be made one join at a time, where a hop takes the place of the plan made last
(`JoinPlan.pairOneByOne_eq_ofList`). -/

namespace DocQuery

/-! ## Stray hops -/

/-- The join at place `i` is this hop, and no has-many join with its alias stands directly before
    it. -/
def IsStrayHop (joins : List Join) (i : Nat) (hop : Lookup) : Prop :=
  joins[i]? = some (.junctionHop hop) ∧
    ¬ ∃ j through, i = j + 1 ∧ joins[j]? = some (.hasMany through) ∧
      through.attachAs = hop.attachAs

/-- No hop before place `i` is a stray one, but the one there is. -/
def IsFirstStrayHop (joins : List Join) (i : Nat) (hop : Lookup) : Prop :=
  IsStrayHop joins i hop ∧ ∀ j < i, ∀ other, ¬ IsStrayHop joins j other

/-- The two lookups of a many-to-many join have one alias. -/
def JoinPlan.IsPaired : JoinPlan → Prop
  | .manyToMany through hop => through.attachAs = hop.attachAs
  | _ => True

/-- The list goes on with a hop. -/
def StartsWithHop (joins : List Join) : Prop :=
  ∃ hop rest, joins = .junctionHop hop :: rest

/-- The joins of the plan may stand in front of `rest`: they are a pair if they are two, and a
    has-many join is not followed by a hop that would make a pair of it. -/
structure JoinPlan.Precedes (plan : JoinPlan) (rest : List Join) : Prop where
  paired : plan.IsPaired
  alone : ∀ lookup, plan = .hasMany lookup → ¬ StartsWithHop rest

theorem isStrayHop_zero {joins : List Join} {hop : Lookup} :
    IsStrayHop joins 0 hop ↔ joins[0]? = some (.junctionHop hop) := by
  simp [IsStrayHop]

theorem isStrayHop_succ {joins : List Join} {i : Nat} {hop : Lookup} :
    IsStrayHop joins (i + 1) hop ↔ joins[i + 1]? = some (.junctionHop hop) ∧
      ∀ through, joins[i]? = some (.hasMany through) → through.attachAs ≠ hop.attachAs := by
  simp [IsStrayHop]

/-- A join matters only for a hop directly behind it, and only if it is a has-many join. -/
theorem isStrayHop_cons_succ {join : Join} {rest : List Join} {i : Nat} (hop : Lookup)
    (h : i = 0 → ∀ through, join = .hasMany through → ¬ StartsWithHop rest) :
    IsStrayHop (join :: rest) (i + 1) hop ↔ IsStrayHop rest i hop := by
  cases i with
  | zero =>
    rw [isStrayHop_succ, isStrayHop_zero, List.getElem?_cons_succ, and_iff_left_iff_imp,
      ← List.head?_eq_getElem?]
    intro hhop through hthrough
    obtain ⟨tail, hrest⟩ := List.head?_eq_some_iff.mp hhop
    exact absurd ⟨hop, tail, hrest⟩ (h rfl through (Option.some.inj hthrough))
  | succ i =>
    rw [isStrayHop_succ, isStrayHop_succ, List.getElem?_cons_succ, List.getElem?_cons_succ]

/-- The joins are made into paired plans and have no stray hop, or the first one is found. -/
def IsPairing (position : Nat) (joins : List Join) : Except JoinFault (List JoinPlan) → Prop :=
  Yields (fun plans => (∀ plan ∈ plans, plan.IsPaired) ∧ ∀ i hop, ¬ IsStrayHop joins i hop)
    (fun fault => ∃ i hop, IsFirstStrayHop joins i hop ∧
      fault = .strayHop (position + i) hop.attachAs)

namespace JoinPlan.Precedes

variable {plan : JoinPlan} {rest : List Join}

/-- The joins of a plan are no stray hops. -/
theorem not_isStrayHop (h : plan.Precedes rest) {i : Nat} (hi : i < plan.joins.length)
    (hop : Lookup) : ¬ IsStrayHop (plan.joins ++ rest) i hop := by
  cases plan with
  | belongsTo lookup | hasMany lookup =>
    obtain rfl : i = 0 := Nat.lt_one_iff.mp hi
    simp [isStrayHop_zero, joins]
  | manyToMany through hop' =>
    rcases Nat.le_one_iff_eq_zero_or_eq_one.mp (Nat.le_of_lt_succ hi) with rfl | rfl
    · simp [isStrayHop_zero, joins]
    · rw [isStrayHop_succ]
      rintro ⟨hhop, hnone⟩
      obtain rfl := Join.junctionHop.inj (Option.some.inj hhop)
      exact hnone through rfl h.paired

/-- The joins of a plan do not matter for those that follow. -/
theorem isStrayHop_iff (h : plan.Precedes rest) (i : Nat) (hop : Lookup) :
    IsStrayHop (plan.joins ++ rest) (i + plan.joins.length) hop ↔ IsStrayHop rest i hop := by
  cases plan with
  | belongsTo lookup => exact isStrayHop_cons_succ hop (fun _ _ he => nomatch he)
  | hasMany lookup =>
    exact isStrayHop_cons_succ hop (fun _ through he =>
      h.alone through (congrArg JoinPlan.hasMany (Join.hasMany.inj he)))
  | manyToMany through hop' =>
    have hsecond : IsStrayHop (.junctionHop hop' :: rest) (i + 1) hop ↔ IsStrayHop rest i hop :=
      isStrayHop_cons_succ hop (fun _ _ he => nomatch he)
    rw [← hsecond]
    exact isStrayHop_cons_succ hop (fun hi => absurd hi (Nat.succ_ne_zero i))

/-- The joins of a plan give that plan, whatever follows. -/
theorem ofJoins_eq (h : plan.Precedes rest) (position : Nat) :
    ofJoins position (plan.joins ++ rest) =
      (ofJoins (position + plan.joins.length) rest).map (plan :: ·) := by
  cases plan with
  | belongsTo lookup => rfl
  | hasMany lookup =>
    have hnext : ∀ hop tail, rest ≠ .junctionHop hop :: tail := by
      rintro hop tail rfl
      exact h.alone lookup rfl ⟨hop, tail, rfl⟩
    exact ofJoins.eq_4 position lookup rest hnext
  | manyToMany through hop =>
    have hsame : through.attachAs = hop.attachAs := h.paired
    simp only [joins, List.cons_append, List.nil_append, ofJoins, if_pos hsame]
    rfl

/-- The joins of a plan stand in front of those that are paired already. -/
theorem isPairing (h : plan.Precedes rest) {position : Nat}
    {result : Except JoinFault (List JoinPlan)}
    (hrest : IsPairing (position + plan.joins.length) rest result) :
    IsPairing position (plan.joins ++ rest) (result.map (plan :: ·)) := by
  cases result with
  | ok plans =>
    refine ⟨List.forall_mem_cons.mpr ⟨h.paired, hrest.1⟩, fun i hop => ?_⟩
    rcases Nat.lt_or_ge i plan.joins.length with hi | hi
    · exact h.not_isStrayHop hi hop
    · rw [← Nat.sub_add_cancel hi, h.isStrayHop_iff]
      exact hrest.2 _ hop
  | error fault =>
    obtain ⟨i, hop, ⟨hstray, hfirst⟩, rfl⟩ := hrest
    refine ⟨i + plan.joins.length, hop, ⟨(h.isStrayHop_iff i hop).mpr hstray, ?_⟩, ?_⟩
    · intro j hj other
      rcases Nat.lt_or_ge j plan.joins.length with hj' | hj'
      · exact h.not_isStrayHop hj' other
      · rw [← Nat.sub_add_cancel hj', h.isStrayHop_iff]
        exact hfirst _ (by omega) other
    · rw [Nat.add_assoc, Nat.add_comm i]

end JoinPlan.Precedes

/-- Reading the joins from the front gives plans, or finds the first stray hop. -/
theorem isPairing_ofJoins (position : Nat) (joins : List Join) :
    IsPairing position joins (JoinPlan.ofJoins position joins) := by
  fun_induction JoinPlan.ofJoins position joins with
  | case1 position =>
    refine ⟨by simp, ?_⟩
    simp [IsStrayHop]
  | case2 position lookup rest ih =>
    have hprecedes : (JoinPlan.belongsTo lookup).Precedes rest := ⟨trivial, by simp⟩
    exact hprecedes.isPairing ih
  | case3 position through hop rest hsame ih =>
    have hprecedes : (JoinPlan.manyToMany through hop).Precedes rest := ⟨hsame, by simp⟩
    exact hprecedes.isPairing ih
  | case4 position through hop rest hdiffer =>
    refine ⟨1, hop, ⟨isStrayHop_succ.mpr ⟨rfl, ?_⟩, ?_⟩, rfl⟩
    · intro through' hthrough
      obtain rfl := Join.hasMany.inj (Option.some.inj hthrough)
      exact hdiffer
    · intro j hj other
      obtain rfl : j = 0 := Nat.lt_one_iff.mp hj
      simp [isStrayHop_zero]
  | case5 position lookup rest hnext ih =>
    have hprecedes : (JoinPlan.hasMany lookup).Precedes rest := by
      refine ⟨trivial, ?_⟩
      rintro _ - ⟨hop, tail, rfl⟩
      exact hnext hop tail rfl
    exact hprecedes.isPairing ih
  | case6 position hop rest =>
    exact ⟨0, hop, ⟨isStrayHop_zero.mpr rfl, by simp⟩, rfl⟩

/-! ## Writing plans out again -/

/-- No plan begins with a hop. -/
theorem not_startsWithHop_flatMap (plans : List JoinPlan) :
    ¬ StartsWithHop (plans.flatMap JoinPlan.joins) := by
  rintro ⟨hop, tail, hhop⟩
  cases plans with
  | nil => cases hhop
  | cons plan rest => cases plan <;> cases hhop

/-- The plans of the joins that paired plans stand for are these plans. -/
theorem ofJoins_flatMap_joins {plans : List JoinPlan} (h : ∀ plan ∈ plans, plan.IsPaired)
    (position : Nat) : JoinPlan.ofJoins position (plans.flatMap JoinPlan.joins) = .ok plans := by
  induction plans generalizing position with
  | nil => rfl
  | cons plan rest ih =>
    obtain ⟨hplan, hrest⟩ := List.forall_mem_cons.mp h
    have hprecedes : plan.Precedes (rest.flatMap JoinPlan.joins) :=
      ⟨hplan, fun _ _ => not_startsWithHop_flatMap rest⟩
    rw [List.flatMap_cons, hprecedes.ofJoins_eq, ih hrest, map_ok]

/-! ## One join at a time -/

/-- Take the join at `position` into the plans that were made so far, the last one first. A hop
    takes the place of the plan made last, if that is the one of the join before. -/
def JoinPlan.push (position : Nat) (previous : Option Join) (plans : List JoinPlan) :
    Join → Except JoinFault (List JoinPlan)
  | .belongsTo lookup => .ok (.belongsTo lookup :: plans)
  | .hasMany lookup => .ok (.hasMany lookup :: plans)
  | .junctionHop hop =>
    match previous, plans with
    | some (.hasMany through), .hasMany _ :: earlier =>
      if through.attachAs = hop.attachAs then .ok (.manyToMany through hop :: earlier)
      else .error (.strayHop position hop.attachAs)
    | _, _ => .error (.strayHop position hop.attachAs)

/-- Take joins into the plans, the first of them at `position` and behind `previous`. -/
def JoinPlan.pushAll (position : Nat) (previous : Option Join) (plans : List JoinPlan) :
    List Join → Except JoinFault (List JoinPlan)
  | [] => .ok plans
  | join :: rest => do
    let plans ← push position previous plans join
    pushAll (position + 1) (some join) plans rest

/-- The plans of a list of joins, made one join at a time. -/
def JoinPlan.pairOneByOne (joins : List Join) : Except JoinFault (List JoinPlan) :=
  (pushAll 0 none [] joins).map List.reverse

theorem map_reverse_cons_append (plan : JoinPlan) (plans : List JoinPlan)
    (result : Except JoinFault (List JoinPlan)) :
    (result.map (plan :: ·)).map (fun later => later.reverse ++ plans) =
      result.map (fun later => later.reverse ++ plan :: plans) := by
  cases result <;> simp

/-- The plan of a has-many join may still be replaced while it is the one made last; else the plans
    made so far do not matter for those to come. -/
theorem pushAll_eq (joins : List Join) (position : Nat) (plans : List JoinPlan) :
    (∀ previous : Option Join, (∀ through, previous ≠ some (.hasMany through)) →
      JoinPlan.pushAll position previous plans joins =
        (JoinPlan.ofJoins position joins).map (fun later => later.reverse ++ plans)) ∧
    ∀ through, JoinPlan.pushAll (position + 1) (some (.hasMany through)) (.hasMany through :: plans)
        joins =
      (JoinPlan.ofJoins position (.hasMany through :: joins)).map
        (fun later => later.reverse ++ plans) := by
  induction joins generalizing position plans with
  | nil => exact ⟨fun previous hprevious => rfl, fun through => rfl⟩
  | cons join rest ih =>
    refine ⟨fun previous hprevious => ?_, fun through => ?_⟩
    · cases join with
      | belongsTo lookup =>
        rw [JoinPlan.ofJoins, map_reverse_cons_append]
        exact (ih _ _).1 _ (by simp)
      | hasMany lookup => exact (ih _ _).2 lookup
      | junctionHop hop =>
        rcases previous with _ | ⟨lookup | through | lookup⟩
        · rfl
        · rfl
        · exact absurd rfl (hprevious through)
        · rfl
    · cases join with
      | belongsTo lookup =>
        rw [JoinPlan.ofJoins, JoinPlan.ofJoins, map_reverse_cons_append, map_reverse_cons_append]
        · exact (ih _ _).1 _ (by simp)
        · simp
      | hasMany lookup =>
        rw [JoinPlan.ofJoins, map_reverse_cons_append]
        · exact (ih _ _).2 lookup
        · simp
      | junctionHop hop =>
        rw [JoinPlan.pushAll, JoinPlan.push, JoinPlan.ofJoins]
        split
        · rw [ok_bind, map_reverse_cons_append]
          exact (ih _ _).1 _ (by simp)
        · rfl

/-- Making the plans one join at a time comes to the same. -/
theorem pairOneByOne_eq_ofList (joins : List Join) :
    JoinPlan.pairOneByOne joins = JoinPlan.ofList joins := by
  rw [JoinPlan.pairOneByOne, (pushAll_eq joins 0 []).1 none (by simp), JoinPlan.ofList]
  cases JoinPlan.ofJoins 0 joins <;> simp

/-! ## When there are plans -/

theorem IsFirstStrayHop.unique {joins : List Join} {i i' : Nat} {hop hop' : Lookup}
    (h : IsFirstStrayHop joins i hop) (h' : IsFirstStrayHop joins i' hop') :
    i = i' ∧ hop = hop' := by
  obtain rfl : i = i' := by
    rcases Nat.lt_trichotomy i i' with hlt | heq | hlt
    · exact absurd h.1 (h'.2 i hlt hop)
    · exact heq
    · exact absurd h'.1 (h.2 i' hlt hop')
  exact ⟨rfl, Join.junctionHop.inj (Option.some.inj (h.1.1.symm.trans h'.1.1))⟩

variable {joins : List Join}

theorem isPairing_ofList (joins : List Join) : IsPairing 0 joins (JoinPlan.ofList joins) :=
  isPairing_ofJoins 0 joins

theorem JoinPlan.exists_ofList_eq_ok_iff :
    (∃ plans, JoinPlan.ofList joins = .ok plans) ↔ ∀ i hop, ¬ IsStrayHop joins i hop :=
  (isPairing_ofList joins).exists_ok_iff (fun _ h => h.2)
    (fun _ ⟨i, hop, h, _⟩ hnone => hnone i hop h.1)

/-- The fault of a list of joins is its first stray hop. -/
theorem JoinPlan.ofList_eq_error_iff {fault : JoinFault} :
    JoinPlan.ofList joins = .error fault ↔
      ∃ i hop, IsFirstStrayHop joins i hop ∧ fault = .strayHop i hop.attachAs := by
  have hfault : ∀ fault, JoinPlan.ofList joins = .error fault →
      ∃ i hop, IsFirstStrayHop joins i hop ∧ fault = .strayHop i hop.attachAs := by
    intro fault h
    obtain ⟨i, hop, hfirst, rfl⟩ := (isPairing_ofList joins).of_eq_error h
    exact ⟨i, hop, hfirst, by rw [Nat.zero_add]⟩
  refine ⟨hfault fault, ?_⟩
  rintro ⟨i, hop, hfirst, rfl⟩
  cases hresult : JoinPlan.ofList joins with
  | ok plans => exact absurd hfirst.1 (JoinPlan.exists_ofList_eq_ok_iff.mp ⟨plans, hresult⟩ i hop)
  | error fault =>
    obtain ⟨i', hop', hfirst', rfl⟩ := hfault fault hresult
    obtain ⟨rfl, rfl⟩ := hfirst.unique hfirst'
    rfl

/-- Plans are those of the joins that they stand for. -/
theorem JoinPlan.ofList_eq_ok_iff {plans : List JoinPlan} :
    JoinPlan.ofList joins = .ok plans ↔
      plans.flatMap JoinPlan.joins = joins ∧ ∀ plan ∈ plans, plan.IsPaired := by
  constructor
  · intro h
    exact ⟨JoinPlan.flatMap_joins_of_ofJoins h, ((isPairing_ofList joins).of_eq_ok h).1⟩
  · rintro ⟨rfl, hpaired⟩
    exact ofJoins_flatMap_joins hpaired 0

/-! ## Main statement -/

/-- A list of joins has plans if and only if it has no stray hop, else the fault is the first stray
    hop. Plans stand for exactly the joins they were made from, so that the lists of joins without
    stray hops and the lists of paired plans are one for one. It is the same to make the plans one
    join at a time, looking at the join before and at the plan made last. -/
theorem joins_pair_up (joins : List Join) :
    ((∃ plans, JoinPlan.ofList joins = .ok plans) ↔
      ∀ i hop, joins[i]? = some (.junctionHop hop) → ∃ j through, i = j + 1 ∧
        joins[j]? = some (.hasMany through) ∧ through.attachAs = hop.attachAs) ∧
    (∀ e, (JoinPlan.ofList joins).mapError QueryError.invalidJoinSequence = .error e ↔
      ∃ i hop, IsFirstStrayHop joins i hop ∧
        e = .invalidJoinSequence (.strayHop i hop.attachAs)) ∧
    (∀ plans, JoinPlan.ofList joins = .ok plans ↔
      plans.flatMap JoinPlan.joins = joins ∧ ∀ plan ∈ plans, plan.IsPaired) ∧
    JoinPlan.pairOneByOne joins = JoinPlan.ofList joins := by
  refine ⟨?_, ?_, fun plans => JoinPlan.ofList_eq_ok_iff, pairOneByOne_eq_ofList joins⟩
  · rw [JoinPlan.exists_ofList_eq_ok_iff]
    simp only [IsStrayHop, not_and_not_right]
  · intro e
    simp only [mapError_eq_error, JoinPlan.ofList_eq_error_iff]
    constructor
    · rintro ⟨fault, ⟨i, hop, hfirst, rfl⟩, rfl⟩
      exact ⟨i, hop, hfirst, rfl⟩
    · rintro ⟨i, hop, hfirst, rfl⟩
      exact ⟨_, ⟨i, hop, hfirst, rfl⟩, rfl⟩

/-- A pair that is complete takes no second hop, though the alias is the same. -/
example : JoinPlan.ofList [.hasMany ⟨"tags", "links", some "post", none⟩,
    .junctionHop ⟨"tags", "tags", none, some "tag"⟩,
    .junctionHop ⟨"tags", "tags", none, some "tag"⟩] = .error (.strayHop 2 "tags") := rfl

end DocQuery
