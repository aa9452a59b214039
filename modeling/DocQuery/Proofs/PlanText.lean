import DocQuery.Proofs.ExprText

set_option autoImplicit false

/-! # The text of a plan determines the plan

A plan is a table with steps on it, and its text is the text of the table with one call for each
step. A step shows where it ends, as its arguments do (`Plan.Step.selfDelimited_text`). So the table
and the steps can be read off the text one after the other, and two plans of one text are the same
plan (`Plan.chain_inj`). -/

namespace DocQuery

/-! ## Arguments of the steps -/

theorem selfDelimited_countText (count : UInt64) :
    SelfDelimited (fun count => (countText count ++ ")").toList) count := by
  intro count' r s h
  simp only [countText, String.toList_append, List.append_assoc,
    Nat.toString_eq_ofList_toDigits, String.toList_ofList] at h
  obtain ⟨hdigits, hend⟩ := run_cancel isDigit_of_mem_toDigits isDigit_of_mem_toDigits
    (by simp) (by simp) h
  have hsame := congrArg natOfDigits hdigits
  rw [natOfDigits_toDigits, natOfDigits_toDigits] at hsame
  exact ⟨UInt64.toNat_inj.mp hsame, List.append_cancel_left hend⟩

theorem selfDelimited_orderKey (key : OrderKey) :
    SelfDelimited (fun key : OrderKey => key.text.toList) key := by
  intro key' r s h
  obtain ⟨field, direction⟩ := key
  obtain ⟨field', direction'⟩ := key'
  have hdirection : direction = direction' := by
    cases direction <;> cases direction' <;> simp_all [OrderKey.text, Direction.text]
  subst hdirection
  simp only [OrderKey.text, String.toList_append, List.append_assoc,
    List.append_cancel_left_eq] at h
  obtain ⟨rfl, hend⟩ := selfDelimited_quoted field field' _ _ h
  exact ⟨rfl, List.append_cancel_left hend⟩

theorem delimited_mergeField (field : MergeField) :
    Delimited (fun field : MergeField => field.text.toList) EndsItem field := by
  intro field' r s hr hs h
  obtain ⟨name, value⟩ := field
  obtain ⟨name', value'⟩ := field'
  simp only [MergeField.text, String.toList_append, List.append_assoc] at h
  obtain ⟨hname, h⟩ := selfDelimited_quoted name name' _ _ h
  obtain ⟨hvalue, hend⟩ := value.hasDelimitedText value' r s hr hs (List.append_cancel_left h)
  exact ⟨by rw [hname, hvalue], hend⟩

/-! ## Steps -/

namespace Plan

/-- A step of a plan. -/
inductive Step where
  | get (index : String) (key : Value)
  | filter (predicate : Expr)
  | orderBy (keys : List OrderKey)
  | skip (count : UInt64)
  | limit (count : UInt64)
  | merge (fields : List MergeField)

/-- The plan with one more step. -/
def step (p : Plan) : Step → Plan
  | .get index key => .get p index key
  | .filter predicate => .filter p predicate
  | .orderBy keys => .orderBy p keys
  | .skip count => .skip p count
  | .limit count => .limit p count
  | .merge fields => .merge p fields

namespace Step

/-- The name of the call that a step is written as. -/
def name : Step → String
  | .get _ _ => "getAll"
  | .filter _ => "filter"
  | .orderBy _ => "orderBy"
  | .skip _ => "skip"
  | .limit _ => "limit"
  | .merge _ => "merge"

/-- The arguments of the call, with the closing parenthesis. -/
def arguments : Step → String
  | .get index key => key.compact ++ (", \x7bindex: " ++ (quoted index ++ "\x7d)"))
  | .filter predicate => predicate.text ++ ")"
  | .orderBy keys => commaList (keys.map OrderKey.text) ++ ")"
  | .skip count => countText count ++ ")"
  | .limit count => countText count ++ ")"
  | .merge fields => "\x7b" ++ (commaList (fields.map MergeField.text) ++ "\x7d" ++ ")")

/-- The step as it is written. -/
def text (s : Step) : String :=
  callText s.name s.arguments

theorem isAlpha_name (s : Step) : s.name.toList.all Char.isAlpha = true := by
  cases s <;> simp [name]

/-- The text of a step shows which step it is and where it ends. -/
theorem selfDelimited_text (s : Step) : SelfDelimited (fun s : Step => s.text.toList) s := by
  refine selfDelimited_callText isAlpha_name (fun s' r t hname h => ?_)
  cases s with
  | get index key =>
    cases s' with
    | get index' key' =>
      simp only [arguments, String.toList_append, List.append_assoc] at h
      obtain ⟨hkey, h⟩ := key.delimited_compact key' _ _ (Or.inl (by simp))
        (Or.inl (by simp)) h
      obtain ⟨hindex, hend⟩ := selfDelimited_quoted index index' _ _ (List.append_cancel_left h)
      exact ⟨by rw [hkey, hindex], List.append_cancel_left hend⟩
    | _ => simp [name] at hname
  | filter predicate =>
    cases s' with
    | filter predicate' =>
      simp only [arguments, String.toList_append, List.append_assoc] at h
      obtain ⟨rfl, hend⟩ := predicate.hasDelimitedText predicate' _ _ (by simp)
        (by simp) h
      exact ⟨rfl, List.append_cancel_left hend⟩
    | _ => simp [name] at hname
  | orderBy keys =>
    cases s' with
    | orderBy keys' =>
      have hkeys : SelfDelimited (listed [' '] ')' (fun key : OrderKey => key.text.toList)) keys :=
        .listed (fun key _ => (selfDelimited_orderKey key).delimited (fun _ => True))
          (fun _ => trivial) (fun _ => trivial) (by decide) (by simp [OrderKey.text])
      rw [← funext (fun keys => toList_commaList OrderKey.text keys ')')] at hkeys
      obtain ⟨rfl, hend⟩ := hkeys keys' r t (by simpa [arguments] using h)
      exact ⟨rfl, hend⟩
    | _ => simp [name] at hname
  | skip count =>
    cases s' with
    | skip count' =>
      obtain ⟨rfl, hend⟩ := selfDelimited_countText count count' r t h
      exact ⟨rfl, hend⟩
    | _ => simp [name] at hname
  | limit count =>
    cases s' with
    | limit count' =>
      obtain ⟨rfl, hend⟩ := selfDelimited_countText count count' r t h
      exact ⟨rfl, hend⟩
    | _ => simp [name] at hname
  | merge fields =>
    cases s' with
    | merge fields' =>
      have hfields : SelfDelimited
          (listed [' '] '\x7d' (fun field : MergeField => field.text.toList)) fields :=
        .listed (fun field _ => delimited_mergeField field) (by simp)
          (by simp) (by decide) (by simp [MergeField.text, quoted])
      rw [← funext (fun fields => toList_commaList MergeField.text fields '\x7d')] at hfields
      obtain ⟨rfl, hend⟩ := hfields fields' (')' :: r) (')' :: t) (by simpa [arguments] using h)
      exact ⟨rfl, (List.cons.inj hend).2⟩
    | _ => simp [name] at hname

end Step

/-! ## Plans -/

/-- The steps of a plan, from the first one. -/
def steps : Plan → List Step
  | .table _ => []
  | .get input index key => input.steps ++ [.get index key]
  | .filter input predicate => input.steps ++ [.filter predicate]
  | .orderBy input keys => input.steps ++ [.orderBy keys]
  | .skip input count => input.steps ++ [.skip count]
  | .limit input count => input.steps ++ [.limit count]
  | .merge input fields => input.steps ++ [.merge fields]

/-- Every plan is a table with steps on it. -/
theorem step_induction {motive : Plan → Prop} (htable : ∀ name, motive (.table name))
    (hstep : ∀ p s, motive p → motive (p.step s)) (p : Plan) : motive p := by
  induction p with
  | table name => exact htable name
  | get input index key ih => exact hstep input (.get index key) ih
  | filter input predicate ih => exact hstep input (.filter predicate) ih
  | orderBy input keys ih => exact hstep input (.orderBy keys) ih
  | skip input count ih => exact hstep input (.skip count) ih
  | limit input count ih => exact hstep input (.limit count) ih
  | merge input fields ih => exact hstep input (.merge fields) ih

theorem tableName_step (p : Plan) (s : Step) : (p.step s).tableName = p.tableName := by
  cases s <;> rfl

theorem steps_step (p : Plan) (s : Step) : (p.step s).steps = p.steps ++ [s] := by
  cases s <;> rfl

theorem chain_step (p : Plan) (s : Step) : (p.step s).chain = p.chain ++ s.text := by
  cases s <;>
    simp [step, chain, Step.text, callText, Step.name, Step.arguments, ← String.toList_inj]

theorem foldl_steps (p : Plan) : p.steps.foldl step (.table p.tableName) = p := by
  induction p using step_induction with
  | htable name => rfl
  | hstep p s ih =>
    rw [steps_step, tableName_step, List.foldl_append, ih, List.foldl_cons, List.foldl_nil]

theorem toList_chain (p : Plan) : p.chain.toList = "r.table(".toList ++
    ((quoted p.tableName).toList ++ ')' :: p.steps.flatMap (fun s => s.text.toList)) := by
  induction p using step_induction with
  | htable name => simp [chain, tableName, steps]
  | hstep p s ih =>
    rw [chain_step, steps_step, tableName_step, String.toList_append, ih, List.flatMap_append,
      List.flatMap_singleton]
    simp

/-- Two plans are written alike only if they are the same plan. -/
theorem chain_inj {p q : Plan} : p.chain = q.chain ↔ p = q := by
  constructor
  · intro h
    have hchars := congrArg String.toList h
    rw [toList_chain, toList_chain] at hchars
    obtain ⟨htable, hsteps⟩ := selfDelimited_quoted _ _ _ _ (List.append_cancel_left hchars)
    have hdelimited : ∀ s ∈ p.steps, Delimited (fun s : Step => s.text.toList) (fun _ => True) s :=
      fun s _ => s.selfDelimited_text.delimited _
    have hnone : ∀ (s : Step) (t : List Char), s.text.toList ++ t ≠ [] := by
      simp [Step.text, callText]
    obtain ⟨hsame, -⟩ := flatMap_cancel (r := []) (s := []) hdelimited (fun _ => trivial)
      (fun _ => trivial) hnone hnone (by simpa using (List.cons.inj hsteps).2)
    rw [← p.foldl_steps, ← q.foldl_steps, htable, hsame]
  · rintro rfl
    rfl

end Plan

end DocQuery
