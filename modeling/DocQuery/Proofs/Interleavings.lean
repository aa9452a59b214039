import DocQuery.Proofs.OneTable
import DocQuery.Proofs.Writes

set_option autoImplicit false

/-! # Operations on different tables

Operations on different tables do not see each other: each has the reply that it has where only the
operations on its table are carried out, in their order (`filter_trace`). They also commute, so that
what a sequence leaves depends on the order of the operations on each table and not on how these are
interleaved (`performAll_of_interleaves`). -/

namespace DocQuery

/-! ## Interleavings -/

/-- The third sequence is made up of the other two, each in its order. -/
inductive Interleaves {α : Type} : List α → List α → List α → Prop where
  | nil : Interleaves [] [] []
  | left {first second whole : List α} (a : α) (h : Interleaves first second whole) :
    Interleaves (a :: first) second (a :: whole)
  | right {first second whole : List α} (a : α) (h : Interleaves first second whole) :
    Interleaves first (a :: second) (a :: whole)

namespace Interleaves

variable {α : Type} {first second whole : List α}

theorem symm (h : Interleaves first second whole) : Interleaves second first whole := by
  induction h with
  | nil => exact .nil
  | left a _ ih => exact .right a ih
  | right a _ ih => exact .left a ih

theorem forall_mem {p : α → Prop} (h : Interleaves first second whole)
    (hfirst : ∀ a ∈ first, p a) (hsecond : ∀ a ∈ second, p a) : ∀ a ∈ whole, p a := by
  induction h with
  | nil => exact hfirst
  | left a _ ih =>
    rw [List.forall_mem_cons] at hfirst ⊢
    exact ⟨hfirst.1, ih hfirst.2 hsecond⟩
  | right a _ ih =>
    rw [List.forall_mem_cons] at hsecond ⊢
    exact ⟨hsecond.1, ih hfirst hsecond.2⟩

/-- What tells the two sequences apart picks the first out of the whole. -/
theorem filter_eq {p : α → Bool} (h : Interleaves first second whole)
    (hfirst : ∀ a ∈ first, p a = true) (hsecond : ∀ a ∈ second, p a = false) :
    whole.filter p = first := by
  induction h with
  | nil => rfl
  | left a _ ih =>
    rw [List.forall_mem_cons] at hfirst
    rw [List.filter_cons_of_pos hfirst.1, ih hfirst.2 hsecond]
  | right a _ ih =>
    rw [List.forall_mem_cons] at hsecond
    rw [List.filter_cons_of_neg (Bool.eq_false_iff.mp hsecond.1), ih hfirst hsecond.2]

end Interleaves

namespace Connection

section

variable [PatternLibrary]

/-- The operations, each with its reply. -/
def trace (c : Connection) (ops : List Operation) :
    List (Operation × Except TableError Reply) :=
  ops.zip (c.performAll ops).1

theorem trace_cons (c : Connection) (op : Operation) (rest : List Operation) :
    c.trace (op :: rest) = (op, (c.perform op).1) :: (c.perform op).2.trace rest := rfl

theorem options_perform (c : Connection) (op : Operation) :
    (c.perform op).2.options = c.options :=
  (writes_perform c op).options_eq

end

/-! ## Operations on other tables -/

variable {table other : String} {c : Connection} {op op' : Operation}

/-- What is done through one table cannot be seen through another. -/
theorem looksAlike_perform [PatternLibrary] (hop : op.IsOn c.options.primaryKey other)
    (hne : other ≠ table) : LooksAlike table c (c.perform op).2 := by
  obtain ⟨-, written, -, hperform, -⟩ := (LooksAlike.refl other c).perform hop
  rw [hperform]
  exact LooksAlike.afterWrite_of_ne hne c written

/-- Writes into different tables that are there commute. -/
theorem afterWrite_comm {written written' : Option (List Value)} (hne : table ≠ other)
    (htable : written.isSome = true → table ∈ c.store.tables.keys) :
    (c.afterWrite table written).afterWrite other written' =
      (c.afterWrite other written').afterWrite table written := by
  cases written with
  | none => rfl
  | some rows =>
    cases written' with
    | none => rfl
    | some rows' =>
      have hcomm := Assoc.insert_comm_of_mem (v := rows) (w := rows') (htable rfl) hne.symm
      simp only [afterWrite, Option.elim_some, withRows, Store.setRows, hcomm]

/-- Operations on different tables commute. -/
theorem perform_comm [PatternLibrary] (hne : table ≠ other)
    (hop : op.IsOn c.options.primaryKey table) (hop' : op'.IsOn c.options.primaryKey other) :
    ((c.perform op).2.perform op').2 = ((c.perform op').2.perform op).2 := by
  obtain ⟨-, written, hthere, hon, hafter⟩ := (looksAlike_perform hop' hne.symm).perform hop
  obtain ⟨-, written', -, hon', hafter'⟩ := (looksAlike_perform hop hne).perform hop'
  rw [hafter, hafter', hon, hon', afterWrite_comm hne hthere]

/-! ## Sequences -/

variable [PatternLibrary]

/-- Whatever is done through other tables, the operations on one table have the replies that they
    have alone, also on a connection that only looks alike through it. -/
theorem filter_trace {c c' : Connection} (h : LooksAlike table c c') {ops : List Operation}
    (hops : ∀ op ∈ ops, ∃ name, op.IsOn c.options.primaryKey name) :
    (c.trace ops).filter (·.1.table? = some table) =
      c'.trace (ops.filter (·.table? = some table)) := by
  induction ops generalizing c c' with
  | nil => rfl
  | cons op rest ih =>
    rw [List.forall_mem_cons] at hops
    obtain ⟨⟨name, hop⟩, hrest⟩ := hops
    rw [← options_perform c op] at hrest
    rw [trace_cons]
    by_cases hname : name = table
    · subst hname
      obtain ⟨hreply, written, -, hon, hon'⟩ := h.perform hop
      have hnext : LooksAlike name (c.perform op).2 (c'.perform op).2 := by
        rw [hon, hon']
        exact h.afterWrite written
      rw [List.filter_cons_of_pos (by simpa using hop.table?_eq),
        List.filter_cons_of_pos (by simpa using hop.table?_eq), trace_cons, hreply, ih hnext hrest]
    · have hnext : LooksAlike table (c.perform op).2 c' :=
        (looksAlike_perform hop hname).symm.trans h
      rw [List.filter_cons_of_neg (by simpa [hop.table?_eq] using hname),
        List.filter_cons_of_neg (by simpa [hop.table?_eq] using hname), ih hnext hrest]

/-- An operation may as well be carried out before operations on another table. -/
theorem performAll_append_cons (hne : table ≠ other) {ops : List Operation}
    (hops : ∀ op ∈ ops, op.IsOn c.options.primaryKey table)
    (hop' : op'.IsOn c.options.primaryKey other) (rest : List Operation) :
    (c.performAll (ops ++ op' :: rest)).2 = ((c.perform op').2.performAll (ops ++ rest)).2 := by
  induction ops generalizing c with
  | nil => rfl
  | cons op later ih =>
    rw [List.forall_mem_cons] at hops
    obtain ⟨hop, hlater⟩ := hops
    have hcomm := perform_comm hne hop hop'
    rw [← options_perform c op] at hlater hop'
    calc (c.performAll (op :: later ++ op' :: rest)).2
        = (((c.perform op).2.perform op').2.performAll (later ++ rest)).2 := ih hlater hop'
      _ = (((c.perform op').2.perform op).2.performAll (later ++ rest)).2 := by rw [hcomm]

theorem performAll_of_interleaves (hne : table ≠ other) {left right ops : List Operation}
    (h : Interleaves left right ops) (hleft : ∀ op ∈ left, op.IsOn c.options.primaryKey table)
    (hright : ∀ op ∈ right, op.IsOn c.options.primaryKey other) :
    (c.performAll ops).2 = (c.performAll (left ++ right)).2 := by
  induction h generalizing c with
  | nil => rfl
  | left op _ ih =>
    rw [List.forall_mem_cons, ← options_perform c op] at hleft
    rw [← options_perform c op] at hright
    exact ih hleft.2 hright
  | right op _ ih =>
    rw [List.forall_mem_cons] at hright
    rw [performAll_append_cons hne hleft hright.1]
    rw [← options_perform c op] at hleft hright
    exact ih hleft hright.2

end Connection

/-! ## Main statement -/

/-- Two sequences of operations, each done through a table of its own. However they are interleaved,
    every operation has the reply that it has where its sequence is carried out alone, and the
    connection with its tables is left as if one sequence had come after the other. -/
theorem tables_are_independent [PatternLibrary] {c : Connection} {table other : String}
    (hne : table ≠ other) {left right ops : List Operation} (hops : Interleaves left right ops)
    (hleft : ∀ op ∈ left, op.IsOn c.options.primaryKey table)
    (hright : ∀ op ∈ right, op.IsOn c.options.primaryKey other) :
    (c.trace ops).filter (·.1.table? = some table) = c.trace left ∧
    (c.trace ops).filter (·.1.table? = some other) = c.trace right ∧
    (c.performAll ops).2 = (c.performAll (left ++ right)).2 := by
  have hnames := hops.forall_mem (p := fun op => ∃ name, op.IsOn c.options.primaryKey name)
    (fun op hop => ⟨table, hleft op hop⟩) (fun op hop => ⟨other, hright op hop⟩)
  have htable : ops.filter (·.table? = some table) = left := by
    refine hops.filter_eq (fun op hop => ?_) (fun op hop => ?_)
    · simp [(hleft op hop).table?_eq]
    · simp [(hright op hop).table?_eq, hne.symm]
  have hother : ops.filter (·.table? = some other) = right := by
    refine hops.symm.filter_eq (fun op hop => ?_) (fun op hop => ?_)
    · simp [(hright op hop).table?_eq]
    · simp [(hleft op hop).table?_eq, hne]
  refine ⟨?_, ?_, Connection.performAll_of_interleaves hne hops hleft hright⟩
  · rw [Connection.filter_trace (.refl table c) hnames, htable]
  · rw [Connection.filter_trace (.refl other c) hnames, hother]

/-- A document is created, and created once more in vain, while posts are changed and found. -/
theorem tables_are_independent_failed_creation :
    let ann : Value := .object [("id", .string "ann")]
    let post : Value := .object [("id", .string "1"), ("by", .string "ann")]
    let patch : Value := .object [("by", .null)]
    let c : Connection := ⟨"main", {}, ⟨⟨"test", by decide, by decide⟩,
      [("people", []), ("posts", [post])]⟩, ⟨fun _ => "", 0⟩, false⟩
    let left : List Operation := [.create "people" ann, .create "people" ann]
    let right : List Operation := [.update "posts" {} patch, .find "posts" {}]
    let ops : List Operation := [.create "people" ann, .update "posts" {} patch,
      .create "people" ann, .find "posts" {}]
    "people" ≠ "posts" ∧ Interleaves left right ops ∧
      (∀ op ∈ left, op.IsOn c.options.primaryKey "people") ∧
      (∀ op ∈ right, op.IsOn c.options.primaryKey "posts") ∧
      (c.trace ops).filter (·.1.table? = some "people") = [
        (.create "people" ann, .ok (.document ann)),
        (.create "people" ann, .error (.store (.duplicateKey "id" (.string "ann") "people")))] ∧
      (c.performAll ops).2 = (c.performAll (left ++ right)).2 := by
  intro ann post patch c left right ops
  have hne : "people" ≠ "posts" := by decide
  have hops : Interleaves left right ops := .left _ (.right _ (.left _ (.right _ .nil)))
  have hann : ann.CarriesKey c.options.primaryKey := by
    intro fields hfields
    obtain rfl := Value.object.inj hfields
    rfl
  have hleft : ∀ op ∈ left, op.IsOn c.options.primaryKey "people" := by
    simp only [left, List.forall_mem_cons]
    exact ⟨.create hann, .create hann, by simp⟩
  have hright : ∀ op ∈ right, op.IsOn c.options.primaryKey "posts" := by
    simp only [right, List.forall_mem_cons]
    exact ⟨.update _ _, .find (.inl rfl), by simp⟩
  obtain ⟨htrace, -, hafter⟩ := tables_are_independent hne hops hleft hright
  exact ⟨hne, hops, hleft, hright, htrace, hafter⟩

end DocQuery
