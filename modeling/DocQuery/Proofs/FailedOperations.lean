import DocQuery.Proofs.Actions
import DocQuery.Store.Operation

set_option autoImplicit false

/-! # Failed operations leave no trace

Every edit of a database and every operation on a connection makes all its checks before it first
writes, so that one that fails leaves everything as it was (`failed_changes_nothing`): a batch of
documents of which the last one clashes, a load of which the last table is bad, an update that is
refused because it would change a key. -/

namespace DocQuery

open DocQuery.Action

/-! ## Edits of a database -/

namespace Store.Edit

theorem atomic_createTable (name : String) : Atomic (createTable name) := by
  refine (writesNothing_liftM _).bind (fun tableName => ?_)
  refine writesNothing_get.bind (fun store => ?_)
  split
  · exact atomic_throw_bind _ _
  · exact (neverFails_set _).atomic

theorem atomic_ensureTable (name : String) : Atomic (ensureTable name) := by
  refine Atomic.tryCatch ((atomic_createTable name).bind (fun _ => neverFails_pure true)) ?_
  intro e
  split
  · exact (neverFails_pure false).atomic
  · exact (writesNothing_throw _).atomic

theorem atomic_dropTable (name : String) : Atomic (dropTable name) := by
  refine writesNothing_get.bind (fun store => ?_)
  split
  · exact (neverFails_set _).atomic
  · exact (writesNothing_throw _).atomic

theorem neverFails_writeTables (data : List (String × List Value)) :
    NeverFails (writeTables data) := by
  induction data with
  | nil => exact neverFails_pure ()
  | cons entry rest ih => exact (neverFails_modify _).bind (fun _ => ih)

theorem atomic_load (data : List (String × List Value)) : Atomic (load data) :=
  (writesNothing_reading _).bind (fun _ => (neverFails_writeTables data).atomic)

end Store.Edit

/-! ## Operations on a connection -/

namespace Connection

theorem atomic_editing {edit : Action Store StoreError Unit} (h : Atomic edit) :
    Atomic (editing edit) :=
  (writesNothing_reading _).bind (fun _ => h.focus (fun _ => rfl))

theorem atomic_insert (table : String) (docs : List Value) : Atomic (insert table docs) := by
  refine writesNothing_get.bind (fun c => ?_)
  refine (writesNothing_liftM _).bind (fun (stored, keys) => ?_)
  refine (writesNothing_liftM _).bind (fun rows => ?_)
  split
  · exact (writesNothing_throw _).atomic
  · exact ((neverFails_set _).bind (fun _ => neverFails_pure stored)).atomic

theorem atomic_create (table : String) (doc : Value) : Atomic (create table doc) := by
  refine (writesNothing_reading _).bind (fun _ => ?_)
  exact (atomic_insert table [doc]).bind (fun stored => neverFails_pure _)

theorem atomic_createEach (table : String) (docs : List Value) :
    Atomic (createEach table docs) := by
  unfold createEach
  split
  · exact (neverFails_pure []).atomic
  · exact (writesNothing_reading _).bind (fun _ => atomic_insert table docs)

section

variable [PatternLibrary]

theorem atomic_update (table : String) (d : Descriptor) (patch : Value) :
    Atomic (update table d patch) := by
  refine (writesNothing_reading _).bind (fun _ => ?_)
  split
  · next fields =>
    refine writesNothing_get.bind (fun c => ?_)
    refine (writesNothing_liftM _).bind (fun keys => ?_)
    split
    · exact atomic_throw_bind _ _
    · refine (writesNothing_liftM _).bind (fun rows => ?_)
      exact ((neverFails_set _).bind (fun _ => neverFails_pure _)).atomic
  · exact (writesNothing_throw _).atomic

theorem atomic_destroy (table : String) (d : Descriptor) : Atomic (destroy table d) := by
  refine (writesNothing_reading _).bind (fun _ => ?_)
  refine writesNothing_get.bind (fun c => ?_)
  refine (writesNothing_liftM _).bind (fun keys => ?_)
  refine (writesNothing_liftM _).bind (fun rows => ?_)
  exact ((neverFails_set _).bind (fun _ => neverFails_pure keys)).atomic

end

/-- An operation that looks at the connection and replies. -/
theorem atomic_reading_reply {α : Type} (look : Connection → Except TableError α)
    (reply : α → Reply) :
    Atomic (do return reply (← Action.reading look) : Action Connection TableError Reply) :=
  (writesNothing_reading look).bind (fun _ => (neverFails_pure _).atomic)

theorem atomic_action [PatternLibrary] (op : Operation) : Atomic (action op) := by
  cases op with
  | load data =>
    exact ((atomic_editing (Store.Edit.atomic_load data)).mapError _).bind
      (fun _ => neverFails_pure _)
  | createTable name =>
    exact ((atomic_editing (Store.Edit.atomic_createTable name)).mapError _).bind
      (fun _ => neverFails_pure _)
  | dropTable name =>
    exact ((atomic_editing (Store.Edit.atomic_dropTable name)).mapError _).bind
      (fun _ => neverFails_pure _)
  | table name => exact atomic_reading_reply _ (fun _ => .done)
  | close => exact ((neverFails_modify _).bind (fun _ => neverFails_pure _)).atomic
  | create table doc => exact (atomic_create table doc).bind (fun _ => neverFails_pure _)
  | createEach table docs => exact (atomic_createEach table docs).bind (fun _ => neverFails_pure _)
  | find table d => exact atomic_reading_reply _ .documents
  | join table d => exact atomic_reading_reply _ .documents
  | update table d patch => exact (atomic_update table d patch).bind (fun _ => neverFails_pure _)
  | destroy table d => exact (atomic_destroy table d).bind (fun _ => neverFails_pure _)
  | count table d => exact atomic_reading_reply _ .count

end Connection

/-! ## Main statement -/

/-- An operation on a connection that fails, for whatever reason, leaves the connection as it was,
    with every table, every row and every field in its place; and so does an edit of a database. -/
theorem failed_changes_nothing [PatternLibrary] :
    (∀ (c c' : Connection) (op : Operation) (e : TableError),
      c.perform op = (.error e, c') → c' = c) ∧
    (∀ (store store' : Store) (name : String) (e : StoreError),
      (Store.Edit.createTable name).on store = (.error e, store') → store' = store) ∧
    (∀ (store store' : Store) (name : String) (e : StoreError),
      (Store.Edit.ensureTable name).on store = (.error e, store') → store' = store) ∧
    (∀ (store store' : Store) (name : String) (e : StoreError),
      (Store.Edit.dropTable name).on store = (.error e, store') → store' = store) ∧
    (∀ (store store' : Store) (data : List (String × List Value)) (e : StoreError),
      (Store.Edit.load data).on store = (.error e, store') → store' = store) := by
  refine ⟨?_, ?_, ?_, ?_, ?_⟩
  · exact fun c c' op e => Connection.atomic_action op c e c'
  · exact fun store store' name e => Store.Edit.atomic_createTable name store e store'
  · exact fun store store' name e => Store.Edit.atomic_ensureTable name store e store'
  · exact fun store store' name e => Store.Edit.atomic_dropTable name store e store'
  · exact fun store store' data e => Store.Edit.atomic_load data store e store'

/-- The last document of a batch clashes with the first one; the last table of a load has a row that
    is no document. -/
theorem failed_changes_nothing_last_of_batch :
    let store : Store := ⟨⟨"test", by decide, by decide⟩, [("t", [])]⟩
    let c : Connection := ⟨"main", {}, store, ⟨fun _ => "", 0⟩, false⟩
    let document (key : String) : Value := .object [("id", .string key)]
    let batch : Operation := .createEach "t" [document "a", document "b", document "a"]
    let data : List (String × List Value) :=
      [("t", [document "a"]), ("u", [document "a", .null])]
    (∃ c', c.perform batch =
        (.error (.store (.duplicateKey "id" (.string "a") "t")), c') ∧ c' = c) ∧
      ∃ store', (Store.Edit.load data).on store =
        (.error (.validation (.loadedNonObject 1 "test" "u" .null)), store') ∧ store' = store := by
  intro store c document batch data
  have hbatch : c.perform batch =
      (.error (.store (.duplicateKey "id" (.string "a") "t")), c) := rfl
  have hload : (Store.Edit.load data).on store =
      (.error (.validation (.loadedNonObject 1 "test" "u" .null)), store) := rfl
  exact ⟨⟨c, hbatch, failed_changes_nothing.1 _ _ _ _ hbatch⟩,
    ⟨store, hload, failed_changes_nothing.2.2.2.2 _ _ _ _ hload⟩⟩

end DocQuery
