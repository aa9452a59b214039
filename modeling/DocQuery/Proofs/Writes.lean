import DocQuery.Proofs.FailedOperations

set_option autoImplicit false

/-! # What operations write

What an action returns and leaves behind if it succeeds, action by action, and from that all that an
operation may do to the tables of a connection (`Connection.Writes`). What is to hold of the tables
after every operation need only be shown for its cases. -/

namespace DocQuery

open DocQuery.Action

/-! ## Edits of a database -/

namespace Store

variable {store store' : Store} {name : String}

namespace Edit

theorem on_createTable_eq_ok : (createTable name).on store = (.ok (), store') ↔
    ∃ tableName, TableName.ofText name = .ok tableName ∧
      store.hasTable tableName.text = false ∧ store' = store.setRows tableName.text [] := by
  unfold createTable
  simp only [on_liftM_bind_eq_ok, on_get_bind]
  refine exists_congr (fun tableName => and_congr_right (fun _ => ?_))
  cases h : store.hasTable tableName.text with
  | true => simp
  | false => simp [eq_comm]

/-- Ensuring that there is a table either creates it or leaves the database as it is. -/
theorem on_ensureTable_eq_ok {added : Bool}
    (h : (ensureTable name).on store = (.ok added, store')) :
    (added = true ∧ (createTable name).on store = (.ok (), store')) ∨
      (added = false ∧ store' = store) := by
  unfold ensureTable at h
  rw [on_tryCatch] at h
  split at h
  · next a t hcreate =>
    obtain ⟨⟨⟩, hcreated, rfl⟩ := on_bind_pure_eq_ok.mp hcreate
    obtain ⟨hadded, rfl⟩ := Prod.mk.inj h
    exact Or.inl ⟨(Except.ok.inj hadded).symm, hcreated⟩
  · next e t hfail =>
    have hatomic : Atomic (do createTable name; return true : Action Store StoreError Bool) :=
      (atomic_createTable name).bind (fun _ => neverFails_pure true)
    obtain rfl := hatomic _ _ _ hfail
    split at h
    · obtain ⟨hadded, rfl⟩ := Prod.mk.inj h
      exact Or.inr ⟨(Except.ok.inj hadded).symm, rfl⟩
    · cases h

theorem on_dropTable_eq_ok : (dropTable name).on store = (.ok (), store') ↔
    store.hasTable name = true ∧ store' = { store with tables := store.tables.remove name } := by
  unfold dropTable
  rw [on_get_bind]
  cases h : store.hasTable name with
  | true => simp [eq_comm]
  | false => simp

theorem on_writeTables (data : List (String × List Value)) (store : Store) :
    (writeTables data).on store =
      (.ok (), { store with tables := Assoc.insertAll store.tables data }) := by
  induction data generalizing store with
  | nil => rfl
  | cons entry rest ih =>
    rw [writeTables, on_bind, on_modify]
    exact ih _

theorem on_load_eq_ok {data : List (String × List Value)} :
    (load data).on store = (.ok (), store') ↔ store.checkLoad data = .ok () ∧
      store' = { store with tables := Assoc.insertAll store.tables data } := by
  unfold load
  simp only [on_reading_bind_eq_ok, on_writeTables]
  constructor
  · rintro ⟨⟨⟩, hcheck, h⟩
    exact ⟨hcheck, (Prod.mk.inj h).2.symm⟩
  · rintro ⟨hcheck, rfl⟩
    exact ⟨(), hcheck, rfl⟩

end Edit

end Store

namespace Connection

variable {c c' : Connection} {table : String} {d : Descriptor} {docs keys : List Value}

theorem on_editing_eq_ok {edit : Action Store StoreError Unit} :
    (editing edit).on c = (.ok (), c') ↔ c.checkOpen = .ok () ∧
      ∃ store, edit.on c.store = (.ok (), store) ∧ c' = { c with store } := by
  unfold editing
  simp only [on_reading_bind_eq_ok, on_focus]
  constructor
  · rintro ⟨⟨⟩, hopen, h⟩
    obtain ⟨hedit, rfl⟩ := Prod.mk.inj h
    exact ⟨hopen, _, Prod.ext hedit rfl, rfl⟩
  · rintro ⟨hopen, store, hedit, rfl⟩
    exact ⟨(), hopen, by rw [hedit]⟩

/-- An edit of the database as an operation. -/
theorem exists_of_editing {edit : Action Store StoreError Unit} {r : Reply}
    (h : (do (editing edit).mapError .store; return .done : Action Connection TableError Reply).on c
      = (.ok r, c')) :
    ∃ store, edit.on c.store = (.ok (), store) ∧ c' = { c with store } := by
  obtain ⟨⟨⟩, hedit, rfl⟩ := on_bind_pure_eq_ok.mp h
  exact (on_editing_eq_ok.mp (on_mapError_eq_ok.mp hedit)).2

/-! ## Operations on a table -/

theorem rows_eq_ok {rows : List Value} :
    c.rows table = .ok rows ↔ c.store.tables.lookup table = some rows := by
  unfold Connection.rows
  cases c.store.tables.lookup table <;> simp

theorem on_insert_eq_ok {stored : List Value} : (insert table docs).on c = (.ok stored, c') ↔
    ∃ keys rows, prepareAll c.options.primaryKey c.keys docs = .ok (stored, keys) ∧
      c.store.tables.lookup table = some rows ∧
      firstClash? c.options.primaryKey rows stored = none ∧
      c' = { c.withRows table (rows ++ stored) with keys } := by
  unfold insert
  simp only [on_get_bind, on_liftM_bind_eq_ok, rows_eq_ok]
  constructor
  · rintro ⟨⟨stored', keys⟩, hprepared, rows, hrows, h⟩
    cases hclash : firstClash? c.options.primaryKey rows stored' with
    | some key =>
      rw [hclash] at h
      cases h
    | none =>
      rw [hclash] at h
      obtain ⟨hstored, rfl⟩ := Prod.mk.inj h
      obtain rfl := Except.ok.inj hstored
      exact ⟨keys, rows, hprepared, hrows, hclash, rfl⟩
  · rintro ⟨keys, rows, hprepared, hrows, hclash, rfl⟩
    refine ⟨(stored, keys), hprepared, rows, hrows, ?_⟩
    rw [hclash]
    rfl

/-- The keys of the selected documents, where one has them. -/
def keysOf (primaryKey : String) (selected : List Value) : List Value :=
  selected.filterMap (·.field? primaryKey)

variable [PatternLibrary]

theorem selectedKeys_eq_ok : c.selectedKeys table d = .ok keys ↔
    ∃ selected, c.select table d.withoutJoins = .ok selected ∧
      keys = keysOf c.options.primaryKey selected := by
  unfold selectedKeys
  rw [bind_eq_ok]
  simp [keysOf, eq_comm]

theorem on_update_eq_ok {patch : Value} : (update table d patch).on c = (.ok docs, c') ↔
    c.checkHandle = .ok () ∧ ∃ fields selected rows, patch = .object fields ∧
      c.select table d.withoutJoins = .ok selected ∧
      changesKey c.options.primaryKey fields (keysOf c.options.primaryKey selected) = false ∧
      c.store.tables.lookup table = some rows ∧
      (patchAll c.options.primaryKey fields rows (keysOf c.options.primaryKey selected)).1 = docs ∧
      c' = c.withRows table
        (patchAll c.options.primaryKey fields rows (keysOf c.options.primaryKey selected)).2 := by
  unfold update
  simp only [on_reading_bind_eq_ok]
  cases patch with
  | object fields =>
    simp only [on_get_bind, on_liftM_bind_eq_ok, selectedKeys_eq_ok]
    constructor
    · rintro ⟨⟨⟩, hopen, keys, ⟨selected, hselect, rfl⟩, h⟩
      cases hchange : changesKey c.options.primaryKey fields
          (keysOf c.options.primaryKey selected) with
      | true =>
        rw [if_pos hchange, on_throw_bind] at h
        cases h
      | false =>
        rw [if_neg (Bool.not_eq_true _ ▸ hchange), on_liftM_bind_eq_ok] at h
        obtain ⟨rows, hrows, h⟩ := h
        rw [on_set_bind, on_pure] at h
        obtain ⟨hdocs, rfl⟩ := Prod.mk.inj h
        exact ⟨hopen, fields, selected, rows, rfl, hselect, hchange, rows_eq_ok.mp hrows,
          Except.ok.inj hdocs, rfl⟩
    · rintro ⟨hopen, fields', selected, rows, hfields, hselect, hchange, hrows, rfl, rfl⟩
      obtain rfl := Value.object.inj hfields
      refine ⟨(), hopen, _, ⟨selected, hselect, rfl⟩, ?_⟩
      rw [hchange, if_neg Bool.false_ne_true, on_liftM_bind_eq_ok]
      refine ⟨rows, rows_eq_ok.mpr hrows, ?_⟩
      rw [on_set_bind, on_pure]
  | _ => simp

theorem on_destroy_eq_ok : (destroy table d).on c = (.ok keys, c') ↔
    c.checkHandle = .ok () ∧ ∃ selected rows, c.select table d.withoutJoins = .ok selected ∧
      c.store.tables.lookup table = some rows ∧ keys = keysOf c.options.primaryKey selected ∧
      c' = c.withRows table
        (rows.filter (fun row => !hasKeyIn c.options.primaryKey keys row)) := by
  unfold destroy
  simp only [on_reading_bind_eq_ok, on_get_bind, on_liftM_bind_eq_ok, on_set_bind, on_pure,
    rows_eq_ok, selectedKeys_eq_ok, Prod.mk.injEq, Except.ok.injEq]
  constructor
  · rintro ⟨⟨⟩, hopen, keys, ⟨selected, hselect, rfl⟩, rows, hrows, rfl, rfl⟩
    exact ⟨hopen, selected, rows, hselect, hrows, rfl, rfl⟩
  · rintro ⟨hopen, selected, rows, hselect, hrows, rfl, rfl⟩
    exact ⟨(), hopen, _, ⟨selected, hselect, rfl⟩, rows, hrows, rfl, rfl⟩

/-! ## All that an operation may write -/

/-- The connection that an operation may leave, with what it has checked by then. -/
inductive Writes (c : Connection) : Operation → Connection → Prop where
  | nothing (op : Operation) : Writes c op c
  | close : Writes c .close c.close
  | load {data : List (String × List Value)} (hcheck : c.store.checkLoad data = .ok ()) :
    Writes c (.load data)
      { c with store := { c.store with tables := Assoc.insertAll c.store.tables data } }
  | createTable {name : String} {tableName : TableName}
    (hname : TableName.ofText name = .ok tableName)
    (hnew : c.store.hasTable tableName.text = false) :
    Writes c (.createTable name) (c.withRows tableName.text [])
  | dropTable (name : String) :
    Writes c (.dropTable name)
      { c with store := { c.store with tables := c.store.tables.remove name } }
  | insert {op : Operation} {table : String} {docs stored rows : List Value} {keys : KeySupply}
    (hop : op = .createEach table docs ∨ ∃ doc, docs = [doc] ∧ op = .create table doc)
    (hprepared : prepareAll c.options.primaryKey c.keys docs = .ok (stored, keys))
    (hrows : c.store.tables.lookup table = some rows)
    (hfresh : firstClash? c.options.primaryKey rows stored = none) :
    Writes c op { c.withRows table (rows ++ stored) with keys }
  | update {table : String} {d : Descriptor} {fields : Assoc Value} {selected rows : List Value}
    (hselect : c.select table d.withoutJoins = .ok selected)
    (hkeys : changesKey c.options.primaryKey fields (keysOf c.options.primaryKey selected) = false)
    (hrows : c.store.tables.lookup table = some rows) :
    Writes c (.update table d (.object fields)) (c.withRows table
      (patchAll c.options.primaryKey fields rows (keysOf c.options.primaryKey selected)).2)
  | destroy {table : String} {d : Descriptor} {selected rows : List Value}
    (hselect : c.select table d.withoutJoins = .ok selected)
    (hrows : c.store.tables.lookup table = some rows) :
    Writes c (.destroy table d) (c.withRows table (rows.filter
      (fun row => !hasKeyIn c.options.primaryKey (keysOf c.options.primaryKey selected) row)))

theorem Writes.of_insert {op : Operation} {stored : List Value}
    (hop : op = .createEach table docs ∨ ∃ doc, docs = [doc] ∧ op = .create table doc)
    (h : (Connection.insert table docs).on c = (.ok stored, c')) : Writes c op c' := by
  obtain ⟨keys, rows, hprepared, hrows, hfresh, rfl⟩ := on_insert_eq_ok.mp h
  exact .insert hop hprepared hrows hfresh

/-- An operation that looks at the connection and replies. -/
theorem Writes.of_reading {op : Operation} {α : Type} {look : Connection → Except TableError α}
    (reply : α → Reply) {r : Reply}
    (h : (do return reply (← Action.reading look) : Action Connection TableError Reply).on c =
      (.ok r, c')) : Writes c op c' := by
  obtain ⟨a, hlook, rfl⟩ := on_bind_pure_eq_ok.mp h
  rw [on_reading] at hlook
  obtain ⟨-, rfl⟩ := Prod.mk.inj hlook
  exact .nothing op

-- one case for each operation: what its action has done is read off the lemmas above
theorem Writes.of_action {op : Operation} {r : Reply} (h : (action op).on c = (.ok r, c')) :
    Writes c op c' := by
  cases op with
  | load data =>
    obtain ⟨store, hedit, rfl⟩ := exists_of_editing h
    obtain ⟨hcheck, rfl⟩ := Store.Edit.on_load_eq_ok.mp hedit
    exact .load hcheck
  | createTable name =>
    obtain ⟨store, hedit, rfl⟩ := exists_of_editing h
    obtain ⟨tableName, hname, hnew, rfl⟩ := Store.Edit.on_createTable_eq_ok.mp hedit
    exact .createTable hname hnew
  | dropTable name =>
    obtain ⟨store, hedit, rfl⟩ := exists_of_editing h
    obtain ⟨-, rfl⟩ := Store.Edit.on_dropTable_eq_ok.mp hedit
    exact .dropTable name
  | table name => exact .of_reading (fun _ => .done) h
  | close =>
    obtain ⟨-, rfl⟩ := Prod.mk.inj h
    exact .close
  | create table doc =>
    obtain ⟨stored, hcreate, -⟩ := on_bind_pure_eq_ok.mp h
    unfold create at hcreate
    obtain ⟨-, -, hcreate⟩ := on_reading_bind_eq_ok.mp hcreate
    obtain ⟨docs, hinsert, -⟩ := on_bind_pure_eq_ok.mp hcreate
    exact .of_insert (Or.inr ⟨doc, rfl, rfl⟩) hinsert
  | createEach table docs =>
    obtain ⟨stored, hcreate, -⟩ := on_bind_pure_eq_ok.mp h
    unfold createEach at hcreate
    split at hcreate
    · obtain ⟨-, rfl⟩ := Prod.mk.inj hcreate
      exact .nothing _
    · obtain ⟨-, -, hinsert⟩ := on_reading_bind_eq_ok.mp hcreate
      exact .of_insert (Or.inl rfl) hinsert
  | find table d => exact .of_reading .documents h
  | join table d => exact .of_reading .documents h
  | update table d patch =>
    obtain ⟨docs, hupdate, -⟩ := on_bind_pure_eq_ok.mp h
    obtain ⟨-, fields, selected, rows, rfl, hselect, hkeys, hrows, -, rfl⟩ :=
      on_update_eq_ok.mp hupdate
    exact .update hselect hkeys hrows
  | destroy table d =>
    obtain ⟨keys, hdestroy, -⟩ := on_bind_pure_eq_ok.mp h
    obtain ⟨-, selected, rows, hselect, hrows, rfl, rfl⟩ := on_destroy_eq_ok.mp hdestroy
    exact .destroy hselect hrows
  | count table d => exact .of_reading .count h

/-- Whether it succeeds or fails, an operation leaves one of these connections. -/
theorem writes_perform (c : Connection) (op : Operation) : Writes c op (c.perform op).2 := by
  cases h : c.perform op with
  | mk reply c' =>
    cases reply with
    | ok r => exact .of_action h
    | error e =>
      obtain rfl := atomic_action op c e c' h
      exact .nothing op

theorem Writes.options_eq {op : Operation} (h : Writes c op c') : c'.options = c.options := by
  cases h <;> rfl

end Connection

end DocQuery
