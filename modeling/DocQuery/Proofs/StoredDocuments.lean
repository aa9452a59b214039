import DocQuery.Proofs.Patching
import DocQuery.Proofs.Writes

set_option autoImplicit false

/-! # Only documents are stored

Whatever is done to a connection after it was opened (`Connection.Reachable`), every row of every
table is an object without a name twice at any depth. What an operation writes it has read from its
arguments, which are values of that kind, and it has checked that they are objects. -/

namespace DocQuery

/-- The values that an operation is given have distinct names. -/
def Operation.HasDistinctNames : Operation → Prop
  | .load data => ∀ entry ∈ data, ∀ row ∈ entry.2, row.hasDistinctNames = true
  | .create _ doc => doc.hasDistinctNames = true
  | .createEach _ docs => ∀ doc ∈ docs, doc.hasDistinctNames = true
  | .update _ _ patch => patch.hasDistinctNames = true
  | _ => True

/-- The documents that an operation is to add have distinct names. -/
theorem Operation.HasDistinctNames.of_insert {op : Operation} (h : op.HasDistinctNames)
    {table : String} {docs : List Value}
    (hop : op = .createEach table docs ∨ ∃ doc, docs = [doc] ∧ op = .create table doc) :
    ∀ doc ∈ docs, doc.hasDistinctNames = true := by
  rcases hop with rfl | ⟨doc, rfl, rfl⟩
  · exact h
  · exact List.forall_mem_singleton.mpr h

/-- Every row is an object of distinct names. -/
def AreDocuments (rows : List Value) : Prop :=
  ∀ row ∈ rows, row.isObject = true ∧ row.hasDistinctNames = true

instance (rows : List Value) : Decidable (AreDocuments rows) :=
  inferInstanceAs (Decidable (∀ row ∈ rows, _ ∧ _))

variable {primaryKey : String} {patch : Assoc Value} {docs rows stored : List Value}

/-! ## What is written into one table -/

namespace Connection

variable {keys keys' : KeySupply}

/-- What each document is known for and what is made of it. -/
theorem forall_of_prepareAll {p q : Value → Prop}
    (hprepare : ∀ (keys keys' : KeySupply) (doc row : Value), p doc →
      prepare primaryKey keys doc = .ok (row, keys') → q row)
    (hdocs : ∀ doc ∈ docs, p doc)
    (h : prepareAll primaryKey keys docs = .ok (stored, keys')) : ∀ row ∈ stored, q row := by
  induction docs generalizing keys keys' stored with
  | nil =>
    obtain ⟨rfl, -⟩ := Prod.mk.inj (Except.ok.inj h)
    simp
  | cons doc rest ih =>
    obtain ⟨⟨row, keys₁⟩, hrow, h⟩ := bind_eq_ok.mp h
    obtain ⟨⟨others, keys₂⟩, hothers, h⟩ := bind_eq_ok.mp h
    obtain ⟨rfl, -⟩ := Prod.mk.inj (Except.ok.inj h)
    rw [List.forall_mem_cons] at hdocs ⊢
    exact ⟨hprepare _ _ _ _ hdocs.1 hrow, ih hdocs.2 hothers⟩

/-- A prepared document has a key. -/
theorem exists_key_of_prepare {doc row : Value}
    (h : prepare primaryKey keys doc = .ok (row, keys')) :
    ∃ key, row.field? primaryKey = some key := by
  cases doc with
  | object fields =>
    rw [prepare] at h
    split at h
    · next hkey =>
      obtain ⟨rfl, -⟩ := Prod.mk.inj (Except.ok.inj h)
      exact Option.isSome_iff_exists.mp hkey
    · obtain ⟨rfl, -⟩ := Prod.mk.inj (Except.ok.inj h)
      exact ⟨_, Assoc.lookup_insert_self _ _ _⟩
  | _ => cases h

theorem hasDistinctNames_of_prepare {doc row : Value} (hdoc : doc.hasDistinctNames = true)
    (h : prepare primaryKey keys doc = .ok (row, keys')) : row.hasDistinctNames = true := by
  cases doc with
  | object fields =>
    rw [prepare] at h
    split at h
    · obtain ⟨rfl, -⟩ := Prod.mk.inj (Except.ok.inj h)
      exact hdoc
    · obtain ⟨rfl, -⟩ := Prod.mk.inj (Except.ok.inj h)
      obtain ⟨hnodup, hvalues⟩ := Value.hasDistinctNames_object.mp hdoc
      exact Value.hasDistinctNames_object.mpr ⟨Assoc.nodup_keys_insert _ _ hnodup,
        Assoc.forall_mem_insert (p := fun v : Value => v.hasDistinctNames = true) hvalues rfl⟩
  | _ => cases h

theorem areDocuments_of_prepareAll (hdocs : ∀ doc ∈ docs, doc.hasDistinctNames = true)
    (h : prepareAll primaryKey keys docs = .ok (stored, keys')) : AreDocuments stored := by
  refine forall_of_prepareAll (p := fun doc => doc.hasDistinctNames = true) ?_ hdocs h
  intro keys keys' doc row hdoc hrow
  obtain ⟨key, hkey⟩ := exists_key_of_prepare hrow
  exact ⟨isObject_of_field? hkey, hasDistinctNames_of_prepare hdoc hrow⟩

end Connection

theorem AreDocuments.patchAll (h : AreDocuments rows)
    (hpatch : (Value.object patch).hasDistinctNames = true) (keys : List Value) :
    AreDocuments (Connection.patchAll primaryKey patch rows keys).2 := by
  refine Connection.patchAll_induction (motive := AreDocuments) h ?_
  intro rows' i row hrows' hrow _ other hother
  obtain ⟨hobject, hnames⟩ := hrows' row (List.mem_of_getElem? hrow)
  rcases List.mem_or_eq_of_mem_set hother with hmem | rfl
  · exact hrows' other hmem
  · exact ⟨(row.isObject_patched patch).trans hobject, Value.hasDistinctNames_patched hnames hpatch⟩

namespace Store

theorem isObject_of_firstNonObject? {position : Nat} (h : firstNonObject? position rows = none) :
    ∀ row ∈ rows, row.isObject = true := by
  induction rows generalizing position with
  | nil => simp
  | cons row rest ih =>
    rw [firstNonObject?] at h
    split at h
    · next hobject => exact List.forall_mem_cons.mpr ⟨hobject, ih h⟩
    · cases h

theorem isObject_of_checkLoad {store : Store} {data : List (String × List Value)}
    (h : store.checkLoad data = .ok ()) :
    ∀ entry ∈ data, ∀ row ∈ entry.2, row.isObject = true := by
  induction data with
  | nil => simp
  | cons entry rest ih =>
    obtain ⟨tableName, -, h⟩ := bind_eq_ok.mp h
    split at h
    · cases h
    · next hnone => exact List.forall_mem_cons.mpr ⟨isObject_of_firstNonObject? hnone, ih h⟩

end Store

/-! ## Every table, after every operation -/

namespace Connection

open DocQuery.Action

variable {c c' : Connection} {op : Operation}

/-- Every table holds documents. -/
def HoldsDocuments (c : Connection) : Prop :=
  ∀ entry ∈ c.store.tables, AreDocuments entry.2

theorem HoldsDocuments.of_lookup (h : c.HoldsDocuments) {table : String}
    (hrows : c.store.tables.lookup table = some rows) : AreDocuments rows :=
  h _ (Assoc.mem_of_lookup hrows)

theorem HoldsDocuments.of_writes [PatternLibrary] (h : c.HoldsDocuments) (hop : op.HasDistinctNames)
    (hwrites : Writes c op c') : c'.HoldsDocuments := by
  cases hwrites with
  | nothing => exact h
  | close => exact h
  | load hcheck =>
    have hobjects := Store.isObject_of_checkLoad hcheck
    refine Assoc.forall_mem_insertAll (p := AreDocuments) h ?_
    exact fun entry hentry row hrow => ⟨hobjects entry hentry row hrow, hop entry hentry row hrow⟩
  | createTable hname hnew =>
    exact Assoc.forall_mem_insert (p := AreDocuments) h (by simp [AreDocuments])
  | dropTable name => exact fun entry hentry => h entry (List.mem_filter.mp hentry).1
  | insert hinsert hprepared hrows hfresh =>
    have hstored := areDocuments_of_prepareAll (hop.of_insert hinsert) hprepared
    refine Assoc.forall_mem_insert (p := AreDocuments) h ?_
    exact List.forall_mem_append.mpr ⟨h.of_lookup hrows, hstored⟩
  | update hselect hkeys hrows =>
    exact Assoc.forall_mem_insert h ((h.of_lookup hrows).patchAll hop _)
  | destroy hselect hrows =>
    refine Assoc.forall_mem_insert (p := AreDocuments) h ?_
    exact fun row hrow => h.of_lookup hrows row (List.mem_filter.mp hrow).1

/-! ## Connections that were opened -/

/-- The connection was opened, and then operations were carried out, whether they failed or not. -/
inductive Reachable [PatternLibrary] : Connection → Prop where
  | opened {settings : ConnectionSettings} {options : PlanOptions} {keys : Nat → String}
    {c : Connection} (h : connect settings options keys = .ok c) : Reachable c
  | performed {c : Connection} {op : Operation} (h : Reachable c) (hop : op.HasDistinctNames) :
    Reachable (c.perform op).2

theorem Reachable.performAll [PatternLibrary] (h : c.Reachable) {ops : List Operation}
    (hops : ∀ op ∈ ops, op.HasDistinctNames) : (c.performAll ops).2.Reachable := by
  induction ops generalizing c with
  | nil => exact h
  | cons op rest ih =>
    rw [List.forall_mem_cons] at hops
    exact ih (h.performed hops.1) hops.2

/-- What holds of a database, and after every table that is created in it, holds after the tables
    that are not there were created. -/
theorem ensureTables_induction {motive : Store → Prop}
    (hcreate : ∀ (store : Store) (name : TableName), motive store →
      motive (store.setRows name.text []))
    {names : List String} {store store' : Store} (hstore : motive store)
    (h : (ensureTables names).on store = (.ok (), store')) : motive store' := by
  induction names generalizing store with
  | nil =>
    obtain ⟨-, rfl⟩ := Prod.mk.inj h
    exact hstore
  | cons name rest ih =>
    obtain ⟨added, store₁, hensure, h⟩ := on_bind_eq_ok.mp h
    refine ih ?_ h
    rcases Store.Edit.on_ensureTable_eq_ok hensure with ⟨-, hadd⟩ | ⟨-, rfl⟩
    · obtain ⟨tableName, -, -, rfl⟩ := Store.Edit.on_createTable_eq_ok.mp hadd
      exact hcreate store tableName hstore
    · exact hstore

/-- What holds of a database without tables, and after every table that is created, holds of the
    database of a connection that was just opened. -/
theorem connect_induction {motive : Store → Prop} (hnew : ∀ db, motive ⟨db, []⟩)
    (hcreate : ∀ (store : Store) (name : TableName), motive store →
      motive (store.setRows name.text []))
    {settings : ConnectionSettings} {options : PlanOptions} {keys : Nat → String}
    (h : connect settings options keys = .ok c) : motive c.store := by
  unfold connect at h
  split at h
  · cases h
  · obtain ⟨store, hdb, h⟩ := bind_eq_ok.mp h
    obtain ⟨⟨⟨⟩, store'⟩, htables, h⟩ := bind_eq_ok.mp h
    obtain rfl := Except.ok.inj h
    obtain ⟨name, -, rfl⟩ := map_eq_ok.mp hdb
    exact ensureTables_induction hcreate (hnew name) (attempt_eq_ok.mp htables)

/-- Only documents are ever stored. -/
theorem Reachable.holdsDocuments [PatternLibrary] (h : c.Reachable) : c.HoldsDocuments := by
  induction h with
  | opened h =>
    refine connect_induction (motive := fun store => ∀ entry ∈ store.tables, AreDocuments entry.2)
      (by simp) ?_ h
    exact fun store name hstore =>
      Assoc.forall_mem_insert (p := AreDocuments) hstore (by simp [AreDocuments])
  | performed _ hop ih => exact ih.of_writes hop (writes_perform _ _)

end Connection

end DocQuery
