import DocQuery.Proofs.RepeatedWrites
import DocQuery.Proofs.Writes

set_option autoImplicit false

/-! # Batches of documents

Documents may be created in one batch or one after the other. A batch is prepared as a whole, and
each of its documents is compared with the rows and with the documents before it; one after the
other, each is compared with the rows as they are by then. These are the same comparisons, so a
batch succeeds if and only if every single creation does, and stores the same documents under the
same keys (`on_insert_eq_ok_iff_performAll`). If some creation fails, the batch fails with the error
of one of them (`error_mem_performAll_of_on_insert`), though perhaps not of the first one: what is
no object stops a batch before any key is compared. -/

namespace DocQuery

namespace Connection

open DocQuery.Action

variable {c c' : Connection} {table primaryKey : String} {keys keys' : KeySupply}
  {doc : Value} {docs rest rows stored : List Value} {e : TableError}

/-! ## Single steps -/

/-- Rows that are added one after the other are added together. -/
theorem withRows_append (c : Connection) (table : String) (rows : List Value) (row : Value)
    (others : List Value) (keys keys' : KeySupply) :
    ({ ({ c.withRows table (rows ++ [row]) with keys } : Connection).withRows table
        (rows ++ [row] ++ others) with keys := keys' } : Connection) =
      { c.withRows table (rows ++ row :: others) with keys := keys' } := by
  simp [withRows, Store.setRows, Assoc.insert_insert_self]

theorem withRows_of_lookup (hrows : c.store.tables.lookup table = some rows) :
    c.withRows table rows = c := by
  simp only [withRows, Store.setRows, Assoc.insert_of_lookup_eq_some hrows]

theorem prepareAll_cons_eq_ok : prepareAll primaryKey keys (doc :: rest) = .ok (stored, keys') ↔
    ∃ row keys₁ others, prepare primaryKey keys doc = .ok (row, keys₁) ∧
      prepareAll primaryKey keys₁ rest = .ok (others, keys') ∧ stored = row :: others := by
  simp only [prepareAll, bind_eq_ok, Prod.exists, pure_eq_ok, Except.ok.injEq, Prod.mk.injEq]
  constructor
  · rintro ⟨row, keys₁, hrow, others, keys₂, hothers, rfl, rfl⟩
    exact ⟨row, keys₁, others, hrow, hothers, rfl⟩
  · rintro ⟨row, keys₁, others, hrow, hothers, rfl⟩
    exact ⟨row, keys₁, hrow, others, keys', hothers, rfl, rfl⟩

/-- Documents cannot be prepared if and only if one is no object. The keys that are left have no
    part in it. -/
theorem prepareAll_eq_error_iff : prepareAll primaryKey keys docs = .error e ↔
    ∃ found, docs.find? (fun doc => !doc.isObject) = some found ∧
      e = .store (.validation (.documentNonObject found)) := by
  induction docs generalizing keys with
  | nil => simp [prepareAll]
  | cons doc rest ih =>
    cases doc with
    | object fields =>
      obtain ⟨row, keys₁, hrow⟩ : ∃ row keys₁,
          prepare primaryKey keys (.object fields) = .ok (row, keys₁) := by
        rw [prepare]
        split <;> exact ⟨_, _, rfl⟩
      rw [prepareAll, hrow, ok_bind, List.find?_cons_of_neg (by simp [Value.isObject]),
        ← @ih keys₁]
      simp [bind_eq_error]
    | _ => simp [prepareAll, prepare, Value.isObject, eq_comm]

/-- The first clash of a batch is that of its first document, or else one of the others with that
    document among the rows. -/
theorem firstClash?_cons : firstClash? primaryKey rows (doc :: rest) =
    (firstClash? primaryKey rows [doc]).or (firstClash? primaryKey (rows ++ [doc]) rest) := by
  simp only [firstClash?]
  split <;> rfl

/-! ## A batch and its first document -/

theorem on_insert_nil (hrows : c.store.tables.lookup table = some rows) :
    (insert table []).on c = (.ok [], c) := by
  refine on_insert_eq_ok.mpr ⟨c.keys, rows, rfl, hrows, rfl, ?_⟩
  rw [List.append_nil, withRows_of_lookup hrows]

/-- What the first document of a batch leaves for the others. -/
theorem on_insert_singleton_eq_ok {row : Value} :
    (insert table [doc]).on c = (.ok [row], c') ↔
      ∃ keys rows, prepare c.options.primaryKey c.keys doc = .ok (row, keys) ∧
        c.store.tables.lookup table = some rows ∧
        firstClash? c.options.primaryKey rows [row] = none ∧
        c' = { c.withRows table (rows ++ [row]) with keys } := by
  rw [on_insert_eq_ok]
  constructor
  · rintro ⟨keys, rows, hprepared, hrest⟩
    obtain ⟨_, keys₁, others, hrow, hothers, hcons⟩ := prepareAll_cons_eq_ok.mp hprepared
    obtain ⟨rfl, rfl⟩ := List.cons.inj hcons
    obtain ⟨-, rfl⟩ := Prod.mk.inj (Except.ok.inj hothers)
    exact ⟨keys₁, rows, hrow, hrest⟩
  · rintro ⟨keys, rows, hrow, hrest⟩
    exact ⟨keys, rows, prepareAll_cons_eq_ok.mpr ⟨row, keys, [], hrow, rfl, rfl⟩, hrest⟩

/-- Inserting a batch comes to inserting its first document and then the others. -/
theorem on_insert_cons_eq_ok : (insert table (doc :: rest)).on c = (.ok stored, c') ↔
    ∃ row c₁ others, (insert table [doc]).on c = (.ok [row], c₁) ∧
      (insert table rest).on c₁ = (.ok others, c') ∧ stored = row :: others := by
  constructor
  · intro h
    obtain ⟨keys, rows, hprepared, hrows, hclash, rfl⟩ := on_insert_eq_ok.mp h
    obtain ⟨row, keys₁, others, hrow, hothers, rfl⟩ := prepareAll_cons_eq_ok.mp hprepared
    rw [firstClash?_cons, Option.or_eq_none_iff] at hclash
    refine ⟨row, { c.withRows table (rows ++ [row]) with keys := keys₁ }, others, ?_, ?_, rfl⟩
    · exact on_insert_singleton_eq_ok.mpr ⟨keys₁, rows, hrow, hrows, hclash.1, rfl⟩
    · exact on_insert_eq_ok.mpr ⟨keys, rows ++ [row], hothers, Assoc.lookup_insert_self _ _ _,
        hclash.2, (withRows_append c table rows row others keys₁ keys).symm⟩
  · rintro ⟨row, c₁, others, hfirst, hlater, rfl⟩
    obtain ⟨keys₁, rows, hrow, hrows, hclash, rfl⟩ := on_insert_singleton_eq_ok.mp hfirst
    obtain ⟨keys, rows', hothers, hrows', hclash', rfl⟩ := on_insert_eq_ok.mp hlater
    obtain rfl : rows ++ [row] = rows' :=
      Option.some.inj ((Assoc.lookup_insert_self _ _ _).symm.trans hrows')
    refine on_insert_eq_ok.mpr ⟨keys, rows,
      prepareAll_cons_eq_ok.mpr ⟨row, keys₁, others, hrow, hothers, rfl⟩, hrows, ?_,
      withRows_append c table rows row others keys₁ keys⟩
    rw [firstClash?_cons, Option.or_eq_none_iff]
    exact ⟨hclash, hclash'⟩

/-! ## Creating as inserting -/

section

variable [PatternLibrary]

theorem perform_create (hopen : c.closed = false) (table : String) (doc : Value) :
    c.perform (.create table doc) =
      (((insert table [doc]).on c).1.map (fun stored => .document (stored.head?.getD .null)),
        ((insert table [doc]).on c).2) := by
  rw [perform, action, create, on_bind_pure, on_reading_bind_of_ok (checkHandle_of_open hopen),
    on_bind_pure]
  cases ((insert table [doc]).on c).1 <;> rfl

theorem perform_create_eq_ok (hopen : c.closed = false) {r : Reply} :
    c.perform (.create table doc) = (.ok r, c') ↔
      ∃ row, r = .document row ∧ (insert table [doc]).on c = (.ok [row], c') := by
  rw [perform_create hopen]
  cases h : (insert table [doc]).on c with
  | mk result c₁ =>
    cases result with
    | error e => simp
    | ok stored =>
      -- one document is stored for one that is given
      obtain ⟨row, c₂, others, -, hlater, rfl⟩ := on_insert_cons_eq_ok.mp h
      obtain ⟨keys, rows, hothers, -⟩ := on_insert_eq_ok.mp hlater
      obtain ⟨rfl, -⟩ := Prod.mk.inj (Except.ok.inj hothers)
      simp [eq_comm]

/-- An empty batch stores nothing, as if it were inserted. -/
theorem perform_createEach_eq (hopen : c.closed = false)
    (hrows : c.store.tables.lookup table = some rows) (docs : List Value) :
    c.perform (.createEach table docs) =
      (((insert table docs).on c).1.map .documents, ((insert table docs).on c).2) := by
  rw [perform, action, createEach, on_bind_pure]
  split
  · next hempty =>
    rw [List.isEmpty_iff.mp hempty, on_insert_nil hrows]
    rfl
  · rw [on_reading_bind_of_ok (checkHandle_of_open hopen)]

end

/-! ## Documents one after the other -/

/-- After a creation that succeeds the table is there and open, so that the next one can follow. -/
theorem exists_rows_of_on_insert (hopen : c.closed = false)
    (h : (insert table docs).on c = (.ok stored, c')) :
    c'.closed = false ∧ ∃ rows, c'.store.tables.lookup table = some rows := by
  obtain ⟨keys, rows, -, -, -, rfl⟩ := on_insert_eq_ok.mp h
  exact ⟨hopen, rows ++ stored, Assoc.lookup_insert_self _ _ _⟩

/-- A batch succeeds if and only if every creation of the sequence does; then it returns and leaves
    the same. -/
theorem on_insert_eq_ok_iff_performAll [PatternLibrary] (hopen : c.closed = false)
    (hrows : c.store.tables.lookup table = some rows) :
    (insert table docs).on c = (.ok stored, c') ↔
      c.performAll (docs.map (.create table)) =
        (stored.map (fun row => .ok (.document row)), c') := by
  induction docs generalizing c rows stored with
  | nil =>
    rw [on_insert_nil hrows]
    simp only [List.map_nil, performAll, Prod.mk.injEq, Except.ok.injEq, List.nil_eq,
      List.map_eq_nil_iff]
  | cons doc rest ih =>
    rw [on_insert_cons_eq_ok, List.map_cons, performAll]
    constructor
    · rintro ⟨row, c₁, others, hfirst, hlater, rfl⟩
      obtain ⟨hopen₁, rows₁, hrows₁⟩ := exists_rows_of_on_insert hopen hfirst
      rw [(perform_create_eq_ok hopen).mpr ⟨row, rfl, hfirst⟩]
      simp only [(ih hopen₁ hrows₁).mp hlater, List.map_cons]
    · intro h
      obtain ⟨hreplies, hlast⟩ := Prod.mk.inj h
      cases stored with
      | nil => cases hreplies
      | cons row others =>
        obtain ⟨hreply, hothers⟩ := List.cons.inj hreplies
        obtain ⟨_, hdocument, hfirst⟩ := (perform_create_eq_ok hopen).mp (Prod.ext hreply rfl)
        obtain rfl := Reply.document.inj hdocument
        obtain ⟨hopen₁, rows₁, hrows₁⟩ := exists_rows_of_on_insert hopen hfirst
        exact ⟨row, _, others, hfirst, (ih hopen₁ hrows₁).mpr (Prod.ext hothers hlast), rfl⟩

/-! ## Batches that fail -/

theorem on_insert_of_nonObject
    (hprepared : prepareAll c.options.primaryKey c.keys docs = .error e) :
    (insert table docs).on c = (.error e, c) := by
  rw [insert, on_get_bind, on_bind, on_liftM, hprepared]

theorem on_insert_of_clash {key : Value}
    (hprepared : prepareAll c.options.primaryKey c.keys docs = .ok (stored, keys))
    (hrows : c.store.tables.lookup table = some rows)
    (hclash : firstClash? c.options.primaryKey rows stored = some key) :
    (insert table docs).on c =
      (.error (.store (.duplicateKey c.options.primaryKey key table)), c) := by
  have hfound : c.rows table = .ok rows := rows_eq_ok.mpr hrows
  simp only [insert, on_bind, on_get, on_liftM, hprepared, hfound, hclash, on_throw]

variable [PatternLibrary]

theorem open_perform_create (hopen : c.closed = false) (table : String) (doc : Value) :
    (c.perform (.create table doc)).2.closed = false := by
  have hwrites := writes_perform c (.create table doc)
  generalize (c.perform (.create table doc)).2 = c' at hwrites
  cases hwrites <;> exact hopen

/-- What is no object is refused wherever it stands in the sequence. -/
theorem nonObject_mem_performAll (hopen : c.closed = false) (table : String) (hdoc : doc ∈ docs)
    (hno : doc.isObject = false) : .error (.store (.validation (.documentNonObject doc))) ∈
      (c.performAll (docs.map (.create table))).1 := by
  induction docs generalizing c with
  | nil => cases hdoc
  | cons first rest ih =>
    rw [List.map_cons, performAll]
    rcases List.mem_cons.mp hdoc with rfl | hlater
    · have hprepared : prepareAll c.options.primaryKey c.keys [doc] =
          .error (.store (.validation (.documentNonObject doc))) :=
        prepareAll_eq_error_iff.mpr ⟨doc, by simp [hno], rfl⟩
      rw [perform_create hopen, on_insert_of_nonObject hprepared]
      exact List.mem_cons_self
    · exact List.mem_cons_of_mem _ (ih (open_perform_create hopen table first) hlater)

/-- Where all documents can be prepared, the first clash of the batch is that of a creation. -/
theorem duplicateKey_mem_performAll (hopen : c.closed = false)
    (hrows : c.store.tables.lookup table = some rows) {key : Value}
    (hprepared : prepareAll c.options.primaryKey c.keys docs = .ok (stored, keys))
    (hclash : firstClash? c.options.primaryKey rows stored = some key) :
    .error (.store (.duplicateKey c.options.primaryKey key table)) ∈
      (c.performAll (docs.map (.create table))).1 := by
  induction docs generalizing c rows stored with
  | nil =>
    obtain ⟨rfl, -⟩ := Prod.mk.inj (Except.ok.inj hprepared)
    cases hclash
  | cons doc rest ih =>
    obtain ⟨row, keys₁, others, hrow, hothers, rfl⟩ := prepareAll_cons_eq_ok.mp hprepared
    rw [firstClash?_cons] at hclash
    rw [List.map_cons, performAll]
    cases hfirst : firstClash? c.options.primaryKey rows [row] with
    | some _ =>
      rw [hfirst] at hclash
      obtain rfl := Option.some.inj hclash
      have hsingle : prepareAll c.options.primaryKey c.keys [doc] = .ok ([row], keys₁) :=
        prepareAll_cons_eq_ok.mpr ⟨row, keys₁, [], hrow, rfl, rfl⟩
      rw [perform_create hopen, on_insert_of_clash hsingle hrows hfirst]
      exact List.mem_cons_self
    | none =>
      rw [hfirst] at hclash
      have hinsert := on_insert_singleton_eq_ok.mpr ⟨keys₁, rows, hrow, hrows, hfirst, rfl⟩
      rw [(perform_create_eq_ok hopen).mpr ⟨row, rfl, hinsert⟩]
      exact List.mem_cons_of_mem _ (ih hopen (Assoc.lookup_insert_self _ _ _) hothers hclash)

/-- A batch fails with the error of one of the creations. -/
theorem error_mem_performAll_of_on_insert (hopen : c.closed = false)
    (hrows : c.store.tables.lookup table = some rows)
    (h : (insert table docs).on c = (.error e, c')) :
    .error e ∈ (c.performAll (docs.map (.create table))).1 := by
  cases hprepared : prepareAll c.options.primaryKey c.keys docs with
  | error e' =>
    obtain ⟨found, hfound, rfl⟩ := prepareAll_eq_error_iff.mp hprepared
    rw [on_insert_of_nonObject hprepared] at h
    obtain rfl := Except.error.inj (Prod.mk.inj h).1
    exact nonObject_mem_performAll hopen table (List.mem_of_find?_eq_some hfound)
      (by simpa using List.find?_some hfound)
  | ok prepared =>
    obtain ⟨stored, keys⟩ := prepared
    cases hclash : firstClash? c.options.primaryKey rows stored with
    | none =>
      rw [on_insert_eq_ok.mpr ⟨keys, rows, hprepared, hrows, hclash, rfl⟩] at h
      cases h
    | some key =>
      rw [on_insert_of_clash hprepared hrows hclash] at h
      obtain rfl := Except.error.inj (Prod.mk.inj h).1
      exact duplicateKey_mem_performAll hopen hrows hprepared hclash

end Connection

/-! ## Main statement -/

/-- Documents are created in an open table that is there. One batch of them succeeds if and only if
    every creation of the sequence does; it returns the same documents then and leaves the same
    connection. If some creation fails, the batch fails with the error of one of them and stores
    nothing. -/
theorem batch_is_creation_one_by_one [PatternLibrary] {c : Connection} {table : String}
    (hopen : c.closed = false) (htable : c.store.hasTable table = true) (docs : List Value) :
    let batch := c.perform (.createEach table docs)
    let singly := c.performAll (docs.map (.create table))
    ((∃ r, batch.1 = .ok r) ↔ ∀ reply ∈ singly.1, ∃ r, reply = .ok r) ∧
    (∀ stored c', batch = (.ok (.documents stored), c') ↔
      singly = (stored.map (fun doc => .ok (.document doc)), c')) ∧
    ((∃ e, .error e ∈ singly.1) → ∃ e, .error e ∈ singly.1 ∧ batch = (.error e, c)) := by
  intro batch singly
  obtain ⟨rows, hrows⟩ := Option.isSome_iff_exists.mp htable
  have hbatch := Connection.perform_createEach_eq hopen hrows docs
  have hsame : ∀ stored c', batch = (.ok (.documents stored), c') ↔
      singly = (stored.map (fun doc => .ok (.document doc)), c') := by
    intro stored c'
    rw [← Connection.on_insert_eq_ok_iff_performAll hopen hrows]
    show c.perform (.createEach table docs) = _ ↔ _
    rw [hbatch]
    cases (Connection.insert table docs).on c with
    | mk result c₁ => cases result <;> simp
  cases h : (Connection.insert table docs).on c with
  | mk result c₁ =>
    rw [h] at hbatch
    cases result with
    | ok stored =>
      have hall : ∀ reply ∈ singly.1, ∃ r, reply = .ok r := by
        rw [(hsame stored c₁).mp hbatch]
        simp
      refine ⟨⟨fun _ => hall, fun _ => ⟨_, congrArg Prod.fst hbatch⟩⟩, hsame, ?_⟩
      rintro ⟨e, he⟩
      obtain ⟨r, hr⟩ := hall _ he
      cases hr
    | error e =>
      obtain rfl := Connection.atomic_insert table docs c e c₁ h
      have hmem : .error e ∈ singly.1 :=
        Connection.error_mem_performAll_of_on_insert hopen hrows h
      refine ⟨⟨?_, fun hall => ?_⟩, hsame, fun _ => ⟨e, hmem, hbatch⟩⟩
      · rintro ⟨r, hr⟩
        rw [show batch.1 = _ from congrArg Prod.fst hbatch] at hr
        cases hr
      · obtain ⟨r, hr⟩ := hall _ hmem
        cases hr

/-- A key is generated for the second document; the third clashes with the first, and the fourth is
    no document, which stops the batch first. -/
theorem batch_is_creation_one_by_one_key_between :
    let document (key : String) : Value := .object [("id", .string key)]
    let c : Connection := ⟨"main", ⟨"id", true⟩, ⟨⟨"test", by decide, by decide⟩, [("t", [])]⟩,
      ⟨fun _ => "k", 0⟩, false⟩
    let fresh : List Value := [document "a", .object [], document "b"]
    let clashing : List Value := [document "a", .object [], document "a", .null]
    let stored : List Value := [document "a", document "k", document "b"]
    let c' : Connection := { c.withRows "t" stored with keys := ⟨fun _ => "k", 1⟩ }
    c.closed = false ∧ c.store.hasTable "t" = true ∧
      c.perform (.createEach "t" fresh) = (.ok (.documents stored), c') ∧
      c.performAll (fresh.map (.create "t")) =
        (stored.map (fun doc => .ok (.document doc)), c') ∧
      ∃ e, .error e ∈ (c.performAll (clashing.map (.create "t"))).1 ∧
        c.perform (.createEach "t" clashing) = (.error e, c) := by
  intro document c fresh clashing stored c'
  have hopen : c.closed = false := rfl
  have htable : c.store.hasTable "t" = true := rfl
  have hbatch : c.perform (.createEach "t" fresh) = (.ok (.documents stored), c') := rfl
  have hclash : (c.performAll (clashing.map (.create "t"))).1[2]? =
      some (.error (.store (.duplicateKey "id" (.string "a") "t"))) := rfl
  obtain ⟨-, hsame, -⟩ := batch_is_creation_one_by_one hopen htable fresh
  obtain ⟨-, -, hfails⟩ := batch_is_creation_one_by_one hopen htable clashing
  exact ⟨hopen, htable, hbatch, (hsame stored c').mp hbatch,
    hfails ⟨_, List.mem_of_getElem? hclash⟩⟩

end DocQuery
