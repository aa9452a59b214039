import DocQuery.Proofs.BatchInsertion
import DocQuery.Proofs.KeyedTables
import DocQuery.Proofs.StoredDocuments

set_option autoImplicit false

/-! # Insertion

Documents are inserted all or none: one whose key some row or an earlier document has stops all of
them (`Clashes`). Where none does, each of them can be found by its key afterwards, and nothing else
is found by that key (`insertion_is_exact`). Finding asks whether a row's key equals the one that is
looked for, so a later document of the batch is compared the other way round than it was compared
when it was inserted; that equality is symmetric is what makes the two agree. -/

namespace DocQuery

variable {primaryKey : String} {rows docs stored : List Value}

/-! ## Clashes -/

/-- The key of some document equals the key of a row or of a document before it. -/
def Clashes (primaryKey : String) (rows docs : List Value) : Prop :=
  ∃ before doc after key, docs = before ++ doc :: after ∧ doc.field? primaryKey = some key ∧
    ∃ row ∈ rows ++ before, hasIndexKey primaryKey key row = true

theorem not_clashes_nil : ¬ Clashes primaryKey rows [] := by
  rintro ⟨before, doc, after, key, hdocs, -⟩
  simp at hdocs

/-- The first document clashes with a row, or a later one does with the document among the rows. -/
theorem clashes_cons {doc key : Value} {rest : List Value}
    (hkey : doc.field? primaryKey = some key) : Clashes primaryKey rows (doc :: rest) ↔
      (∃ row ∈ rows, hasIndexKey primaryKey key row = true) ∨
        Clashes primaryKey (rows ++ [doc]) rest := by
  constructor
  · rintro ⟨before, found, after, foundKey, hdocs, hfound, row, hrow, hhas⟩
    cases before with
    | nil =>
      obtain ⟨rfl, rfl⟩ := List.cons.inj hdocs
      obtain rfl := Option.some.inj (hkey.symm.trans hfound)
      rw [List.append_nil] at hrow
      exact Or.inl ⟨row, hrow, hhas⟩
    | cons first before =>
      obtain ⟨rfl, rfl⟩ := List.cons.inj hdocs
      rw [List.append_cons] at hrow
      exact Or.inr ⟨before, found, after, foundKey, rfl, hfound, row, hrow, hhas⟩
  · rintro (⟨row, hrow, hhas⟩ | ⟨before, found, after, foundKey, rfl, hfound, row, hrow, hhas⟩)
    · exact ⟨[], doc, rest, key, rfl, hkey, row, List.mem_append_left _ hrow, hhas⟩
    · rw [← List.append_cons] at hrow
      exact ⟨doc :: before, found, after, foundKey, rfl, hfound, row, hrow, hhas⟩

/-- Documents that all have keys clash if and only if a first clash is found. -/
theorem exists_firstClash?_iff (hkeys : ∀ doc ∈ docs, ∃ key, doc.field? primaryKey = some key) :
    (∃ key, Connection.firstClash? primaryKey rows docs = some key) ↔
      Clashes primaryKey rows docs := by
  induction docs generalizing rows with
  | nil => simp [Connection.firstClash?, not_clashes_nil]
  | cons doc rest ih =>
    rw [List.forall_mem_cons] at hkeys
    obtain ⟨⟨key, hkey⟩, hrest⟩ := hkeys
    have hkeyOf : Connection.keyOf primaryKey doc = key := by rw [Connection.keyOf, hkey]; rfl
    rw [clashes_cons hkey, ← ih hrest, ← List.any_eq_true, Connection.firstClash?, hkeyOf]
    by_cases hany : rows.any (hasIndexKey primaryKey key) = true
    · simp [hany]
    · simp [hany]

/-- Where nothing clashes, a document is the only one that has its key. -/
theorem filter_hasIndexKey_of_not_clashes (hclash : ¬ Clashes primaryKey rows stored)
    (hstored : AreDocuments stored) {doc key : Value} (hdoc : doc ∈ stored)
    (hkey : doc.field? primaryKey = some key) :
    (rows ++ stored).filter (hasIndexKey primaryKey key) = [doc] := by
  obtain ⟨before, after, rfl⟩ := List.append_of_mem hdoc
  have hnames : ∀ other ∈ before ++ doc :: after, ∀ key, other.field? primaryKey = some key →
      key.hasDistinctNames = true :=
    fun other hother key => Value.hasDistinctNames_of_field (hstored other hother).2
  have hearlier : ∀ row ∈ rows ++ before, ¬ hasIndexKey primaryKey key row = true :=
    fun row hrow hhas => hclash ⟨before, doc, after, key, rfl, hkey, row, hrow, hhas⟩
  have hself : hasIndexKey primaryKey key doc = true :=
    hasIndexKey_iff.mpr ⟨key, hkey, key.equals_self (hnames doc hdoc key hkey)⟩
  have hlater : ∀ row ∈ after, ¬ hasIndexKey primaryKey key row = true := by
    -- a later document was compared with `doc` the other way round
    intro other hother hhas
    obtain ⟨otherKey, hotherKey, hequal⟩ := hasIndexKey_iff.mp hhas
    have hmem : other ∈ before ++ doc :: after :=
      List.mem_append_right _ (List.mem_cons_of_mem _ hother)
    have hturned : hasIndexKey primaryKey otherKey doc = true :=
      hasIndexKey_iff.mpr ⟨key, hkey,
        otherKey.equals_symm key (hnames other hmem otherKey hotherKey)
          (hnames doc hdoc key hkey) hequal⟩
    obtain ⟨between, last, rfl⟩ := List.append_of_mem hother
    exact hclash ⟨before ++ doc :: between, other, last, otherKey, by simp, hotherKey, doc,
      by simp, hturned⟩
  rw [← List.append_assoc, List.filter_append, List.filter_eq_nil_iff.mpr hearlier,
    List.filter_cons_of_pos hself, List.filter_eq_nil_iff.mpr hlater, List.nil_append]

/-! ## What is stored of a document -/

/-- How a document is stored: as it is if it has a key, and with a generated key after its fields if
    it has none. -/
inductive IsStoredAs (primaryKey : String) (keys : KeySupply) : Value → Value → Prop where
  | keyed {doc key : Value} (hkey : doc.field? primaryKey = some key) :
    IsStoredAs primaryKey keys doc doc
  | keyAdded {fields : Assoc Value} (hno : fields.lookup primaryKey = none) (i : Nat)
    (hi : keys.used ≤ i) : IsStoredAs primaryKey keys (.object fields)
      (.object (fields ++ [(primaryKey, .string (keys.key i))]))

namespace Connection

/-- An object can be prepared. The key it may be given is taken from the supply. -/
theorem exists_prepare_eq_ok {doc : Value} (hdoc : doc.isObject = true) (primaryKey : String)
    (keys : KeySupply) : ∃ row keys', prepare primaryKey keys doc = .ok (row, keys') ∧
      IsStoredAs primaryKey keys doc row ∧ keys'.key = keys.key ∧ keys.used ≤ keys'.used := by
  cases doc with
  | object fields =>
    rw [prepare]
    by_cases hkey : Assoc.hasKey fields primaryKey = true
    · rw [if_pos hkey]
      obtain ⟨key, hfound⟩ := Option.isSome_iff_exists.mp hkey
      exact ⟨_, _, rfl, .keyed hfound, rfl, Nat.le_refl _⟩
    · rw [if_neg hkey]
      have hno : fields.lookup primaryKey = none :=
        Assoc.hasKey_eq_false_iff.mp (Bool.not_eq_true _ ▸ hkey)
      rw [Assoc.insert_of_lookup_eq_none hno]
      exact ⟨_, _, rfl, .keyAdded hno keys.used (Nat.le_refl _), rfl, Nat.le_succ _⟩
  | _ => cases hdoc

theorem IsStoredAs.of_later {keys keys' : KeySupply} (hkey : keys'.key = keys.key)
    (hused : keys.used ≤ keys'.used) {doc row : Value} (h : IsStoredAs primaryKey keys' doc row) :
    IsStoredAs primaryKey keys doc row := by
  cases h with
  | keyed h => exact .keyed h
  | keyAdded hno i hi =>
    rw [hkey]
    exact .keyAdded hno i (Nat.le_trans hused hi)

/-- Objects can be prepared. -/
theorem exists_prepareAll_eq_ok (hdocs : ∀ doc ∈ docs, doc.isObject = true) (primaryKey : String)
    (keys : KeySupply) : ∃ stored keys', prepareAll primaryKey keys docs = .ok (stored, keys') ∧
      List.Forall₂ (IsStoredAs primaryKey keys) docs stored := by
  induction docs generalizing keys with
  | nil => exact ⟨[], keys, rfl, .nil⟩
  | cons doc rest ih =>
    rw [List.forall_mem_cons] at hdocs
    obtain ⟨row, keys₁, hrow, hstored, hkey, hused⟩ :=
      exists_prepare_eq_ok hdocs.1 primaryKey keys
    obtain ⟨others, keys₂, hothers, hall⟩ := ih hdocs.2 keys₁
    refine ⟨row :: others, keys₂, ?_, .cons hstored ?_⟩
    · rw [prepareAll, hrow, ok_bind]
      show (prepareAll primaryKey keys₁ rest >>= _) = _
      rw [hothers]
      rfl
    · exact hall.imp (fun _ _ => IsStoredAs.of_later hkey hused)

end Connection

/-! ## Finding by key -/

/-- The descriptor that asks for the documents with a primary key. -/
def Descriptor.ofKey (primaryKey : String) (key : Value) : Descriptor :=
  { filter := some [.field primaryKey (.equal key)] }

theorem Clause.holds_key (primaryKey : String) (key row : Value) :
    Clause.holds [.field primaryKey (.equal key)] row = hasIndexKey primaryKey key row := by
  rw [Clause.holds, everyEntryHolds, everyEntryHolds, Bool.and_true, Entry.holds, hasIndexKey]
  cases row.field? primaryKey <;> rfl

theorem Descriptor.not_refuses_ofKey (key : Value) (e : QueryError) :
    ¬ (Descriptor.ofKey primaryKey key).Refuses e := by
  rintro ⟨clause, hclause, condition, hmem, he⟩
  obtain rfl := Option.some.inj hclause
  simp only [conditionsOfEntries, Entry.conditions, List.append_nil, List.mem_singleton] at hmem
  rw [hmem] at he
  cases he

namespace Connection

open DocQuery.Action

variable [PatternLibrary] {c : Connection} {table : String}

/-- Asking for the documents with a key, on a table of objects, gives the rows that have it. -/
theorem find_ofKey (hopen : c.closed = false) (hrows : c.store.tables.lookup table = some rows)
    (hobjects : ∀ row ∈ rows, row.isObject = true) (primaryKey : String) (key : Value) :
    c.find table (.ofKey primaryKey key) = .ok (rows.filter (hasIndexKey primaryKey key)) := by
  have hkept : (Descriptor.ofKey primaryKey key).kept rows =
      rows.filter (hasIndexKey primaryKey key) :=
    List.filter_congr (fun row _ => Clause.holds_key primaryKey key row)
  rw [find, checkHandle_of_open hopen, ok_bind]
  show c.select table (Descriptor.ofKey primaryKey key).withoutJoins = _
  rw [select_withoutJoins_eq_stages hrows]
  rcases run_filtered_of_objects (d := .ofKey primaryKey key) c.options hrows hobjects with
    h | ⟨e, he, -⟩
  · -- there is nothing to sort by, to skip or to leave out
    have hkeys : (Descriptor.ofKey primaryKey key).sortKeys = [] := rfl
    rw [h, hkept, ok_bind, hkeys, sortRows_nil]
    rfl
  · exact absurd he (Descriptor.not_refuses_ofKey key e)

/-! ## Main statement -/

/-- What creating documents comes to once they are prepared. -/
theorem perform_createEach (hopen : c.closed = false)
    (hrows : c.store.tables.lookup table = some rows) (hne : docs ≠ []) {keys : KeySupply}
    (hprepared : prepareAll c.options.primaryKey c.keys docs = .ok (stored, keys)) :
    c.perform (.createEach table docs) = match firstClash? c.options.primaryKey rows stored with
      | some key => (.error (.store (.duplicateKey c.options.primaryKey key table)), c)
      | none => (.ok (.documents stored), { c.withRows table (rows ++ stored) with keys }) := by
  rw [perform, action, createEach, if_neg (by simpa using hne), on_bind_pure,
    on_reading_bind_of_ok (checkHandle_of_open hopen)]
  cases hclash : firstClash? c.options.primaryKey rows stored with
  | some key =>
    rw [on_insert_of_clash hprepared hrows hclash]
    rfl
  | none =>
    rw [on_insert_eq_ok.mpr ⟨keys, rows, hprepared, hrows, hclash, rfl⟩]
    rfl

end Connection

/-- Documents are inserted into an open table of objects with the keys they have, or keys that are
    generated. This fails for a key that is there already if and only if some document clashes.
    Otherwise the documents follow the rows, in their order and as they are returned, no other table
    is touched, and asking for the key of one of them gives that document and nothing else. -/
theorem insertion_is_exact [PatternLibrary] {c : Connection} {table : String}
    (hopen : c.closed = false) (hrows : c.store.tables.lookup table = some rows)
    (hobjects : ∀ row ∈ rows, row.isObject = true) (hne : docs ≠ []) (hdocs : AreDocuments docs) :
    ∃ stored keys, Connection.prepareAll c.options.primaryKey c.keys docs = .ok (stored, keys) ∧
      List.Forall₂ (IsStoredAs c.options.primaryKey c.keys) docs stored ∧
      ((∃ key, (c.perform (.createEach table docs)).1 =
          .error (.store (.duplicateKey c.options.primaryKey key table))) ↔
        Clashes c.options.primaryKey rows stored) ∧
      (¬ Clashes c.options.primaryKey rows stored →
        ∃ c', c.perform (.createEach table docs) = (.ok (.documents stored), c') ∧
          c.OnlyRows c' table (rows ++ stored) ∧
          ∀ doc ∈ stored, ∃ key, doc.field? c.options.primaryKey = some key ∧
            c'.find table (.ofKey c.options.primaryKey key) = .ok [doc]) := by
  obtain ⟨stored, keys, hprepared, hall⟩ := Connection.exists_prepareAll_eq_ok
    (fun doc hdoc => (hdocs doc hdoc).1) c.options.primaryKey c.keys
  have hstored : AreDocuments stored :=
    Connection.areDocuments_of_prepareAll (fun doc hdoc => (hdocs doc hdoc).2) hprepared
  have hkeys : ∀ doc ∈ stored, ∃ key, doc.field? c.options.primaryKey = some key :=
    Connection.forall_of_prepareAll (p := fun _ => True)
      (fun _ _ _ _ _ hrow => Connection.exists_key_of_prepare hrow) (fun _ _ => trivial) hprepared
  have hperform := Connection.perform_createEach hopen hrows hne hprepared
  refine ⟨stored, keys, hprepared, hall, ?_, ?_⟩
  · rw [← exists_firstClash?_iff hkeys, hperform]
    cases Connection.firstClash? c.options.primaryKey rows stored <;> simp
  · intro hclash
    have hnone : Connection.firstClash? c.options.primaryKey rows stored = none := by
      rw [← exists_firstClash?_iff hkeys] at hclash
      exact Option.eq_none_iff_forall_ne_some.mpr (not_exists.mp hclash)
    have hwritten := Connection.onlyRows_withRows hrows (rows ++ stored)
    obtain ⟨c', hc', hopen', honly⟩ : ∃ c',
        c.perform (.createEach table docs) = (.ok (.documents stored), c') ∧
          c'.closed = false ∧ c.OnlyRows c' table (rows ++ stored) := by
      rw [hnone] at hperform
      exact ⟨_, hperform, hopen, ⟨hwritten.written, hwritten.others, hwritten.names⟩⟩
    have hobjects' : ∀ row ∈ rows ++ stored, row.isObject = true :=
      List.forall_mem_append.mpr ⟨hobjects, fun row hrow => (hstored row hrow).1⟩
    refine ⟨c', hc', honly, fun doc hdoc => ?_⟩
    obtain ⟨key, hkey⟩ := hkeys doc hdoc
    refine ⟨key, hkey, ?_⟩
    rw [Connection.find_ofKey hopen' honly.written hobjects',
      filter_hasIndexKey_of_not_clashes hclash hstored hdoc hkey]

/-- Rows that were loaded share a key, and one has none. The key of a new document is null, another
    one is generated. -/
theorem insertion_is_exact_null_key :
    let rows : List Value := [.object [("id", .string "a")], .object [("id", .string "a")],
      .object [("n", .null)]]
    let docs : List Value := [.object [("id", .null)], .object [("n", .bool true)]]
    let stored : List Value := [.object [("id", .null)],
      .object [("n", .bool true), ("id", .string "b")]]
    let store : Store := ⟨⟨"test", by decide, by decide⟩, [("t", rows)]⟩
    let c : Connection := ⟨"main", ⟨"id", true⟩, store, ⟨fun _ => "b", 0⟩, false⟩
    c.closed = false ∧ c.store.tables.lookup "t" = some rows ∧
      (∀ row ∈ rows, row.isObject = true) ∧ docs ≠ [] ∧ AreDocuments docs ∧
      ¬ Clashes "id" rows stored ∧
      ∃ c', c.perform (.createEach "t" docs) = (.ok (.documents stored), c') ∧
        c.OnlyRows c' "t" (rows ++ stored) ∧ ∀ doc ∈ stored, ∃ key,
          doc.field? "id" = some key ∧ c'.find "t" (.ofKey "id" key) = .ok [doc] := by
  intro rows docs stored store c
  have hobjects : ∀ row ∈ rows, row.isObject = true := by decide
  have hdocs : AreDocuments docs := by decide
  have hrows : c.store.tables.lookup "t" = some rows := rfl
  obtain ⟨prepared, keys, hprepared, -, -, hfound⟩ :=
    insertion_is_exact rfl hrows hobjects (by decide) hdocs
  obtain ⟨rfl, -⟩ := Prod.mk.inj (Except.ok.inj hprepared)
  have hclash : ¬ Clashes "id" rows stored := by
    have hkeys : ∀ doc ∈ stored, ∃ key, doc.field? "id" = some key := by
      simp only [stored, List.forall_mem_cons]
      exact ⟨⟨_, rfl⟩, ⟨_, rfl⟩, by simp⟩
    rw [← exists_firstClash?_iff hkeys]
    have hnone : Connection.firstClash? "id" rows stored = none := by decide
    simp [hnone]
  exact ⟨rfl, hrows, hobjects, by decide, hdocs, hclash, hfound hclash⟩

end DocQuery
