import DocQuery.Proofs.KeyedTables
import DocQuery.Proofs.StoredDocuments

set_option autoImplicit false

/-! # Primary keys stay unique

A table that is created empty stays keyed under every sequence of operations that does not load it
(`keys_stay_unique`): documents are only added if their keys are new, and an update may write a
primary key only where all documents it finds have that key already. The latter takes equality at
its word. It is not transitive, so a document may be given a key that it equals and another document
equals too, unless the key is sharp; without this proviso two rows can come to have equal keys
(`rounded_key_written_twice`). -/

namespace DocQuery

variable {primaryKey : String} {patch : Assoc Value} {rows stored selected : List Value} {w : Value}

namespace Keyed

/-- Documents whose keys are new may be added. -/
theorem append (h : Keyed primaryKey rows)
    (hkeys : ∀ row ∈ stored, ∃ key, row.field? primaryKey = some key)
    (hfresh : Connection.firstClash? primaryKey rows stored = none) :
    Keyed primaryKey (rows ++ stored) := by
  induction stored generalizing rows with
  | nil => rwa [List.append_nil]
  | cons doc rest ih =>
    rw [Connection.firstClash?] at hfresh
    split at hfresh
    · cases hfresh
    · next hnew =>
      rw [List.forall_mem_cons] at hkeys
      obtain ⟨⟨key, hkey⟩, hrest⟩ := hkeys
      have hdoc : Keyed primaryKey (rows ++ [doc]) := by
        refine ⟨?_, List.pairwise_append.mpr ⟨h.unequal, List.pairwise_singleton _ _, ?_⟩⟩
        · exact List.forall_mem_append.mpr ⟨h.hasKey, List.forall_mem_singleton.mpr ⟨key, hkey⟩⟩
        · intro a ha b hb key' hkey'
          obtain rfl := List.mem_singleton.mp hb
          have hany := List.any_eq_false.mp (Bool.not_eq_true _ ▸ hnew) a ha
          rw [Connection.keyOf, hkey'] at hany
          simpa using hany
      rw [List.append_cons]
      exact ih hdoc hrest hfresh

/-- A row may be given a key that no other row has. -/
theorem set (h : Keyed primaryKey rows) (hnames : ∀ row ∈ rows, row.hasDistinctNames = true)
    {i : Nat} {row : Value} (hw : row.field? primaryKey = some w)
    (hwnames : w.hasDistinctNames = true)
    (hnew : ∀ (j : Nat) (other : Value), j ≠ i → rows[j]? = some other →
      hasIndexKey primaryKey w other = false) :
    Keyed primaryKey (rows.set i row) := by
  refine ⟨fun other hother => ?_, List.pairwise_iff_getElem.mpr (fun j l hj hl hjl => ?_)⟩
  · rcases List.mem_or_eq_of_mem_set hother with hmem | rfl
    · exact h.hasKey other hmem
    · exact ⟨w, hw⟩
  · rw [List.length_set] at hj hl
    rw [List.getElem_set, List.getElem_set]
    intro key hkey
    by_cases hli : i = l
    · -- the later of the two rows has the new key
      rw [if_neg (by omega)]
      rw [if_pos hli, hw] at hkey
      obtain rfl := Option.some.inj hkey
      exact hnew j _ (by omega) (List.getElem?_eq_getElem hj)
    · rw [if_neg hli] at hkey
      by_cases hji : i = j
      · -- the earlier of the two rows has the new key
        rw [if_pos hji]
        have hother := hnew l _ (Ne.symm hli) (List.getElem?_eq_getElem hl)
        have hknames := Value.hasDistinctNames_of_field (hnames _ (List.getElem_mem hl)) hkey
        rw [hasIndexKey_eq_any, hkey, Option.any_some] at hother
        rw [hasIndexKey_eq_any, hw, Option.any_some, Value.equals_comm hwnames hknames, hother]
      · rw [if_neg hji]
        exact List.pairwise_iff_getElem.mp h.unequal j l hj hl hjl key hkey

end Keyed

/-! ## Updates that write the key -/

namespace Connection

/-- An update that writes a sharp key patches one row at most, as no two rows have that key. -/
theorem patchAll_of_isSharp (hkeyed : Keyed primaryKey rows)
    (hnames : ∀ row ∈ rows, row.hasDistinctNames = true)
    (hpatch : patch.keys.Nodup) (hselected : selected ⊆ rows)
    (hw : patch.lookup primaryKey = some w) (hsharp : w.IsSharp)
    (hchange : changesKey primaryKey patch (keysOf primaryKey selected) = false) :
    (patchAll primaryKey patch rows (keysOf primaryKey selected)).2 = rows ∨
      ∃ i row key, rows[i]? = some row ∧ row.field? primaryKey = some key ∧
        key.equals w = true ∧
        (patchAll primaryKey patch rows (keysOf primaryKey selected)).2 =
          rows.set i (row.patched patch) := by
  have hequal := equals_of_changesKey hw hchange
  refine patchAll_induction (motive := fun rows' => rows' = rows ∨ ∃ i row key,
    rows[i]? = some row ∧ row.field? primaryKey = some key ∧ key.equals w = true ∧
      rows' = rows.set i (row.patched patch)) (Or.inl rfl) ?_
  intro rows' j other hrows' hother hsome
  obtain ⟨k, hk, hhas⟩ := hsome
  -- the row that `k` was taken from, at position `l`
  obtain ⟨source, hsource, hsourceKey⟩ := List.mem_filterMap.mp hk
  obtain ⟨l, hl⟩ := List.mem_iff_getElem?.mp (hselected hsource)
  rcases hrows' with rfl | ⟨i, row, key, hrow, hkey, hkeyw, rfl⟩
  · obtain rfl := hkeyed.position_eq hnames hother hl hsourceKey hhas
    obtain rfl := Option.some.inj (hother.symm.trans hl)
    exact Or.inr ⟨j, other, k, hother, hsourceKey, hequal k hk, rfl⟩
  · right
    refine ⟨i, row, key, hrow, hkey, hkeyw, ?_⟩
    by_cases hij : i = j
    · subst hij
      rw [List.getElem?_set_self (List.getElem?_eq_some_iff.mp hrow).1] at hother
      obtain rfl := Option.some.inj hother
      rw [List.set_set, Value.patched_patched hpatch]
    · rw [List.getElem?_set_ne hij] at hother
      obtain rfl := hkeyed.position_eq hnames hother hl hsourceKey hhas
      -- both rows have keys that equal `w`, so their keys are equal
      have hsame := hsharp key k (hasDistinctNames_key hnames hrow hkey)
        (hasDistinctNames_key hnames hl hsourceKey) hkeyw (hequal k hk)
      exact absurd (hkeyed.position_eq hnames hrow hl hsourceKey
        (hasIndexKey_iff.mpr ⟨key, hkey, hsame⟩)) hij

/-- An update leaves the keys unique if it writes no key or a sharp one. -/
theorem keyed_patchAll (hkeyed : Keyed primaryKey rows)
    (hnames : ∀ row ∈ rows, row.hasDistinctNames = true)
    (hpatch : (Value.object patch).hasDistinctNames = true) (hselected : selected ⊆ rows)
    (hsharp : ∀ w, patch.lookup primaryKey = some w → w.IsSharp)
    (hchange : changesKey primaryKey patch (keysOf primaryKey selected) = false) :
    Keyed primaryKey (patchAll primaryKey patch rows (keysOf primaryKey selected)).2 := by
  obtain ⟨hnodup, hvalues⟩ := Value.hasDistinctNames_object.mp hpatch
  cases hw : patch.lookup primaryKey with
  | none =>
    have hno := Assoc.hasKey_eq_false_iff.mpr hw
    exact hkeyed.of_map_key_eq (map_key_patchAll hno rows _)
  | some w =>
    -- the row that is patched had a key equal to `w`; another row with one would have clashed
    rcases patchAll_of_isSharp hkeyed hnames hnodup hselected hw (hsharp w hw) hchange with
      hsame | ⟨i, row, key, hrow, hkey, hkeyw, hset⟩
    · rwa [hsame]
    · rw [hset]
      have hwkey : (row.patched patch).field? primaryKey = some w := by
        rw [Value.field?_patched (isObject_of_field? hkey) hnodup, hw]
        rfl
      refine hkeyed.set hnames hwkey (hvalues _ (Assoc.mem_of_lookup hw)) ?_
      intro j other hji hother
      by_contra hhas
      obtain ⟨u, hu, huw⟩ := hasIndexKey_iff.mp (Bool.not_eq_false _ ▸ hhas)
      have hsame := hsharp w hw u key (hasDistinctNames_key hnames hother hu)
        (hasDistinctNames_key hnames hrow hkey) huw hkeyw
      exact hji (hkeyed.position_eq hnames hother hrow hkey (hasIndexKey_iff.mpr ⟨u, hu, hsame⟩))

end Connection

/-! ## Every operation -/

/-- The operation does not load the table, and if it updates the table it writes no primary key but
    a sharp one. -/
def Operation.KeepsKeys (primaryKey table : String) : Operation → Prop
  | .load data => ∀ entry ∈ data, entry.1 ≠ table
  | .update name _ patch =>
    name = table → ∀ key, patch.field? primaryKey = some key → key.IsSharp
  | _ => True

namespace Connection

variable {c c' : Connection} {table : String} {op : Operation}

/-- If there is a table of that name, it is keyed and holds documents. -/
def HasUniqueKeys (c : Connection) (table : String) : Prop :=
  ∀ rows, c.store.tables.lookup table = some rows →
    Keyed c.options.primaryKey rows ∧ AreDocuments rows

variable [PatternLibrary]

theorem HasUniqueKeys.of_writes (h : c.HasUniqueKeys table) (hnames : op.HasDistinctNames)
    (hkeeps : op.KeepsKeys c.options.primaryKey table) (hwrites : Writes c op c') :
    c'.HasUniqueKeys table := by
  intro rows hrows
  cases hwrites with
  | nothing => exact h rows hrows
  | close => exact h rows hrows
  | load hcheck =>
    have hlookup := Assoc.lookup_insertAll_of_forall_ne hkeeps c.store.tables
    exact h rows (hlookup.symm.trans hrows)
  | createTable hname hnew =>
    rcases Assoc.lookup_insert_eq_some hrows with ⟨-, rfl⟩ | hbefore
    · exact ⟨⟨by simp, List.Pairwise.nil⟩, by simp [AreDocuments]⟩
    · exact h rows hbefore
  | dropTable name => exact h rows (Assoc.lookup_remove_eq_some hrows)
  | insert hop hprepared hfound hfresh =>
    rcases Assoc.lookup_insert_eq_some hrows with ⟨rfl, rfl⟩ | hbefore
    · obtain ⟨hkeyed, hdocs⟩ := h _ hfound
      have hkeys := forall_of_prepareAll (p := fun _ => True)
        (fun _ _ _ _ _ hrow => exists_key_of_prepare hrow) (fun _ _ => trivial) hprepared
      exact ⟨hkeyed.append hkeys hfresh, List.forall_mem_append.mpr
        ⟨hdocs, areDocuments_of_prepareAll (hnames.of_insert hop) hprepared⟩⟩
    · exact h rows hbefore
  | update hselect hchange hfound =>
    rcases Assoc.lookup_insert_eq_some hrows with ⟨rfl, rfl⟩ | hbefore
    · obtain ⟨hkeyed, hdocs⟩ := h _ hfound
      have hsub := (subperm_of_select hfound (fun row hrow => (hdocs row hrow).1) hselect).subset
      exact ⟨keyed_patchAll hkeyed (fun row hrow => (hdocs row hrow).2) hnames hsub (hkeeps rfl)
        hchange, hdocs.patchAll hnames _⟩
    · exact h rows hbefore
  | destroy hselect hfound =>
    rcases Assoc.lookup_insert_eq_some hrows with ⟨rfl, rfl⟩ | hbefore
    · obtain ⟨hkeyed, hdocs⟩ := h _ hfound
      exact ⟨hkeyed.sublist List.filter_sublist,
        fun row hrow => hdocs row (List.mem_filter.mp hrow).1⟩
    · exact h rows hbefore

theorem HasUniqueKeys.performAll (h : c.HasUniqueKeys table) {ops : List Operation}
    (hops : ∀ op ∈ ops, op.HasDistinctNames ∧ op.KeepsKeys c.options.primaryKey table) :
    (c.performAll ops).2.HasUniqueKeys table := by
  induction ops generalizing c with
  | nil => exact h
  | cons op rest ih =>
    rw [List.forall_mem_cons] at hops
    obtain ⟨⟨hnames, hkeeps⟩, hrest⟩ := hops
    -- the primary key of the later operations is the one of the first connection
    have hwrites := writes_perform c op
    rw [← hwrites.options_eq] at hrest
    exact ih (h.of_writes hnames hkeeps hwrites) hrest

theorem options_performAll (c : Connection) (ops : List Operation) :
    (c.performAll ops).2.options = c.options := by
  induction ops generalizing c with
  | nil => rfl
  | cons op rest ih => exact (ih _).trans (writes_perform c op).options_eq

end Connection

/-! ## Main statement -/

/-- A table that is created empty has unique keys after any operations, whether they succeed or
    fail, provided that it is not loaded and no update of it writes a primary key that is not
    sharp. -/
theorem keys_stay_unique [PatternLibrary] {c : Connection} {table : String}
    (hempty : c.store.tables.lookup table = some []) {ops : List Operation}
    (hops : ∀ op ∈ ops, op.HasDistinctNames ∧ op.KeepsKeys c.options.primaryKey table)
    {rows : List Value} (hrows : (c.performAll ops).2.store.tables.lookup table = some rows) :
    Keyed c.options.primaryKey rows := by
  have hunique : c.HasUniqueKeys table := by
    intro rows hfound
    obtain rfl := Option.some.inj (hempty.symm.trans hfound)
    exact ⟨⟨by simp, List.Pairwise.nil⟩, by simp [AreDocuments]⟩
  have hkeyed := (hunique.performAll hops rows hrows).1
  rwa [c.options_performAll ops] at hkeyed

/-- The number `1` is written as a double, which is sharp. -/
theorem keys_stay_unique_one_as_double :
    let key (i : Int) (h : -2 ^ 63 ≤ i ∧ i < 2 ^ 64) : Value := .number (.integer i h)
    let one : Double := ⟨false, 2 ^ 52, -52, by decide, by decide, by decide⟩
    let store : Store := ⟨⟨"test", by decide, by decide⟩, [("t", [])]⟩
    let c : Connection := ⟨"main", {}, store, ⟨fun _ => "", 0⟩, false⟩
    let first : Descriptor := { filter := some [.field "id" (.equal (key 1 (by decide)))] }
    let ops : List Operation := [
      .createEach "t" [.object [("id", key 1 (by decide))], .object [("id", key 2 (by decide))]],
      .create "t" (.object [("id", key 2 (by decide))]),
      .update "t" first (.object [("id", .number (.double one))])]
    c.store.tables.lookup "t" = some [] ∧
      (∀ op ∈ ops, op.HasDistinctNames ∧ op.KeepsKeys "id" "t") ∧
      ∃ rows, (c.performAll ops).2.store.tables.lookup "t" = some rows ∧ rows.length = 2 ∧
        Keyed "id" rows := by
  intro key one store c first ops
  have hops : ∀ op ∈ ops, op.HasDistinctNames ∧ op.KeepsKeys "id" "t" := by
    intro op hop
    simp only [ops, List.mem_cons, List.not_mem_nil, or_false] at hop
    rcases hop with rfl | rfl | rfl
    · exact ⟨by rw [Operation.HasDistinctNames]; decide, trivial⟩
    · exact ⟨by rw [Operation.HasDistinctNames]; decide, trivial⟩
    · refine ⟨by rw [Operation.HasDistinctNames]; decide, fun _ key hkey => ?_⟩
      obtain rfl := Option.some.inj hkey
      exact Value.isSharp_of_comparesExactly _ (by decide +kernel)
  have hlength : ((c.performAll ops).2.store.tables.lookup "t").any (·.length == 2) = true := by
    decide +kernel
  obtain ⟨rows, hrows, hlength⟩ := (Option.any_eq_true _ _).mp hlength
  exact ⟨rfl, hops, rows, hrows, beq_iff_eq.mp hlength, keys_stay_unique rfl hops hrows⟩

/-- The double `2 ^ 53` equals the whole numbers `2 ^ 53` and `2 ^ 53 + 1`. An update that writes it
    over the first of these keys is accepted, and then two rows have equal keys. -/
theorem rounded_key_written_twice :
    let key (i : Int) (h : -2 ^ 63 ≤ i ∧ i < 2 ^ 64) : Value := .number (.integer i h)
    let rounded : Double := ⟨false, 2 ^ 52, 1, by decide, by decide, by decide⟩
    let store : Store := ⟨⟨"test", by decide, by decide⟩, [("t", [])]⟩
    let c : Connection := ⟨"main", {}, store, ⟨fun _ => "", 0⟩, false⟩
    let first : Descriptor := { filter := some [.field "id" (.equal (key (2 ^ 53) (by decide)))] }
    let ops : List Operation := [
      .createEach "t" [.object [("id", key (2 ^ 53) (by decide))],
        .object [("id", key (2 ^ 53 + 1) (by decide))]],
      .update "t" first (.object [("id", .number (.double rounded))])]
    c.store.tables.lookup "t" = some [] ∧ (∀ op ∈ ops, op.HasDistinctNames) ∧
      ∃ rows, (c.performAll ops).2.store.tables.lookup "t" = some rows ∧ ¬ Keyed "id" rows := by
  intro key rounded store c first ops
  have hnames : ∀ op ∈ ops, op.HasDistinctNames := by
    intro op hop
    simp only [ops, List.mem_cons, List.not_mem_nil, or_false] at hop
    rcases hop with rfl | rfl
    · rw [Operation.HasDistinctNames]
      decide
    · rw [Operation.HasDistinctNames]
      decide
  have hequal : ((c.performAll ops).2.store.tables.lookup "t").any (fun rows => ¬ Keyed "id" rows)
      = true := by
    decide +kernel
  obtain ⟨rows, hrows, hequal⟩ := (Option.any_eq_true _ _).mp hequal
  exact ⟨rfl, hnames, rows, hrows, of_decide_eq_true hequal⟩

end DocQuery
