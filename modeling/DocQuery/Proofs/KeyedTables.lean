import DocQuery.Proofs.Patching
import DocQuery.Proofs.Selection
import DocQuery.Proofs.Writes

set_option autoImplicit false

/-! # Updating and destroying in keyed tables

Both operations run a query, keep the keys of the documents it finds and go back to the rows by
these keys. Where every row has a key and no two keys are equal (`Keyed`) this comes back to the
documents that were found and to no others, whatever the order in which they were found
(`update_destroy_of_keyed`). -/

namespace DocQuery

/-- Every row has a primary key, and no two have equal ones. -/
structure Keyed (primaryKey : String) (rows : List Value) : Prop where
  hasKey : ∀ row ∈ rows, ∃ key, row.field? primaryKey = some key
  unequal : rows.Pairwise (fun a b =>
    ∀ key, b.field? primaryKey = some key → hasIndexKey primaryKey key a = false)

instance (primaryKey : String) (rows : List Value) : Decidable (Keyed primaryKey rows) :=
  decidable_of_iff ((∀ row ∈ rows, (row.field? primaryKey).isSome) ∧
      rows.Pairwise (fun a b => (b.field? primaryKey).all (!hasIndexKey primaryKey · a))) (by
    simp only [Option.isSome_iff_exists, Option.all_eq_true,
      Bool.not_eq_true']
    exact ⟨fun h => ⟨h.1, h.2⟩, fun h => ⟨h.hasKey, h.unequal⟩⟩)

variable {primaryKey : String} {patch : Assoc Value} {rows rows' selected : List Value}

/-! ## Keyed rows -/

/-- Whether rows are keyed is a matter of their keys. -/
theorem keyed_iff : Keyed primaryKey rows ↔
    (∀ v ∈ rows.map (·.field? primaryKey), ∃ key, v = some key) ∧
      (rows.map (·.field? primaryKey)).Pairwise
        (fun v w => ∀ key, w = some key → v.any (·.equals key) = false) := by
  rw [List.pairwise_map]
  simp only [List.forall_mem_map, ← hasIndexKey_eq_any]
  exact ⟨fun h => ⟨h.hasKey, h.unequal⟩, fun h => ⟨h.1, h.2⟩⟩

namespace Keyed

theorem of_map_key_eq (h : Keyed primaryKey rows)
    (heq : rows'.map (·.field? primaryKey) = rows.map (·.field? primaryKey)) :
    Keyed primaryKey rows' := by
  rw [keyed_iff] at h ⊢
  rwa [heq]

theorem sublist (h : Keyed primaryKey rows) (hsub : rows'.Sublist rows) :
    Keyed primaryKey rows' :=
  ⟨fun row hrow => h.hasKey row (hsub.subset hrow), h.unequal.sublist hsub⟩

variable (h : Keyed primaryKey rows) (hnames : ∀ row ∈ rows, row.hasDistinctNames = true)
include h hnames

/-- The row that has the key of a row is that row. -/
theorem position_eq {i j : Nat} {a b key : Value} (ha : rows[i]? = some a)
    (hb : rows[j]? = some b) (hkey : b.field? primaryKey = some key)
    (hsame : hasIndexKey primaryKey key a = true) : i = j := by
  obtain ⟨v, hv, hequal⟩ := hasIndexKey_iff.mp hsame
  have hvnames := hasDistinctNames_key hnames ha hv
  have hknames := hasDistinctNames_key hnames hb hkey
  obtain ⟨hi, rfl⟩ := List.getElem?_eq_some_iff.mp ha
  obtain ⟨hj, rfl⟩ := List.getElem?_eq_some_iff.mp hb
  have hpairs := List.pairwise_iff_getElem.mp h.unequal
  rcases Nat.lt_trichotomy i j with hlt | heq | hgt
  · rw [hpairs i j hi hj hlt key hkey] at hsame
    cases hsame
  · exact heq
  · -- the earlier of the two is `b`: equality has to be turned round
    have hb := hpairs j i hj hi hgt v hv
    rw [hasIndexKey_iff.mpr ⟨key, hkey, Value.equals_symm v key hvnames hknames hequal⟩] at hb
    cases hb

/-- Looking for the key of a row finds the row. -/
theorem findIdx?_eq {i : Nat} {row key : Value} (hrow : rows[i]? = some row)
    (hkey : row.field? primaryKey = some key) :
    rows.findIdx? (hasIndexKey primaryKey key) = some i := by
  have hself : hasIndexKey primaryKey key row = true := by
    refine hasIndexKey_iff.mpr ⟨key, hkey, Value.equals_self key ?_⟩
    exact hasDistinctNames_key hnames hrow hkey
  obtain ⟨hi, hget⟩ := List.getElem?_eq_some_iff.mp hrow
  refine List.findIdx?_eq_some_iff_getElem.mpr ⟨hi, hget.symm ▸ hself, fun j hj hother => ?_⟩
  have heq := h.position_eq hnames (List.getElem?_eq_getElem (Nat.lt_trans hj hi)) hrow hkey hother
  exact absurd heq (Nat.ne_of_lt hj)

theorem nodup : rows.Nodup := by
  refine List.pairwise_iff_getElem.mpr (fun i j hi hj hij heq => ?_)
  have ha : rows[i]? = some rows[i] := List.getElem?_eq_getElem hi
  have hb : rows[j]? = some rows[j] := List.getElem?_eq_getElem hj
  obtain ⟨key, hkey⟩ := h.hasKey _ (List.getElem_mem hj)
  have hfirst := h.findIdx?_eq hnames ha (heq ▸ hkey)
  rw [h.findIdx?_eq hnames hb hkey] at hfirst
  exact absurd (Option.some.inj hfirst) (Nat.ne_of_gt hij)

/-- A row has the key of a row only if it is that row. -/
theorem hasIndexKey_iff_eq {a b key : Value} (ha : a ∈ rows) (hb : b ∈ rows)
    (hkey : b.field? primaryKey = some key) :
    hasIndexKey primaryKey key a = true ↔ a = b := by
  obtain ⟨i, hi⟩ := List.mem_iff_getElem?.mp ha
  obtain ⟨j, hj⟩ := List.mem_iff_getElem?.mp hb
  constructor
  · intro hsame
    obtain rfl := h.position_eq hnames hi hj hkey hsame
    exact Option.some.inj (hi.symm.trans hj)
  · rintro rfl
    exact Connection.hasIndexKey_of_findIdx? (h.findIdx?_eq hnames hi hkey) hi

variable (hselected : selected ⊆ rows)
include hselected

/-- A row has one of the keys of selected rows only if it is selected. -/
theorem hasKeyIn_iff_mem {row : Value} (hrow : row ∈ rows) :
    Connection.hasKeyIn primaryKey (Connection.keysOf primaryKey selected) row = true ↔
      row ∈ selected := by
  rw [Connection.hasKeyIn_iff]
  constructor
  · rintro ⟨key, hmem, hsame⟩
    obtain ⟨b, hb, hkey⟩ := List.mem_filterMap.mp hmem
    rwa [(h.hasIndexKey_iff_eq hnames hrow (hselected hb) hkey).mp hsame]
  · intro hmem
    obtain ⟨key, hkey⟩ := h.hasKey row hrow
    exact ⟨key, List.mem_filterMap.mpr ⟨row, hmem, hkey⟩,
      (h.hasIndexKey_iff_eq hnames hrow hrow hkey).mpr rfl⟩

/-- Going back to the rows by the keys of selected rows comes to the selected rows. -/
theorem mem_firstPositions_iff {i : Nat} {row : Value} (hrow : rows[i]? = some row) :
    i ∈ Connection.firstPositions primaryKey rows (Connection.keysOf primaryKey selected) ↔
      row ∈ selected := by
  rw [Connection.mem_firstPositions]
  constructor
  · rintro ⟨key, hmem, hfirst⟩
    obtain ⟨b, hb, hkey⟩ := List.mem_filterMap.mp hmem
    have hsame := Connection.hasIndexKey_of_findIdx? hfirst hrow
    have hrow' := List.mem_of_getElem? hrow
    rwa [(h.hasIndexKey_iff_eq hnames hrow' (hselected hb) hkey).mp hsame]
  · intro hmem
    obtain ⟨key, hkey⟩ := h.hasKey row (List.mem_of_getElem? hrow)
    exact ⟨key, List.mem_filterMap.mpr ⟨row, hmem, hkey⟩, h.findIdx?_eq hnames hrow hkey⟩

/-- The patched rows are returned in the order in which they were selected. -/
theorem filterMap_firstPositions (f : Value → Value) :
    (Connection.firstPositions primaryKey rows (Connection.keysOf primaryKey selected)).filterMap
      (fun i => rows[i]?.map f) = selected.map f := by
  rw [Connection.firstPositions, Connection.keysOf, List.filterMap_filterMap,
    List.filterMap_filterMap, ← List.filterMap_eq_map]
  refine List.filterMap_congr (fun row hrow => ?_)
  obtain ⟨key, hkey⟩ := h.hasKey row (hselected hrow)
  obtain ⟨i, hi⟩ := List.mem_iff_getElem?.mp (hselected hrow)
  rw [hkey, Option.bind_some, h.findIdx?_eq hnames hi hkey, Option.bind_some, hi]
  rfl

omit hnames in
/-- Each of the selected rows has a key. -/
theorem map_some_keysOf : (Connection.keysOf primaryKey selected).map some =
    selected.map (·.field? primaryKey) := by
  induction selected with
  | nil => rfl
  | cons row rest ih =>
    obtain ⟨hrow, hrest⟩ := List.cons_subset.mp hselected
    obtain ⟨key, hkey⟩ := h.hasKey row hrow
    have htail := ih hrest
    rw [Connection.keysOf] at htail ⊢
    rw [List.filterMap_cons, hkey, List.map_cons, List.map_cons, htail, hkey]

end Keyed

/-! ## Main statement -/

/-- The rows stand where they stood, the selected ones patched and the others as they were. -/
structure IsPatched (patch : Assoc Value) (selected rows rows' : List Value) : Prop where
  length_eq : rows'.length = rows.length
  patched : ∀ (i : Nat) (row : Value), rows[i]? = some row → row ∈ selected →
    rows'[i]? = some (row.patched patch)
  same : ∀ (i : Nat) (row : Value), rows[i]? = some row → row ∉ selected → rows'[i]? = some row

/-- The rows that are not selected are left, in their order. -/
def IsLeft (selected rows rows' : List Value) : Prop :=
  ∃ keep : Value → Bool, (∀ row ∈ rows, keep row = true ↔ row ∉ selected) ∧
    rows' = rows.filter keep

/-- Of all the tables only one has been written. -/
structure Connection.OnlyRows (c c' : Connection) (table : String) (rows : List Value) : Prop where
  written : c'.store.tables.lookup table = some rows
  others : ∀ name, name ≠ table → c'.store.tables.lookup name = c.store.tables.lookup name
  names : c'.store.tables.keys = c.store.tables.keys

namespace Connection

open DocQuery.Action

variable {c : Connection} {table : String}

theorem onlyRows_withRows (hrows : c.store.tables.lookup table = some rows)
    (rows' : List Value) : c.OnlyRows (c.withRows table rows') table rows' where
  written := Assoc.lookup_insert_self _ _ _
  others := fun name hname => Assoc.lookup_insert_of_ne _ _ hname
  names := by
    refine Assoc.keys_insert_of_mem rows' ?_
    rw [← Assoc.hasKey_iff_mem_keys, Assoc.hasKey, hrows]
    rfl

variable [PatternLibrary]

/-- What updating does to a keyed table once the documents are found. -/
theorem on_update_of_keyed {d : Descriptor} (hopen : c.checkHandle = .ok ())
    (hrows : c.store.tables.lookup table = some rows)
    (hkeyed : Keyed c.options.primaryKey rows)
    (hnames : ∀ row ∈ rows, row.hasDistinctNames = true)
    (hpatch : (Value.object patch).hasDistinctNames = true)
    (hno : patch.hasKey c.options.primaryKey = false)
    (hselect : c.select table d.withoutJoins = .ok selected) (hsub : selected ⊆ rows) :
    ∃ rows', (update table d (.object patch)).on c =
        (.ok (selected.map (·.patched patch)), c.withRows table rows') ∧
      IsPatched patch selected rows rows' ∧ Keyed c.options.primaryKey rows' := by
  obtain ⟨hnodup, -⟩ := Value.hasDistinctNames_object.mp hpatch
  have hpatchAll := patchAll_of_not_hasKey hno hnodup rows
    (keysOf c.options.primaryKey selected)
  have hchange : changesKey c.options.primaryKey patch
      (keysOf c.options.primaryKey selected) = false := by
    rw [changesKey, Assoc.hasKey_eq_false_iff.mp hno]
  refine ⟨_, on_update_eq_ok.mpr ⟨hopen, patch, selected, rows, rfl, hselect, hchange, hrows, ?_,
    rfl⟩, ⟨length_patchAll _ _, ?_, ?_⟩, hkeyed.of_map_key_eq (map_key_patchAll hno _ _)⟩
  · rw [hpatchAll]
    exact hkeyed.filterMap_firstPositions hnames hsub _
  · intro i row hrow hmem
    rw [hpatchAll, List.getElem?_mapIdx, hrow, Option.map_some,
      if_pos ((hkeyed.mem_firstPositions_iff hnames hsub hrow).mpr hmem)]
  · intro i row hrow hmem
    rw [hpatchAll, List.getElem?_mapIdx, hrow, Option.map_some,
      if_neg (mt (hkeyed.mem_firstPositions_iff hnames hsub hrow).mp hmem)]

/-- What destroying does to a keyed table once the documents are found. -/
theorem on_destroy_of_keyed {d : Descriptor} (hopen : c.checkHandle = .ok ())
    (hrows : c.store.tables.lookup table = some rows)
    (hkeyed : Keyed c.options.primaryKey rows)
    (hnames : ∀ row ∈ rows, row.hasDistinctNames = true)
    (hselect : c.select table d.withoutJoins = .ok selected) (hsub : selected ⊆ rows) :
    ∃ keys rows', (destroy table d).on c = (.ok keys, c.withRows table rows') ∧
      keys.map some = selected.map (·.field? c.options.primaryKey) ∧
      IsLeft selected rows rows' ∧ Keyed c.options.primaryKey rows' := by
  refine ⟨_, _, on_destroy_eq_ok.mpr ⟨hopen, selected, rows, hselect, hrows, rfl, rfl⟩,
    hkeyed.map_some_keysOf hsub, ⟨_, ?_, rfl⟩, hkeyed.sublist List.filter_sublist⟩
  intro row hrow
  rw [Bool.not_eq_true', ← Bool.not_eq_true, not_iff_not]
  exact hkeyed.hasKeyIn_iff_mem hnames hsub hrow

/-- Where nothing is found there is nothing to update or to destroy. -/
theorem on_of_find_error {d : Descriptor} {e : TableError}
    (h : c.find table d.withoutJoins = .error e) (patch : Assoc Value) :
    (update table d (.object patch)).on c = (.error e, c) ∧
      (destroy table d).on c = (.error e, c) := by
  unfold find at h
  unfold update destroy
  cases hopen : c.checkHandle with
  | error e' =>
    rw [hopen] at h
    obtain rfl := Except.error.inj h
    simp [on_bind, hopen]
  | ok =>
    rw [hopen, ok_bind] at h
    have hkeys : c.selectedKeys table d = .error e := by
      rw [selectedKeys, h]
      rfl
    simp [on_bind, hopen, hkeys]

end Connection

/-- On a keyed table an update without the primary key patches the documents that are found, and
    returns them in the order in which they are found; destroying removes them and returns their
    keys in that order. Neither touches any other row or table, and the table stays keyed. Finding
    fails only on a closed connection, for a pattern that is refused, or for many rows that are
    sorted by values in no transitive order; both operations then fail with the same error and
    change nothing. -/
theorem update_destroy_of_keyed [PatternLibrary] {c : Connection} {table : String}
    (hrows : c.store.tables.lookup table = some rows)
    (hkeyed : Keyed c.options.primaryKey rows)
    (hnames : ∀ row ∈ rows, row.hasDistinctNames = true)
    (hpatch : (Value.object patch).hasDistinctNames = true)
    (hno : patch.hasKey c.options.primaryKey = false) (d : Descriptor) :
    (∃ e, c.find table d.withoutJoins = .error e ∧
        (c.closed = true ∨ (∃ fault, d.Refuses fault ∧ e = .query fault) ∨
          20 < (d.kept rows).length ∧ ¬ SortsTransitively d.sortKeys (d.kept rows) ∧
            e = .store .taskFailed) ∧
        (Connection.update table d (.object patch)).on c = (.error e, c) ∧
        (Connection.destroy table d).on c = (.error e, c)) ∨
      ∃ found, c.find table d.withoutJoins = .ok found ∧ found.Nodup ∧ found ⊆ rows ∧
        (∃ c' rows', (Connection.update table d (.object patch)).on c =
            (.ok (found.map (·.patched patch)), c') ∧
          IsPatched patch found rows rows' ∧ c.OnlyRows c' table rows' ∧
          Keyed c.options.primaryKey rows') ∧
        ∃ c' rows' keys, (Connection.destroy table d).on c = (.ok keys, c') ∧
          keys.map some = found.map (·.field? c.options.primaryKey) ∧
          IsLeft found rows rows' ∧ c.OnlyRows c' table rows' ∧
          Keyed c.options.primaryKey rows' := by
  have hobjects : ∀ row ∈ rows, row.isObject = true := by
    intro row hrow
    obtain ⟨key, hkey⟩ := hkeyed.hasKey row hrow
    exact isObject_of_field? hkey
  cases hfind : c.find table d.withoutJoins with
  | error e =>
    obtain ⟨hupdate, hdestroy⟩ := Connection.on_of_find_error hfind patch
    refine Or.inl ⟨e, rfl, ?_, hupdate, hdestroy⟩
    cases hclosed : c.closed with
    | true => exact Or.inl rfl
    | false =>
      rw [Connection.find, Connection.checkHandle_of_open hclosed, ok_bind] at hfind
      rcases Connection.select_withoutJoins hrows hobjects d with h | ⟨fault, hfault, h⟩ |
        ⟨hmany, hsort, h⟩
      · cases hfind.symm.trans h
      · exact Or.inr (Or.inl ⟨fault, hfault, Except.error.inj (hfind.symm.trans h)⟩)
      · exact Or.inr (Or.inr ⟨hmany, hsort, Except.error.inj (hfind.symm.trans h)⟩)
  | ok found =>
    right
    obtain ⟨⟨⟩, hopen, hselect⟩ := bind_eq_ok.mp hfind
    -- no two rows of the table are the same, so nothing is found twice
    have hsubperm := Connection.subperm_of_select hrows hobjects hselect
    have hnodup : found.Nodup := by
      obtain ⟨l, hperm, hsub⟩ := hsubperm
      exact hperm.nodup_iff.mp (hsub.nodup (hkeyed.nodup hnames))
    obtain ⟨rows', hupdate, hpatched, hkeyed'⟩ := Connection.on_update_of_keyed hopen hrows hkeyed
      hnames hpatch hno hselect hsubperm.subset
    obtain ⟨keys, left, hdestroy, hkeys, hleft, hkeyed''⟩ := Connection.on_destroy_of_keyed hopen
      hrows hkeyed hnames hselect hsubperm.subset
    exact ⟨found, rfl, hnodup, hsubperm.subset,
      ⟨_, rows', hupdate, hpatched, Connection.onlyRows_withRows hrows rows', hkeyed'⟩,
      ⟨_, left, keys, hdestroy, hkeys, hleft, Connection.onlyRows_withRows hrows left, hkeyed''⟩⟩

/-- The second of three documents of a kind is updated, and destroyed. -/
theorem update_destroy_of_keyed_second_of_kind :
    let row (key kind : String) : Value := .object [("id", .string key), ("kind", .string kind)]
    let rows : List Value := [row "1" "a", row "2" "b", row "3" "b", row "4" "b"]
    let store : Store := ⟨⟨"test", by decide, by decide⟩, [("t", rows), ("u", [])]⟩
    let c : Connection := ⟨"main", {}, store, ⟨fun _ => "", 0⟩, false⟩
    let patch : Assoc Value := [("kind", .string "c")]
    let d : Descriptor := {
      filter := some [.field "kind" (.equal (.string "b"))], skip := some 1, limit := some 1 }
    c.store.tables.lookup "t" = some rows ∧ Keyed "id" rows ∧
      (∀ row ∈ rows, row.hasDistinctNames = true) ∧
      (Value.object patch).hasDistinctNames = true ∧ patch.hasKey "id" = false ∧
      c.find "t" d.withoutJoins = .ok [row "3" "b"] ∧
      (∃ c' rows', (Connection.update "t" d (.object patch)).on c = (.ok [row "3" "c"], c') ∧
        IsPatched patch [row "3" "b"] rows rows' ∧ c.OnlyRows c' "t" rows') ∧
      ∃ c' rows' keys, (Connection.destroy "t" d).on c = (.ok keys, c') ∧
        keys.map some = [some (.string "3")] ∧
        IsLeft [row "3" "b"] rows rows' ∧ c.OnlyRows c' "t" rows' := by
  intro row rows store c patch d
  have hrows : c.store.tables.lookup "t" = some rows := rfl
  have hkeyed : Keyed "id" rows := by decide
  have hnames : ∀ row ∈ rows, row.hasDistinctNames = true := by decide
  have hpatch : (Value.object patch).hasDistinctNames = true := by decide
  have hfind : c.find "t" d.withoutJoins = .ok [row "3" "b"] := rfl
  refine ⟨hrows, hkeyed, hnames, hpatch, rfl, hfind, ?_⟩
  rcases update_destroy_of_keyed hrows hkeyed hnames hpatch rfl d with ⟨e, herror, -⟩ |
    ⟨found, hfound, -, -, ⟨c₁, rows₁, hupdate, hpatched, honly₁, -⟩,
      ⟨c₂, rows₂, keys, hdestroy, hkeys, hleft, honly₂, -⟩⟩
  · rw [hfind] at herror
    cases herror
  · obtain rfl := Except.ok.inj (hfind.symm.trans hfound)
    exact ⟨⟨c₁, rows₁, hupdate, hpatched, honly₁⟩,
      ⟨c₂, rows₂, keys, hdestroy, hkeys, hleft, honly₂⟩⟩

end DocQuery
