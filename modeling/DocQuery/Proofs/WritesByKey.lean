import DocQuery.Proofs.KeyedTables
import DocQuery.Proofs.StoredDocuments

set_option autoImplicit false

/-! # Writing by key

Updating and destroying select positions of a table but write by key. Loading asks neither for keys
nor for different ones, so the two need not agree: a row that shares its key with a selected one is
destroyed with it, of several rows with one key only the first is patched, and a selected row
without a key is left alone (`destroy_takes_rows_with_key`). Nothing else can go wrong
(`written_by_key`): a row that shares its key with no selected row is never touched, and on success
a selected row that has a key is destroyed, and is patched if no other row has its key. -/

namespace DocQuery

/-- The row at position `i` has the key of the row at position `s`. -/
def SharesKey (primaryKey : String) (rows : List Value) (i s : Nat) : Prop :=
  ∃ row source key, rows[i]? = some row ∧ rows[s]? = some source ∧
    source.field? primaryKey = some key ∧ hasIndexKey primaryKey key row = true

/-- The row at position `i` is the first that has the key of the row at position `s`. -/
def IsFirstSharing (primaryKey : String) (rows : List Value) (i s : Nat) : Prop :=
  SharesKey primaryKey rows i s ∧ ∀ j < i, ¬ SharesKey primaryKey rows j s

/-- The rows at the positions that are kept, in their order. -/
def rowsAt (keep : Nat → Bool) (rows : List Value) : List Value :=
  (rows.zipIdx.filter (fun r => keep r.2)).map Prod.fst

variable {primaryKey : String} {patch : Assoc Value} {rows : List Value}
  {positions : List Nat} {i s : Nat} {row : Value}

/-! ## Keys of selected positions -/

theorem sharesKey_iff {source key : Value} (hsource : rows[s]? = some source)
    (hkey : source.field? primaryKey = some key) (hrow : rows[i]? = some row) :
    SharesKey primaryKey rows i s ↔ hasIndexKey primaryKey key row = true := by
  constructor
  · rintro ⟨row', source', key', hrow', hsource', hkey', hsame⟩
    obtain rfl := Option.some.inj (hrow.symm.trans hrow')
    obtain rfl := Option.some.inj (hsource.symm.trans hsource')
    obtain rfl := Option.some.inj (hkey.symm.trans hkey')
    exact hsame
  · exact fun hsame => ⟨row, source, key, hrow, hsource, hkey, hsame⟩

/-- A row that has a key has its own key. -/
theorem sharesKey_self {key : Value} (hrow : rows[s]? = some row)
    (hkey : row.field? primaryKey = some key) (hnames : row.hasDistinctNames = true) :
    SharesKey primaryKey rows s s := by
  refine (sharesKey_iff hrow hkey hrow).mpr (hasIndexKey_iff.mpr ⟨key, hkey, ?_⟩)
  exact Value.equals_self key (Value.hasDistinctNames_of_field hnames hkey)

theorem findIdx?_eq_some_iff_isFirstSharing {source key : Value} (hsource : rows[s]? = some source)
    (hkey : source.field? primaryKey = some key) :
    rows.findIdx? (hasIndexKey primaryKey key) = some i ↔ IsFirstSharing primaryKey rows i s := by
  have hshares : ∀ (j : Nat) (hj : j < rows.length), SharesKey primaryKey rows j s ↔
      hasIndexKey primaryKey key rows[j] = true :=
    fun j hj => sharesKey_iff hsource hkey (List.getElem?_eq_getElem hj)
  rw [List.findIdx?_eq_some_iff_getElem]
  constructor
  · rintro ⟨hi, hsame, hbefore⟩
    refine ⟨(hshares i hi).mpr hsame, fun j hj => ?_⟩
    rw [hshares j (Nat.lt_trans hj hi)]
    exact hbefore j hj
  · rintro ⟨hfirst, hbefore⟩
    have hi : i < rows.length := by
      obtain ⟨row, -, -, hrow, -⟩ := hfirst
      exact (List.getElem?_eq_some_iff.mp hrow).1
    refine ⟨hi, (hshares i hi).mp hfirst, fun j hj => ?_⟩
    rw [← hshares j (Nat.lt_trans hj hi)]
    exact hbefore j hj

namespace Connection

/-- The keys of the rows at the positions, where one has a key. -/
def keysAt (primaryKey : String) (rows : List Value) (positions : List Nat) : List Value :=
  keysOf primaryKey (positions.filterMap (rows[·]?))

theorem mem_keysAt {key : Value} : key ∈ keysAt primaryKey rows positions ↔
    ∃ s ∈ positions, ∃ source, rows[s]? = some source ∧ source.field? primaryKey = some key := by
  unfold keysAt keysOf
  simp only [List.mem_filterMap]
  constructor
  · rintro ⟨source, ⟨s, hs, hsource⟩, hkey⟩
    exact ⟨s, hs, source, hsource, hkey⟩
  · rintro ⟨s, hs, source, hsource, hkey⟩
    exact ⟨source, ⟨s, hs, hsource⟩, hkey⟩

/-- A row has the key of a selected row if it shares its key with a selected position. -/
theorem hasKeyIn_iff_sharesKey (hrow : rows[i]? = some row) :
    hasKeyIn primaryKey (keysAt primaryKey rows positions) row = true ↔
      ∃ s ∈ positions, SharesKey primaryKey rows i s := by
  rw [hasKeyIn_iff]
  constructor
  · rintro ⟨key, hmem, hsame⟩
    obtain ⟨s, hs, source, hsource, hkey⟩ := mem_keysAt.mp hmem
    exact ⟨s, hs, (sharesKey_iff hsource hkey hrow).mpr hsame⟩
  · rintro ⟨s, hs, row', source, key, hrow', hsource, hkey, hsame⟩
    obtain rfl := Option.some.inj (hrow.symm.trans hrow')
    exact ⟨key, mem_keysAt.mpr ⟨s, hs, source, hsource, hkey⟩, hsame⟩

theorem mem_firstPositions_iff_isFirstSharing :
    i ∈ firstPositions primaryKey rows (keysAt primaryKey rows positions) ↔
      ∃ s ∈ positions, IsFirstSharing primaryKey rows i s := by
  rw [mem_firstPositions]
  constructor
  · rintro ⟨key, hmem, hfirst⟩
    obtain ⟨s, hs, source, hsource, hkey⟩ := mem_keysAt.mp hmem
    exact ⟨s, hs, (findIdx?_eq_some_iff_isFirstSharing hsource hkey).mp hfirst⟩
  · rintro ⟨s, hs, hfirst⟩
    obtain ⟨-, source, key, -, hsource, hkey, -⟩ := hfirst.1
    exact ⟨key, mem_keysAt.mpr ⟨s, hs, source, hsource, hkey⟩,
      (findIdx?_eq_some_iff_isFirstSharing hsource hkey).mpr hfirst⟩

end Connection

/-! ## What is destroyed -/

theorem filter_eq_rowsAt {p : Value → Bool} {keep : Nat → Bool}
    (h : ∀ (i : Nat) (row : Value), rows[i]? = some row → keep i = p row) :
    rows.filter p = rowsAt keep rows := by
  have hzip : rows.zipIdx.filter (fun r => keep r.2) = rows.zipIdx.filter (p ∘ Prod.fst) :=
    List.filter_congr (fun r hr => h r.2 r.1 (List.mk_mem_zipIdx_iff_getElem?.mp hr))
  rw [rowsAt, hzip, ← List.filter_map, List.zipIdx_map_fst]

/-- What destroying keeps: the rows that share no key with a selected position. So a selected row
    that has a key is not kept. -/
structure DestroysByKey (primaryKey : String) (rows : List Value) (positions : List Nat)
    (keep : Nat → Bool) : Prop where
  -- both ways: nothing else is destroyed, and what shares a selected key always is
  destroyed_iff : ∀ i < rows.length,
    keep i = false ↔ ∃ s ∈ positions, SharesKey primaryKey rows i s
  selected : ∀ s ∈ positions, ∀ row key, rows[s]? = some row →
    row.field? primaryKey = some key → keep s = false

/-- What updating leaves: a row that shares no key with a selected position is as it was, and a
    selected row that has a key of its own is patched, unless a key is written that is not sharp. If
    no key is written, exactly the first row of each selected key is patched. -/
structure PatchesByKey (primaryKey : String) (patch : Assoc Value) (rows : List Value)
    (positions : List Nat) (rows' : List Value) : Prop where
  length_eq : rows'.length = rows.length
  same : ∀ (i : Nat) (row : Value), rows[i]? = some row →
    (∀ s ∈ positions, ¬ SharesKey primaryKey rows i s) → rows'[i]? = some row
  -- a key that is not sharp may be given to a row before another selected row is looked for; that
  -- row is then found in its place
  selected : (∀ key, patch.lookup primaryKey = some key → key.IsSharp) →
    ∀ s ∈ positions, ∀ row key, rows[s]? = some row → row.field? primaryKey = some key →
      (∀ i, SharesKey primaryKey rows i s → i = s) → rows'[s]? = some (row.patched patch)
  first : patch.hasKey primaryKey = false → ∀ (i : Nat) (row : Value), rows[i]? = some row →
    ((∃ s ∈ positions, IsFirstSharing primaryKey rows i s) →
      rows'[i]? = some (row.patched patch)) ∧
    ((∀ s ∈ positions, ¬ IsFirstSharing primaryKey rows i s) → rows'[i]? = some row)

namespace Connection

theorem destroysByKey (hdocs : AreDocuments rows) :
    ∃ keep, rows.filter (fun row => !hasKeyIn primaryKey (keysAt primaryKey rows positions) row) =
        rowsAt keep rows ∧
      DestroysByKey primaryKey rows positions keep := by
  let keep (i : Nat) : Bool :=
    rows[i]?.all (fun row => !hasKeyIn primaryKey (keysAt primaryKey rows positions) row)
  have hkeep : ∀ (i : Nat) (row : Value), rows[i]? = some row → keep i =
      !hasKeyIn primaryKey (keysAt primaryKey rows positions) row := by
    intro i row hrow
    simp only [keep, hrow, Option.all_some]
  have hiff : ∀ (i : Nat) (row : Value), rows[i]? = some row →
      (keep i = false ↔ ∃ s ∈ positions, SharesKey primaryKey rows i s) := by
    intro i row hrow
    rw [hkeep i row hrow, Bool.not_eq_false', hasKeyIn_iff_sharesKey hrow]
  refine ⟨keep, filter_eq_rowsAt hkeep, ?_, ?_⟩
  · exact fun i hi => hiff i _ (List.getElem?_eq_getElem hi)
  · intro s hs row key hrow hkey
    have hnames := (hdocs row (List.mem_of_getElem? hrow)).2
    exact (hiff s row hrow).mpr ⟨s, hs, sharesKey_self hrow hkey hnames⟩

/-! ## What is patched -/

/-- Where the selected keys all equal one sharp value, a selected row that shares its key with no
    other row is the only selected row that has a key. -/
theorem eq_key_of_mem_keysAt {w key : Value} (hdocs : AreDocuments rows) (hsharp : w.IsSharp)
    (hequal : ∀ k ∈ keysAt primaryKey rows positions, k.equals w = true)
    (hs : s ∈ positions) (hrow : rows[s]? = some row) (hkey : row.field? primaryKey = some key)
    (halone : ∀ i, SharesKey primaryKey rows i s → i = s) :
    ∀ k ∈ keysAt primaryKey rows positions, k = key := by
  intro k hk
  have hnames : ∀ row ∈ rows, row.hasDistinctNames = true := fun row hrow => (hdocs row hrow).2
  obtain ⟨s', -, source, hsource, hk'⟩ := mem_keysAt.mp hk
  have hkeyw := hequal key (mem_keysAt.mpr ⟨s, hs, row, hrow, hkey⟩)
  have hsame := hsharp k key (hasDistinctNames_key hnames hsource hk')
    (hasDistinctNames_key hnames hrow hkey) (hequal k hk) hkeyw
  obtain rfl := halone s'
    ((sharesKey_iff hrow hkey hsource).mpr (hasIndexKey_iff.mpr ⟨k, hk', hsame⟩))
  obtain rfl := Option.some.inj (hrow.symm.trans hsource)
  exact Option.some.inj (hk'.symm.trans hkey)

/-- A selected row whose key no other row has is patched. -/
theorem getElem?_patchAll_selected (hdocs : AreDocuments rows) (hnodup : patch.keys.Nodup)
    (hchange : changesKey primaryKey patch (keysAt primaryKey rows positions) = false)
    (hsharp : ∀ key, patch.lookup primaryKey = some key → key.IsSharp)
    (hs : s ∈ positions) {key : Value} (hrow : rows[s]? = some row)
    (hkey : row.field? primaryKey = some key)
    (halone : ∀ i, SharesKey primaryKey rows i s → i = s) :
    (patchAll primaryKey patch rows (keysAt primaryKey rows positions)).2[s]? =
      some (row.patched patch) := by
  have hnames := (hdocs row (List.mem_of_getElem? hrow)).2
  have hfirst : IsFirstSharing primaryKey rows s s :=
    ⟨sharesKey_self hrow hkey hnames, fun j hj hj' => absurd (halone j hj') (Nat.ne_of_lt hj)⟩
  cases hw : patch.lookup primaryKey with
  | none =>
    have hno := Assoc.hasKey_eq_false_iff.mpr hw
    rw [patchAll_of_not_hasKey hno hnodup, List.getElem?_mapIdx, hrow, Option.map_some,
      if_pos (mem_firstPositions_iff_isFirstSharing.mpr ⟨s, hs, hfirst⟩)]
  | some w =>
    have hmem := mem_keysAt.mpr ⟨s, hs, row, hrow, hkey⟩
    have hall := eq_key_of_mem_keysAt hdocs (hsharp w hw) (equals_of_changesKey hw hchange) hs hrow
      hkey halone
    -- so the update goes back for this one key only, and finds the row at the first attempt
    cases hkeys : keysAt primaryKey rows positions with
    | nil =>
      rw [hkeys] at hmem
      cases hmem
    | cons k rest =>
      rw [hkeys] at hall
      obtain rfl := hall k List.mem_cons_self
      exact getElem?_patchAll_of_first hnodup
        ((findIdx?_eq_some_iff_isFirstSharing hrow hkey).mpr hfirst) hrow

theorem patchesByKey (hdocs : AreDocuments rows) (hnodup : patch.keys.Nodup)
    (hchange : changesKey primaryKey patch (keysAt primaryKey rows positions) = false) :
    PatchesByKey primaryKey patch rows positions
      (patchAll primaryKey patch rows (keysAt primaryKey rows positions)).2 where
  length_eq := length_patchAll rows _
  same := by
    intro i row hrow hnone
    refine getElem?_patchAll_of_no_key hrow (fun key hmem => ?_)
    obtain ⟨s, hs, source, hsource, hkey⟩ := mem_keysAt.mp hmem
    rw [← Bool.not_eq_true, ← sharesKey_iff hsource hkey hrow]
    exact hnone s hs
  selected := fun hsharp s hs row key hrow hkey halone =>
    getElem?_patchAll_selected hdocs hnodup hchange hsharp hs hrow hkey halone
  first := by
    intro hno i row hrow
    rw [patchAll_of_not_hasKey hno hnodup, List.getElem?_mapIdx, hrow, Option.map_some]
    constructor
    · intro hfirst
      rw [if_pos (mem_firstPositions_iff_isFirstSharing.mpr hfirst)]
    · intro hnone
      rw [if_neg]
      intro hmem
      obtain ⟨s, hs, hfirst⟩ := mem_firstPositions_iff_isFirstSharing.mp hmem
      exact hnone s hs hfirst

end Connection

/-! ## Main statement -/

/-- What updating and destroying write, in any table of any connection. If they fail they write
    nothing. What is destroyed shares its key with a selected position; what is patched is, of the
    positions that share the key of a selected one, the first. -/
theorem written_by_key [PatternLibrary] {c : Connection} (hc : c.Reachable) {table : String}
    (hrows : c.store.tables.lookup table = some rows) (d : Descriptor) {patch : Value}
    (hpatch : patch.hasDistinctNames = true) :
    (d.positions rows).Nodup ∧
    (∀ found, c.find table d.withoutJoins = .ok found →
      found = (d.positions rows).filterMap (rows[·]?)) ∧
    (∀ result c', (Connection.destroy table d).on c = (result, c') →
      (∃ e, result = .error e ∧ c' = c) ∨
      ∃ keys keep, result = .ok keys ∧ c.OnlyRows c' table (rowsAt keep rows) ∧
        DestroysByKey c.options.primaryKey rows (d.positions rows) keep) ∧
    (∀ result c', (Connection.update table d patch).on c = (result, c') →
      (∃ e, result = .error e ∧ c' = c) ∨
      ∃ docs fields rows', result = .ok docs ∧ patch = .object fields ∧
        c.OnlyRows c' table rows' ∧
        PatchesByKey c.options.primaryKey fields rows (d.positions rows) rows') := by
  have hdocs : AreDocuments rows := hc.holdsDocuments.of_lookup hrows
  have hobjects : ∀ row ∈ rows, row.isObject = true := fun row hrow => (hdocs row hrow).1
  refine ⟨d.nodup_positions rows, ?_, ?_, ?_⟩
  · intro found hfind
    obtain ⟨⟨⟩, -, hselect⟩ := bind_eq_ok.mp hfind
    exact Connection.eq_filterMap_positions_of_select hrows hobjects hselect
  · intro result c' hdestroy
    cases result with
    | error e => exact Or.inl ⟨e, rfl, Connection.atomic_destroy table d c e c' hdestroy⟩
    | ok keys =>
      right
      obtain ⟨-, found, rows', hselect, hrows', rfl, rfl⟩ :=
        Connection.on_destroy_eq_ok.mp hdestroy
      obtain rfl := Option.some.inj (hrows.symm.trans hrows')
      obtain rfl := Connection.eq_filterMap_positions_of_select hrows hobjects hselect
      obtain ⟨keep, hleft, hkeep⟩ := Connection.destroysByKey hdocs
      refine ⟨_, keep, rfl, ?_, hkeep⟩
      rw [← hleft]
      exact Connection.onlyRows_withRows hrows _
  · intro result c' hupdate
    cases result with
    | error e => exact Or.inl ⟨e, rfl, Connection.atomic_update table d patch c e c' hupdate⟩
    | ok docs =>
      right
      obtain ⟨-, fields, found, rows', rfl, hselect, hchange, hrows', -, rfl⟩ :=
        Connection.on_update_eq_ok.mp hupdate
      obtain rfl := Option.some.inj (hrows.symm.trans hrows')
      obtain rfl := Connection.eq_filterMap_positions_of_select hrows hobjects hselect
      have hnodup := (Value.hasDistinctNames_object.mp hpatch).1
      exact ⟨docs, fields, _, rfl, rfl, Connection.onlyRows_withRows hrows _,
        Connection.patchesByKey hdocs hnodup hchange⟩

/-- Two rows have one key, and the second of them is selected. -/
theorem written_by_key_second_of_two :
    let row (key kind : String) : Value := .object [("id", .string key), ("kind", .string kind)]
    let rows : List Value := [row "1" "a", row "1" "b", row "2" "b"]
    let d : Descriptor := {
      filter := some [.field "kind" (.equal (.string "b"))], limit := some 1 }
    let opened (tables : Tables) : Connection :=
      ⟨"default", {}, ⟨⟨"test", by decide, by decide⟩, tables⟩, ⟨fun _ => "", 0⟩, false⟩
    let fields : Assoc Value := [("kind", .string "c")]
    (opened [("t", rows)]).Reachable ∧ (Value.object fields).hasDistinctNames = true ∧
      (∃ keep, (opened [("t", rows)]).OnlyRows (opened [("t", [row "2" "b"])]) "t"
          (rowsAt keep rows) ∧ DestroysByKey "id" rows (d.positions rows) keep) ∧
      ∃ rows', (opened [("t", rows)]).OnlyRows
          (opened [("t", [row "1" "c", row "1" "b", row "2" "b"])]) "t" rows' ∧
        PatchesByKey "id" fields rows (d.positions rows) rows' := by
  intro row rows d opened fields
  have hconnect : Connection.connect { tables := ["t"] } {} (fun _ => "") =
      .ok (opened [("t", [])]) := rfl
  have hops : ∀ op ∈ [Operation.load [("t", rows)]], op.HasDistinctNames := by
    rw [List.forall_mem_singleton, Operation.HasDistinctNames]
    decide
  have hreachable : (opened [("t", rows)]).Reachable :=
    (Connection.Reachable.opened hconnect).performAll hops
  have hpatch : (Value.object fields).hasDistinctNames = true := by decide
  have hrows : (opened [("t", rows)]).store.tables.lookup "t" = some rows := rfl
  have hdestroy : (Connection.destroy "t" d).on (opened [("t", rows)]) =
      (.ok [.string "1"], opened [("t", [row "2" "b"])]) := rfl
  have hupdate : (Connection.update "t" d (.object fields)).on (opened [("t", rows)]) =
      (.ok [row "1" "c"], opened [("t", [row "1" "c", row "1" "b", row "2" "b"])]) := rfl
  obtain ⟨-, -, hdestroys, hpatches⟩ := written_by_key hreachable hrows d hpatch
  refine ⟨hreachable, hpatch, ?_, ?_⟩
  · rcases hdestroys _ _ hdestroy with ⟨e, he, -⟩ | ⟨keys, keep, -, honly, hkeep⟩
    · cases he
    · exact ⟨keep, honly, hkeep⟩
  · rcases hpatches _ _ hupdate with ⟨e, he, -⟩ |
      ⟨docs, fields', rows', -, hfields, honly, hpatched⟩
    · cases he
    · obtain rfl := Value.object.inj hfields
      exact ⟨rows', honly, hpatched⟩

/-- Of two rows with one key the unselected one is destroyed along with the other; the first is
    patched where the second is selected; a row without a key stays where it is selected. -/
theorem destroy_takes_rows_with_key :
    let row (key kind : String) : Value := .object [("id", .string key), ("kind", .string kind)]
    let keyless : Value := .object [("kind", .string "c")]
    let rows : List Value := [row "1" "a", row "1" "b", keyless]
    let ofKind (kind : String) : Descriptor :=
      { filter := some [.field "kind" (.equal (.string kind))] }
    let opened (tables : Tables) : Connection :=
      ⟨"default", {}, ⟨⟨"test", by decide, by decide⟩, tables⟩, ⟨fun _ => "", 0⟩, false⟩
    let c := (Connection.performAll (opened [("t", [])]) [.load [("t", rows)]]).2
    Connection.connect { tables := ["t"] } {} (fun _ => "") = .ok (opened [("t", [])]) ∧
      c.Reachable ∧ c = opened [("t", rows)] ∧
      (c.find "t" (ofKind "a") = .ok [row "1" "a"] ∧
        (Connection.destroy "t" (ofKind "a")).on c =
          (.ok [.string "1"], opened [("t", [keyless])])) ∧
      (c.find "t" (ofKind "b") = .ok [row "1" "b"] ∧
        (Connection.update "t" (ofKind "b") (.object [("kind", .string "d")])).on c =
          (.ok [row "1" "d"], opened [("t", [row "1" "d", row "1" "b", keyless])])) ∧
      c.find "t" (ofKind "c") = .ok [keyless] ∧
        (Connection.destroy "t" (ofKind "c")).on c = (.ok [], opened [("t", rows)]) := by
  intro row keyless rows ofKind opened c
  have hconnect : Connection.connect { tables := ["t"] } {} (fun _ => "") =
      .ok (opened [("t", [])]) := rfl
  have hops : ∀ op ∈ [Operation.load [("t", rows)]], op.HasDistinctNames := by
    rw [List.forall_mem_singleton, Operation.HasDistinctNames]
    decide
  have hreachable : c.Reachable := (Connection.Reachable.opened hconnect).performAll hops
  exact ⟨hconnect, hreachable, rfl, ⟨rfl, rfl⟩, ⟨rfl, rfl⟩, rfl, rfl⟩

end DocQuery
