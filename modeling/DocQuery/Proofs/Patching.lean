import Mathlib.Tactic.Common
import DocQuery.Proofs.RepeatedWrites
import DocQuery.Proofs.ValueEquality
import DocQuery.Store.Table

set_option autoImplicit false

/-! # Patching rows by key

An update goes back to the rows by their keys: for each key in turn it patches the first row that
has it. A row that none of the keys equals stays as it is (`getElem?_patchAll_of_no_key`), and a
patch that does not hold the primary key leaves all keys where they are (`map_key_patchAll`). -/

namespace DocQuery

variable {primaryKey : String} {patch : Assoc Value} {key : Value} {keys rows : List Value}

/-! ## A patched row -/

/-- The document with the fields of the patch written into it. -/
def Value.patched (patch : Assoc Value) : Value → Value
  | .object fields => .object (Assoc.insertAll fields patch)
  | v => v

theorem Value.isObject_patched (patch : Assoc Value) (row : Value) :
    (row.patched patch).isObject = row.isObject := by
  cases row <;> rfl

/-- A field of the patch holds what the patch says, and every other one what it held. -/
theorem Value.field?_patched {row : Value} (hrow : row.isObject = true) (hpatch : patch.keys.Nodup)
    (name : String) :
    (row.patched patch).field? name = (patch.lookup name).or (row.field? name) := by
  cases row with
  | object fields => exact Assoc.lookup_insertAll_of_nodup hpatch fields name
  | _ => cases hrow

/-- A patch without the primary key leaves a row its key. -/
theorem Value.field?_patched_of_not_hasKey (hpatch : patch.hasKey primaryKey = false)
    (row : Value) : (row.patched patch).field? primaryKey = row.field? primaryKey := by
  have hnone := Assoc.hasKey_eq_false_iff.mp hpatch
  have hne : ∀ e ∈ patch, e.1 ≠ primaryKey :=
    fun e he => (bne_iff_ne.mp (List.lookup_eq_none_iff.mp hnone e he)).symm
  cases row with
  | object fields => exact Assoc.lookup_insertAll_of_forall_ne hne fields
  | _ => rfl

/-- Patching a row again changes nothing. -/
theorem Value.patched_patched (hpatch : patch.keys.Nodup) (row : Value) :
    (row.patched patch).patched patch = row.patched patch := by
  cases row with
  | object fields => exact congrArg Value.object (Assoc.insertAll_insertAll_self hpatch fields)
  | _ => rfl

theorem Value.hasDistinctNames_patched {row : Value} (hrow : row.hasDistinctNames = true)
    (hpatch : (Value.object patch).hasDistinctNames = true) :
    (row.patched patch).hasDistinctNames = true := by
  cases row with
  | object fields =>
    obtain ⟨hnodup, hvalues⟩ := hasDistinctNames_object.mp hrow
    refine hasDistinctNames_object.mpr ⟨Assoc.nodup_keys_insertAll hnodup patch, ?_⟩
    exact Assoc.forall_mem_insertAll (p := fun v : Value => v.hasDistinctNames = true) hvalues
      (hasDistinctNames_object.mp hpatch).2
  | _ => exact hrow

/-! ## Rows that have a key -/

theorem hasIndexKey_eq_any (primaryKey : String) (key row : Value) :
    hasIndexKey primaryKey key row = (row.field? primaryKey).any (·.equals key) := by
  unfold hasIndexKey
  cases row.field? primaryKey <;> rfl

theorem hasIndexKey_iff {row : Value} : hasIndexKey primaryKey key row = true ↔
    ∃ v, row.field? primaryKey = some v ∧ v.equals key = true := by
  unfold hasIndexKey
  cases row.field? primaryKey <;> simp

theorem Connection.hasKeyIn_iff {row : Value} : Connection.hasKeyIn primaryKey keys row = true ↔
    ∃ key ∈ keys, hasIndexKey primaryKey key row = true := by
  unfold Connection.hasKeyIn hasIndexKey
  cases row.field? primaryKey <;> simp

/-- The key of a row has distinct names if the row has. -/
theorem hasDistinctNames_key (hnames : ∀ row ∈ rows, row.hasDistinctNames = true) {i : Nat}
    {row : Value} (hrow : rows[i]? = some row) (hkey : row.field? primaryKey = some key) :
    key.hasDistinctNames = true :=
  Value.hasDistinctNames_of_field (hnames row (List.mem_of_getElem? hrow)) hkey

theorem isObject_of_field? {row v : Value} {name : String} (h : row.field? name = some v) :
    row.isObject = true := by
  cases row with
  | object fields => rfl
  | _ => cases h

namespace Connection

/-- An update that is accepted although it writes the key selects only rows that have this key. -/
theorem equals_of_changesKey {w : Value} (hw : patch.lookup primaryKey = some w)
    (h : changesKey primaryKey patch keys = false) : ∀ key ∈ keys, key.equals w = true := by
  rw [changesKey, hw] at h
  simpa using List.any_eq_false.mp h

/-! ## Patching the first row that has a key -/

theorem patchFirst?_cons (row : Value) (rest : List Value) :
    patchFirst? primaryKey patch key (row :: rest) =
      if hasIndexKey primaryKey key row then
        some (row.patched patch, row.patched patch :: rest)
      else
        (patchFirst? primaryKey patch key rest).map (fun r => (r.1, row :: r.2)) := by
  cases row <;> rfl

/-- Patching a row by key changes one row, the first that has the key. -/
theorem patchFirst?_eq_some {patched : Value} {rows' : List Value}
    (h : patchFirst? primaryKey patch key rows = some (patched, rows')) :
    ∃ i row, rows.findIdx? (hasIndexKey primaryKey key) = some i ∧ rows[i]? = some row ∧
      patched = row.patched patch ∧ rows' = rows.set i (row.patched patch) := by
  induction rows generalizing rows' with
  | nil => cases h
  | cons row rest ih =>
    rw [patchFirst?_cons] at h
    by_cases hkey : hasIndexKey primaryKey key row = true
    · rw [if_pos hkey] at h
      obtain ⟨rfl, rfl⟩ := Prod.mk.inj (Option.some.inj h)
      exact ⟨0, row, by rw [List.findIdx?_cons, if_pos hkey], rfl, rfl, rfl⟩
    · rw [if_neg hkey] at h
      obtain ⟨⟨patched', rest'⟩, hrest, he⟩ := Option.map_eq_some_iff.mp h
      obtain ⟨rfl, rfl⟩ := Prod.mk.inj he
      obtain ⟨i, found, hfirst, hfound, rfl, rfl⟩ := ih hrest
      refine ⟨i + 1, found, ?_, hfound, rfl, rfl⟩
      rw [List.findIdx?_cons, if_neg hkey, hfirst]
      rfl

theorem hasIndexKey_of_findIdx? {i : Nat} {row : Value}
    (h : rows.findIdx? (hasIndexKey primaryKey key) = some i) (hrow : rows[i]? = some row) :
    hasIndexKey primaryKey key row = true := by
  obtain ⟨hi, hkey, -⟩ := List.findIdx?_eq_some_iff_getElem.mp h
  obtain ⟨-, rfl⟩ := List.getElem?_eq_some_iff.mp hrow
  exact hkey

theorem patchFirst?_eq_none (h : patchFirst? primaryKey patch key rows = none) :
    rows.findIdx? (hasIndexKey primaryKey key) = none := by
  induction rows with
  | nil => rfl
  | cons row rest ih =>
    rw [patchFirst?_cons] at h
    by_cases hkey : hasIndexKey primaryKey key row = true
    · rw [if_pos hkey] at h
      cases h
    · rw [if_neg hkey, Option.map_eq_none_iff] at h
      rw [List.findIdx?_cons, if_neg hkey, ih h]
      rfl

/-! ## Patching a row for each key -/

theorem patchAll_cons_of_none (h : patchFirst? primaryKey patch key rows = none) :
    patchAll primaryKey patch rows (key :: keys) = patchAll primaryKey patch rows keys := by
  rw [patchAll, h]

theorem patchAll_cons_of_some {patched : Value} {rows' : List Value}
    (h : patchFirst? primaryKey patch key rows = some (patched, rows')) :
    patchAll primaryKey patch rows (key :: keys) =
      (patched :: (patchAll primaryKey patch rows' keys).1,
        (patchAll primaryKey patch rows' keys).2) := by
  rw [patchAll, h]

/-- What holds of the rows and is kept by patching one row that has one of the keys holds after
    patching a row for each of the keys. -/
theorem patchAll_induction {motive : List Value → Prop} (hrows : motive rows)
    (hstep : ∀ (rows : List Value) (i : Nat) (row : Value), motive rows → rows[i]? = some row →
      (∃ key ∈ keys, hasIndexKey primaryKey key row = true) →
      motive (rows.set i (row.patched patch))) :
    motive (patchAll primaryKey patch rows keys).2 := by
  induction keys generalizing rows with
  | nil => exact hrows
  | cons key keys ih =>
    have hlater : ∀ (rows : List Value) (i : Nat) (row : Value), motive rows →
        rows[i]? = some row → (∃ key ∈ keys, hasIndexKey primaryKey key row = true) →
        motive (rows.set i (row.patched patch)) := by
      intro rows i row hmotive hrow hkey
      obtain ⟨k, hk, hhas⟩ := hkey
      exact hstep rows i row hmotive hrow ⟨k, List.mem_cons_of_mem _ hk, hhas⟩
    cases hfirst : patchFirst? primaryKey patch key rows with
    | none =>
      rw [patchAll_cons_of_none hfirst]
      exact ih hrows hlater
    | some result =>
      obtain ⟨i, row, hfound, hrow, -, hset⟩ := patchFirst?_eq_some hfirst
      rw [patchAll_cons_of_some hfirst]
      refine ih ?_ hlater
      rw [hset]
      exact hstep rows i row hrows hrow
        ⟨key, List.mem_cons_self, hasIndexKey_of_findIdx? hfound hrow⟩

theorem length_patchAll (rows keys : List Value) :
    (patchAll primaryKey patch rows keys).2.length = rows.length := by
  refine patchAll_induction (motive := fun rows' => rows'.length = rows.length) rfl ?_
  intro rows' i row hlength _ _
  rw [List.length_set, hlength]

/-- A row that equals none of the keys stays as it is. -/
theorem getElem?_patchAll_of_no_key {i : Nat} {row : Value} (hrow : rows[i]? = some row)
    (hno : ∀ key ∈ keys, hasIndexKey primaryKey key row = false) :
    (patchAll primaryKey patch rows keys).2[i]? = some row := by
  refine patchAll_induction (motive := fun rows' => rows'[i]? = some row) hrow ?_
  intro rows' j other hsame hother hkey
  obtain ⟨key, hmem, hhas⟩ := hkey
  have hne : j ≠ i := by
    rintro rfl
    obtain rfl := Option.some.inj (hsame.symm.trans hother)
    rw [hno key hmem] at hhas
    cases hhas
  rw [List.getElem?_set_ne hne, hsame]

/-- A row that is patched stays so, even if it is gone back to. -/
theorem getElem?_patchAll_of_patched (hnodup : patch.keys.Nodup) {i : Nat} {row : Value}
    (hrow : rows[i]? = some (row.patched patch)) :
    (patchAll primaryKey patch rows keys).2[i]? = some (row.patched patch) := by
  refine patchAll_induction (motive := fun rows' => rows'[i]? = some (row.patched patch)) hrow ?_
  intro rows' j other hpatched hother _
  by_cases hji : j = i
  · subst hji
    obtain rfl := Option.some.inj (hpatched.symm.trans hother)
    rw [List.getElem?_set_self (List.getElem?_eq_some_iff.mp hother).1,
      Value.patched_patched hnodup]
  · rw [List.getElem?_set_ne hji, hpatched]

/-- The row that is found by the first of the keys is patched. -/
theorem getElem?_patchAll_of_first (hnodup : patch.keys.Nodup) {i : Nat} {row : Value}
    (hfirst : rows.findIdx? (hasIndexKey primaryKey key) = some i) (hrow : rows[i]? = some row) :
    (patchAll primaryKey patch rows (key :: keys)).2[i]? = some (row.patched patch) := by
  cases h : patchFirst? primaryKey patch key rows with
  | none =>
    rw [patchFirst?_eq_none h] at hfirst
    cases hfirst
  | some result =>
    obtain ⟨j, row', hj, hrow', -, hset⟩ := patchFirst?_eq_some h
    obtain rfl := Option.some.inj (hj.symm.trans hfirst)
    obtain rfl := Option.some.inj (hrow.symm.trans hrow')
    rw [patchAll_cons_of_some h, hset]
    refine getElem?_patchAll_of_patched hnodup ?_
    exact List.getElem?_set_self (List.getElem?_eq_some_iff.mp hrow).1

/-! ## A patch without the primary key -/

/-- A row may be written without a change to what is read of it. -/
theorem map_set_eq {α : Type} {f : Value → α} {i : Nat} {row new : Value}
    (hrow : rows[i]? = some row) (hsame : f new = f row) :
    (rows.set i new).map f = rows.map f := by
  refine List.ext_getElem? (fun j => ?_)
  rw [List.getElem?_map, List.getElem?_map]
  by_cases hj : i = j
  · subst hj
    rw [List.getElem?_set_self (List.getElem?_eq_some_iff.mp hrow).1, hrow, Option.map_some,
      Option.map_some, hsame]
  · rw [List.getElem?_set_ne hj]

/-- A patch without the primary key leaves every row its key. -/
theorem map_key_patchAll (hpatch : patch.hasKey primaryKey = false) (rows keys : List Value) :
    (patchAll primaryKey patch rows keys).2.map (·.field? primaryKey) =
      rows.map (·.field? primaryKey) := by
  refine patchAll_induction
    (motive := fun rows' => rows'.map (·.field? primaryKey) = rows.map (·.field? primaryKey))
    rfl ?_
  intro rows' i row hsame hrow _
  exact (map_set_eq hrow (row.field?_patched_of_not_hasKey hpatch)).trans hsame

/-- For each key that some row has, the position of the first row that has it. -/
def firstPositions (primaryKey : String) (rows keys : List Value) : List Nat :=
  keys.filterMap (fun key => rows.findIdx? (hasIndexKey primaryKey key))

theorem mem_firstPositions {i : Nat} : i ∈ firstPositions primaryKey rows keys ↔
    ∃ key ∈ keys, rows.findIdx? (hasIndexKey primaryKey key) = some i :=
  List.mem_filterMap

/-- Which row is the first to have a key is a matter of the keys of the rows. -/
theorem findIdx?_eq_of_map_key_eq {rows' : List Value}
    (h : rows'.map (·.field? primaryKey) = rows.map (·.field? primaryKey)) (key : Value) :
    rows'.findIdx? (hasIndexKey primaryKey key) = rows.findIdx? (hasIndexKey primaryKey key) := by
  have hkeys : ∀ l : List Value, l.findIdx? (hasIndexKey primaryKey key) =
      (l.map (·.field? primaryKey)).findIdx? (fun v => v.any (·.equals key)) := by
    intro l
    rw [List.findIdx?_map, funext (hasIndexKey_eq_any primaryKey key)]
    rfl
  rw [hkeys, hkeys, h]

theorem mapIdx_set_patched {i : Nat} {row : Value} (hnodup : patch.keys.Nodup)
    (hrow : rows[i]? = some row) (positions : List Nat) :
    (rows.set i (row.patched patch)).mapIdx
        (fun j r => if j ∈ positions then r.patched patch else r) =
      rows.mapIdx (fun j r => if j ∈ i :: positions then r.patched patch else r) := by
  refine List.ext_getElem? (fun j => ?_)
  rw [List.getElem?_mapIdx, List.getElem?_mapIdx]
  by_cases hj : j = i
  · subst hj
    rw [List.getElem?_set_self' , hrow]
    by_cases hmem : j ∈ positions
    · simp [hmem, Value.patched_patched hnodup]
    · simp [hmem]
  · rw [List.getElem?_set_ne (Ne.symm hj)]
    simp [hj]

/-- What a patch without the primary key does: the first row of each key is patched, once or more
    often, and every other row stays as it is. -/
theorem patchAll_of_not_hasKey (hpatch : patch.hasKey primaryKey = false)
    (hnodup : patch.keys.Nodup) (rows keys : List Value) :
    patchAll primaryKey patch rows keys =
      ((firstPositions primaryKey rows keys).filterMap (fun i => rows[i]?.map (·.patched patch)),
        rows.mapIdx (fun i row =>
          if i ∈ firstPositions primaryKey rows keys then row.patched patch else row)) := by
  induction keys generalizing rows with
  | nil =>
    have hsame : rows.mapIdx (fun _ row => row) = rows := List.ext_getElem? (fun i => by simp)
    simp [patchAll, firstPositions, hsame]
  | cons key keys ih =>
    cases hfirst : patchFirst? primaryKey patch key rows with
    | none =>
      rw [patchAll_cons_of_none hfirst, ih, firstPositions, firstPositions, List.filterMap_cons,
        patchFirst?_eq_none hfirst]
    | some result =>
      obtain ⟨i, row, hfound, hrow, hpatched, hset⟩ := patchFirst?_eq_some hfirst
      -- the rows keep their keys, so the later keys lead to the same positions as before
      have hkeys : (rows.set i (row.patched patch)).map (·.field? primaryKey) =
          rows.map (·.field? primaryKey) :=
        map_set_eq hrow (row.field?_patched_of_not_hasKey hpatch)
      have hpositions : firstPositions primaryKey (rows.set i (row.patched patch)) keys =
          firstPositions primaryKey rows keys :=
        List.filterMap_congr (fun k _ => findIdx?_eq_of_map_key_eq hkeys k)
      have hcons : firstPositions primaryKey rows (key :: keys) =
          i :: firstPositions primaryKey rows keys := by
        rw [firstPositions, List.filterMap_cons, hfound]
        rfl
      -- a row that is gone back to once more is returned as it was patched the first time
      have hreturned : (rows.set i (row.patched patch)).map (·.patched patch) =
          rows.map (·.patched patch) := map_set_eq hrow (row.patched_patched hnodup)
      have hlater : (firstPositions primaryKey rows keys).filterMap
            (fun j => (rows.set i (row.patched patch))[j]?.map (·.patched patch)) =
          (firstPositions primaryKey rows keys).filterMap
            (fun j => rows[j]?.map (·.patched patch)) := by
        refine List.filterMap_congr (fun j _ => ?_)
        rw [← List.getElem?_map, hreturned, List.getElem?_map]
      rw [patchAll_cons_of_some hfirst, hset, ih, hpositions, hcons, hlater,
        mapIdx_set_patched hnodup hrow, List.filterMap_cons, hrow, hpatched]
      rfl

end Connection

end DocQuery
