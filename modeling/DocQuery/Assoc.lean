set_option autoImplicit false

/-! # Association lists in order of first writing

The fields of a document, the keys of a sort order, the fields a join attaches and the tables of a
database all follow one rule: an entry stands where its key was first written and holds what was
last written under it. `Assoc.insert` is that rule; reading is the standard `List.lookup`. What is
written can be read back, other keys are not touched, and distinct keys stay distinct. -/

namespace DocQuery

/-- Entries under text keys, in the order in which the keys were first written. -/
abbrev Assoc (α : Type) := List (String × α)

namespace Assoc

variable {α : Type}

/-- Write `v` under `k`: in place if the key is there, else as the last entry. -/
def insert : Assoc α → String → α → Assoc α
  | [], k, v => [(k, v)]
  | (k', v') :: rest, k, v => if k' = k then (k', v) :: rest else (k', v') :: insert rest k v

/-- Write every entry of `entries`, from the left, into `fields`. -/
def insertAll (fields : Assoc α) (entries : List (String × α)) : Assoc α :=
  entries.foldl (fun acc e => acc.insert e.1 e.2) fields

/-- The entries with repeated keys merged. -/
def ofList (entries : List (String × α)) : Assoc α :=
  insertAll [] entries

/-- The entries under keys other than `k`. -/
def remove (fields : Assoc α) (k : String) : Assoc α :=
  fields.filter (fun e => e.1 ≠ k)

/-- The keys, in order. -/
def keys (fields : Assoc α) : List String :=
  fields.map Prod.fst

/-- Some entry stands under `k`. -/
def hasKey (fields : Assoc α) (k : String) : Bool :=
  (fields.lookup k).isSome

/-! ## Reading what was written -/

/-- A write can be read back. -/
theorem lookup_insert_self (fields : Assoc α) (k : String) (v : α) :
    (fields.insert k v).lookup k = some v := by
  induction fields with
  | nil => simp [insert]
  | cons e rest ih =>
    obtain ⟨k', v'⟩ := e
    by_cases h : k' = k
    · simp [insert, h]
    · simp [insert, h, List.lookup_cons, beq_false_of_ne (Ne.symm h), ih]

/-- A write changes nothing under other keys. -/
theorem lookup_insert_of_ne (fields : Assoc α) {k l : String} (v : α) (h : l ≠ k) :
    (fields.insert k v).lookup l = fields.lookup l := by
  induction fields with
  | nil => simp [insert, List.lookup_cons, beq_false_of_ne h]
  | cons e rest ih =>
    obtain ⟨k', v'⟩ := e
    by_cases hk : k' = k
    · subst hk; simp [insert, List.lookup_cons, beq_false_of_ne h]
    · simp only [insert, if_neg hk, List.lookup_cons, ih]

/-- A write under a key that is there keeps the keys as they are. -/
theorem keys_insert_of_mem {fields : Assoc α} {k : String} (v : α) (h : k ∈ fields.keys) :
    (fields.insert k v).keys = fields.keys := by
  induction fields with
  | nil => cases h
  | cons e rest ih =>
    obtain ⟨k', v'⟩ := e
    by_cases hk : k' = k
    · simp [insert, hk, keys]
    · have hr : k ∈ keys rest := by simpa [keys, Ne.symm hk] using h
      have := ih hr
      simp_all [insert, keys]

/-- A write under a new key adds it at the end. -/
theorem keys_insert_of_not_mem {fields : Assoc α} {k : String} (v : α) (h : k ∉ fields.keys) :
    (fields.insert k v).keys = fields.keys ++ [k] := by
  induction fields with
  | nil => rfl
  | cons e rest ih =>
    obtain ⟨k', v'⟩ := e
    have hk : k' ≠ k := fun e => h (e ▸ List.mem_cons_self)
    have hr : k ∉ keys rest := fun m => h (List.mem_cons_of_mem _ m)
    have := ih hr
    simp_all [insert, keys]

/-- Writes keep the keys distinct. -/
theorem nodup_keys_insert {fields : Assoc α} (k : String) (v : α) (h : fields.keys.Nodup) :
    (fields.insert k v).keys.Nodup := by
  by_cases hk : k ∈ fields.keys
  · rwa [keys_insert_of_mem v hk]
  · rw [keys_insert_of_not_mem v hk, List.nodup_append]
    exact ⟨h, by simp, fun a ha b hb => by
      rw [List.mem_singleton] at hb; subst hb; exact fun e => hk (e ▸ ha)⟩

/-- The keys that are there are those under which something is found. -/
theorem hasKey_iff_mem_keys (fields : Assoc α) (k : String) :
    fields.hasKey k = true ↔ k ∈ fields.keys := by
  simp [hasKey, keys]

end Assoc

end DocQuery
