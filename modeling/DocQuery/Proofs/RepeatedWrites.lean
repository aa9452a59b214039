import DocQuery.Assoc
import Mathlib.Tactic.Common

set_option autoImplicit false

/-! # Many writes into the same entries

What a row of writes leaves under a key is the last thing that was written there
(`lookup_insertAll`), and new keys follow the old ones in the order in which they are first written
(`keys_insertAll`). It makes no difference if the writes are first merged among themselves
(`insertAll_ofList`): writes under different keys commute once the keys are there. -/

namespace DocQuery

namespace Assoc

variable {α : Type} {fields : Assoc α} {k l : String} {v w : α}

@[simp] theorem insertAll_nil (fields : Assoc α) : insertAll fields [] = fields := rfl

@[simp] theorem insertAll_cons (fields : Assoc α) (e : String × α) (rest : List (String × α)) :
    insertAll fields (e :: rest) = insertAll (fields.insert e.1 e.2) rest := rfl

theorem mem_keys_insert {name : String} :
    name ∈ (fields.insert k v).keys ↔ name ∈ fields.keys ∨ name = k := by
  by_cases h : k ∈ fields.keys
  · rw [keys_insert_of_mem v h]
    exact ⟨Or.inl, fun hname => hname.elim id (fun he => he ▸ h)⟩
  · rw [keys_insert_of_not_mem v h, List.mem_append, List.mem_singleton]

theorem hasKey_eq_false_iff : fields.hasKey k = false ↔ fields.lookup k = none := by
  rw [hasKey, Option.isSome_eq_false_iff, Option.isNone_iff_eq_none]

/-- A write under a new key adds an entry at the end. -/
theorem insert_of_lookup_eq_none (h : fields.lookup k = none) (v : α) :
    fields.insert k v = fields ++ [(k, v)] := by
  induction fields with
  | nil => rfl
  | cons first rest ih =>
    obtain ⟨k', v'⟩ := first
    by_cases hk : k' = k
    · subst hk
      rw [List.lookup_cons_self] at h
      cases h
    · rw [List.lookup_cons, beq_false_of_ne (Ne.symm hk)] at h
      rw [insert, if_neg hk, ih h, List.cons_append]

/-- Writing what is there already changes nothing. -/
theorem insert_of_lookup_eq_some (h : fields.lookup k = some v) : fields.insert k v = fields := by
  induction fields with
  | nil => cases h
  | cons first rest ih =>
    obtain ⟨k', v'⟩ := first
    by_cases hk : k' = k
    · subst hk
      rw [List.lookup_cons_self] at h
      simp [insert, Option.some.inj h]
    · rw [List.lookup_cons, beq_false_of_ne (Ne.symm hk)] at h
      rw [insert, if_neg hk, ih h]

/-! ## Entries and what is found of them -/

/-- Under distinct keys every entry is found. -/
theorem lookup_of_mem (h : fields.keys.Nodup) {e : String × α} (hmem : e ∈ fields) :
    fields.lookup e.1 = some e.2 := by
  induction fields with
  | nil => cases hmem
  | cons first rest ih =>
    obtain ⟨hfirst, hrest⟩ := List.nodup_cons.mp h
    rcases List.mem_cons.mp hmem with rfl | hlater
    · rw [List.lookup_cons_self]
    · have hne : e.1 ≠ first.1 := fun he => hfirst (he ▸ List.mem_map_of_mem hlater)
      obtain ⟨k, v⟩ := first
      rw [List.lookup_cons, beq_false_of_ne hne]
      exact ih hrest hlater

theorem mem_of_lookup (h : fields.lookup k = some v) : (k, v) ∈ fields := by
  obtain ⟨before, after, rfl, -⟩ := List.lookup_eq_some_iff.mp h
  exact List.mem_append_right _ List.mem_cons_self

theorem mem_keys_of_lookup (h : fields.lookup k = some v) : k ∈ fields.keys :=
  List.mem_map_of_mem (mem_of_lookup h)

/-! ## What is left under a key -/

/-- The last write under a key counts; without one the key holds what it held. -/
theorem lookup_insertAll (fields : Assoc α) (entries : List (String × α)) (name : String) :
    (insertAll fields entries).lookup name =
      ((entries.filter (fun e => e.1 = name)).getLast?.map Prod.snd).or (fields.lookup name) := by
  induction entries generalizing fields with
  | nil => rfl
  | cons e rest ih =>
    rw [insertAll_cons, ih]
    by_cases h : e.1 = name
    · rw [List.filter_cons_of_pos (by simpa using h), List.getLast?_cons, ← h,
        lookup_insert_self]
      cases (rest.filter (fun e' => e'.1 = e.1)).getLast? <;> rfl
    · rw [List.filter_cons_of_neg (by simpa using h), lookup_insert_of_ne _ _ (Ne.symm h)]

/-- Where the writes have distinct keys, each of them counts. -/
theorem lookup_insertAll_of_nodup {entries : Assoc α} (h : entries.keys.Nodup) (fields : Assoc α)
    (name : String) :
    (insertAll fields entries).lookup name = (entries.lookup name).or (fields.lookup name) := by
  induction entries generalizing fields with
  | nil => rfl
  | cons e rest ih =>
    obtain ⟨k, v⟩ := e
    obtain ⟨hnot, hrest⟩ := List.nodup_cons.mp h
    rw [insertAll_cons, ih hrest]
    by_cases hname : name = k
    · have hnone : rest.lookup name = none := by
        rw [List.lookup_eq_none_iff]
        intro e he
        rw [bne_iff_ne]
        intro hsame
        exact hnot (List.mem_map.mpr ⟨e, he, hsame.symm.trans hname⟩)
      rw [hnone, hname, lookup_insert_self, List.lookup_cons_self]
      rfl
    · rw [lookup_insert_of_ne _ _ hname, List.lookup_cons, beq_false_of_ne hname]

/-- Writes under other keys change nothing under this one. -/
theorem lookup_insertAll_of_forall_ne {entries : List (String × α)} {name : String}
    (h : ∀ e ∈ entries, e.1 ≠ name) (fields : Assoc α) :
    (insertAll fields entries).lookup name = fields.lookup name := by
  have hfilter : entries.filter (fun e => e.1 = name) = [] :=
    List.filter_eq_nil_iff.mpr (fun e he => by simpa using h e he)
  rw [lookup_insertAll, hfilter]
  rfl

/-- Keys keep their places; new ones follow in the order in which they are first written. -/
theorem keys_insertAll (fields : Assoc α) (entries : List (String × α)) :
    (insertAll fields entries).keys =
      fields.keys ++ ((entries.map Prod.fst).filter (· ∉ fields.keys)).eraseDups := by
  induction entries generalizing fields with
  | nil => simp
  | cons e rest ih =>
    rw [insertAll_cons, ih, List.map_cons]
    by_cases h : e.1 ∈ fields.keys
    · rw [keys_insert_of_mem _ h, List.filter_cons_of_neg (by simpa using h)]
    · -- the key is now there, so it is to be left out of the later writes as well
      have hfilter : (rest.map Prod.fst).filter (· ∉ fields.keys ++ [e.1]) =
          ((rest.map Prod.fst).filter (· ∉ fields.keys)).filter (fun name => !name == e.1) := by
        rw [List.filter_filter]
        apply List.filter_congr
        intro name _
        by_cases hname : name = e.1 <;> simp [hname]
      rw [keys_insert_of_not_mem _ h, List.filter_cons_of_pos (by simpa using h),
        List.eraseDups_cons, hfilter, List.append_assoc, List.singleton_append]

/-! ## What else writes keep -/

theorem nodup_keys_insertAll (h : fields.keys.Nodup) (entries : List (String × α)) :
    (insertAll fields entries).keys.Nodup := by
  induction entries generalizing fields with
  | nil => exact h
  | cons e rest ih => exact ih (nodup_keys_insert e.1 e.2 h)

/-- What is found after a write was written or was there before. -/
theorem lookup_insert_eq_some {name : String} (h : (fields.insert k v).lookup name = some w) :
    name = k ∧ w = v ∨ fields.lookup name = some w := by
  by_cases hname : name = k
  · subst hname
    rw [lookup_insert_self] at h
    exact Or.inl ⟨rfl, (Option.some.inj h).symm⟩
  · rw [lookup_insert_of_ne _ _ hname] at h
    exact Or.inr h

/-- A removal changes nothing under other keys. -/
theorem lookup_remove_of_ne (fields : Assoc α) {name : String} (h : name ≠ k) :
    (fields.remove k).lookup name = fields.lookup name := by
  induction fields with
  | nil => rfl
  | cons e rest ih =>
    obtain ⟨k', v'⟩ := e
    rw [remove] at ih ⊢
    by_cases hk : k' = k
    · rw [List.filter_cons_of_neg (by simpa using hk), ih, List.lookup_cons,
        beq_false_of_ne (hk ▸ h)]
    · rw [List.filter_cons_of_pos (by simpa using hk), List.lookup_cons, List.lookup_cons, ih]

/-- What is found after the entries under a key were removed stands under another key. -/
theorem lookup_remove_eq_some {name : String} (h : (fields.remove k).lookup name = some v) :
    fields.lookup name = some v := by
  have hname : name ≠ k := by
    rintro rfl
    simpa using (List.mem_filter.mp (mem_of_lookup h)).2
  rwa [lookup_remove_of_ne fields hname] at h

theorem forall_mem_insert {p : α → Prop} (h : ∀ e ∈ fields, p e.2) (hv : p v) :
    ∀ e ∈ fields.insert k v, p e.2 := by
  induction fields with
  | nil => simpa [insert] using hv
  | cons first rest ih =>
    obtain ⟨k', v'⟩ := first
    rw [List.forall_mem_cons] at h
    rw [insert]
    split
    · exact List.forall_mem_cons.mpr ⟨hv, h.2⟩
    · exact List.forall_mem_cons.mpr ⟨h.1, ih h.2⟩

theorem forall_mem_insertAll {p : α → Prop} (h : ∀ e ∈ fields, p e.2)
    {entries : List (String × α)} (hentries : ∀ e ∈ entries, p e.2) :
    ∀ e ∈ insertAll fields entries, p e.2 := by
  induction entries generalizing fields with
  | nil => exact h
  | cons e rest ih =>
    rw [List.forall_mem_cons] at hentries
    exact ih (forall_mem_insert h hentries.1) hentries.2

/-! ## Entries that are merged -/

/-- The keys stand in the order in which they are first written. -/
theorem keys_ofList (entries : List (String × α)) :
    (ofList entries).keys = (entries.map Prod.fst).eraseDups := by
  have hall : (entries.map Prod.fst).filter (· ∉ keys ([] : Assoc α)) = entries.map Prod.fst :=
    List.filter_eq_self.mpr (by simp [keys])
  rw [ofList, keys_insertAll, hall]
  rfl

theorem nodup_keys_ofList (entries : List (String × α)) : (ofList entries).keys.Nodup :=
  @nodup_keys_insertAll α [] List.nodup_nil entries

/-- Under each key stands what was written there last. -/
theorem getLast?_of_mem_ofList {entries : List (String × α)} {e : String × α}
    (h : e ∈ ofList entries) : (entries.filter (fun entry => entry.1 = e.1)).getLast? = some e := by
  have hlookup := lookup_of_mem (nodup_keys_ofList entries) h
  rw [ofList, lookup_insertAll, List.lookup_nil, Option.or_none] at hlookup
  obtain ⟨last, hlast, hvalue⟩ := Option.map_eq_some_iff.mp hlookup
  have hkey : last.1 = e.1 :=
    of_decide_eq_true (List.mem_filter.mp (List.mem_of_getLast? hlast)).2
  rw [hlast, Prod.ext hkey hvalue]

/-! ## Writes of values that are made from others -/

theorem map_insert {β : Type} (f : α → β) (fields : Assoc α) (k : String) (v : α) :
    (fields.insert k v).map (fun (name, v) => (name, f v)) =
      insert (fields.map (fun (name, v) => (name, f v))) k (f v) := by
  induction fields with
  | nil => rfl
  | cons e rest ih =>
    obtain ⟨k', v'⟩ := e
    by_cases hk : k' = k <;> simp [insert, hk, ih]

theorem map_insertAll {β : Type} (f : α → β) (fields : Assoc α) (entries : List (String × α)) :
    (insertAll fields entries).map (fun (name, v) => (name, f v)) =
      insertAll (fields.map (fun (name, v) => (name, f v)))
        (entries.map (fun (name, v) => (name, f v))) := by
  induction entries generalizing fields with
  | nil => rfl
  | cons e rest ih => rw [insertAll_cons, ih, map_insert, List.map_cons, insertAll_cons]

/-! ## Merging writes -/

theorem insert_insert_self (fields : Assoc α) (k : String) (v w : α) :
    (fields.insert k v).insert k w = fields.insert k w := by
  induction fields with
  | nil => simp [insert]
  | cons e rest ih =>
    obtain ⟨k', v'⟩ := e
    by_cases h : k' = k
    · simp [insert, h]
    · simp [insert, h, ih]

/-- A write under a key that is there commutes with writes under other keys. -/
theorem insert_comm_of_mem (h : k ∈ fields.keys) (hne : l ≠ k) :
    (fields.insert l w).insert k v = (fields.insert k v).insert l w := by
  induction fields with
  | nil => cases h
  | cons e rest ih =>
    obtain ⟨k', v'⟩ := e
    by_cases hk : k' = k
    · subst hk
      simp [insert, Ne.symm hne]
    · have hmem : k ∈ keys rest := by simpa [keys, Ne.symm hk] using h
      by_cases hl : k' = l
      · simp [insert, hl, hne]
      · simp [insert, hk, hl, ih hmem]

theorem insertAll_insert_of_mem {entries : List (String × α)} (h : k ∈ fields.keys)
    (hentries : k ∉ keys entries) :
    (insertAll fields entries).insert k v = insertAll (fields.insert k v) entries := by
  induction entries generalizing fields with
  | nil => rfl
  | cons e rest ih =>
    have hne : e.1 ≠ k := fun he => hentries (he ▸ List.mem_cons_self)
    have hrest : k ∉ keys rest := fun hmem => hentries (List.mem_cons_of_mem _ hmem)
    rw [insertAll_cons, insertAll_cons, ih (mem_keys_insert.mpr (Or.inl h)) hrest,
      insert_comm_of_mem h hne]

/-- Making the same writes again changes nothing. -/
theorem insertAll_insertAll_self {entries : Assoc α} (h : entries.keys.Nodup)
    (fields : Assoc α) :
    insertAll (insertAll fields entries) entries = insertAll fields entries := by
  induction entries generalizing fields with
  | nil => rfl
  | cons e rest ih =>
    obtain ⟨hnot, hrest⟩ := List.nodup_cons.mp h
    have hmem : e.1 ∈ (fields.insert e.1 e.2).keys := mem_keys_insert.mpr (Or.inr rfl)
    rw [insertAll_cons, insertAll_cons, insertAll_insert_of_mem hmem hnot, insert_insert_self,
      ih hrest]

/-- A write into the entries to be written may as well be made last. -/
theorem insertAll_insert (own : Assoc α) {entries : Assoc α} (h : entries.keys.Nodup) :
    insertAll own (entries.insert k v) = (insertAll own entries).insert k v := by
  induction entries generalizing own with
  | nil => rfl
  | cons e rest ih =>
    obtain ⟨k', v'⟩ := e
    obtain ⟨hk', hrest⟩ := List.nodup_cons.mp h
    by_cases hk : k' = k
    · subst hk
      have hmem : k' ∈ (own.insert k' v').keys := mem_keys_insert.mpr (Or.inr rfl)
      rw [insert, if_pos rfl, insertAll_cons, insertAll_cons, insertAll_insert_of_mem hmem hk',
        insert_insert_self]
    · rw [insert, if_neg hk, insertAll_cons, insertAll_cons, ih _ hrest]

/-- Writes may be merged among themselves before they are made. -/
theorem insertAll_ofList (own : Assoc α) (entries : List (String × α)) :
    insertAll own (ofList entries) = insertAll own entries := by
  -- over all entries that may have been merged so far, as each write adds to them
  have hmerged : ∀ acc : Assoc α, acc.keys.Nodup →
      insertAll own (insertAll acc entries) = insertAll (insertAll own acc) entries := by
    induction entries with
    | nil => exact fun acc _ => rfl
    | cons e rest ih =>
      intro acc hacc
      rw [insertAll_cons, insertAll_cons, ih _ (nodup_keys_insert _ _ hacc),
        insertAll_insert own hacc]
  exact hmerged [] List.nodup_nil

/-! ## Writes on two sides -/

/-- Related entries stay related under related writes. -/
theorem forall₂_insert {β : Type} (R : α → β → Prop) {left : Assoc α} {right : Assoc β} {b : β}
    (h : List.Forall₂ (fun e f => e.1 = f.1 ∧ R e.2 f.2) left right) (hvb : R v b) :
    List.Forall₂ (fun e f => e.1 = f.1 ∧ R e.2 f.2) (left.insert k v) (right.insert k b) := by
  induction h with
  | nil => exact List.Forall₂.cons ⟨rfl, hvb⟩ List.Forall₂.nil
  | @cons e f es fs hef hrest ih =>
    obtain ⟨hkey, hval⟩ := hef
    by_cases hk : e.1 = k
    · have hk' : f.1 = k := hkey ▸ hk
      rw [insert, insert, if_pos hk, if_pos hk']
      exact List.Forall₂.cons ⟨hkey, hvb⟩ hrest
    · have hk' : f.1 ≠ k := hkey ▸ hk
      rw [insert, insert, if_neg hk, if_neg hk']
      exact List.Forall₂.cons ⟨hkey, hval⟩ ih

end Assoc

end DocQuery
