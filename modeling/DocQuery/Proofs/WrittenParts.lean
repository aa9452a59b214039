import DocQuery.Descriptor.Reader
import DocQuery.Proofs.RepeatedWrites
import DocQuery.Proofs.Results

set_option autoImplicit false

/-! # The parts of a written descriptor

A descriptor is read key by key, in the order in which the keys are written. What is read does not
depend on that order: each part of the descriptor is the one read from the value under its key, and
from `null` if the key is not there (`Descriptor.readFrom_of_ofValue`). The invariant of the reading
is `Descriptor.ReadFrom`, for the keys that have been passed. An object is read if and only if each
part of it is accepted (`Descriptor.exists_ofValue_iff`), and other keys are passed over
(`Descriptor.ofValue_filter_keys`). -/

namespace DocQuery

/-- The fields of an object, a repeated one with its last value; other values have none. -/
def Value.writtenFields : Value → Assoc Value
  | .object fields => Assoc.ofList fields
  | _ => []

/-- What is written under a key, and `null` if nothing is. -/
def Value.part (written : Value) (key : String) : Value :=
  (written.writtenFields.lookup key).getD .null

/-! ## The reading of all keys -/

namespace Descriptor

/-- Each part of the descriptor is read from the value under its key. -/
structure ReadFrom (entries : Assoc Value) (d : Descriptor) : Prop where
  filter : Clause.filterOfValue ((entries.lookup "where").getD .null) = .ok d.filter
  sort : SortSpec.ofValue ((entries.lookup "sort").getD .null) = .ok d.sort
  skip : Count.ofValue "skip" ((entries.lookup "skip").getD .null) = .ok d.skip
  limit : Count.ofValue "limit" ((entries.lookup "limit").getD .null) = .ok d.limit
  joins : joinsOfValue ((entries.lookup "joins").getD .null) = .ok d.joins

theorem readFrom_empty : ReadFrom [] empty :=
  ⟨rfl, rfl, rfl, rfl, rfl⟩

variable {entries : Assoc Value} {d d' : Descriptor}

/-- Reading one more key keeps the parts read from the other ones. -/
theorem ReadFrom.setKey {key : String} {value : Value} (h : ReadFrom entries d)
    (hread : d.setKey key value = .ok d') : ReadFrom (entries.insert key value) d' := by
  have hself : ((entries.insert key value).lookup key).getD .null = value := by
    rw [Assoc.lookup_insert_self, Option.getD_some]
  have hother : ∀ name, name ≠ key → ((entries.insert key value).lookup name).getD .null =
      (entries.lookup name).getD .null := by
    intro name hne
    rw [Assoc.lookup_insert_of_ne _ _ hne]
  -- one case per key: its own part is read anew, the other four are the ones of before
  unfold Descriptor.setKey at hread
  split_ifs at hread with hwhere hsort hskip hlimit hjoins
  · obtain ⟨filter, hfilter, rfl⟩ := map_eq_ok.mp hread
    subst hwhere
    constructor <;> simp [hself, hother, hfilter, h.sort, h.skip, h.limit, h.joins]
  · obtain ⟨sort, hsort', rfl⟩ := map_eq_ok.mp hread
    subst hsort
    constructor <;> simp [hself, hother, hsort', h.filter, h.skip, h.limit, h.joins]
  · obtain ⟨skip, hskip', rfl⟩ := map_eq_ok.mp hread
    subst hskip
    constructor <;> simp [hself, hother, hskip', h.filter, h.sort, h.limit, h.joins]
  · obtain ⟨limit, hlimit', rfl⟩ := map_eq_ok.mp hread
    subst hlimit
    constructor <;> simp [hself, hother, hlimit', h.filter, h.sort, h.skip, h.joins]
  · obtain ⟨joins, hjoins', rfl⟩ := map_eq_ok.mp hread
    subst hjoins
    constructor <;> simp [hself, hother, hjoins', h.filter, h.sort, h.skip, h.limit]
  · obtain rfl := Except.ok.inj hread
    exact ⟨by rw [hother _ (Ne.symm hwhere), h.filter], by rw [hother _ (Ne.symm hsort), h.sort],
      by rw [hother _ (Ne.symm hskip), h.skip], by rw [hother _ (Ne.symm hlimit), h.limit],
      by rw [hother _ (Ne.symm hjoins), h.joins]⟩

/-- Reading many keys reads each part from the last value under its key. -/
theorem ReadFrom.foldlM {fields : List (String × Value)} (h : ReadFrom entries d)
    (hread : fields.foldlM (fun d (key, value) => d.setKey key value) d = .ok d') :
    ReadFrom (Assoc.insertAll entries fields) d' := by
  induction fields generalizing entries d with
  | nil =>
    obtain rfl := Except.ok.inj hread
    exact h
  | cons field rest ih =>
    rw [List.foldlM_cons] at hread
    obtain ⟨next, hnext, hread⟩ := bind_eq_ok.mp hread
    exact ih (h.setKey hnext) hread

/-- The parts of a descriptor are read from what is written under their keys, in whatever order the
    keys stand. -/
theorem readFrom_of_ofValue {written : Value} (h : ofValue written = .ok d) :
    ReadFrom written.writtenFields d := by
  cases written with
  | null =>
    obtain rfl := Except.ok.inj h
    exact readFrom_empty
  | object fields => exact readFrom_empty.foldlM h
  | _ => cases h

/-! ## Which descriptors are read -/

/-- The keys of a descriptor that have a meaning. -/
def keys : List String := ["where", "sort", "skip", "limit", "joins"]

/-- The value is accepted by the reader of its key; a key without a meaning has none. -/
structure Accepts (key : String) (value : Value) : Prop where
  filter : key = "where" → ∃ filter, Clause.filterOfValue value = .ok filter
  sort : key = "sort" → ∃ sort, SortSpec.ofValue value = .ok sort
  skip : key = "skip" → ∃ skip, Count.ofValue "skip" value = .ok skip
  limit : key = "limit" → ∃ limit, Count.ofValue "limit" value = .ok limit
  joins : key = "joins" → ∃ joins, joinsOfValue value = .ok joins

theorem exists_setKey_iff {key : String} {value : Value} (d : Descriptor) :
    (∃ d', d.setKey key value = .ok d') ↔ Accepts key value := by
  -- one case per key, in which the other four ask nothing
  unfold setKey
  split_ifs with hwhere hsort hskip hlimit hjoins
  · refine exists_map_eq_ok.trans ⟨fun h => ?_, fun h => h.filter hwhere⟩
    constructor <;> simp_all
  · refine exists_map_eq_ok.trans ⟨fun h => ?_, fun h => h.sort hsort⟩
    constructor <;> simp_all
  · refine exists_map_eq_ok.trans ⟨fun h => ?_, fun h => hskip ▸ h.skip hskip⟩
    constructor <;> simp_all
  · refine exists_map_eq_ok.trans ⟨fun h => ?_, fun h => hlimit ▸ h.limit hlimit⟩
    constructor <;> simp_all
  · refine exists_map_eq_ok.trans ⟨fun h => ?_, fun h => h.joins hjoins⟩
    constructor <;> simp_all
  · refine ⟨fun _ => ?_, fun _ => ⟨d, rfl⟩⟩
    constructor <;> simp_all

theorem exists_foldlM_setKey_iff {fields : List (String × Value)} (d : Descriptor) :
    (∃ d', fields.foldlM (fun d (key, value) => d.setKey key value) d = .ok d') ↔
      ∀ field ∈ fields, Accepts field.1 field.2 := by
  induction fields generalizing d with
  | nil => simp
  | cons field rest ih =>
    rw [List.forall_mem_cons, ← exists_setKey_iff d]
    constructor
    · rintro ⟨d', h⟩
      obtain ⟨next, hnext, h⟩ := bind_eq_ok.mp h
      exact ⟨⟨next, hnext⟩, (ih next).mp ⟨d', h⟩⟩
    · rintro ⟨⟨next, hnext⟩, hrest⟩
      obtain ⟨d', h⟩ := (ih next).mpr hrest
      exact ⟨d', bind_eq_ok.mpr ⟨next, hnext, h⟩⟩

/-- An object is read as a descriptor if and only if what is written under each key is accepted. -/
theorem exists_ofValue_iff {fields : List (String × Value)} :
    (∃ d, ofValue (.object fields) = .ok d) ↔ ∀ field ∈ fields, Accepts field.1 field.2 :=
  exists_foldlM_setKey_iff empty

theorem setKey_of_not_mem {key : String} (hkey : key ∉ keys) (value : Value) :
    d.setKey key value = .ok d := by
  simp only [keys, List.mem_cons, List.not_mem_nil, or_false, not_or] at hkey
  obtain ⟨hwhere, hsort, hskip, hlimit, hjoins⟩ := hkey
  rw [setKey, if_neg hwhere, if_neg hsort, if_neg hskip, if_neg hlimit, if_neg hjoins]

/-- Keys without a meaning make no difference, not even to the fault that is reported. -/
theorem ofValue_filter_keys (fields : List (String × Value)) :
    ofValue (.object (fields.filter (fun field => field.1 ∈ keys))) = ofValue (.object fields) := by
  rw [ofValue, ofValue, List.foldlM_filter]
  congr 1
  funext d ⟨key, value⟩
  by_cases hkey : key ∈ keys
  · simp [hkey]
  · simp [hkey, setKey_of_not_mem]

/-- The values under the keys determine the descriptor. -/
theorem ReadFrom.unique (h : ReadFrom entries d) (h' : ReadFrom entries d') : d = d' := by
  obtain ⟨filter, sort, skip, limit, joins⟩ := d
  obtain ⟨filter', sort', skip', limit', joins'⟩ := d'
  obtain rfl := Except.ok.inj (h.filter.symm.trans h'.filter)
  obtain rfl := Except.ok.inj (h.sort.symm.trans h'.sort)
  obtain rfl := Except.ok.inj (h.skip.symm.trans h'.skip)
  obtain rfl := Except.ok.inj (h.limit.symm.trans h'.limit)
  obtain rfl := Except.ok.inj (h.joins.symm.trans h'.joins)
  rfl

/-- Only the values under the keys count. -/
theorem ReadFrom.congr {entries' : Assoc Value} (h : ReadFrom entries d)
    (hsame : ∀ key ∈ keys, (entries.lookup key).getD .null = (entries'.lookup key).getD .null) :
    ReadFrom entries' d where
  filter := by rw [← hsame "where" (by decide), h.filter]
  sort := by rw [← hsame "sort" (by decide), h.sort]
  skip := by rw [← hsame "skip" (by decide), h.skip]
  limit := by rw [← hsame "limit" (by decide), h.limit]
  joins := by rw [← hsame "joins" (by decide), h.joins]

/-- Of an object of distinct keys each value counts, so there is a descriptor if each part can be
    read. -/
theorem ofValue_eq_ok_iff {fields : Assoc Value} (hnodup : fields.keys.Nodup) :
    ofValue (.object fields) = .ok d ↔ ReadFrom (Value.object fields).writtenFields d := by
  refine ⟨readFrom_of_ofValue, fun h => ?_⟩
  have haccepts : ∀ field ∈ fields, Accepts field.1 field.2 := by
    rintro ⟨key, value⟩ hmem
    have hvalue : ((Value.object fields).writtenFields.lookup key).getD .null = value := by
      rw [Value.writtenFields, Assoc.ofList, Assoc.lookup_insertAll_of_nodup hnodup,
        Assoc.lookup_of_mem hnodup hmem]
      rfl
    constructor <;> rintro rfl <;> rw [← hvalue]
    · exact ⟨_, h.filter⟩
    · exact ⟨_, h.sort⟩
    · exact ⟨_, h.skip⟩
    · exact ⟨_, h.limit⟩
    · exact ⟨_, h.joins⟩
  obtain ⟨d', hread⟩ := exists_ofValue_iff.mpr haccepts
  rw [hread, (readFrom_of_ofValue hread).unique h]

/-- Whatever else the objects hold, and in whatever order, they are read alike if they agree on the
    parts of a descriptor. -/
theorem ofValue_eq_ok_congr {fields fields' : Assoc Value} (hnodup : fields.keys.Nodup)
    (hnodup' : fields'.keys.Nodup)
    (hsame : ∀ key ∈ keys, (Value.object fields).part key = (Value.object fields').part key) :
    ofValue (.object fields) = .ok d ↔ ofValue (.object fields') = .ok d := by
  rw [ofValue_eq_ok_iff hnodup, ofValue_eq_ok_iff hnodup']
  exact ⟨fun h => h.congr hsame, fun h => h.congr (fun key hkey => (hsame key hkey).symm)⟩

end Descriptor

end DocQuery
