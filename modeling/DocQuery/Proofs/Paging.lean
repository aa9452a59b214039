import Mathlib.Data.List.Forall2
import DocQuery.Proofs.Selection

set_option autoImplicit false

/-! # Counting and paging

Descriptors that differ only in their joins and their page filter and sort alike. What comes after
works row by row: joins are attached to a row whatever the other rows are, so leaving out rows
before or after that makes no difference for the rows that stay. Hence counting, which leaves out
the joins, gives the number of documents that finding gives (`count_agrees_with_find`), and the
pages of a result are its slices (`pages_tile`). Joins are attached before the limit is applied, so
a row that a join fails on makes its own page and all pages before it fail, but none after it. -/

namespace DocQuery

variable {tables : Tables} {fields : List MergeField} {rows merged : List Value}

/-! ## Joins row by row -/

section

variable [PatternLibrary]

/-- A merge gives a row for each row, or it fails. -/
theorem mergeRows_eq_ok : mergeRows tables fields rows = .ok merged ↔
    List.Forall₂ (fun row result => mergeRow tables fields row = .ok result) rows merged := by
  induction rows generalizing merged with
  | nil =>
    rw [mergeRows, List.forall₂_nil_left_iff]
    exact ⟨fun h => (Except.ok.inj h).symm, fun h => congrArg Except.ok h.symm⟩
  | cons row rest ih =>
    rw [mergeRows, List.forall₂_cons_left_iff]
    constructor
    · intro h
      obtain ⟨first, hfirst, h⟩ := bind_eq_ok.mp h
      obtain ⟨later, hlater, h⟩ := bind_eq_ok.mp h
      exact ⟨first, later, hfirst, ih.mp hlater, (Except.ok.inj h).symm⟩
    · rintro ⟨first, later, hfirst, hlater, rfl⟩
      rw [hfirst, ih.mpr hlater]
      rfl

theorem length_attachFields (h : attachFields tables fields rows = .ok merged) :
    merged.length = rows.length := by
  unfold attachFields at h
  split at h
  · rw [Except.ok.inj h]
  · exact (mergeRows_eq_ok.mp h).length_eq.symm

/-- Rows that are left out before the joins are attached are left out of the result. -/
theorem attachFields_drop (h : attachFields tables fields rows = .ok merged) (count : Nat) :
    attachFields tables fields (rows.drop count) = .ok (merged.drop count) := by
  unfold attachFields at h ⊢
  split at h
  · next hempty => rw [if_pos hempty, Except.ok.inj h]
  · next hfields =>
    rw [if_neg hfields]
    exact mergeRows_eq_ok.mpr (List.forall₂_drop count (mergeRows_eq_ok.mp h))

end

theorem length_takeUpTo (count : Nat) (rows : List Value) :
    (takeUpTo count rows).length = if count = 0 then rows.length else min count rows.length := by
  unfold takeUpTo
  split
  · rfl
  · rw [List.length_take]

/-! ## The stages of a page -/

namespace Descriptor

variable {d : Descriptor} {result : List Value}

/-- How many documents a descriptor gives if its filter keeps `found`. -/
def share (d : Descriptor) (found : Nat) : Nat :=
  let left := found - min d.skipCount found
  if d.limitCount = 0 then left else min d.limitCount left

/-- The descriptor for the page with the number `k`, from 0, of `size` documents a page. -/
def page (d : Descriptor) (size : UInt64) (k : Nat) : Descriptor :=
  { d with skip := some (UInt64.ofNat (k * size.toNat)), limit := some size }

theorem length_takeUpTo_sortRows {sorted : List Value} (h : sortRows d.sortKeys rows = .ok sorted) :
    (takeUpTo d.limitCount (sorted.drop d.skipCount)).length = d.share rows.length := by
  have hsorted : sorted.length = rows.length := (perm_of_sortRows h).length_eq
  have hleft : rows.length - d.skipCount = rows.length - min d.skipCount rows.length := by omega
  rw [length_takeUpTo, List.length_drop, hsorted, hleft, share]

variable [PatternLibrary]

/-- What the last stages give was sorted, and joins were attached to what is left of it then. -/
theorem arrange_eq_ok : d.arrange tables fields rows = .ok result ↔
    ∃ sorted merged, sortRows d.sortKeys rows = .ok sorted ∧
      attachFields tables fields (sorted.drop d.skipCount) = .ok merged ∧
      takeUpTo d.limitCount merged = result := by
  unfold arrange
  simp only [bind_eq_ok, mapError_eq_ok, pure_eq_ok, Except.ok.injEq]
  exact ⟨fun ⟨sorted, hsorted, merged, hmerged, h⟩ => ⟨sorted, merged, hsorted, hmerged, h⟩,
    fun ⟨sorted, merged, hsorted, hmerged, h⟩ => ⟨sorted, hsorted, merged, hmerged, h⟩⟩

/-- Joins do not change how many rows there are. -/
theorem length_arrange (h : d.arrange tables fields rows = .ok result) :
    result.length = d.share rows.length := by
  obtain ⟨sorted, merged, hsorted, hmerged, rfl⟩ := arrange_eq_ok.mp h
  rw [← length_takeUpTo_sortRows hsorted, length_takeUpTo, length_takeUpTo,
    length_attachFields hmerged]

/-- The stages of a page give a slice of what the stages of the whole give. -/
theorem arrange_page (hskip : d.skip = none) (hlimit : d.limit = none)
    (h : d.arrange tables fields rows = .ok result) {size : UInt64} (hsize : size ≠ 0) {k : Nat}
    (hk : k * size.toNat < 2 ^ 64) : (d.page size k).arrange tables fields rows =
      .ok ((result.drop (k * size.toNat)).take size.toNat) := by
  obtain ⟨sorted, merged, hsorted, hmerged, rfl⟩ := arrange_eq_ok.mp h
  have hwhole : attachFields tables fields sorted = .ok merged := by
    rwa [skipCount, hskip] at hmerged
  have hall : takeUpTo d.limitCount merged = merged := by
    rw [limitCount, hlimit]
    rfl
  have hskipped : (d.page size k).skipCount = k * size.toNat := UInt64.toNat_ofNat_of_lt' hk
  have hpositive : size.toNat ≠ 0 := fun he => hsize (UInt64.toNat_inj.mp he)
  rw [hall]
  refine arrange_eq_ok.mpr ⟨sorted, merged.drop (k * size.toNat), hsorted, ?_, if_neg hpositive⟩
  rw [hskipped, attachFields_drop hwhole]

end Descriptor

/-- Slices of one length, one after the other, are a list from its start. -/
theorem flatten_slices {α : Type} (items : List α) (size count : Nat) :
    ((List.range count).map (fun k => (items.drop (k * size)).take size)).flatten =
      items.take (count * size) := by
  induction count with
  | zero => simp
  | succ count ih =>
    rw [List.range_succ, List.map_append, List.flatten_append, ih, Nat.succ_mul, List.take_add]
    simp

namespace Connection

variable [PatternLibrary] {c : Connection} {table : String} {d : Descriptor} {result : List Value}

theorem find_eq_ok : c.find table d = .ok result ↔
    c.checkHandle = .ok () ∧ c.select table d = .ok result := by
  unfold find
  rw [bind_eq_ok]
  exact ⟨fun ⟨_, hopen, h⟩ => ⟨hopen, h⟩, fun ⟨hopen, h⟩ => ⟨(), hopen, h⟩⟩

theorem count_eq_ok {n : Nat} : c.count table d = .ok n ↔ c.checkHandle = .ok () ∧
    ∃ rows, c.select table d.withoutJoins = .ok rows ∧ rows.length = n := by
  unfold count
  rw [bind_eq_ok]
  constructor
  · rintro ⟨⟨⟩, hopen, h⟩
    obtain ⟨rows, hrows, h⟩ := bind_eq_ok.mp h
    exact ⟨hopen, rows, hrows, Except.ok.inj h⟩
  · rintro ⟨hopen, rows, hrows, rfl⟩
    exact ⟨(), hopen, bind_eq_ok.mpr ⟨rows, hrows, rfl⟩⟩

/-- What is selected went through the stages. -/
theorem select_eq_ok : c.select table d = .ok result ↔
    ∃ base fields kept, c.store.tables.lookup table = some base ∧
      d.mergeFields c.options.primaryKey = .ok fields ∧
      (Plan.filtered c.options (.table table) d).run c.store.tables = .ok kept ∧
      d.arrange c.store.tables fields kept = .ok result := by
  constructor
  · intro h
    cases hbase : c.store.tables.lookup table with
    | none =>
      rw [select_of_no_table hbase] at h
      cases h
    | some base =>
      rw [select_eq_stages hbase] at h
      obtain ⟨fields, hfields, h⟩ := bind_eq_ok.mp (mapError_eq_ok.mp h)
      obtain ⟨kept, hkept, h⟩ := bind_eq_ok.mp h
      exact ⟨base, fields, kept, rfl, mapError_eq_ok.mp hfields, hkept, h⟩
  · rintro ⟨base, fields, kept, hbase, hfields, hkept, h⟩
    rw [select_eq_stages hbase, hfields, mapError_ok, ok_bind, hkept, ok_bind, h]
    rfl

end Connection

/-! ## Counting -/

/-- Counting gives the number of documents that finding gives, and fails only where finding fails
    too. On a table of objects the number is known from the number of documents that the filter
    keeps, if those are no more than twenty or are sorted by values in a transitive order; only a
    pattern that is refused can make counting fail there. -/
theorem count_agrees_with_find [PatternLibrary] (c : Connection) (table : String) (d : Descriptor) :
    (∀ rows, c.find table d = .ok rows → c.count table d = .ok rows.length) ∧
    (∀ e, c.count table d = .error e → ∃ e', c.find table d = .error e') ∧
    ∀ rows, c.closed = false → c.store.tables.lookup table = some rows →
      (∀ row ∈ rows, row.isObject = true) →
      (d.kept rows).length ≤ 20 ∨ SortsTransitively d.sortKeys (d.kept rows) →
      c.count table d = .ok (d.share (d.kept rows).length) ∨
        ∃ e, d.Refuses e ∧ c.count table d = .error (.query e) := by
  have hagrees : ∀ rows, c.find table d = .ok rows → c.count table d = .ok rows.length := by
    intro rows hfind
    obtain ⟨hopen, hselect⟩ := Connection.find_eq_ok.mp hfind
    obtain ⟨base, fields, kept, hbase, -, hkept, harranged⟩ := Connection.select_eq_ok.mp hselect
    obtain ⟨sorted, -, hsorted, -, -⟩ := Descriptor.arrange_eq_ok.mp harranged
    refine Connection.count_eq_ok.mpr ⟨hopen, _, ?_, (Descriptor.length_takeUpTo_sortRows
      hsorted).trans (Descriptor.length_arrange harranged).symm⟩
    rw [Connection.select_withoutJoins_eq_stages hbase, hkept, ok_bind, hsorted]
    rfl
  refine ⟨hagrees, ?_, ?_⟩
  · intro e hcount
    cases hfind : c.find table d with
    | error e' => exact ⟨e', rfl⟩
    | ok rows =>
      rw [hagrees rows hfind] at hcount
      cases hcount
  · intro rows hopen hrows hobjects hsorts
    have hhandle : c.checkHandle = .ok () := Connection.checkHandle_of_open hopen
    obtain ⟨sorted, hsorted⟩ : ∃ sorted, sortRows d.sortKeys (d.kept rows) = .ok sorted := by
      cases hsorted : sortRows d.sortKeys (d.kept rows) with
      | ok sorted => exact ⟨sorted, rfl⟩
      | error e =>
        obtain ⟨-, hmany, hsort⟩ := of_sortRows_error hsorted
        exact absurd (hsorts.resolve_left (by omega)) hsort
    rcases Connection.select_withoutJoins hrows hobjects d with hselect | ⟨e, he, hselect⟩ |
      ⟨hmany, hsort, -⟩
    · refine Or.inl (Connection.count_eq_ok.mpr ⟨hhandle, _, hselect, ?_⟩)
      rw [Descriptor.map_fst_numbered hsorted, Descriptor.length_takeUpTo_sortRows hsorted]
    · refine Or.inr ⟨e, he, ?_⟩
      rw [Connection.count, hhandle, ok_bind, hselect, error_bind]
    · exact absurd (hsorts.resolve_left (by omega)) hsort

/-- One document of three is skipped, and a join looks one of the other two up. -/
theorem count_agrees_with_find_second_and_third :
    let post (id author : String) : Value :=
      .object [("id", .string id), ("author", .string author)]
    let posts : List Value := [post "1" "ann", post "2" "ann", post "3" "bob"]
    let ann : Value := .object [("id", .string "ann")]
    let tables : Tables := [("posts", posts), ("people", [ann])]
    let c : Connection := ⟨"main", {}, ⟨⟨"test", by decide, by decide⟩, tables⟩, ⟨fun _ => "", 0⟩,
      false⟩
    let d : Descriptor := {
      skip := some 1
      limit := some 5
      joins := some [.belongsTo ⟨"by", "people", none, some "author"⟩] }
    let joined (id author : String) (person : Value) : Value :=
      .object [("id", .string id), ("author", .string author), ("by", person)]
    let found : List Value := [joined "2" "ann" ann, joined "3" "bob" .null]
    c.find "posts" d = .ok found ∧ c.count "posts" d = .ok found.length ∧ d.share 3 = 2 ∧
      (c.count "posts" d = .ok (d.share (d.kept posts).length) ∨
        ∃ e, d.Refuses e ∧ c.count "posts" d = .error (.query e)) := by
  intro post posts ann tables c d joined found
  have hfind : c.find "posts" d = .ok found := rfl
  have hobjects : ∀ row ∈ posts, row.isObject = true := by simp [posts, post, Value.isObject]
  obtain ⟨hagrees, -, hnumber⟩ := count_agrees_with_find c "posts" d
  exact ⟨hfind, hagrees found hfind, rfl, hnumber posts rfl rfl hobjects (Or.inl (by decide))⟩

/-- A `like` that is refused makes counting fail if the first document has the field. -/
theorem Connection.count_like_refused [PatternLibrary] {c : Connection}
    {table name wildcards : String} {row v : Value} {rest : List Value} (hopen : c.closed = false)
    (hrows : c.store.tables.lookup table = some (row :: rest)) (hfield : readField name row = .ok v)
    (hrefused : Pattern.usable? (Pattern.ofWildcards wildcards) = none) :
    c.count table { filter := some [.field name (.like wildcards)] } =
      .error (.query (.execution (.invalidPattern (Pattern.ofWildcards wildcards)))) := by
  have hscan : (Plan.filtered c.options (.table table)
      { filter := some [.field name (.like wildcards)] }).run c.store.tables =
        .error (.query (.execution (.invalidPattern (Pattern.ofWildcards wildcards)))) := by
    have hfilter : Plan.filtered c.options (.table table)
        { filter := some [.field name (.like wildcards)] } =
          .filter (.table table) (Clause.compile .row [.field name (.like wildcards)]) := by
      unfold Plan.filtered Plan.withPart Plan.compileFilter
      cases c.options.keyLookup <;> rfl
    rw [hfilter, Plan.run, Plan.run, hrows, ok_bind, filterRows_like_refused hrefused hfield rest,
      mapError_error]
  rw [count, checkHandle, hopen, select_withoutJoins_eq_stages hrows, hscan]
  rfl

/-- No document matches a text condition that is too large, but counting fails as soon as a document
    has the field. -/
theorem count_like_too_large :
    let wildcards := String.ofList (List.replicate 12500 '_')
    let rows : List Value := [.object [("s", .null)]]
    let c : Connection := ⟨"main", {}, ⟨⟨"test", by decide, by decide⟩, [("t", rows)]⟩,
      ⟨fun _ => "", 0⟩, false⟩
    let d : Descriptor := { filter := some [.field "s" (.like wildcards)] }
    c.closed = false ∧ c.store.tables.lookup "t" = some rows ∧
      (∀ row ∈ rows, row.isObject = true) ∧ d.share (d.kept rows).length = 0 ∧
      c.count "t" d =
        .error (.query (.execution (.invalidPattern (Pattern.ofWildcards wildcards)))) := by
  intro wildcards rows c d
  have hrefused : Pattern.usable? (Pattern.ofWildcards wildcards) = none :=
    Pattern.usable?_ofWildcards_replicate (by decide)
  have hrows : c.store.tables.lookup "t" = some rows := rfl
  refine ⟨rfl, hrows, ?_, rfl, Connection.count_like_refused rfl hrows rfl hrefused⟩
  intro row hrow
  rw [List.mem_singleton.mp hrow]
  rfl

/-! ## Pages -/

/-- The pages of a result are its slices, and pages past its end are empty; the first pages together
    are a beginning of the result, and all of it if they are enough. -/
theorem pages_tile [PatternLibrary] {c : Connection} {table : String} {d : Descriptor}
    {result : List Value} (hskip : d.skip = none) (hlimit : d.limit = none)
    (hfind : c.find table d = .ok result) {size : UInt64} (hsize : 1 ≤ size) :
    (∀ k, k * size.toNat < 2 ^ 64 → c.find table (d.page size k) =
      .ok ((result.drop (k * size.toNat)).take size.toNat)) ∧
    (∀ k, k * size.toNat < 2 ^ 64 → result.length ≤ k * size.toNat →
      c.find table (d.page size k) = .ok []) ∧
    ∀ count, (∀ k < count, k * size.toNat < 2 ^ 64) →
      ∃ pages, List.Forall₂ (fun k page => c.find table (d.page size k) = .ok page)
          (List.range count) pages ∧
        pages.flatten = result.take (count * size.toNat) ∧
        (result.length ≤ count * size.toNat → pages.flatten = result) := by
  have hne : size ≠ 0 := by
    rintro rfl
    exact absurd hsize (by decide)
  obtain ⟨hopen, hselect⟩ := Connection.find_eq_ok.mp hfind
  obtain ⟨base, fields, kept, hbase, hfields, hkept, harranged⟩ :=
    Connection.select_eq_ok.mp hselect
  have hpage : ∀ k, k * size.toNat < 2 ^ 64 → c.find table (d.page size k) =
      .ok ((result.drop (k * size.toNat)).take size.toNat) := by
    intro k hk
    -- a page has the filter and the joins of the whole, so their stages are the same
    exact Connection.find_eq_ok.mpr ⟨hopen, Connection.select_eq_ok.mpr ⟨base, fields, kept, hbase,
      hfields, hkept, Descriptor.arrange_page hskip hlimit harranged hne hk⟩⟩
  refine ⟨hpage, ?_, ?_⟩
  · intro k hk hpast
    rw [hpage k hk, List.drop_eq_nil_of_le hpast, List.take_nil]
  · intro count hcount
    refine ⟨_, ?_, flatten_slices result size.toNat count, ?_⟩
    · rw [List.forall₂_map_right_iff, List.forall₂_same]
      exact fun k hk => hpage k (hcount k (List.mem_range.mp hk))
    · intro henough
      rw [flatten_slices, List.take_of_length_le henough]

/-- Three documents on pages of two; the join misses its key on the second document. -/
theorem pages_tile_two_a_page :
    let posts : List Value := [.object [("id", .string "1"), ("author", .string "ann")],
      .object [("id", .string "2")], .object [("id", .string "3"), ("author", .string "bob")]]
    let ann : Value := .object [("id", .string "ann")]
    let tables : Tables := [("posts", posts), ("people", [ann])]
    let c : Connection := ⟨"main", {}, ⟨⟨"test", by decide, by decide⟩, tables⟩, ⟨fun _ => "", 0⟩,
      false⟩
    let d : Descriptor := { joins := some [.belongsTo ⟨"by", "people", none, some "author"⟩] }
    let first : Value := .object [("id", .string "1"), ("author", .string "ann"), ("by", ann)]
    let second : Value := .object [("id", .string "2"), ("by", .null)]
    let third : Value := .object [("id", .string "3"), ("author", .string "bob"), ("by", .null)]
    d.skip = none ∧ d.limit = none ∧ c.find "posts" d = .ok [first, second, third] ∧
      (1 : UInt64) ≤ 2 ∧ c.find "posts" (d.page 2 0) = .ok [first, second] ∧
      c.find "posts" (d.page 2 1) = .ok [third] ∧ c.find "posts" (d.page 2 2) = .ok [] := by
  intro posts ann tables c d first second third
  have hfind : c.find "posts" d = .ok [first, second, third] := rfl
  have hsize : (1 : UInt64) ≤ 2 := by decide
  obtain ⟨hpage, hpast, -⟩ := pages_tile (d := d) rfl rfl hfind hsize
  exact ⟨rfl, rfl, hfind, hsize, hpage 0 (by decide), hpage 1 (by decide),
    hpast 2 (by decide) (by decide)⟩

end DocQuery
