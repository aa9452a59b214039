import DocQuery.Proofs.Results
import DocQuery.Proofs.ValueOrder

set_option autoImplicit false

/-! # Sorting by several keys

A sorting step gives the stable sort by all of its keys, the first one that tells two rows apart
deciding (`orderBy_sorts_stably`). A row that lacks the field of a key stands where one does that
holds null there: before all others if the key ascends, and after them if it descends. Sorting by
the later keys first and then by the earlier ones comes to the same (`sortRows_sortRows`). -/

namespace DocQuery

/-! ## Rows without a value -/

/-- The row holds null under the key, or does not have the field at all. -/
def OrderKey.IsVoid (key : OrderKey) (row : Value) : Prop :=
  row.field? key.field = none ∨ row.field? key.field = some .null

theorem OrderKey.isVoid_iff (key : OrderKey) (row : Value) :
    key.IsVoid row ↔ key.valueOf row = .null := by
  unfold IsVoid valueOf
  cases row.field? key.field <;> simp

/-- What comes first in ascending order comes last in descending order. -/
def Direction.first : Direction → Ordering
  | .ascending => .lt
  | .descending => .gt

theorem Value.null_sortOrder {v : Value} (h : v ≠ .null) : Value.null.sortOrder v = .lt := by
  cases v with
  | null => exact absurd rfl h
  | _ => rfl

/-- A row without a value comes first, or last if the key descends. -/
theorem OrderKey.compareRows_of_isVoid (key : OrderKey) {a b : Value} (ha : key.IsVoid a)
    (hb : ¬ key.IsVoid b) : key.compareRows a b = key.direction.first := by
  rw [isVoid_iff] at ha hb
  unfold compareRows
  rw [ha, Value.null_sortOrder hb]
  cases key.direction <;> rfl

/-- Rows that the keys find the same in, but for null and no field at all, compare alike with every
    other. -/
theorem compareRows_congr {keys : List OrderKey} {a a' : Value}
    (h : ∀ key ∈ keys, key.IsVoid a ∧ key.IsVoid a' ∨
      a.field? key.field = a'.field? key.field) (b : Value) :
    compareRows keys a b = compareRows keys a' b := by
  induction keys with
  | nil => rfl
  | cons key rest ih =>
    rw [List.forall_mem_cons] at h
    have hvalue : key.valueOf a = key.valueOf a' := by
      rcases h.1 with ⟨ha, ha'⟩ | hsame
      · rw [(key.isVoid_iff a).mp ha, (key.isVoid_iff a').mp ha']
      · rw [OrderKey.valueOf, OrderKey.valueOf, hsame]
    have hkey : key.compareRows a b = key.compareRows a' b := by
      rw [OrderKey.compareRows, OrderKey.compareRows, hvalue]
    rw [compareRows, compareRows, hkey, ih h.2]

/-! ## One sort after another -/

theorem compareRows_append (keys later : List OrderKey) (a b : Value) :
    compareRows (keys ++ later) a b = (compareRows keys a b).then (compareRows later a b) := by
  induction keys with
  | nil => rfl
  | cons key rest ih => rw [List.cons_append, compareRows, compareRows, ih, Ordering.then_assoc]

/-- Rows that are sorted by some keys and then by others are sorted by the latter before the
    former. -/
theorem sortRows_sortRows {keys later : List OrderKey} {rows : List Value}
    (h : SortsTransitively (keys ++ later) rows) :
    sortRows later rows >>= sortRows keys = sortRows (keys ++ later) rows := by
  have hlater : SortsTransitively later rows :=
    fun key hkey => h key (List.mem_append_right _ hkey)
  have hkeys : SortsTransitively keys rows := fun key hkey => h key (List.mem_append_left _ hkey)
  obtain ⟨first, hfirst, hfirstStable⟩ := exists_sortRows hlater
  obtain ⟨second, hsecond, hsecondStable⟩ :=
    exists_sortRows (hkeys.subset hfirstStable.perm.subset)
  have hboth := hfirstStable.then hsecondStable
  have happend : (fun a b => (compareRows keys a b).then (compareRows later a b)) =
      compareRows (keys ++ later) := by
    funext a b
    exact (compareRows_append keys later a b).symm
  rw [happend] at hboth
  rw [hfirst, ok_bind, hsecond, (sortRows_eq_ok_iff h).mpr hboth]

/-! ## Main statement -/

/-- Where the sort order is transitive on the values that rows have under the keys, a sorting step
    gives the rows in order, with ties in the order of the rows. The comparison is a total preorder
    there; a row without a value comes first where the key ascends and last where it descends, and
    no comparison tells null from no field. A sort by the last keys followed by one by the others is
    the sort by all of them. -/
theorem orderBy_sorts_stably [PatternLibrary] {tables : Tables} {input : Plan} {rows : List Value}
    (hrun : input.run tables = .ok rows) {keys : List OrderKey}
    (htrans : SortsTransitively keys rows) :
    (∃ sorted, (Plan.orderBy input keys).run tables = .ok sorted ∧
      IsStableSort (compareRows keys) rows sorted) ∧
    (∀ a, compareRows keys a a = .eq) ∧
    (∀ a b, compareRows keys b a = (compareRows keys a b).swap) ∧
    TransitiveOn (compareRows keys) rows ∧
    (∀ key : OrderKey, ∀ a b, key.IsVoid a → ¬ key.IsVoid b →
      key.compareRows a b = key.direction.first) ∧
    (∀ a a', (∀ key ∈ keys, key.IsVoid a ∧ key.IsVoid a' ∨
      a.field? key.field = a'.field? key.field) →
      ∀ b, compareRows keys a b = compareRows keys a' b) ∧
    ∀ first last, keys = first ++ last →
      (Plan.orderBy (Plan.orderBy input last) first).run tables =
        (Plan.orderBy input keys).run tables := by
  have hsort : ∀ keys', (Plan.orderBy input keys').run tables = sortRows keys' rows := by
    intro keys'
    rw [Plan.run, hrun, ok_bind]
  obtain ⟨sorted, hsorted, hstable⟩ := exists_sortRows htrans
  refine ⟨⟨sorted, (hsort keys).trans hsorted, hstable⟩, fun a => Std.ReflCmp.compare_self,
    compareRows_swap keys, transitiveOn_compareRows htrans,
    fun key a b => key.compareRows_of_isVoid, fun a a' h => compareRows_congr h, ?_⟩
  rintro first last rfl
  rw [hsort, Plan.run, hsort, sortRows_sortRows htrans]

/-- The second key descends and is void for a row without the field, a row that holds null and a row
    that is no object; the first key is asked for again at the end. -/
theorem orderBy_sorts_stably_void_last :
    let row (kind rank : Value) : Value := .object [("kind", kind), ("rank", rank)]
    let rows : List Value := [.string "loose", row (.string "b") .null,
      row (.string "a") (.string "x"), .object [("kind", .string "a")], row (.string "a") .null,
      row (.string "a") (.string "y"), .null]
    let kind : OrderKey := ⟨"kind", .ascending⟩
    let rank : OrderKey := ⟨"rank", .descending⟩
    (Plan.table "t").run [("t", rows)] = .ok rows ∧ SortsTransitively [kind, rank, kind] rows ∧
      IsStableSort (compareRows [kind, rank, kind]) rows [.string "loose", .null,
        row (.string "a") (.string "y"), row (.string "a") (.string "x"),
        .object [("kind", .string "a")], row (.string "a") .null, row (.string "b") .null] ∧
      (Plan.orderBy (Plan.orderBy (.table "t") [rank, kind]) [kind]).run [("t", rows)] =
        (Plan.orderBy (.table "t") [kind, rank, kind]).run [("t", rows)] := by
  intro row rows kind rank
  have hrun : (Plan.table "t").run [("t", rows)] = .ok rows := rfl
  have htrans : SortsTransitively [kind, rank, kind] rows := by decide
  obtain ⟨⟨sorted, hsorted, hstable⟩, -, -, -, -, -, hsplit⟩ := orderBy_sorts_stably hrun htrans
  refine ⟨hrun, htrans, ?_, hsplit [kind] [rank, kind] rfl⟩
  have hrows : sortRows [kind, rank, kind] rows = .ok [.string "loose", .null,
      row (.string "a") (.string "y"), row (.string "a") (.string "x"),
      .object [("kind", .string "a")], row (.string "a") .null, row (.string "b") .null] := by
    simp +decide [rows, row, kind, rank, sortRows, Driftsort.sort, Driftsort.insertAll,
      Driftsort.mergeBack, Driftsort.isLess, compareRows]
  rw [Plan.run, hrun, ok_bind, hrows] at hsorted
  obtain rfl := Except.ok.inj hsorted
  exact hstable

end DocQuery
