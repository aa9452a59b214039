import DocQuery.Proofs.Execution
import DocQuery.Proofs.ValueOrder

set_option autoImplicit false

/-! # Filtering and sorting in either order

Leaving rows out of a stable sort gives the stable sort of the rows that are left
(`IsStableSort.filter`), so a filter may stand before or after a sorting step
(`filter_comm_orderBy`). A predicate is asked about the same rows either way: if it has no answer
for one of them neither plan gives rows, though the two may fail on different rows. -/

namespace DocQuery

section

variable [PatternLibrary] {tables : Tables} {input : Plan} {rows : List Value}
  {keys : List OrderKey} (hrun : input.run tables = .ok rows)
  (htrans : SortsTransitively keys rows) {predicate : Expr} {result : List Value}

include hrun htrans

/-- A plan that filters and then sorts gives the rows that the predicate accepts, sorted, if it has
    an answer for every row. -/
theorem run_orderBy_filter :
    (Plan.orderBy (.filter input predicate) keys).run tables = .ok result ↔
      ∃ p : Value → Bool, (∀ row ∈ rows, predicate.accepts tables row = .ok (p row)) ∧
        IsStableSort (compareRows keys) (rows.filter p) result := by
  have hkept : ∀ p, SortsTransitively keys (rows.filter p) :=
    fun p => htrans.subset List.filter_sublist.subset
  rw [Plan.run, Plan.run, hrun, ok_bind, bind_eq_ok]
  constructor
  · rintro ⟨kept, hfilter, hsorted⟩
    obtain ⟨p, hp, rfl⟩ := filterRows_eq_ok_iff.mp (mapError_eq_ok.mp hfilter)
    exact ⟨p, hp, (sortRows_eq_ok_iff (hkept p)).mp hsorted⟩
  · rintro ⟨p, hp, hsorted⟩
    exact ⟨rows.filter p, mapError_eq_ok.mpr (filterRows_eq_filter hp),
      (sortRows_eq_ok_iff (hkept p)).mpr hsorted⟩

/-- So does a plan that sorts and then filters. -/
theorem run_filter_orderBy :
    (Plan.filter (.orderBy input keys) predicate).run tables = .ok result ↔
      ∃ p : Value → Bool, (∀ row ∈ rows, predicate.accepts tables row = .ok (p row)) ∧
        IsStableSort (compareRows keys) (rows.filter p) result := by
  obtain ⟨sorted, hsorted, hstable⟩ := exists_sortRows htrans
  rw [Plan.run, Plan.run, hrun, ok_bind, hsorted, ok_bind, mapError_eq_ok, filterRows_eq_ok_iff]
  simp only [hstable.perm.mem_iff]
  refine exists_congr (fun p => and_congr_right (fun _ => ?_))
  rw [← sortRows_eq_ok_iff (htrans.subset List.filter_sublist.subset), sortRows_filter htrans p,
    hsorted, map_ok, Except.ok.injEq]

/-- Either plan fails as the predicate does on a row of the input. -/
theorem exists_accepts_of_run_eq_error {e : RunError}
    (h : (Plan.orderBy (.filter input predicate) keys).run tables = .error e ∨
      (Plan.filter (.orderBy input keys) predicate).run tables = .error e) :
    ∃ row ∈ rows, ∃ fault, predicate.accepts tables row = .error fault ∧ e = .query fault := by
  obtain ⟨sorted, hsorted, hstable⟩ := exists_sortRows htrans
  rw [Plan.run, Plan.run, Plan.run, Plan.run, hrun, ok_bind, ok_bind, hsorted, ok_bind,
    bind_eq_error, mapError_eq_error, mapError_eq_error] at h
  rcases h with (⟨fault, hfilter, rfl⟩ | ⟨kept, hfilter, hdisorder⟩) | ⟨fault, hfilter, rfl⟩
  · obtain ⟨row, hrow, haccepts⟩ := exists_accepts_of_filterRows_error hfilter
    exact ⟨row, hrow, fault, haccepts, rfl⟩
  · obtain ⟨p, -, rfl⟩ := filterRows_eq_ok_iff.mp (mapError_eq_ok.mp hfilter)
    exact absurd (htrans.subset List.filter_sublist.subset) (of_sortRows_error hdisorder).2.2
  · obtain ⟨row, hrow, haccepts⟩ := exists_accepts_of_filterRows_error hfilter
    exact ⟨row, hstable.perm.mem_iff.mp hrow, fault, haccepts, rfl⟩

end

/-! ## Main statement -/

/-- Where the sort order is transitive on the values that rows have under the keys, a filter and a
    sorting step may change places: one order gives rows if and only if the other does, and then
    they are the same rows in the same order, those that the predicate accepts, sorted stably. Both
    give rows if and only if the predicate has an answer for every row of the input, and fail only
    as it does. -/
theorem filter_comm_orderBy [PatternLibrary] {tables : Tables} {input : Plan} {rows : List Value}
    (hrun : input.run tables = .ok rows) {keys : List OrderKey}
    (htrans : SortsTransitively keys rows) (predicate : Expr) :
    (∀ result, (Plan.orderBy (.filter input predicate) keys).run tables = .ok result ↔
      (Plan.filter (.orderBy input keys) predicate).run tables = .ok result) ∧
    ((∃ result, (Plan.orderBy (.filter input predicate) keys).run tables = .ok result) ↔
      ∀ row ∈ rows, ∃ keep, predicate.accepts tables row = .ok keep) ∧
    (∀ result, (Plan.orderBy (.filter input predicate) keys).run tables = .ok result →
      ∃ p : Value → Bool, (∀ row ∈ rows, predicate.accepts tables row = .ok (p row)) ∧
        IsStableSort (compareRows keys) (rows.filter p) result) ∧
    ∀ e, (Plan.orderBy (.filter input predicate) keys).run tables = .error e ∨
      (Plan.filter (.orderBy input keys) predicate).run tables = .error e →
      ∃ row ∈ rows, ∃ fault, predicate.accepts tables row = .error fault ∧ e = .query fault := by
  refine ⟨?_, ?_, ?_, fun e => exists_accepts_of_run_eq_error hrun htrans⟩
  · intro result
    rw [run_orderBy_filter hrun htrans, run_filter_orderBy hrun htrans]
  · rw [← exists_filterRows_eq_ok_iff]
    constructor
    · rintro ⟨result, hresult⟩
      obtain ⟨p, hp, -⟩ := (run_orderBy_filter hrun htrans).mp hresult
      exact ⟨rows.filter p, filterRows_eq_filter hp⟩
    · rintro ⟨kept, hkept⟩
      obtain ⟨p, hp, rfl⟩ := filterRows_eq_ok_iff.mp hkept
      have hkeys : SortsTransitively keys (rows.filter p) :=
        htrans.subset List.filter_sublist.subset
      obtain ⟨sorted, -, hstable⟩ := exists_sortRows hkeys
      exact ⟨sorted, (run_orderBy_filter hrun htrans).mpr ⟨p, hp, hstable⟩⟩
  · intro result hresult
    exact (run_orderBy_filter hrun htrans).mp hresult

/-- Three of the accepted rows tie under both keys, one has a value under neither, and a row that
    lacks the field of the predicate is left out. -/
theorem filter_comm_orderBy_ties :
    let row (id kind : String) : Value := .object [("id", .string id), ("kind", .string kind)]
    let rows : List Value := [row "1" "b", row "2" "a", row "3" "b", .object [("id", .string "4")],
      row "5" "b", .null]
    let keys : List OrderKey := [⟨"kind", .descending⟩, ⟨"rank", .ascending⟩]
    let predicate : Expr := .or [.compare .gt (.row "id") (.datum (.string "2")),
      .compare .eq (.row "id") (.datum (.string "1"))]
    let result : List Value :=
      [row "1" "b", row "3" "b", row "5" "b", .object [("id", .string "4")]]
    (Plan.table "t").run [("t", rows)] = .ok rows ∧ SortsTransitively keys rows ∧
      (Plan.orderBy (.filter (.table "t") predicate) keys).run [("t", rows)] = .ok result ∧
      (Plan.filter (.orderBy (.table "t") keys) predicate).run [("t", rows)] = .ok result := by
  intro row rows keys predicate result
  have hrun : (Plan.table "t").run [("t", rows)] = .ok rows := rfl
  have htrans : SortsTransitively keys rows := by decide
  have hfirst : (Plan.orderBy (.filter (.table "t") predicate) keys).run [("t", rows)] =
      .ok result := by
    have hkept : filterRows [("t", rows)] predicate rows = .ok [row "1" "b", row "3" "b",
      .object [("id", .string "4")], row "5" "b"] := rfl
    rw [Plan.run, Plan.run, hrun, ok_bind, hkept, mapError_ok, ok_bind]
    simp +decide [row, keys, result, sortRows, Driftsort.sort, Driftsort.insertAll,
      Driftsort.mergeBack, Driftsort.isLess, compareRows]
  exact ⟨hrun, htrans, hfirst, ((filter_comm_orderBy hrun htrans predicate).1 result).mp hfirst⟩

end DocQuery
