import Mathlib.Data.List.Perm.Subperm
import DocQuery.Proofs.Answers
import DocQuery.Proofs.SortedImages
import DocQuery.Store.Table

set_option autoImplicit false

/-! # Which rows a descriptor selects

Two rows of a table may be the same value, so what an operation may write is said of positions.
`Descriptor.numbered` gives the rows that a descriptor selects together with their positions; its
rows are what finding gives where there is nothing to join (`select_withoutJoins`), and no position
is selected twice. -/

namespace DocQuery

namespace Descriptor

/-- The rows that a descriptor without joins selects, each with its position in the table. If they
    cannot be sorted there are none. -/
def numbered (d : Descriptor) (rows : List Value) : List (Value × Nat) :=
  let kept := rows.zipIdx.filter (fun r => d.filter.all (fun clause => clause.holds r.1))
  let sorted := (Driftsort.sort (fun r s => compareRows d.sortKeys r.1 s.1) kept).getD []
  let left := sorted.drop d.skipCount
  if d.limitCount = 0 then left else left.take d.limitCount

/-- The positions of the rows that a descriptor selects, in the order in which it gives them. -/
def positions (d : Descriptor) (rows : List Value) : List Nat :=
  (d.numbered rows).map Prod.snd

variable {d : Descriptor} {rows : List Value}

theorem map_fst_numbered {sorted : List Value}
    (h : sortRows d.sortKeys (d.kept rows) = .ok sorted) :
    (d.numbered rows).map Prod.fst = takeUpTo d.limitCount (sorted.drop d.skipCount) := by
  have hkept : (rows.zipIdx.filter
      (fun r => d.filter.all (fun clause => clause.holds r.1))).map Prod.fst = d.kept rows := by
    rw [kept]
    conv_rhs => rw [← List.zipIdx_map_fst 0 rows, List.filter_map]
    rfl
  -- the sort does not see the positions
  have hsorted : Driftsort.sort (compareRows d.sortKeys) ((rows.zipIdx.filter
      (fun r => d.filter.all (fun clause => clause.holds r.1))).map Prod.fst) =
      (Driftsort.sort (fun r s => compareRows d.sortKeys r.1 s.1) (rows.zipIdx.filter
        (fun r => d.filter.all (fun clause => clause.holds r.1)))).map (List.map Prod.fst) :=
    Driftsort.sort_map (f := Prod.fst) (fun _ _ => rfl) _
  rw [hkept, sort_eq_of_sortRows h] at hsorted
  obtain ⟨pairs, hpairs, rfl⟩ := Option.map_eq_some_iff.mp hsorted.symm
  rw [numbered, hpairs, Option.getD_some, takeUpTo]
  split
  · rw [List.map_drop]
  · rw [List.map_take, List.map_drop]

/-- What is selected is, up to its order, a part of the numbered rows of the table. -/
theorem numbered_subperm (d : Descriptor) (rows : List Value) :
    (d.numbered rows).Subperm rows.zipIdx := by
  have horiented : Std.OrientedCmp
      (fun r s : Value × Nat => compareRows d.sortKeys r.1 s.1) :=
    ⟨compareRows_swap d.sortKeys _ _⟩
  have hsorted : ((Driftsort.sort (fun r s => compareRows d.sortKeys r.1 s.1)
      (rows.zipIdx.filter (fun r => d.filter.all (fun clause => clause.holds r.1)))).getD
      []).Subperm rows.zipIdx := by
    cases hsort : Driftsort.sort (fun r s => compareRows d.sortKeys r.1 s.1)
        (rows.zipIdx.filter (fun r => d.filter.all (fun clause => clause.holds r.1))) with
    | none => exact List.nil_subperm
    | some sorted =>
      exact (perm_of_sort_eq_some hsort).subperm.trans List.filter_sublist.subperm
  rw [numbered]
  split
  · exact (List.drop_sublist _ _).subperm.trans hsorted
  · exact ((List.take_sublist _ _).trans (List.drop_sublist _ _)).subperm.trans hsorted

theorem getElem?_of_mem_numbered {row : Value} {i : Nat} (h : (row, i) ∈ d.numbered rows) :
    rows[i]? = some row :=
  List.mk_mem_zipIdx_iff_getElem?.mp ((d.numbered_subperm rows).subset h)

/-- The selected rows are the ones at the selected positions. -/
theorem map_fst_numbered_eq_filterMap (d : Descriptor) (rows : List Value) :
    (d.numbered rows).map Prod.fst = (d.positions rows).filterMap (rows[·]?) := by
  rw [positions, List.filterMap_map, ← List.filterMap_eq_map]
  exact List.filterMap_congr (fun r hr => (getElem?_of_mem_numbered hr).symm)

/-- No position is selected twice. -/
theorem nodup_positions (d : Descriptor) (rows : List Value) : (d.positions rows).Nodup := by
  obtain ⟨l, hperm, hsublist⟩ := d.numbered_subperm rows
  have hnodup : (l.map Prod.snd).Nodup := by
    refine (hsublist.map Prod.snd).nodup ?_
    rw [List.zipIdx_map_snd]
    exact List.nodup_range'
  exact (hperm.map Prod.snd).nodup_iff.mp hnodup

end Descriptor

/-! ## Finding without joins -/

namespace Connection

variable [PatternLibrary] {c : Connection} {table : String} {rows : List Value} {d : Descriptor}

/-- On a table that is there, selecting runs the stages of the descriptor. -/
theorem select_eq_stages (hrows : c.store.tables.lookup table = some rows) (d : Descriptor) :
    c.select table d = (do
      let fields ← (d.mergeFields c.options.primaryKey).mapError .query
      let kept ← (Plan.filtered c.options (.table table) d).run c.store.tables
      d.arrange c.store.tables fields kept : Except RunError (List Value)).mapError .ofRun := by
  have hlookup : c.rows table = .ok rows := by rw [Connection.rows, hrows]
  rw [select, hlookup, ok_bind, Connection.plan]
  rcases Plan.compile_cases (.table table) c.options d with ⟨e, he, hplan⟩ |
    ⟨fields, plan, hfields, hplan, hrun⟩
  · rw [he, hplan]
    rfl
  · rw [hfields, hplan, mapError_ok, mapError_ok, ok_bind, ok_bind, hrun]

/-- Without joins the stages after the filter only sort and cut. -/
theorem select_withoutJoins_eq_stages (hrows : c.store.tables.lookup table = some rows)
    (d : Descriptor) : c.select table d.withoutJoins = (do
      let kept ← (Plan.filtered c.options (.table table) d).run c.store.tables
      let sorted ← sortRows d.sortKeys kept
      return takeUpTo d.limitCount (sorted.drop d.skipCount) :
        Except RunError (List Value)).mapError .ofRun := by
  have hfiltered : Plan.filtered c.options (.table table) d.withoutJoins =
      Plan.filtered c.options (.table table) d := rfl
  have hfields : d.withoutJoins.mergeFields c.options.primaryKey = .ok [] := rfl
  rw [select_eq_stages hrows, hfields, mapError_ok, ok_bind, hfiltered]
  rfl

theorem select_of_no_table (hrows : c.store.tables.lookup table = none) (d : Descriptor) :
    c.select table d = .error (.store (.tableNotFound c.db table)) := by
  have hlookup : c.rows table = .error (.store (.tableNotFound c.db table)) := by
    rw [Connection.rows, hrows]
  rw [select, hlookup, error_bind]

/-- On a table of objects a descriptor without joins selects these rows, or it is refused for a
    pattern, or there are many rows and no order to sort them by. -/
theorem select_withoutJoins (hrows : c.store.tables.lookup table = some rows)
    (hobjects : ∀ row ∈ rows, row.isObject = true) (d : Descriptor) :
    c.select table d.withoutJoins = .ok ((d.numbered rows).map Prod.fst) ∨
      (∃ e, d.Refuses e ∧ c.select table d.withoutJoins = .error (.query e)) ∨
      20 < (d.kept rows).length ∧ ¬ SortsTransitively d.sortKeys (d.kept rows) ∧
        c.select table d.withoutJoins = .error (.store .taskFailed) := by
  rw [select_withoutJoins_eq_stages hrows]
  rcases run_filtered_of_objects (d := d) c.options hrows hobjects with h | ⟨e, he, h⟩
  · rw [h, ok_bind]
    cases hsorted : sortRows d.sortKeys (d.kept rows) with
    | ok sorted =>
      rw [Descriptor.map_fst_numbered hsorted]
      exact Or.inl rfl
    | error e =>
      obtain ⟨rfl, hmany, hsort⟩ := of_sortRows_error hsorted
      exact Or.inr (Or.inr ⟨hmany, hsort, rfl⟩)
  · rw [h]
    exact Or.inr (Or.inl ⟨e, he, rfl⟩)

section Select

variable {selected : List Value} (hrows : c.store.tables.lookup table = some rows)
  (hobjects : ∀ row ∈ rows, row.isObject = true)
  (hselect : c.select table d.withoutJoins = .ok selected)
include hrows hobjects hselect

theorem eq_map_fst_numbered_of_select : selected = (d.numbered rows).map Prod.fst := by
  rcases select_withoutJoins hrows hobjects d with h | ⟨e, -, h⟩ | ⟨-, -, h⟩
  · exact Except.ok.inj (hselect.symm.trans h)
  · cases hselect.symm.trans h
  · cases hselect.symm.trans h

theorem eq_filterMap_positions_of_select : selected = (d.positions rows).filterMap (rows[·]?) := by
  rw [← Descriptor.map_fst_numbered_eq_filterMap]
  exact eq_map_fst_numbered_of_select hrows hobjects hselect

/-- What is found without joins comes from different positions of the table. -/
theorem subperm_of_select : selected.Subperm rows := by
  obtain ⟨l, hperm, hsub⟩ := d.numbered_subperm rows
  have hzip := List.zipIdx_map_fst 0 rows
  rw [eq_map_fst_numbered_of_select hrows hobjects hselect]
  exact ⟨l.map Prod.fst, hperm.map Prod.fst, hzip ▸ hsub.map Prod.fst⟩

end Select

end Connection

end DocQuery
