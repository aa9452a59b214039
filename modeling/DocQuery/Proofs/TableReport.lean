import Mathlib.Algebra.Ring.Nat
import Mathlib.Data.List.Forall2
import DocQuery.Proofs.RepeatedWrites
import DocQuery.Report

set_option autoImplicit false

/-! # Reports as tables

The table of some rows is a rectangle: its lines have one length (`length_of_mem_tableLines`), since
no cell is wider than its column (`columnWidth_le_iff`). The columns are the names of the fields
that occur, in the order in which they first do (`areColumnsOf_tableColumns`), and each row has a
cell in every one of them (`isCellOf_padded`). The widths can be found by going through the cells
row by row and widening the column at the index of each, which is always there
(`widenByRows_eq`). -/

namespace DocQuery

/-! ## Columns -/

/-- The columns of a table of the rows. -/
structure AreColumnsOf (rows : List Value) (columns : List String) : Prop where
  /-- No two columns have one name. -/
  distinct : columns.Nodup
  /-- There is a column for each name that a field of some object has, and no other. -/
  complete : ∀ name, name ∈ columns ↔ ∃ fields, .object fields ∈ rows ∧ name ∈ Assoc.keys fields
  /-- The columns stand in the order in which the names first occur. -/
  places : columns = (rows.flatMap fieldNames).eraseDups

theorem mem_fieldNames {row : Value} {name : String} :
    name ∈ fieldNames row ↔ ∃ fields, row = .object fields ∧ name ∈ Assoc.keys fields := by
  cases row with
  | object fields => simp [fieldNames, Assoc.keys]
  | _ => simp [fieldNames]

/-- Columns are added as keys are when something is written under them. -/
theorem addColumns_keys (entries : Assoc Unit) (names : List String) :
    addColumns entries.keys names = (Assoc.insertAll entries (names.map (·, ()))).keys := by
  induction names generalizing entries with
  | nil => rfl
  | cons name rest ih =>
    show addColumns (if entries.keys.contains name then entries.keys else entries.keys ++ [name])
      rest = _
    rw [List.map_cons, Assoc.insertAll_cons, ← ih]
    by_cases h : name ∈ entries.keys
    · rw [if_pos (List.contains_iff_mem.mpr h), Assoc.keys_insert_of_mem _ h]
    · rw [if_neg (fun hc => h (List.contains_iff_mem.mp hc)), Assoc.keys_insert_of_not_mem _ h]

theorem tableColumns_eq_keys (rows : List Value) :
    tableColumns rows = (Assoc.ofList ((rows.flatMap fieldNames).map (·, ()))).keys := by
  have hall : tableColumns rows = addColumns [] (rows.flatMap fieldNames) :=
    List.foldl_flatMap.symm
  rw [hall]
  exact addColumns_keys [] _

theorem areColumnsOf_tableColumns (rows : List Value) : AreColumnsOf rows (tableColumns rows) := by
  have hplaces : tableColumns rows = (rows.flatMap fieldNames).eraseDups := by
    rw [tableColumns_eq_keys, Assoc.keys_ofList, List.map_map]
    exact congrArg List.eraseDups (List.map_id _)
  refine ⟨?_, fun name => ?_, hplaces⟩
  · rw [tableColumns_eq_keys]
    exact Assoc.nodup_keys_ofList _
  · rw [hplaces, List.mem_eraseDups, List.mem_flatMap]
    simp only [mem_fieldNames]
    constructor
    · rintro ⟨row, hrow, fields, rfl, hname⟩
      exact ⟨fields, hrow, hname⟩
    · rintro ⟨fields, hrow, hname⟩
      exact ⟨_, hrow, fields, rfl, hname⟩

/-! ## Widths -/

/-- A column is as wide as the widest of its name and its cells. -/
theorem columnWidth_le_iff {rows : List Value} {column : String} {n : Nat} :
    columnWidth rows column ≤ n ↔
      column.length ≤ n ∧ ∀ row ∈ rows, (cellText row column).length ≤ n := by
  -- over all widths that the rows before may have led to
  have hfold : ∀ width, rows.foldl (fun width row => max width (cellText row column).length) width
      ≤ n ↔ width ≤ n ∧ ∀ row ∈ rows, (cellText row column).length ≤ n := by
    induction rows with
    | nil => simp
    | cons row rest ih =>
      intro width
      rw [List.foldl_cons, ih, Nat.max_le, List.forall_mem_cons, and_assoc]
  exact hfold column.length

theorem length_le_columnWidth (rows : List Value) (column : String) :
    column.length ≤ columnWidth rows column :=
  (columnWidth_le_iff.mp (Nat.le_refl _)).1

theorem length_cellText_le {rows : List Value} {row : Value} (h : row ∈ rows) (column : String) :
    (cellText row column).length ≤ columnWidth rows column :=
  (columnWidth_le_iff.mp (Nat.le_refl _)).2 row h

theorem length_padded {width : Nat} {s : String} (h : s.length ≤ width) :
    (padded width s).length = width + 2 := by
  rw [padded, String.length_ofList]
  simp only [List.cons_append, List.length_cons, List.length_append, List.length_replicate,
    String.length_toList, List.length_nil]
  omega

/-! ## Widening by index -/

/-- Widen the columns from index `i` on for the cells. A column that is not there is a failure. -/
def widenFrom (i : Nat) (widths : List Nat) : List String → Option (List Nat)
  | [] => some widths
  | cell :: rest => do
    let width ← widths[i]?
    widenFrom (i + 1) (widths.set i (max width cell.length)) rest

/-- Widen the columns for the cells of each row. -/
def widenByRows (widths : List Nat) : List (List String) → Option (List Nat)
  | [] => some widths
  | cells :: rest => do
    let widths ← widenFrom 0 widths cells
    widenByRows widths rest

/-- The columns that are still to be widened stand behind those that have been. -/
theorem widenFrom_length {cells : List String} (wide : List Nat) {widths : List Nat}
    (h : cells.length = widths.length) :
    widenFrom wide.length (wide ++ widths) cells =
      some (wide ++ List.zipWith (fun width cell => max width cell.length) widths cells) := by
  induction cells generalizing wide widths with
  | nil =>
    obtain rfl := List.length_eq_zero_iff.mp h.symm
    rfl
  | cons cell rest ih =>
    cases widths with
    | nil => cases h
    | cons width widths =>
      have hwidth : (wide ++ width :: widths)[wide.length]? = some width := by simp
      have hset : (wide ++ width :: widths).set wide.length (max width cell.length) =
          (wide ++ [max width cell.length]) ++ widths := by simp
      have hlength : wide.length + 1 = (wide ++ [max width cell.length]).length := by simp
      rw [widenFrom, hwidth, Option.bind_eq_bind, Option.bind_some, hset, hlength,
        ih _ (Nat.succ.inj h), List.append_assoc]
      rfl

/-- For rows with a cell in every column the index of a cell is that of a column. -/
theorem widenByRows_eq (rows : List Value) (columns : List String) :
    widenByRows (columns.map String.length) (rows.map (fun row => columns.map (cellText row))) =
      some (columns.map (columnWidth rows)) := by
  -- over all widths that the rows before may have led to
  have hfold : ∀ width : String → Nat, widenByRows (columns.map width)
      (rows.map (fun row => columns.map (cellText row))) = some (columns.map (fun column =>
        rows.foldl (fun width row => max width (cellText row column).length) (width column))) := by
    induction rows with
    | nil => exact fun width => rfl
    | cons row rest ih =>
      intro width
      have hrow : widenFrom 0 (columns.map width) (columns.map (cellText row)) =
          some (columns.map (fun column => max (width column) (cellText row column).length)) := by
        have hwiden := widenFrom_length [] (by simp :
          (columns.map (cellText row)).length = (columns.map width).length)
        rw [List.zipWith_map, List.zipWith_self] at hwiden
        exact hwiden
      rw [List.map_cons, widenByRows, hrow]
      exact ih _
  exact hfold String.length

/-- A cell without a column would be a failure. -/
example : widenByRows [2, 4] [["1", "miku"], ["22", "", "[a]"]] = none := by decide

/-! ## Lines -/

/-- The number of characters of a line: the cells, each with a blank on both sides, and the borders
    between them and at both ends. -/
def tableWidth (widths : List Nat) : Nat :=
  (widths.map (· + 2)).sum + (widths.length - 1) + 2

theorem length_intercalate (separator : String) (parts : List String) :
    (separator.intercalate parts).length =
      (parts.map String.length).sum + (parts.length - 1) * separator.length := by
  induction parts with
  | nil => simp
  | cons part rest ih =>
    cases rest with
    | nil => simp
    | cons next rest =>
      rw [String.intercalate_cons_cons, String.length_append, String.length_append, ih]
      simp only [List.map_cons, List.sum_cons, List.length_cons, Nat.add_sub_cancel, Nat.add_mul]
      omega

theorem length_tableLine {cells : List String} {widths : List Nat}
    (h : cells.map String.length = widths.map (· + 2)) :
    (tableLine cells).length = tableWidth widths := by
  have hlength : cells.length = widths.length := by simpa using congrArg List.length h
  have hborder : "|".length = 1 := rfl
  rw [tableLine, String.length_append, String.length_append, length_intercalate, h, hlength,
    hborder, tableWidth]
  omega

/-- A line of texts that fit their columns is as long as the columns are wide. -/
theorem length_tableLine_padded (columns : List String) {width : String → Nat}
    {text : String → String} (h : ∀ column, (text column).length ≤ width column) :
    (tableLine (columns.map (fun column => padded (width column) (text column)))).length =
      tableWidth (columns.map width) := by
  apply length_tableLine
  simp only [List.map_map, Function.comp_def, fun column => length_padded (h column)]

theorem length_tableRule (widths : List Nat) : (tableRule widths).length = tableWidth widths := by
  have hborder : "+".length = 1 := rfl
  rw [tableRule, String.length_append, String.length_append, length_intercalate, hborder,
    tableWidth]
  simp [Function.comp_def]
  omega

/-- A row as a line: in each column the text of the row, as wide as the column. -/
theorem tableLines_eq (rows : List Value) :
    tableLines false rows =
      tableRule ((tableColumns rows).map (columnWidth rows)) ::
      tableLine ((tableColumns rows).map (fun column => padded (columnWidth rows column) column)) ::
      tableRule ((tableColumns rows).map (columnWidth rows)) ::
      rows.map (fun row => tableLine ((tableColumns rows).map (fun column =>
        padded (columnWidth rows column) (cellText row column)))) ++
      [tableRule ((tableColumns rows).map (columnWidth rows))] := by
  simp only [tableLines, ← List.map_prod_left_eq_zip, List.map_map, Function.comp_def, styled]
  rfl

/-- The table is a rectangle. -/
theorem length_of_mem_tableLines {rows : List Value} {line : String}
    (h : line ∈ tableLines false rows) :
    line.length = tableWidth ((tableColumns rows).map (columnWidth rows)) := by
  rw [tableLines_eq] at h
  simp only [List.cons_append, List.mem_cons, List.mem_append, List.mem_map, List.not_mem_nil,
    or_false] at h
  rcases h with rfl | rfl | rfl | ⟨row, hrow, rfl⟩ | rfl
  · exact length_tableRule _
  · exact length_tableLine_padded _ (length_le_columnWidth rows)
  · exact length_tableRule _
  · exact length_tableLine_padded _ (length_cellText_le hrow)
  · exact length_tableRule _

/-! ## Cells -/

/-- The cell of a row in a column of the given width. -/
structure IsCellOf (width : Nat) (row : Value) (column : String) (cell : String) : Prop where
  /-- The cell fills the column, with a blank on both sides. -/
  length : cell.length = width + 2
  /-- A field of the row is written into its column. -/
  present : ∀ fields v, row = .object fields → fields.lookup column = some v →
    cell = padded width v.display
  /-- Without the field the cell is blank. -/
  blank : (∀ fields, row = .object fields → column ∉ Assoc.keys fields) →
    cell = String.ofList (List.replicate (width + 2) ' ')

theorem cellText_of_forall_not_mem {row : Value} {column : String}
    (h : ∀ fields, row = .object fields → column ∉ Assoc.keys fields) :
    cellText row column = "" := by
  cases row with
  | object fields =>
    have hnone : fields.lookup column = none := by
      rw [← Assoc.hasKey_eq_false_iff, ← Bool.not_eq_true, Assoc.hasKey_iff_mem_keys]
      exact h fields rfl
    rw [cellText, Value.field?, hnone]
  | _ => rfl

theorem padded_empty (width : Nat) :
    padded width "" = String.ofList (List.replicate (width + 2) ' ') := by
  rw [padded]
  simp [List.replicate_succ, ← List.replicate_succ']

theorem isCellOf_padded {width : Nat} {row : Value} {column : String}
    (h : (cellText row column).length ≤ width) :
    IsCellOf width row column (padded width (cellText row column)) := by
  refine ⟨length_padded h, ?_, fun hnone => ?_⟩
  · rintro fields v rfl hlookup
    rw [cellText, Value.field?, hlookup]
  · rw [cellText_of_forall_not_mem hnone, padded_empty]

/-! ## Main statement -/

/-- The lines of a table. -/
structure IsTableOf (rows : List Value) (columns : List String) (lines : List String) : Prop where
  /-- There is a line for each row, one for the header, and three between and around them. -/
  count : lines.length = rows.length + 4
  /-- All lines are of one length. -/
  rectangular : ∀ line ∈ lines, line.length = tableWidth (columns.map (columnWidth rows))
  /-- The header has the names of the columns. -/
  header : lines[1]? = some (tableLine
    (columns.map (fun column => padded (columnWidth rows column) column)))
  /-- The line of a row has its cells. -/
  row : ∀ i row, rows[i]? = some row → ∃ cells, lines[i + 3]? = some (tableLine cells) ∧
    List.Forall₂ (fun column cell => IsCellOf (columnWidth rows column) row column cell)
      columns cells

theorem isTableOf_tableLines (rows : List Value) :
    IsTableOf rows (tableColumns rows) (tableLines false rows) := by
  refine ⟨?_, fun line => length_of_mem_tableLines, ?_, fun i row hrow => ?_⟩
  · simp [tableLines_eq]
  · rw [tableLines_eq]
    rfl
  · refine ⟨(tableColumns rows).map (fun column =>
      padded (columnWidth rows column) (cellText row column)), ?_, ?_⟩
    · obtain ⟨hi, rfl⟩ := List.getElem?_eq_some_iff.mp hrow
      rw [tableLines_eq]
      simp [List.getElem?_append_left, hi]
    · have hmem : row ∈ rows := List.mem_of_getElem? hrow
      rw [List.forall₂_map_right_iff, List.forall₂_same]
      exact fun column _ => isCellOf_padded (length_cellText_le hmem column)

/-- Without colors the table of some rows is a rectangle of four more lines than rows. Its columns
    are the names that occur in the rows that are objects, each once, in the order in which they
    first occur. The cell of a row is the value of its field, padded to the width of the column, or
    blank. The widths are those that widening by index leads to, which never misses a column. -/
theorem table_is_rectangular_and_complete {rows : List Value} (h : rows ≠ []) :
    let columns := tableColumns rows
    let lines := tableLines false rows
    reportRows .table false rows = "\n".intercalate lines ∧
      AreColumnsOf rows columns ∧ IsTableOf rows columns lines ∧
      widenByRows (columns.map String.length)
        (rows.map (fun row => columns.map (cellText row))) =
          some (columns.map (columnWidth rows)) := by
  intro columns lines
  have hreport : reportRows .table false rows = "\n".intercalate lines := by
    rw [reportRows, if_neg (by simpa using h)]
  exact ⟨hreport, areColumnsOf_tableColumns rows, isTableOf_tableLines rows,
    widenByRows_eq rows columns⟩

/-- A row that is no object has no field; texts are measured in characters. -/
theorem table_is_rectangular_and_complete_mixed_rows :
    let rows : List Value := [.object [("id", .bool true), ("名前", .string "né")], .null,
      .object [("tags", .array [.string "a", .null]), ("id", .null)], .object []]
    let lines : List String := [
      "+------+----+-----------+",
      "| id   | 名前 | tags      |",
      "+------+----+-----------+",
      "| true | né |           |",
      "|      |    |           |",
      "| null |    | [a, null] |",
      "|      |    |           |",
      "+------+----+-----------+"]
    let cells : List (List String) := [["true", "né", ""], ["", "", ""], ["null", "", "[a, null]"],
      ["", "", ""]]
    rows ≠ [] ∧ tableLines false rows = lines ∧
      reportRows .table false rows = "\n".intercalate lines ∧
      AreColumnsOf rows ["id", "名前", "tags"] ∧ IsTableOf rows ["id", "名前", "tags"] lines ∧
      widenByRows [2, 2, 4] cells = some [4, 2, 9] := by
  intro rows lines cells
  have hrows : rows ≠ [] := List.cons_ne_nil _ _
  have hcolumns : tableColumns rows = ["id", "名前", "tags"] := by decide
  have hlines : tableLines false rows = lines := by decide
  have hnames : ["id", "名前", "tags"].map String.length = [2, 2, 4] := by decide
  have hcells : rows.map (fun row => ["id", "名前", "tags"].map (cellText row)) = cells := by decide
  have hwidths : ["id", "名前", "tags"].map (columnWidth rows) = [4, 2, 9] := by decide
  obtain ⟨hreport, hare, his, hwiden⟩ := table_is_rectangular_and_complete hrows
  rw [hlines] at hreport his
  rw [hcolumns] at hare his hwiden
  rw [hnames, hcells, hwidths] at hwiden
  exact ⟨hrows, hlines, hreport, hare, his, hwiden⟩

end DocQuery
