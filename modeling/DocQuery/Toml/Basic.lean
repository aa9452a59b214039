import DocQuery.Assoc

set_option autoImplicit false

/-! # Settings files as data

A settings file in the TOML format is a table of values. While a file is read, a table also knows
how it came to be, because that decides what may still be added to it: a table with a header of its
own is complete after its section, a table that only headers of its subtables mention may get a
header later, and a table that a dotted key made can be extended by dotted keys and by headers of
subtables. -/

namespace DocQuery.Toml

/-- A value of a settings file. Floats and dates are told apart from the rest; no setting holds one,
    so what they say is not kept. -/
inductive Value where
  | string (value : String)
  | integer (value : Int)
  | boolean (value : Bool)
  | float
  | date
  | array (items : List Value)
  | table (entries : List (String × Value))

/-- How a table came to be. -/
inductive Origin where
  /-- By a header, an item of an array of tables, or as the top of the file. -/
  | header
  /-- By the header of a table inside it. -/
  | implied
  /-- By a dotted key. -/
  | dotted
deriving DecidableEq

/-- What stands under a key while a file is read. -/
inductive Node where
  | value (value : Value)
  | table (origin : Origin) (entries : List (String × Node))
  /-- An array of tables, with the last one apart: it is the one that is added to. -/
  | tables (earlier : List (List (String × Node))) (last : List (String × Node))

/-! ## Keys and values -/

/-- The part of `entries` under `path` changed by `f`, which is given how the table came to be. Keys
    on the way that are not there become tables of the given origin; an array of tables is entered
    at its last table. Tables on the way must satisfy `mayEnter`. -/
def updateAt (made : Origin) (mayEnter : Origin → Bool)
    (f : Origin → Assoc Node → Option (Assoc Node)) :
    List String → Origin → Assoc Node → Option (Assoc Node)
  | [], origin, entries => f origin entries
  | key :: path, _, entries =>
    match entries.lookup key with
    | none =>
      (updateAt made mayEnter f path made []).map (fun e => entries.insert key (.table made e))
    | some (.value _) => none
    | some (.table origin inner) =>
      if mayEnter origin then
        (updateAt made mayEnter f path origin inner).map
          (fun e => entries.insert key (.table origin e))
      else none
    | some (.tables earlier last) =>
      (updateAt made mayEnter f path .header last).map
        (fun e => entries.insert key (.tables earlier e))

/-- Add a value under a key that must be new. -/
def addNew (key : String) (value : Value) (entries : Assoc Node) : Option (Assoc Node) :=
  if entries.hasKey key then none else some (entries.insert key (.value value))

/-- Add a value under a dotted key, whose last part is `key`. The table it goes into must have been
    made by dotted keys. -/
def addDotted (path : List String) (key : String) (value : Value) (entries : Assoc Node) :
    Option (Assoc Node) :=
  if path = [] then addNew key value entries
  else
    updateAt .dotted (fun origin => origin ≠ .header)
      (fun origin inner => if origin = .dotted then addNew key value inner else none)
      path .header entries

/-! ## Headers -/

/-- Give the table under `path` and `key` its header. It must be new, or known only from headers of
    tables inside it. -/
def openTable (path : List String) (key : String) (root : Assoc Node) : Option (Assoc Node) :=
  updateAt .implied (fun _ => true)
    (fun _ entries =>
      match entries.lookup key with
      | none => some (entries.insert key (.table .header []))
      | some (.table .implied inner) => some (entries.insert key (.table .header inner))
      | some _ => none)
    path .header root

/-- Add a table to the array of tables under `path` and `key`. -/
def openItem (path : List String) (key : String) (root : Assoc Node) : Option (Assoc Node) :=
  updateAt .implied (fun _ => true)
    (fun _ entries =>
      match entries.lookup key with
      | none => some (entries.insert key (.tables [] []))
      | some (.tables earlier last) => some (entries.insert key (.tables (earlier ++ [last]) []))
      | some _ => none)
    path .header root

/-- Add a value under a dotted key to the section whose header is `header`. -/
def addToSection (header path : List String) (key : String) (value : Value)
    (root : Assoc Node) : Option (Assoc Node) :=
  updateAt .implied (fun _ => true) (fun _ entries => addDotted path key value entries)
    header .header root

/-! ## The finished file -/

mutual

/-- The value that a node is in the end. -/
def Node.toValue : Node → Value
  | .value v => v
  | .table _ entries => .table (entryValues entries)
  | .tables earlier last => .array (tableValues earlier ++ [.table (entryValues last)])

/-- The values of the entries of a table. -/
def entryValues : List (String × Node) → List (String × Value)
  | [] => []
  | (key, node) :: rest => (key, node.toValue) :: entryValues rest

/-- The values of the tables of an array. -/
def tableValues : List (List (String × Node)) → List Value
  | [] => []
  | entries :: rest => .table (entryValues entries) :: tableValues rest

end

end DocQuery.Toml
