import DocQuery.Descriptor.Clause
import DocQuery.Descriptor.Count
import DocQuery.Descriptor.Join
import DocQuery.Descriptor.Sort
import DocQuery.Json.Reader

set_option autoImplicit false

/-! # Reading a descriptor

A descriptor is written as an object with up to five keys; others have no meaning. The keys are read
in the order in which they are written, and the first fault is reported. -/

namespace DocQuery.Descriptor

/-- Read the part of a descriptor under `key`. -/
def setKey (d : Descriptor) (key : String) (value : Value) : Except QueryError Descriptor :=
  if key = "where" then (Clause.filterOfValue value).map (fun filter => { d with filter })
  else if key = "sort" then (SortSpec.ofValue value).map (fun sort => { d with sort })
  else if key = "skip" then (Count.ofValue key value).map (fun skip => { d with skip })
  else if key = "limit" then (Count.ofValue key value).map (fun limit => { d with limit })
  else if key = "joins" then (joinsOfValue value).map (fun joins => { d with joins })
  else .ok d

/-- Read a descriptor; `null` asks for every document. -/
def ofValue : Value → Except QueryError Descriptor
  | .null => .ok empty
  | .object fields => fields.foldlM (fun d (key, value) => d.setKey key value) empty
  | value => .error (.malformedClause (.descriptorKind value.kind))

/-- Read a descriptor from a JSON text. -/
def ofText (text : String) : Except QueryError Descriptor :=
  match Json.parse? text with
  | some value => ofValue value
  | none => .error .malformedJson

end DocQuery.Descriptor
