import DocQuery.Error

set_option autoImplicit false

/-! # Reading joins, and pairing the two hops of a many-to-many join

A join is written as an object with named keys, or as an array with the values of those keys in a
fixed order. The three flags `model`, `collection` and `junctionTable` say which kind of join it is;
`junctionTable` goes before the other two. A hop takes over from a has-many join that stands
directly before it under the same alias: the two are one many-to-many join. -/

namespace DocQuery

/-! ## Written joins -/

/-- A join as it is written, while its keys are read. -/
structure WrittenJoin where
  attachAs : Option String := none
  child : Option String := none
  childKey : Option String := none
  parentKey : Option String := none
  model : Bool := false
  collection : Bool := false
  junctionTable : Bool := false

namespace WrittenJoin

/-- A text. -/
def textOf : Value → Except JoinItemFault String
  | .string s => .ok s
  | value => .error (.mistyped value .text)

/-- A text, or nothing in the place of one. -/
def optionalTextOf : Value → Except JoinItemFault (Option String)
  | .null => .ok none
  | value => (textOf value).map some

/-- A truth value. -/
def flagOf : Value → Except JoinItemFault Bool
  | .bool b => .ok b
  | value => .error (.mistyped value .boolean)

/-- Set the key `key`; other keys than the seven have no meaning. -/
def setKey (join : WrittenJoin) (key : String) (value : Value) : Except JoinItemFault WrittenJoin :=
  if key = "alias" then (textOf value).map (fun s => { join with attachAs := some s })
  else if key = "child" then (textOf value).map (fun s => { join with child := some s })
  else if key = "childKey" then
    (optionalTextOf value).map (fun s => { join with childKey := s })
  else if key = "parentKey" then
    (optionalTextOf value).map (fun s => { join with parentKey := s })
  else if key = "model" then (flagOf value).map (fun b => { join with model := b })
  else if key = "collection" then (flagOf value).map (fun b => { join with collection := b })
  else if key = "junctionTable" then
    (flagOf value).map (fun b => { join with junctionTable := b })
  else .ok join

/-- The keys, in the order of their values in an array. -/
def keyOrder : List String :=
  ["alias", "child", "childKey", "parentKey", "model", "collection", "junctionTable"]

/-- Read a join from the values of its keys in order. -/
def ofItems (items : List Value) : Except JoinItemFault WrittenJoin := do
  let join ← (keyOrder.zip items).foldlM (fun join (key, value) => join.setKey key value) {}
  if items.length < 2 then throw (.tooFew items.length)
  if 7 < items.length then throw (.tooMany items.length)
  return join

/-- Read a written join. -/
def ofValue : Value → Except JoinItemFault WrittenJoin
  | .object fields => fields.foldlM (fun join (key, value) => join.setKey key value) {}
  | .array items => ofItems items
  | value => .error (.mistyped value .join)

/-- The lookup of a written join, which needs an alias and a child table. -/
def lookup (join : WrittenJoin) : Except JoinItemFault Lookup :=
  match join.attachAs, join.child with
  | none, _ => .error (.missing "alias")
  | some _, none => .error (.missing "child")
  | some attachAs, some child => .ok ⟨attachAs, child, join.childKey, join.parentKey⟩

end WrittenJoin

namespace Join

/-- Read the join at `position` of a list. -/
def ofValue (position : Nat) (value : Value) : Except JoinFault Join := do
  let written ← (WrittenJoin.ofValue value).mapError (.item position)
  let lookup ← written.lookup.mapError (.item position)
  if written.junctionTable then return .junctionHop lookup
  match written.model, written.collection with
  | true, false => return .belongsTo lookup
  | false, true => return .hasMany lookup
  | true, true => throw (.bothKinds position lookup.attachAs)
  | false, false => throw (.noKind position lookup.attachAs)

/-- Read a list of joins, the first of which is at `position`. -/
def listOfValues (position : Nat) : List Value → Except JoinFault (List Join)
  | [] => .ok []
  | value :: rest => do
    let join ← ofValue position value
    let joins ← listOfValues (position + 1) rest
    return join :: joins

end Join

/-! ## Join plans -/

/-- A join with all that it needs: the two hops of a many-to-many join are one plan. -/
inductive JoinPlan where
  | belongsTo (lookup : Lookup)
  | hasMany (lookup : Lookup)
  | manyToMany (through hop : Lookup)

namespace JoinPlan

/-- The field that a plan attaches. -/
def attachAs : JoinPlan → String
  | .belongsTo lookup => lookup.attachAs
  | .hasMany lookup => lookup.attachAs
  | .manyToMany through _ => through.attachAs

/-- The name of a kind of plan. -/
def kindName : JoinPlan → String
  | .belongsTo _ => "belongs-to"
  | .hasMany _ => "has-many"
  | .manyToMany _ _ => "many-to-many"

/-- The joins that a plan stands for. -/
def joins : JoinPlan → List Join
  | .belongsTo lookup => [.belongsTo lookup]
  | .hasMany lookup => [.hasMany lookup]
  | .manyToMany through hop => [.hasMany through, .junctionHop hop]

/-- The plans of a list of joins, the first of which is at `position`. A has-many join looks ahead
    for its hop; any other hop has nothing to follow. -/
def ofJoins (position : Nat) : List Join → Except JoinFault (List JoinPlan)
  | [] => .ok []
  | .belongsTo lookup :: rest => (ofJoins (position + 1) rest).map (.belongsTo lookup :: ·)
  | .hasMany through :: .junctionHop hop :: rest =>
    if through.attachAs = hop.attachAs then
      (ofJoins (position + 2) rest).map (.manyToMany through hop :: ·)
    else .error (.strayHop (position + 1) hop.attachAs)
  | .hasMany lookup :: rest => (ofJoins (position + 1) rest).map (.hasMany lookup :: ·)
  | .junctionHop hop :: _ => .error (.strayHop position hop.attachAs)

/-- The plans of a list of joins. -/
def ofList (joins : List Join) : Except JoinFault (List JoinPlan) :=
  ofJoins 0 joins

end JoinPlan

/-! ## The joins of a descriptor -/

/-- Read the joins of a descriptor; `null` is none. A list whose hops stand wrong is refused. -/
def joinsOfValue : Value → Except QueryError (Option (List Join))
  | .null => .ok none
  | .array items =>
    (do
      let joins ← Join.listOfValues 0 items
      let _ ← JoinPlan.ofList joins
      return some joins : Except JoinFault (Option (List Join))).mapError .invalidJoinSequence
  | value => .error (.invalidJoinSequence (.listKind value.kind))

end DocQuery
