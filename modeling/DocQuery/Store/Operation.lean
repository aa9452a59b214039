import DocQuery.Store.Table

set_option autoImplicit false

/-! # Operations as data

Every operation is an action on a connection. `Connection.perform` carries one out and gives its
reply and the connection as it is then, whether the operation succeeded or not;
`Connection.performAll` carries out a sequence, whatever the replies are. -/

namespace DocQuery

/-- Something to do with a connection. -/
inductive Operation where
  | load (data : List (String × List Value))
  | createTable (name : String)
  | dropTable (name : String)
  | table (name : String)
  | close
  | create (table : String) (doc : Value)
  | createEach (table : String) (docs : List Value)
  | find (table : String) (d : Descriptor)
  | join (table : String) (d : Descriptor)
  | update (table : String) (d : Descriptor) (patch : Value)
  | destroy (table : String) (d : Descriptor)
  | count (table : String) (d : Descriptor)

/-- What an operation returns. -/
inductive Reply where
  | done
  | document (doc : Value)
  | documents (docs : List Value)
  | keys (keys : List Value)
  | count (n : Nat)

namespace Connection

variable [PatternLibrary]

/-- The action that an operation is. -/
def action : Operation → Action Connection TableError Reply
  | .load data => do
    (load data).mapError .store
    return .done
  | .createTable name => do
    (createTable name).mapError .store
    return .done
  | .dropTable name => do
    (dropTable name).mapError .store
    return .done
  | .table name => do
    Action.reading (fun c => (c.table name).mapError .store)
    return .done
  | .close => do
    modify close
    return .done
  | .create table doc => return .document (← create table doc)
  | .createEach table docs => return .documents (← createEach table docs)
  | .find table d => return .documents (← Action.reading (·.find table d))
  | .join table d => return .documents (← Action.reading (·.join table d))
  | .update table d patch => return .documents (← update table d patch)
  | .destroy table d => return .keys (← destroy table d)
  | .count table d => return .count (← Action.reading (·.count table d))

/-- Carry out an operation. -/
def perform (c : Connection) (op : Operation) : Except TableError Reply × Connection :=
  (action op).on c

/-- Carry out operations one after the other. -/
def performAll (c : Connection) : List Operation → List (Except TableError Reply) × Connection
  | [] => ([], c)
  | op :: rest =>
    let (reply, c) := c.perform op
    let (replies, c) := c.performAll rest
    (reply :: replies, c)

end Connection

end DocQuery
