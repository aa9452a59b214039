import DocQuery.Proofs.Actions
import DocQuery.Store.Operation

set_option autoImplicit false

/-! # Closed connections

Whether a connection is open is asked in two places, by the connection for its tables and by every
table for itself, and in both before anything else: an operation on a closed connection is refused
whatever its arguments are, and finds nothing out about them. So it changes nothing
(`perform_of_closed`), and since no operation opens a connection again, closing is for good
(`closed_for_good`). -/

namespace DocQuery.Connection

open DocQuery.Action

variable {c : Connection}

/-- Who finds a closed connection closed: the connection itself where its tables are concerned, and
    the table where its documents are. -/
def closedFault (c : Connection) : Operation → ConnectionFault
  | .load _ | .createTable _ | .dropTable _ | .table _ => .closed c.identity
  | _ => .handleClosed c.db

/-- What an operation on a closed connection replies. To close it once more and to store no
    documents are no use of it; every other operation is refused. -/
def closedReply (c : Connection) : Operation → Except TableError Reply
  | .close => .ok .done
  | .createEach _ [] => .ok (.documents [])
  | op => .error (.store (.connection (c.closedFault op)))

/-! ## The two checks -/

section

variable (h : c.closed = true)
include h

theorem checkOpen_of_closed : c.checkOpen = .error (.connection (.closed c.identity)) := by
  rw [checkOpen, if_pos h]

theorem checkHandle_of_closed :
    c.checkHandle = .error (.store (.connection (.handleClosed c.db))) := by
  rw [checkHandle, if_pos h]

theorem close_of_closed : c.close = c := by
  cases c
  cases h
  rfl

theorem on_editing_of_closed (edit : Action Store StoreError Unit) :
    (editing edit).on c = (.error (.connection (.closed c.identity)), c) := by
  rw [editing, on_bind, on_reading, checkOpen_of_closed h]

/-- Nothing that comes after the check of a table is done. -/
theorem on_checkHandle_bind_of_closed {α : Type}
    (rest : Unit → Action Connection TableError α) :
    (Action.reading checkHandle >>= rest).on c =
      (.error (.store (.connection (.handleClosed c.db))), c) := by
  rw [on_bind, on_reading, checkHandle_of_closed h]

variable [PatternLibrary]

theorem find_of_closed (table : String) (d : Descriptor) :
    c.find table d = .error (.store (.connection (.handleClosed c.db))) := by
  rw [find, checkHandle_of_closed h, error_bind]

/-! ## Every operation -/

/-- An operation on a closed connection gives the reply that it is to give, and does nothing. -/
theorem perform_of_closed (op : Operation) : c.perform op = (c.closedReply op, c) := by
  unfold perform
  cases op with
  | load data =>
    rw [action, on_bind, load, on_mapError, on_editing_of_closed h]
    rfl
  | createTable name =>
    rw [action, on_bind, createTable, on_mapError, on_editing_of_closed h]
    rfl
  | dropTable name =>
    rw [action, on_bind, dropTable, on_mapError, on_editing_of_closed h]
    rfl
  | table name =>
    rw [action, on_bind, on_reading, Connection.table, checkOpen_of_closed h]
    rfl
  | close =>
    rw [action, on_bind, on_modify, close_of_closed h]
    rfl
  | create table doc =>
    rw [action, on_bind, create, on_checkHandle_bind_of_closed h]
    rfl
  | createEach table docs =>
    cases docs with
    | nil => rfl
    | cons doc rest =>
      rw [action, on_bind, createEach, if_neg (by simp), on_checkHandle_bind_of_closed h]
      rfl
  | find table d =>
    rw [action, on_bind, on_reading, find_of_closed h]
    rfl
  | join table d =>
    rw [action, on_bind, on_reading, join, find_of_closed h]
    rfl
  | update table d patch =>
    rw [action, on_bind]
    unfold update
    rw [on_checkHandle_bind_of_closed h]
    rfl
  | destroy table d =>
    rw [action, on_bind, destroy, on_checkHandle_bind_of_closed h]
    rfl
  | count table d =>
    rw [action, on_bind, on_reading, Connection.count, checkHandle_of_closed h]
    rfl

/-- A closed connection stays as it is through any operations, and each of them is answered as if it
    were the only one. -/
theorem performAll_of_closed (ops : List Operation) :
    c.performAll ops = (ops.map c.closedReply, c) := by
  induction ops with
  | nil => rfl
  | cons op rest ih => simp only [performAll, perform_of_closed h, ih, List.map_cons]

end

theorem performAll_append [PatternLibrary] (c : Connection) (before after : List Operation) :
    (c.performAll (before ++ after)).2 = ((c.performAll before).2.performAll after).2 := by
  induction before generalizing c with
  | nil => rfl
  | cons op rest ih => exact ih _

end DocQuery.Connection

namespace DocQuery

/-! ## Main statement -/

/-- A connection was used in whatever way and then closed. From then on every operation is refused
    as a use of a closed connection, but for those that are no use of it, and the connection with
    its tables stays as it is, closed. Closing has left the tables as they were, and plans may still
    be made. -/
theorem closed_for_good [PatternLibrary] (c : Connection) (before after : List Operation) :
    let last := (c.performAll before).2
    let closed := (c.performAll (before ++ [.close])).2
    closed.performAll after = (after.map closed.closedReply, closed) ∧ closed.closed = true ∧
      closed.store = last.store ∧ ∀ table d, closed.plan table d = last.plan table d := by
  intro last closed
  have hclosed : closed = last.close := Connection.performAll_append c before [.close]
  rw [hclosed]
  exact ⟨Connection.performAll_of_closed rfl after, rfl, rfl, fun _ _ => rfl⟩

end DocQuery
