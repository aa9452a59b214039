import DocQuery.Proofs.UnreadTables

set_option autoImplicit false

/-! # Operations on one table

An operation that is done through a table sees of the connection what `LooksAlike` compares: all of
it but the other tables. On two connections that look alike it gives the same result and writes the
same rows into its table (`RunAlike`, `LooksAlike.perform`). A write into one table cannot be seen
through another. -/

namespace DocQuery

/-! ## Operations -/

/-- A document with the key under which it can be found again. What is no object is refused
    anyway. -/
def Value.CarriesKey (primaryKey : String) (doc : Value) : Prop :=
  ∀ fields, doc = .object fields → Assoc.hasKey fields primaryKey = true

namespace Operation

/-- The table through which an operation is done. -/
def table? : Operation → Option String
  | .create name _ => some name
  | .createEach name _ => some name
  | .find name _ => some name
  | .join name _ => some name
  | .update name _ _ => some name
  | .destroy name _ => some name
  | .count name _ => some name
  | _ => none

/-- The operation is done through the table and needs nothing else of the connection: documents
    come with their keys, and those that are found are not joined. -/
inductive IsOn (primaryKey table : String) : Operation → Prop where
  | create {doc : Value} (h : doc.CarriesKey primaryKey) : IsOn primaryKey table (.create table doc)
  | createEach {docs : List Value} (h : ∀ doc ∈ docs, doc.CarriesKey primaryKey) :
      IsOn primaryKey table (.createEach table docs)
  | find {d : Descriptor} (h : d.JoinsNothing) : IsOn primaryKey table (.find table d)
  | join {d : Descriptor} (h : d.JoinsNothing) : IsOn primaryKey table (.join table d)
  | update (d : Descriptor) (patch : Value) : IsOn primaryKey table (.update table d patch)
  | destroy (d : Descriptor) : IsOn primaryKey table (.destroy table d)
  | count (d : Descriptor) : IsOn primaryKey table (.count table d)

theorem IsOn.table?_eq {primaryKey table : String} {op : Operation}
    (h : op.IsOn primaryKey table) : op.table? = some table := by
  cases h <;> rfl

end Operation

namespace Connection

/-- The connections are the same but for tables of other names. -/
structure LooksAlike (table : String) (c c' : Connection) : Prop where
  options : c'.options = c.options
  closed : c'.closed = c.closed
  keys : c'.keys = c.keys
  db : c'.store.db = c.store.db
  lookup : c'.store.tables.lookup table = c.store.tables.lookup table

/-- The connection after rows of the table are written, if any are. -/
def afterWrite (c : Connection) (table : String) (written : Option (List Value)) : Connection :=
  written.elim c (c.withRows table)

variable {table : String} {c c' : Connection}

namespace LooksAlike

theorem refl (table : String) (c : Connection) : LooksAlike table c c := ⟨rfl, rfl, rfl, rfl, rfl⟩

theorem symm (h : LooksAlike table c c') : LooksAlike table c' c :=
  ⟨h.options.symm, h.closed.symm, h.keys.symm, h.db.symm, h.lookup.symm⟩

theorem trans {c'' : Connection} (h : LooksAlike table c c') (h' : LooksAlike table c' c'') :
    LooksAlike table c c'' :=
  ⟨h'.options.trans h.options, h'.closed.trans h.closed, h'.keys.trans h.keys, h'.db.trans h.db,
    h'.lookup.trans h.lookup⟩

/-- The same write can be seen on both sides. -/
theorem afterWrite (h : LooksAlike table c c') (written : Option (List Value)) :
    LooksAlike table (c.afterWrite table written) (c'.afterWrite table written) := by
  cases written with
  | none => exact h
  | some rows =>
    refine ⟨h.options, h.closed, h.keys, h.db, ?_⟩
    exact (Assoc.lookup_insert_self _ _ _).trans (Assoc.lookup_insert_self _ _ _).symm

/-- A write into another table cannot be seen. -/
theorem afterWrite_of_ne {other : String} (hne : other ≠ table) (c : Connection)
    (written : Option (List Value)) : LooksAlike table c (c.afterWrite other written) := by
  cases written with
  | none => exact refl table c
  | some rows => exact ⟨rfl, rfl, rfl, rfl, Assoc.lookup_insert_of_ne _ _ hne.symm⟩

variable (h : LooksAlike table c c')
include h

/-- The keys that are to be generated next make no difference to what is found. -/
theorem seenAlike : SeenAlike [table] c c' :=
  ⟨h.options, h.closed, h.db, agreeOn_cons.mpr ⟨h.lookup, agreeOn_nil⟩⟩

theorem checkHandle_eq : c'.checkHandle = c.checkHandle :=
  h.seenAlike.checkHandle_eq

theorem rows_eq : c'.rows table = c.rows table :=
  h.seenAlike.rows_eq List.mem_cons_self

variable [PatternLibrary]

/-- Without joins no other table is read. -/
theorem select_eq {d : Descriptor} (hjoins : d.JoinsNothing) :
    c'.select table d = c.select table d := by
  have hseen := h.seenAlike
  rw [← c.tablesRead_of_joinsNothing table hjoins] at hseen
  exact hseen.select_eq

theorem find_eq {d : Descriptor} (hjoins : d.JoinsNothing) : c'.find table d = c.find table d := by
  rw [find, find, h.checkHandle_eq, h.select_eq hjoins]

theorem count_eq (d : Descriptor) : c'.count table d = c.count table d := by
  rw [count, count, h.checkHandle_eq, h.select_eq d.joinsNothing_withoutJoins]

theorem selectedKeys_eq (d : Descriptor) : c'.selectedKeys table d = c.selectedKeys table d := by
  rw [selectedKeys, selectedKeys, h.select_eq d.joinsNothing_withoutJoins, h.options]

end LooksAlike

/-! ## Actions that run alike -/

/-- The two actions, each on its connection, give the same result, and write the same rows if they
    write any. The table is there then. -/
def RunAlike {ε α : Type} (table : String) (c c' : Connection)
    (action action' : Action Connection ε α) : Prop :=
  ∃ result written, (written.isSome = true → table ∈ c.store.tables.keys) ∧
    action.on c = (result, c.afterWrite table written) ∧
    action'.on c' = (result, c'.afterWrite table written)

namespace RunAlike

open DocQuery.Action

variable {ε α β : Type}

theorem pure (a : α) : RunAlike table c c' (Pure.pure a : Action Connection ε α) (Pure.pure a) :=
  ⟨.ok a, none, by simp, rfl, rfl⟩

theorem throw (e : ε) : RunAlike table c c' (MonadExcept.throw e : Action Connection ε α)
    (MonadExcept.throw e) :=
  ⟨.error e, none, by simp, rfl, rfl⟩

theorem throw_bind (e : ε) (f f' : α → Action Connection ε β) :
    RunAlike table c c' (MonadExcept.throw e >>= f) (MonadExcept.throw e >>= f') :=
  ⟨.error e, none, by simp, on_throw_bind e f c, on_throw_bind e f' c'⟩

/-- Rows of a table that is there are written, and the action is done. -/
theorem write {s s' : Connection} {old rows : List Value} (hold : c.rows table = .ok old)
    (hs : s = c.withRows table rows) (hs' : s' = c'.withRows table rows) (a : α) :
    RunAlike table c c' (do set s; return a : Action Connection ε α) (do set s'; return a) := by
  subst hs hs'
  refine ⟨.ok a, some rows, fun _ => ?_, on_set_bind _ c _, on_set_bind _ c' _⟩
  unfold Connection.rows at hold
  split at hold
  · next hlookup => exact Assoc.mem_keys_of_lookup hlookup
  · cases hold

/-- Each action may go on with its own connection. -/
theorem get_bind {f f' : Connection → Action Connection ε β}
    (h : RunAlike table c c' (f c) (f' c')) : RunAlike table c c' (get >>= f) (get >>= f') := by
  obtain ⟨result, written, hthere, hon, hon'⟩ := h
  exact ⟨result, written, hthere, (on_get_bind f c).trans hon, (on_get_bind f' c').trans hon'⟩

/-- A first step that writes nothing and gives the same on both sides. -/
theorem first_bind {x : Except ε α} {first first' : Action Connection ε α}
    {f f' : α → Action Connection ε β} (hfirst : first.on c = (x, c))
    (hfirst' : first'.on c' = (x, c')) (hf : ∀ a, x = .ok a → RunAlike table c c' (f a) (f' a)) :
    RunAlike table c c' (first >>= f) (first' >>= f') := by
  cases x with
  | error e =>
    refine ⟨.error e, none, by simp, ?_, ?_⟩
    · rw [on_bind, hfirst]
      rfl
    · rw [on_bind, hfirst']
      rfl
  | ok a =>
    obtain ⟨result, written, hthere, hon, hon'⟩ := hf a rfl
    refine ⟨result, written, hthere, ?_, ?_⟩
    · rw [on_bind, hfirst]
      exact hon
    · rw [on_bind, hfirst']
      exact hon'

theorem check_bind {x x' : Except ε α} {f f' : α → Action Connection ε β} (hx : x' = x)
    (hf : ∀ a, x = .ok a → RunAlike table c c' (f a) (f' a)) :
    RunAlike table c c' (liftM x >>= f) (liftM x' >>= f') :=
  first_bind (on_liftM x c) (hx ▸ on_liftM x' c') hf

theorem reading_bind {look : Connection → Except ε α} {f f' : α → Action Connection ε β}
    (hlook : look c' = look c) (hf : ∀ a, RunAlike table c c' (f a) (f' a)) :
    RunAlike table c c' (reading look >>= f) (reading look >>= f') :=
  first_bind (on_reading look c) (hlook ▸ on_reading look c') (fun a _ => hf a)

/-- A result may be reported in another form. -/
theorem bind_pure {action action' : Action Connection ε α} (h : RunAlike table c c' action action')
    (f : α → β) : RunAlike table c c' (action >>= fun a => Pure.pure (f a))
      (action' >>= fun a => Pure.pure (f a)) := by
  obtain ⟨result, written, hthere, hon, hon'⟩ := h
  refine ⟨result.map f, written, hthere, ?_, ?_⟩
  · rw [on_bind, hon]
    cases result <;> rfl
  · rw [on_bind, hon']
    cases result <;> rfl

end RunAlike

/-! ## Every operation on the table runs alike -/

/-- Documents that come with their keys use none of the supply. -/
theorem keys_eq_of_prepareAll {primaryKey : String} {keys keys' : KeySupply}
    {docs stored : List Value} (hdocs : ∀ doc ∈ docs, doc.CarriesKey primaryKey)
    (h : prepareAll primaryKey keys docs = .ok (stored, keys')) : keys' = keys := by
  induction docs generalizing keys stored with
  | nil => exact (Prod.mk.inj (Except.ok.inj h)).2.symm
  | cons doc rest ih =>
    rw [List.forall_mem_cons] at hdocs
    obtain ⟨⟨first, keys₁⟩, hfirst, h⟩ := bind_eq_ok.mp h
    obtain ⟨⟨others, keys₂⟩, hothers, h⟩ := bind_eq_ok.mp h
    obtain ⟨-, rfl⟩ := Prod.mk.inj (Except.ok.inj h)
    have hkeys : keys₁ = keys := by
      cases doc with
      | object fields =>
        rw [prepare, if_pos (hdocs.1 fields rfl)] at hfirst
        exact (Prod.mk.inj (Except.ok.inj hfirst)).2.symm
      | _ => cases hfirst
    rw [ih hdocs.2 hothers, hkeys]

section Operations

variable (h : LooksAlike table c c')
include h

theorem LooksAlike.insert {docs : List Value}
    (hdocs : ∀ doc ∈ docs, doc.CarriesKey c.options.primaryKey) :
    RunAlike table c c' (insert table docs) (insert table docs) := by
  refine RunAlike.get_bind (RunAlike.check_bind (by rw [h.options, h.keys]) ?_)
  rintro ⟨stored, keys⟩ hstored
  obtain rfl := keys_eq_of_prepareAll hdocs hstored
  refine RunAlike.check_bind h.rows_eq (fun rows hrows => ?_)
  rw [h.options]
  split
  · exact RunAlike.throw _
  · exact RunAlike.write hrows rfl (by rw [← h.keys]; rfl) _

theorem LooksAlike.create {doc : Value} (hdoc : doc.CarriesKey c.options.primaryKey) :
    RunAlike table c c' (create table doc) (create table doc) := by
  refine RunAlike.reading_bind h.checkHandle_eq (fun _ => ?_)
  exact (h.insert (List.forall_mem_singleton.mpr hdoc)).bind_pure _

theorem LooksAlike.createEach {docs : List Value}
    (hdocs : ∀ doc ∈ docs, doc.CarriesKey c.options.primaryKey) :
    RunAlike table c c' (createEach table docs) (createEach table docs) := by
  unfold Connection.createEach
  split
  · exact RunAlike.pure []
  · exact RunAlike.reading_bind h.checkHandle_eq (fun _ => h.insert hdocs)

variable [PatternLibrary]

theorem LooksAlike.update (d : Descriptor) (patch : Value) :
    RunAlike table c c' (update table d patch) (update table d patch) := by
  refine RunAlike.reading_bind h.checkHandle_eq (fun _ => ?_)
  split
  · next fields =>
    refine RunAlike.get_bind (RunAlike.check_bind (h.selectedKeys_eq d) (fun keys _ => ?_))
    rw [h.options]
    split
    · exact RunAlike.throw_bind _ _ _
    · refine RunAlike.check_bind h.rows_eq (fun rows hrows => ?_)
      exact RunAlike.write hrows rfl rfl _
  · exact RunAlike.throw _

theorem LooksAlike.destroy (d : Descriptor) :
    RunAlike table c c' (destroy table d) (destroy table d) := by
  refine RunAlike.reading_bind h.checkHandle_eq (fun _ => RunAlike.get_bind ?_)
  refine RunAlike.check_bind (h.selectedKeys_eq d) (fun keys _ => ?_)
  refine RunAlike.check_bind h.rows_eq (fun rows hrows => ?_)
  rw [h.options]
  exact RunAlike.write hrows rfl rfl keys

theorem LooksAlike.action {op : Operation} (hop : op.IsOn c.options.primaryKey table) :
    RunAlike table c c' (action op) (action op) := by
  cases hop with
  | create hdoc => exact (h.create hdoc).bind_pure _
  | createEach hdocs => exact (h.createEach hdocs).bind_pure _
  | find hjoins => exact RunAlike.reading_bind (h.find_eq hjoins) (fun _ => RunAlike.pure _)
  | join hjoins => exact RunAlike.reading_bind (h.find_eq hjoins) (fun _ => RunAlike.pure _)
  | update d patch => exact (h.update d patch).bind_pure _
  | destroy d => exact (h.destroy d).bind_pure _
  | count d => exact RunAlike.reading_bind (h.count_eq d) (fun _ => RunAlike.pure _)

/-- On connections that look alike an operation on the table has the same reply and writes the same
    rows. -/
theorem LooksAlike.perform {op : Operation} (hop : op.IsOn c.options.primaryKey table) :
    (c'.perform op).1 = (c.perform op).1 ∧
    ∃ written, (written.isSome = true → table ∈ c.store.tables.keys) ∧
      (c.perform op).2 = c.afterWrite table written ∧
      (c'.perform op).2 = c'.afterWrite table written := by
  obtain ⟨result, written, hthere, hon, hon'⟩ := h.action hop
  refine ⟨?_, written, hthere, congrArg Prod.snd hon, congrArg Prod.snd hon'⟩
  exact (congrArg Prod.fst hon').trans (congrArg Prod.fst hon).symm

end Operations

end Connection

end DocQuery
