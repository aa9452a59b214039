import DocQuery.Proofs.TableNames
import DocQuery.Proofs.TablesRead

set_option autoImplicit false

/-! # Tables that a find does not read

A find reads the tables that its plan names (`Connection.tablesRead`). It gives the same result,
rows or an error, on connections that agree on these (`SeenAlike.find_eq`), and an operation that
writes other tables only, whether it succeeds or not, leaves such a connection
(`seenAlike_perform`). -/

namespace DocQuery

/-! ## What operations write -/

/-- The tables that an operation writes, creates or removes if it succeeds. -/
def Operation.written : Operation → List String
  | .load data => data.map Prod.fst
  | .createTable name => [name]
  | .dropTable name => [name]
  | .create name _ => [name]
  | .createEach name _ => [name]
  | .update name _ _ => [name]
  | .destroy name _ => [name]
  | .table _ | .close | .find _ _ | .join _ _ | .count _ _ => []

namespace Connection

variable {c c' : Connection} {table : String} {d : Descriptor}

/-! ## What a find reads -/

/-- The tables that a find reads: those that its plan names, and if there is no plan the table that
    it is done on. -/
def tablesRead (c : Connection) (table : String) (d : Descriptor) : List String :=
  match c.plan table d with
  | .ok plan => plan.tables
  | .error _ => [table]

theorem tablesRead_of_plan {plan : Plan} (h : c.plan table d = .ok plan) :
    c.tablesRead table d = plan.tables := by
  rw [tablesRead, h]

/-- Without joins a find reads one table. -/
theorem tablesRead_of_joinsNothing (c : Connection) (table : String) (h : d.JoinsNothing) :
    c.tablesRead table d = [table] := by
  unfold tablesRead
  split
  · next plan hplan => exact Plan.tables_compile h hplan
  · rfl

theorem self_mem_tablesRead (c : Connection) (table : String) (d : Descriptor) :
    table ∈ c.tablesRead table d := by
  unfold tablesRead
  split
  · next plan hplan =>
    obtain ⟨fields, hfields⟩ := Plan.exists_mergeFields_of_compile_eq_ok hplan
    rw [Plan.tables_compile_eq hfields hplan]
    exact List.mem_append_left _ List.mem_cons_self
  · exact List.mem_cons_self

/-- A find that reads no other tables than these cannot tell the connections apart. -/
structure SeenAlike (names : List String) (c c' : Connection) : Prop where
  options : c'.options = c.options
  closed : c'.closed = c.closed
  db : c'.store.db = c.store.db
  tables : AgreeOn names c'.store.tables c.store.tables

namespace SeenAlike

variable {names : List String}

theorem refl (names : List String) (c : Connection) : SeenAlike names c c :=
  ⟨rfl, rfl, rfl, fun _ _ => rfl⟩

theorem trans {c'' : Connection} (h : SeenAlike names c c') (h' : SeenAlike names c' c'') :
    SeenAlike names c c'' :=
  ⟨h'.options.trans h.options, h'.closed.trans h.closed, h'.db.trans h.db,
    fun name hname => (h'.tables name hname).trans (h.tables name hname)⟩

theorem checkHandle_eq (h : SeenAlike names c c') : c'.checkHandle = c.checkHandle := by
  unfold checkHandle Connection.db
  rw [h.closed, h.db]

theorem rows_eq (h : SeenAlike names c c') (htable : table ∈ names) :
    c'.rows table = c.rows table := by
  unfold Connection.rows Connection.db
  rw [h.tables table htable, h.db]

theorem plan_eq (h : SeenAlike names c c') (d : Descriptor) : c'.plan table d = c.plan table d := by
  unfold plan
  rw [h.options]

variable [PatternLibrary]

theorem select_eq (h : SeenAlike (c.tablesRead table d) c c') :
    c'.select table d = c.select table d := by
  unfold select
  rw [h.rows_eq (c.self_mem_tablesRead table d), h.plan_eq]
  cases hplan : c.plan table d with
  | error e => rfl
  | ok plan =>
    have htables := h.tables
    rw [tablesRead_of_plan hplan] at htables
    rw [mapError_ok, ok_bind, ok_bind, Plan.run_congr htables]

theorem find_eq (h : SeenAlike (c.tablesRead table d) c c') :
    c'.find table d = c.find table d := by
  rw [find, find, h.checkHandle_eq, h.select_eq]

end SeenAlike

/-! ## Writes into other tables -/

section Writing

variable {names : List String}

theorem seenAlike_withRows {other : String} (hother : other ∉ names) (c : Connection)
    (rows : List Value) : SeenAlike names c (c.withRows other rows) := by
  refine ⟨rfl, rfl, rfl, fun name hname => ?_⟩
  exact Assoc.lookup_insert_of_ne _ _ (fun hsame => hother (hsame ▸ hname))

variable [PatternLibrary]

/-- What an operation writes is in the tables that are said to be written. -/
theorem Writes.seenAlike {op : Operation} (h : Writes c op c') (hopen : op ≠ .close)
    (hwritten : op.written.Disjoint names) : SeenAlike names c c' := by
  cases h with
  | nothing => exact SeenAlike.refl names c
  | close => exact absurd rfl hopen
  | load hcheck =>
    refine ⟨rfl, rfl, rfl, fun name hname => Assoc.lookup_insertAll_of_forall_ne ?_ _⟩
    rintro e he rfl
    exact hwritten (List.mem_map_of_mem he) hname
  | createTable hname hnew =>
    rw [TableName.text_of_ofText hname]
    exact seenAlike_withRows (hwritten List.mem_cons_self) c []
  | dropTable other =>
    refine ⟨rfl, rfl, rfl, fun name hname => Assoc.lookup_remove_of_ne _ ?_⟩
    rintro rfl
    exact hwritten List.mem_cons_self hname
  | @insert _ other docs stored rows keys hop hprepared hrows hfresh =>
    have hother : other ∉ names := by
      rcases hop with rfl | ⟨doc, -, rfl⟩
      · exact hwritten List.mem_cons_self
      · exact hwritten List.mem_cons_self
    have hrest := seenAlike_withRows hother c (rows ++ stored)
    exact ⟨hrest.options, hrest.closed, hrest.db, hrest.tables⟩
  | update hselect hkeys hrows =>
    exact seenAlike_withRows (hwritten List.mem_cons_self) c _
  | destroy hselect hrows =>
    exact seenAlike_withRows (hwritten List.mem_cons_self) c _

theorem seenAlike_perform (c : Connection) {op : Operation} (hopen : op ≠ .close)
    (hwritten : op.written.Disjoint names) : SeenAlike names c (c.perform op).2 :=
  (writes_perform c op).seenAlike hopen hwritten

/-- Operations that write other tables only cannot be seen, however many there are. -/
theorem seenAlike_performAll (c : Connection) {ops : List Operation}
    (hops : ∀ op ∈ ops, op ≠ .close ∧ op.written.Disjoint names) :
    SeenAlike names c (c.performAll ops).2 := by
  induction ops generalizing c with
  | nil => exact SeenAlike.refl names c
  | cons op rest ih =>
    rw [List.forall_mem_cons] at hops
    obtain ⟨⟨hopen, hwritten⟩, hrest⟩ := hops
    exact (seenAlike_perform c hopen hwritten).trans (ih (c.perform op).2 hrest)

end Writing

end Connection

/-! ## Main statement -/

/-- A plan gives the same rows, or the same error, on tables that agree on every name that occurs in
    it, the one that it starts at and those of its look-ups, also on which of these tables are
    there. So a find has the same result after any operations that load, drop and write other
    tables. -/
theorem find_depends_on_named_tables [PatternLibrary] :
    (∀ (plan : Plan) (left right : Tables), AgreeOn plan.tables left right →
      plan.run left = plan.run right) ∧
    ∀ (c : Connection) (table : String) (d : Descriptor) (ops : List Operation),
      (∀ op ∈ ops, op ≠ .close ∧ op.written.Disjoint (c.tablesRead table d)) →
        (c.performAll ops).2.find table d = c.find table d :=
  ⟨fun _ _ _ h => Plan.run_congr h,
    fun c _ _ _ hops => (Connection.seenAlike_performAll c hops).find_eq⟩

/-- The predicate and the merged fields look documents up in tables, one of which is not there;
    the connection is written to in all ways besides the tables of a find with joins. -/
theorem find_depends_on_named_tables_in_lookups :
    let tags : List Value := [.object [("id", .string "a")]]
    let links : List Value := [.object [("post", .string "p"), ("tag", .string "a")]]
    let posts : List Value := [.object [("id", .string "p"), ("author", .string "u")]]
    let plan : Plan := .merge
      (.filter (.table "posts") (.contains (.getAll "links" "post" (.row "id")) []))
      [⟨"tags", .mapItems (.getAll "links" "post" (.row "id"))
        (.get "tags" "id" (.element "tag"))⟩,
        ⟨"author", .get "people" "id" (.row "author")⟩]
    let left : Tables := [("posts", posts), ("links", links), ("tags", tags), ("notes", tags)]
    let right : Tables := [("spare", []), ("tags", tags), ("links", links), ("posts", posts)]
    let c : Connection := ⟨"main", ⟨"id", true⟩, ⟨⟨"test", by decide, by decide⟩, left⟩,
      ⟨fun _ => "k", 0⟩, false⟩
    let d : Descriptor := { joins := some [.hasMany ⟨"tags", "links", some "post", none⟩,
      .junctionHop ⟨"tags", "tags", none, some "tag"⟩] }
    let ops : List Operation := [.load [("spare", links)], .createTable "other",
      .create "other" (.object []), .update "notes" {} (.object [("post", .string "p")]),
      .destroy "spare" {}, .dropTable "notes", .find "posts" d]
    AgreeOn plan.tables left right ∧ plan.run left = plan.run right ∧
      plan.run left = .error (.query (.tableNotFound "people")) ∧
      c.tablesRead "posts" d = ["posts", "links", "tags"] ∧
      c.find "posts" d = .ok [.object [("id", .string "p"), ("author", .string "u"),
        ("tags", .array tags)]] ∧
      (c.performAll ops).2.find "posts" d = c.find "posts" d := by
  intro tags links posts plan left right c d ops
  have hagree : AgreeOn plan.tables left right := by
    show AgreeOn ["posts", "links", "links", "tags", "people"] left right
    simp only [agreeOn_cons]
    exact ⟨rfl, rfl, rfl, rfl, rfl, agreeOn_nil⟩
  have hread : c.tablesRead "posts" d = ["posts", "links", "tags"] := rfl
  have hops : ∀ op ∈ ops, op ≠ .close ∧ op.written.Disjoint (c.tablesRead "posts" d) := by
    rw [hread]
    simp [ops, Operation.written]
  obtain ⟨hplan, hfind⟩ := find_depends_on_named_tables
  exact ⟨hagree, hplan plan left right hagree, rfl, hread, rfl, hfind c "posts" d ops hops⟩

end DocQuery
