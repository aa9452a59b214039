import Mathlib.Algebra.Order.Field.Rat
import DocQuery.Descriptor.Sort
import DocQuery.Plan.Compile
import DocQuery.Proofs.Blanks
import DocQuery.Proofs.RepeatedWrites
import DocQuery.Proofs.Results

set_option autoImplicit false

/-! # The two forms of a sort order

A sort order is written as a text of terms or as an object. A text is described here by what it
writes: the parts between its commas are blank or hold a field, with or without a direction
(`WritesKeys`). Reading such a text gives the object in which the terms were written one after the
other, so that the two forms have the same sort keys, a field standing where it is first named and
with the direction it was last given. A text without terms is no sort order, where the object is an
empty one; neither adds a step to the plan. Any other term makes the text malformed. -/

namespace DocQuery

/-! ## Written sort orders -/

/-- The number that is written for a direction. -/
def Direction.sign : Direction → Int
  | .ascending => 1
  | .descending => -1

theorem Direction.sign_inRange (direction : Direction) :
    -2 ^ 63 ≤ direction.sign ∧ direction.sign < 2 ^ 64 := by
  cases direction <;> decide

/-- The indicator that is written for a direction. -/
def Direction.indicator (direction : Direction) : Value :=
  .number (.integer direction.sign direction.sign_inRange)

/-- The word for a direction. -/
def Direction.word : Direction → List Char
  | .ascending => ['a', 's', 'c']
  | .descending => ['d', 'e', 's', 'c']

/-- The characters are the word for the direction, in some letter case. -/
def Direction.IsSpelled (direction : Direction) (chars : List Char) : Prop :=
  chars.map Char.toLower = direction.word

instance (direction : Direction) (chars : List Char) : Decidable (direction.IsSpelled chars) :=
  inferInstanceAs (Decidable (chars.map Char.toLower = direction.word))

/-- The part of a text is a term for the sort key. -/
inductive WritesKey : OrderKey → List Char → Prop where
  | plain {field : String} {part : List Char} (h : Spaced [field.toList] part) :
      WritesKey ⟨field, .ascending⟩ part
  | directed {field : String} {direction : Direction} {word part : List Char}
      (hword : direction.IsSpelled word) (h : Spaced [field.toList, word] part) :
      WritesKey ⟨field, direction⟩ part

/-- The parts of a text are terms for the sort keys, in order, and blank parts. -/
inductive WritesKeys : List OrderKey → List (List Char) → Prop where
  | nil : WritesKeys [] []
  | blank {keys : List OrderKey} {part : List Char} {parts : List (List Char)}
      (hpart : ∀ c ∈ part, isBlank c = true) (h : WritesKeys keys parts) :
      WritesKeys keys (part :: parts)
  | key {key : OrderKey} {keys : List OrderKey} {part : List Char} {parts : List (List Char)}
      (hcomma : ',' ∉ key.field.toList) (hpart : WritesKey key part) (h : WritesKeys keys parts) :
      WritesKeys (key :: keys) (part :: parts)

/-- The tokens are no term: there are too many, or the second one is no direction. -/
def IsNoTerm (tokens : List (List Char)) : Prop :=
  2 < tokens.length ∨
    ∃ word, tokens[1]? = some word ∧ ∀ direction : Direction, ¬ direction.IsSpelled word

/-- The text with these parts between its commas. -/
def joinedByCommas (parts : List (List Char)) : String :=
  String.ofList ([','].intercalate parts)

/-- The keys written one by one: a repeated one stands in the first place with the last
    direction. -/
def mergedKeys (keys : List OrderKey) : List OrderKey :=
  (Assoc.ofList (keys.map (fun key => (key.field, key.direction)))).map
    (fun (field, direction) => ⟨field, direction⟩)

/-- The object that the keys are written as. -/
def sortObject (keys : List OrderKey) : Assoc Value :=
  Assoc.ofList (keys.map (fun key => (key.field, key.direction.indicator)))

/-! ## Keys of the object form -/

theorem Direction.ofIndicator_indicator (direction : Direction) :
    Direction.ofIndicator direction.indicator = direction := by
  cases direction <;> decide +kernel

theorem compile_sortObject (keys : List OrderKey) :
    SortSpec.compile (sortObject keys) = mergedKeys keys := by
  have hobject : sortObject keys =
      (Assoc.ofList (keys.map (fun key => (key.field, key.direction)))).map
        (fun (field, direction) => (field, direction.indicator)) := by
    rw [Assoc.ofList, Assoc.map_insertAll, List.map_map]
    rfl
  rw [hobject, SortSpec.compile, List.map_map, mergedKeys]
  apply List.map_congr_left
  rintro ⟨field, direction⟩ -
  simp [Direction.ofIndicator_indicator]

/-- Without keys the object may be left out. -/
theorem elim_compile_sortObject (keys : List OrderKey) :
    (if keys.isEmpty then none else some (sortObject keys)).elim [] SortSpec.compile =
      mergedKeys keys := by
  cases keys with
  | nil => rfl
  | cons key keys => exact compile_sortObject (key :: keys)

/-! ### Places and directions of merged keys -/

theorem map_field_mergedKeys (keys : List OrderKey) :
    (mergedKeys keys).map OrderKey.field = (keys.map OrderKey.field).eraseDups := by
  have hkeys := Assoc.keys_ofList (keys.map (fun key => (key.field, key.direction)))
  rw [List.map_map] at hkeys
  rw [mergedKeys, List.map_map]
  exact hkeys

theorem getLast?_of_mem_mergedKeys {keys : List OrderKey} {key : OrderKey}
    (h : key ∈ mergedKeys keys) : (keys.filter (·.field = key.field)).getLast? = some key := by
  obtain ⟨⟨field, direction⟩, hmem, rfl⟩ := List.mem_map.mp h
  have hlast := Assoc.getLast?_of_mem_ofList hmem
  rw [List.filter_map, List.getLast?_map] at hlast
  obtain ⟨last, hlast, hsame⟩ := Option.map_eq_some_iff.mp hlast
  obtain ⟨rfl, rfl⟩ := Prod.mk.inj hsame
  exact hlast

/-! ## Reading a term -/

theorem indicatorOfWord?_of_isSpelled {direction : Direction} {word : List Char}
    (h : direction.IsSpelled word) :
    SortSpec.indicatorOfWord? word = some direction.indicator := by
  unfold Direction.IsSpelled at h
  rw [SortSpec.indicatorOfWord?, h]
  cases direction <;> rfl

theorem indicatorOfWord?_of_not_isSpelled {word : List Char}
    (h : ∀ direction : Direction, ¬ direction.IsSpelled word) :
    SortSpec.indicatorOfWord? word = none := by
  have hasc : word.map Char.toLower ≠ ['a', 's', 'c'] := h .ascending
  have hdesc : word.map Char.toLower ≠ ['d', 'e', 's', 'c'] := h .descending
  simp only [SortSpec.indicatorOfWord?, if_neg hasc, if_neg hdesc]

theorem termOfChars_of_writesKey {key : OrderKey} {part : List Char} (h : WritesKey key part) :
    SortSpec.termOfChars (trimBlank part) = .ok (key.field, key.direction.indicator) := by
  cases h with
  | plain h =>
    rw [SortSpec.termOfChars, words_trimBlank, h.words_eq]
    simp only [String.ofList_toList]
    rfl
  | directed hword h =>
    rw [SortSpec.termOfChars, words_trimBlank, h.words_eq]
    simp [indicatorOfWord?_of_isSpelled hword]

theorem IsNoTerm.one_lt_length {tokens : List (List Char)} (h : IsNoTerm tokens) :
    1 < tokens.length := by
  rcases h with hlong | ⟨word, hsecond, -⟩
  · omega
  · exact (List.getElem?_eq_some_iff.mp hsecond).1

theorem termOfChars_of_isNoTerm {tokens : List (List Char)} {part : List Char}
    (h : Spaced tokens part) (hno : IsNoTerm tokens) :
    ∃ fault, SortSpec.termOfChars (trimBlank part) = .error (.malformedClause fault) := by
  rw [SortSpec.termOfChars, words_trimBlank, h.words_eq]
  obtain _ | ⟨field, _ | ⟨word, more⟩⟩ := tokens
  · exact absurd hno.one_lt_length (by simp)
  · exact absurd hno.one_lt_length (by simp)
  · cases hword : SortSpec.indicatorOfWord? word with
    | none =>
      simp only [hword]
      exact ⟨_, rfl⟩
    | some indicator =>
      have hmore : more.isEmpty = false := by
        rcases hno with hlong | ⟨_, hsecond, hnone⟩
        · cases more with
          | nil => simp at hlong
          | cons _ _ => rfl
        · obtain rfl := Option.some.inj hsecond
          rw [indicatorOfWord?_of_not_isSpelled hnone] at hword
          cases hword
      simp only [hword, hmore]
      exact ⟨_, rfl⟩

/-! ## Reading a text -/

theorem WritesKey.comma_not_mem {key : OrderKey} {part : List Char} (h : WritesKey key part)
    (hfield : ',' ∉ key.field.toList) : ',' ∉ part := by
  cases h with
  | plain h => exact h.not_mem (by decide) (List.forall_mem_singleton.mpr hfield)
  | @directed _ direction word _ hword h =>
    have hword' : ',' ∉ word := by
      intro hmem
      have hlower : Char.toLower ',' ∈ direction.word := hword ▸ List.mem_map_of_mem hmem
      cases direction <;> simp [Direction.word] at hlower
    exact h.not_mem (by decide)
      (List.forall_mem_cons.mpr ⟨hfield, List.forall_mem_singleton.mpr hword'⟩)

theorem WritesKeys.comma_not_mem {keys : List OrderKey} {parts : List (List Char)}
    (h : WritesKeys keys parts) : ∀ part ∈ parts, ',' ∉ part := by
  induction h with
  | nil => exact List.forall_mem_nil _
  | blank hpart _ ih =>
    refine List.forall_mem_cons.mpr ⟨fun hmem => ?_, ih⟩
    exact absurd (hpart ',' hmem) (by decide)
  | key hcomma hpart _ ih =>
    exact List.forall_mem_cons.mpr ⟨hpart.comma_not_mem hcomma, ih⟩

/-- The terms of parts without commas are the parts, trimmed, that are not blank. -/
theorem terms_joinedByCommas {parts : List (List Char)} (h : ∀ part ∈ parts, ',' ∉ part) :
    SortSpec.terms (joinedByCommas parts) = (parts.map trimBlank).filter (· ≠ []) := by
  rw [SortSpec.terms, joinedByCommas, String.toList_ofList, pieces_eq_splitOnP]
  cases parts with
  | nil => rfl
  | cons part parts =>
    have hsplit : ([','].intercalate (part :: parts)).splitOnP (· = ',') = part :: parts :=
      List.splitOn_intercalate ',' h (List.cons_ne_nil part parts)
    rw [hsplit]

theorem trimBlank_ne_nil_of_spaced {token part : List Char} {tokens : List (List Char)}
    (h : Spaced (token :: tokens) part) : trimBlank part ≠ [] := by
  intro hnil
  have hwords := (words_trimBlank part).trans h.words_eq
  rw [hnil] at hwords
  cases hwords

theorem WritesKey.trimBlank_ne_nil {key : OrderKey} {part : List Char} (h : WritesKey key part) :
    trimBlank part ≠ [] := by
  cases h with
  | plain h => exact trimBlank_ne_nil_of_spaced h
  | directed _ h => exact trimBlank_ne_nil_of_spaced h

theorem mapM_termOfChars_of_writesKeys {keys : List OrderKey} {parts : List (List Char)}
    (h : WritesKeys keys parts) :
    ((parts.map trimBlank).filter (· ≠ [])).mapM SortSpec.termOfChars =
      .ok (keys.map (fun key => (key.field, key.direction.indicator))) := by
  induction h with
  | nil => rfl
  | blank hpart _ ih =>
    rw [List.map_cons, trimBlank_of_blank hpart]
    exact ih
  | key _ hpart _ ih =>
    rw [List.map_cons, List.filter_cons_of_pos (by simpa using hpart.trimBlank_ne_nil),
      List.mapM_cons, termOfChars_of_writesKey hpart, ih]
    rfl

/-- A text of terms is read as the object of its keys, and one without terms as no sort order. -/
theorem ofValue_joinedByCommas {keys : List OrderKey} {parts : List (List Char)}
    (h : WritesKeys keys parts) :
    SortSpec.ofValue (.string (joinedByCommas parts)) =
      .ok (if keys.isEmpty then none else some (sortObject keys)) := by
  rw [SortSpec.ofValue, SortSpec.ofText, terms_joinedByCommas h.comma_not_mem,
    mapM_termOfChars_of_writesKeys h, ok_bind, List.isEmpty_map]
  rfl

/-! ## What is no term -/

/-- A part of the descriptor is not written in its form. -/
abbrev QueryError.IsMalformedClause (e : QueryError) : Prop :=
  ∃ fault, e = .malformedClause fault

theorem yields_termOfChars (term : List Char) :
    Yields (fun _ => True) QueryError.IsMalformedClause (SortSpec.termOfChars term) := by
  unfold SortSpec.termOfChars
  split
  · exact trivial
  · exact trivial
  · split
    · exact ⟨_, rfl⟩
    · split
      · exact trivial
      · exact ⟨_, rfl⟩

theorem ofValue_joinedByCommas_of_isNoTerm {parts : List (List Char)} {part : List Char}
    {tokens : List (List Char)} (hcomma : ∀ part ∈ parts, ',' ∉ part) (hpart : part ∈ parts)
    (htokens : Spaced tokens part) (hno : IsNoTerm tokens) :
    ∃ fault, SortSpec.ofValue (.string (joinedByCommas parts)) =
      .error (.malformedClause fault) := by
  obtain ⟨fault, hfault⟩ := termOfChars_of_isNoTerm htokens hno
  have hne : trimBlank part ≠ [] := by
    cases htokens with
    | blank => exact absurd hno.one_lt_length (by simp)
    | token hgap hne hsolid hrest hcut =>
      exact trimBlank_ne_nil_of_spaced (.token hgap hne hsolid hrest hcut)
  have hmem : trimBlank part ∈ (parts.map trimBlank).filter (· ≠ []) :=
    List.mem_filter.mpr ⟨List.mem_map_of_mem hpart, by simpa using hne⟩
  have hfails : Yields (fun _ => False) QueryError.IsMalformedClause
      (SortSpec.termOfChars (trimBlank part)) := by
    rw [hfault]
    exact ⟨fault, rfl⟩
  have hread : Yields (fun _ => False) QueryError.IsMalformedClause
      (SortSpec.ofValue (.string (joinedByCommas parts))) := by
    rw [SortSpec.ofValue, SortSpec.ofText, terms_joinedByCommas hcomma]
    exact (Yields.mapM_of_mem yields_termOfChars hmem hfails).bind (fun _ h => h.elim)
  cases hresult : SortSpec.ofValue (.string (joinedByCommas parts)) with
  | ok sort => exact (hread.of_eq_ok hresult).elim
  | error e =>
    obtain ⟨fault, rfl⟩ := hread.of_eq_error hresult
    exact ⟨fault, rfl⟩

/-- Tokens that are a term are none at all or write a key. -/
theorem exists_writesKey_of_spaced {part : List Char} {tokens : List (List Char)}
    (hcomma : ',' ∉ part) (htokens : Spaced tokens part) (hterm : ¬ IsNoTerm tokens) :
    (∀ c ∈ part, isBlank c = true) ∨ ∃ key, ',' ∉ key.field.toList ∧ WritesKey key part := by
  cases htokens with
  | blank hgap => exact .inl hgap
  | @token gap field rest more hgap hne hsolid hrest hcut =>
    right
    have hspaced : Spaced ((String.ofList field).toList :: more) (gap ++ (field ++ rest)) := by
      rw [String.toList_ofList]
      exact .token hgap hne hsolid hrest hcut
    have hfield : ',' ∉ (String.ofList field).toList := by
      rw [String.toList_ofList]
      exact fun hmem => hcomma (List.mem_append_right _ (List.mem_append_left _ hmem))
    obtain ⟨hshort, hword⟩ := not_or.mp hterm
    obtain _ | ⟨word, _ | ⟨another, more⟩⟩ := more
    · exact ⟨⟨String.ofList field, .ascending⟩, hfield, .plain hspaced⟩
    · by_cases hspelled : ∃ direction : Direction, direction.IsSpelled word
      · obtain ⟨direction, hdirection⟩ := hspelled
        exact ⟨⟨String.ofList field, direction⟩, hfield, .directed hdirection hspaced⟩
      · exact absurd ⟨word, rfl, not_exists.mp hspelled⟩ hword
    · exact absurd (by simp) hshort

theorem exists_writesKeys {parts : List (List Char)} (hcomma : ∀ part ∈ parts, ',' ∉ part)
    (hterms : ∀ part ∈ parts, ∀ tokens, Spaced tokens part → ¬ IsNoTerm tokens) :
    ∃ keys, WritesKeys keys parts := by
  induction parts with
  | nil => exact ⟨[], .nil⟩
  | cons part parts ih =>
    obtain ⟨hpart, hcomma⟩ := List.forall_mem_cons.mp hcomma
    obtain ⟨hterm, hterms⟩ := List.forall_mem_cons.mp hterms
    obtain ⟨keys, hkeys⟩ := ih hcomma hterms
    obtain ⟨tokens, htokens⟩ := exists_spaced part
    rcases exists_writesKey_of_spaced hpart htokens (hterm tokens htokens) with
      hblank | ⟨key, hfield, hkey⟩
    · exact ⟨keys, .blank hblank hkeys⟩
    · exact ⟨key :: keys, .key hfield hkey hkeys⟩

/-- The texts that are malformed are those with something between commas that is no term. -/
theorem ofValue_joinedByCommas_eq_error_iff {parts : List (List Char)}
    (hcomma : ∀ part ∈ parts, ',' ∉ part) :
    (∃ fault, SortSpec.ofValue (.string (joinedByCommas parts)) =
        .error (.malformedClause fault)) ↔
      ∃ part ∈ parts, ∃ tokens, Spaced tokens part ∧ IsNoTerm tokens := by
  constructor
  · rintro ⟨fault, hfault⟩
    by_contra hterms
    have hall : ∀ part ∈ parts, ∀ tokens, Spaced tokens part → ¬ IsNoTerm tokens :=
      fun part hpart tokens htokens hno => hterms ⟨part, hpart, tokens, htokens, hno⟩
    obtain ⟨keys, hkeys⟩ := exists_writesKeys hcomma hall
    rw [ofValue_joinedByCommas hkeys] at hfault
    cases hfault
  · rintro ⟨part, hpart, tokens, htokens, hno⟩
    exact ofValue_joinedByCommas_of_isNoTerm hcomma hpart htokens hno

/-! ## The two forms -/

/-- All that a plan has of a sort order is its keys, and no order has none. -/
theorem Plan.compile_congr_sort {sort sort' : Option SortSpec}
    (h : sort.elim [] SortSpec.compile = sort'.elim [] SortSpec.compile) (options : PlanOptions)
    (input : Plan) (d : Descriptor) :
    Plan.compile options input { d with sort := sort } =
      Plan.compile options input { d with sort := sort' } := by
  have hkeys (sort : Option SortSpec) : sort.elim [] SortSpec.compile = (sort.getD []).compile := by
    cases sort <;> rfl
  have hstep (sort : Option SortSpec) (input : Plan) :
      Plan.withPart sort Plan.compileSort input = Plan.compileSort input (sort.getD []) := by
    cases sort <;> rfl
  rw [hkeys, hkeys] at h
  simp only [Plan.compile, hstep, Plan.compileSort, h]

/-- The keys of a text of terms are those of the terms written one by one, as they are of the object
    in which they are written so, and both forms lead to the same plans, even if there is no term at
    all. A text is malformed if and only if there are more than two tokens somewhere between its
    commas, or a second one that is no direction. -/
theorem sort_forms_agree :
    (∀ keys parts, WritesKeys keys parts →
      ∃ sort, SortSpec.ofValue (.string (joinedByCommas parts)) = .ok sort ∧
        sort.elim [] SortSpec.compile = mergedKeys keys ∧
        SortSpec.ofValue (.object (sortObject keys)) = .ok (some (sortObject keys)) ∧
        SortSpec.compile (sortObject keys) = mergedKeys keys ∧
        ∀ options input (d : Descriptor), Plan.compile options input { d with sort := sort } =
          Plan.compile options input { d with sort := some (sortObject keys) }) ∧
    (∀ keys, (mergedKeys keys).map OrderKey.field = (keys.map OrderKey.field).eraseDups ∧
      ∀ key ∈ mergedKeys keys, (keys.filter (·.field = key.field)).getLast? = some key) ∧
    ∀ parts, (∀ part ∈ parts, ',' ∉ part) →
      ((∃ fault, SortSpec.ofValue (.string (joinedByCommas parts)) =
          .error (.malformedClause fault)) ↔
        ∃ part ∈ parts, ∃ tokens, Spaced tokens part ∧ IsNoTerm tokens) := by
  refine ⟨?_, ?_, ?_⟩
  · intro keys parts h
    have hkeys := compile_sortObject keys
    have hsort := elim_compile_sortObject keys
    have hboth : (if keys.isEmpty then none else some (sortObject keys)).elim []
        SortSpec.compile = (some (sortObject keys)).elim [] SortSpec.compile :=
      hsort.trans hkeys.symm
    exact ⟨_, ofValue_joinedByCommas h, hsort, rfl, hkeys, Plan.compile_congr_sort hboth⟩
  · exact fun keys => ⟨map_field_mergedKeys keys, fun _ => getLast?_of_mem_mergedKeys⟩
  · exact fun _ => ofValue_joinedByCommas_eq_error_iff

theorem sort_forms_agree_repeated_field :
    (∃ sort, SortSpec.ofValue (.string " name\tDeSC ,, age,name asc") = .ok sort ∧
      sort.elim [] SortSpec.compile = [⟨"name", .ascending⟩, ⟨"age", .ascending⟩]) ∧
    ∃ fault, SortSpec.ofValue (.string "age, name up") = .error (.malformedClause fault) := by
  have hkeys : WritesKeys [⟨"name", .descending⟩, ⟨"age", .ascending⟩, ⟨"name", .ascending⟩]
      [" name\tDeSC ".toList, [], " age".toList, "name asc".toList] := by
    have hdesc : Direction.descending.IsSpelled "DeSC".toList := by decide
    have hasc : Direction.ascending.IsSpelled "asc".toList := by decide
    refine .key (by decide) (.directed hdesc (spaced_iff.mpr (by decide))) ?_
    refine .blank (List.forall_mem_nil _) ?_
    refine .key (by decide) (.plain (spaced_iff.mpr (by decide))) ?_
    exact .key (by decide) (.directed hasc (spaced_iff.mpr (by decide))) .nil
  obtain ⟨sort, hsort, hcompile, -⟩ := sort_forms_agree.1 _ _ hkeys
  have htext : joinedByCommas [" name\tDeSC ".toList, [], " age".toList, "name asc".toList] =
      " name\tDeSC ,, age,name asc" := by decide
  rw [htext] at hsort
  have hbad : joinedByCommas ["age".toList, " name up".toList] = "age, name up" := by decide
  have hcomma : ∀ part ∈ ["age".toList, " name up".toList], ',' ∉ part := by decide
  have hno : IsNoTerm ["name".toList, "up".toList] :=
    .inr ⟨"up".toList, rfl, fun direction => by cases direction <;> decide⟩
  refine ⟨⟨sort, hsort, hcompile.trans (by decide)⟩, ?_⟩
  rw [← hbad]
  exact (sort_forms_agree.2.2 _ hcomma).mpr
    ⟨_, List.mem_cons_of_mem _ List.mem_cons_self, _, spaced_iff.mpr (by decide), hno⟩

end DocQuery
