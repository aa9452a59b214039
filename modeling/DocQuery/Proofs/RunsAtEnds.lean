import DocQuery.Proofs.LiteralEnds

set_option autoImplicit false

/-! # A run before or behind a literal

A literal with a `%` behind it, or in front, could be expected to match as `startsWith` and
`endsWith` do. The two are searched for with different patterns. The one with the run has both
anchors, so that the run has to take all that the literal leaves (`occursIn_run_behind`,
`occursIn_run_before`), and a run stops at line feeds; the other asks nothing of what is left. The
answers are the same for every text of one line, and differ as soon as a line feed is left. The
pattern with the run is also somewhat larger, so it is refused a few bytes earlier. -/

namespace DocQuery

/-- No character of the text is a wildcard. -/
def IsPlain (text : String) : Prop :=
  ∀ c ∈ text.toList, c ≠ '%' ∧ c ≠ '_'

instance (text : String) : Decidable (IsPlain text) :=
  List.decidableBAll (fun c => c ≠ '%' ∧ c ≠ '_') text.toList

/-! ## What a literal leaves of a text -/

/-- What stands behind a literal, as characters and as a text. -/
theorem exists_behind_iff (literal text : String) (property : List Char → Prop) :
    (∃ left, literal.toList ++ left = text.toList ∧ property left) ↔
      ∃ rest : String, text = literal ++ rest ∧ property rest.toList := by
  constructor
  · rintro ⟨left, htext, hleft⟩
    refine ⟨String.ofList left, ?_, by rwa [String.toList_ofList]⟩
    rw [← String.toList_inj, String.toList_append, String.toList_ofList, htext]
  · rintro ⟨rest, rfl, hrest⟩
    exact ⟨rest.toList, String.toList_append.symm, hrest⟩

/-- What stands in front of a literal, as characters and as a text. -/
theorem exists_before_iff (literal text : String) (property : List Char → Prop) :
    (∃ left, left ++ literal.toList = text.toList ∧ property left) ↔
      ∃ rest : String, text = rest ++ literal ∧ property rest.toList := by
  constructor
  · rintro ⟨left, htext, hleft⟩
    refine ⟨String.ofList left, ?_, by rwa [String.toList_ofList]⟩
    rw [← String.toList_inj, String.toList_append, String.toList_ofList, htext]
  · rintro ⟨rest, rfl, hrest⟩
    exact ⟨rest.toList, String.toList_append.symm, hrest⟩

theorem prefix_toList_iff (literal text : String) :
    literal.toList <+: text.toList ↔ ∃ rest, text = literal ++ rest := by
  simpa [List.IsPrefix] using exists_behind_iff literal text (fun _ => True)

theorem suffix_toList_iff (literal text : String) :
    literal.toList <:+ text.toList ↔ ∃ rest, text = rest ++ literal := by
  simpa [List.IsSuffix] using exists_before_iff literal text (fun _ => True)

/-! ## The atoms of a literal with a run -/

namespace Pattern

variable {literal : String}

theorem map_wildcardAtom_of_isPlain (hplain : IsPlain literal) :
    literal.toList.map wildcardAtom = literalAtoms literal := by
  apply List.map_congr_left
  intro c hc
  obtain ⟨hrun, hone⟩ := hplain c hc
  rw [wildcardAtom, if_neg hrun, if_neg hone]

theorem wildcardAtoms_run_behind (hplain : IsPlain literal) :
    wildcardAtoms (literal ++ "%") = [.start] ++ literalAtoms literal ++ [.anyRun, .finish] := by
  have hrun : "%".toList.map wildcardAtom = [.anyRun] := rfl
  rw [wildcardAtoms, String.toList_append, List.map_append, map_wildcardAtom_of_isPlain hplain,
    hrun, List.append_assoc]
  rfl

theorem wildcardAtoms_run_before (hplain : IsPlain literal) :
    wildcardAtoms ("%" ++ literal) = [.start, .anyRun] ++ literalAtoms literal ++ [.finish] := by
  have hrun : "%".toList.map wildcardAtom = [.anyRun] := rfl
  rw [wildcardAtoms, String.toList_append, List.map_append, map_wildcardAtom_of_isPlain hplain,
    hrun, List.append_assoc]
  rfl

/-! ## Matching -/

/-- A run in front of the end takes all that is left. -/
theorem matchesHere_run_finish (atStart : Bool) (text : List Char) :
    matchesHere [.anyRun, .finish] atStart text = true ↔ '\n' ∉ text := by
  rw [matchesHere, skipRun_iff]
  simp only [matchesHere, Bool.and_true, List.isEmpty_iff]
  constructor
  · rintro ⟨run, _, rfl, hrun, rfl⟩
    rwa [List.append_nil]
  · intro hrun
    exact ⟨text, [], List.append_nil text, hrun, rfl⟩

theorem occursIn_run_behind (hplain : IsPlain literal) (text : String) :
    occursIn (wildcardAtoms (literal ++ "%")) text = true ↔
      ∃ rest, text = literal ++ rest ∧ '\n' ∉ rest.toList := by
  rw [wildcardAtoms_run_behind hplain, occursIn, List.append_assoc, List.singleton_append,
    occursFrom_start, Bool.true_and, literalAtoms, matchesHere_literal]
  simp only [matchesHere_run_finish]
  exact exists_behind_iff literal text ('\n' ∉ ·)

theorem occursIn_run_before (hplain : IsPlain literal) (text : String) :
    occursIn (wildcardAtoms ("%" ++ literal)) text = true ↔
      ∃ rest, text = rest ++ literal ∧ '\n' ∉ rest.toList := by
  rw [wildcardAtoms_run_before hplain, occursIn, List.append_assoc, List.cons_append,
    List.singleton_append, occursFrom_start, Bool.true_and, matchesHere, skipRun_iff]
  simp only [literalAtoms, matchesHere_literal, matchesHere, Bool.and_true, List.isEmpty_iff]
  rw [← exists_before_iff literal text ('\n' ∉ ·)]
  constructor
  · rintro ⟨run, _, htext, hrun, _, rfl, rfl⟩
    exact ⟨run, by rwa [List.append_nil] at htext, hrun⟩
  · rintro ⟨run, htext, hrun⟩
    exact ⟨run, literal.toList, htext, hrun, [], List.append_nil _, rfl⟩

/-! ## The size -/

/-- Wherever the run stands, it takes the same bytes. -/
theorem fits_run {before after : List Atom} (hatoms : before ++ after = [.start, .anyRun, .finish])
    (hstart : isAnchoredAtStart (before ++ literalAtoms literal ++ after) = true)
    (hfinish : isAnchoredAtFinish (before ++ literalAtoms literal ++ after) = true) :
    fits (before ++ literalAtoms literal ++ after) = true ↔ literal.utf8ByteSize ≤ 327643 := by
  rw [fits_around_literal hstart hfinish, hatoms]
  simp only [leadSize, AutomatonSize.bytes, Atom.forwardSize, Atom.backwardSize, maxBytes, if_true,
    bytesOf_cons, bytesOf_nil]
  omega

theorem isSome_usable?_run_behind (hplain : IsPlain literal) :
    (usable? (ofWildcards (literal ++ "%"))).isSome = true ↔ literal.utf8ByteSize ≤ 327643 := by
  rw [isSome_usable?_iff (ofText?_ofWildcards _), wildcardAtoms_run_behind hplain]
  exact fits_run rfl rfl (by simp [isAnchoredAtFinish, Atom.isAnchor])

theorem isSome_usable?_run_before (hplain : IsPlain literal) :
    (usable? (ofWildcards ("%" ++ literal))).isSome = true ↔ literal.utf8ByteSize ≤ 327643 := by
  rw [isSome_usable?_iff (ofText?_ofWildcards _), wildcardAtoms_run_before hplain]
  exact fits_run rfl rfl (by simp [isAnchoredAtFinish, Atom.isAnchor])

end Pattern

/-! ## The two conditions -/

section

variable [PatternLibrary] {tables : Tables} {row : Value} {name literal : String}

theorem tellsText_run_behind (hplain : IsPlain literal)
    (hrow : row.isObject = true ∨ row.isNull = true)
    (hsize : literal.utf8ByteSize ≤ 327643 ∨ row.field? name = none) :
    TellsText (row.field? name) (fun text => ∃ rest, text = literal ++ rest ∧ '\n' ∉ rest.toList)
      (textAnswer tables row name "like" (literal ++ "%")) :=
  (Condition.like (literal ++ "%")).tellsText_accepts hrow rfl (fun _ => rfl)
    (Pattern.occursIn_run_behind hplain)
    (hsize.imp_left (Pattern.isSome_usable?_run_behind hplain).mpr)

theorem tellsText_run_before (hplain : IsPlain literal)
    (hrow : row.isObject = true ∨ row.isNull = true)
    (hsize : literal.utf8ByteSize ≤ 327643 ∨ row.field? name = none) :
    TellsText (row.field? name) (fun text => ∃ rest, text = rest ++ literal ∧ '\n' ∉ rest.toList)
      (textAnswer tables row name "like" ("%" ++ literal)) :=
  (Condition.like ("%" ++ literal)).tellsText_accepts hrow rfl (fun _ => rfl)
    (Pattern.occursIn_run_before hplain)
    (hsize.imp_left (Pattern.isSome_usable?_run_before hplain).mpr)

/-- A pattern with a run is refused for the size of the literal. -/
theorem textAnswer_run_of_lt (hplain : IsPlain literal) (hsize : 327643 < literal.utf8ByteSize)
    {v : Value} (hfield : row.field? name = some v) :
    textAnswer tables row name "like" (literal ++ "%") =
        .error (.execution (.invalidPattern (Pattern.ofWildcards (literal ++ "%")))) ∧
      textAnswer tables row name "like" ("%" ++ literal) =
        .error (.execution (.invalidPattern (Pattern.ofWildcards ("%" ++ literal)))) := by
  have hbehind : Pattern.usable? (Pattern.ofWildcards (literal ++ "%")) = none := by
    rw [← Option.not_isSome_iff_eq_none, Pattern.isSome_usable?_run_behind hplain]
    omega
  have hbefore : Pattern.usable? (Pattern.ofWildcards ("%" ++ literal)) = none := by
    rw [← Option.not_isSome_iff_eq_none, Pattern.isSome_usable?_run_before hplain]
    omega
  exact ⟨(Condition.like (literal ++ "%")).accepts_of_refused rfl hbehind hfield,
    (Condition.like ("%" ++ literal)).accepts_of_refused rfl hbefore hfield⟩

end

/-! ## Where the two agree -/

section

variable {tables : Tables} {row : Value} {name literal : String}

/-- A row that is neither an object nor null has no fields to read. -/
theorem readField_eq_error_of_not {row : Value}
    (hrow : ¬ (row.isObject = true ∨ row.isNull = true)) (name : String) :
    ∃ e, readField name row = .error e := by
  cases row with
  | object fields => exact absurd (Or.inl rfl) hrow
  | null => exact absurd (Or.inr rfl) hrow
  | _ => exact ⟨_, rfl⟩

variable [PatternLibrary]

/-- Conditions fail alike where the field cannot be read. -/
theorem Condition.accepts_eq_of_error (condition condition' : Condition) {e : QueryError}
    (hread : readField name row = .error e) :
    (condition.compile (.field .row name)).accepts tables row =
      (condition'.compile (.field .row name)).accepts tables row := by
  rw [Expr.accepts, Expr.accepts,
    condition.evaluate_compile_error ((evaluate_row name).trans hread),
    condition'.evaluate_compile_error ((evaluate_row name).trans hread)]

variable (hplain : IsPlain literal)
  (hsize : literal.utf8ByteSize ≤ 327643 ∨ row.field? name = none)
  (hline : ∀ text, row.field? name = some (.string text) → '\n' ∉ text.toList)

include hplain hsize hline

theorem run_behind_eq_startsWith :
    textAnswer tables row name "like" (literal ++ "%") =
      textAnswer tables row name "startsWith" literal := by
  by_cases hrow : row.isObject = true ∨ row.isNull = true
  · have hlike := @tellsText_run_behind _ tables row name literal hplain hrow hsize
    have hstarts := @tellsText_startsWith _ tables row name hrow literal
      (hsize.imp_left (fun h => by omega))
    refine hlike.unique (hstarts.congr ?_)
    intro text htext
    rw [prefix_toList_iff]
    constructor
    · rintro ⟨rest, rfl⟩
      have hone := hline _ htext
      rw [String.toList_append, List.mem_append, not_or] at hone
      exact ⟨rest, rfl, hone.2⟩
    · rintro ⟨rest, rfl, -⟩
      exact ⟨rest, rfl⟩
  · obtain ⟨e, hread⟩ := readField_eq_error_of_not hrow name
    exact Condition.accepts_eq_of_error (.like (literal ++ "%")) (.startsWith literal) hread

theorem run_before_eq_endsWith :
    textAnswer tables row name "like" ("%" ++ literal) =
      textAnswer tables row name "endsWith" literal := by
  by_cases hrow : row.isObject = true ∨ row.isNull = true
  · have hlike := @tellsText_run_before _ tables row name literal hplain hrow hsize
    have hends := @tellsText_endsWith _ tables row name hrow literal
      (hsize.imp_left (fun h => by omega))
    refine hlike.unique (hends.congr ?_)
    intro text htext
    rw [suffix_toList_iff]
    constructor
    · rintro ⟨rest, rfl⟩
      have hone := hline _ htext
      rw [String.toList_append, List.mem_append, not_or] at hone
      exact ⟨rest, rfl, hone.1⟩
    · rintro ⟨rest, rfl, -⟩
      exact ⟨rest, rfl⟩
  · obtain ⟨e, hread⟩ := readField_eq_error_of_not hrow name
    exact Condition.accepts_eq_of_error (.like ("%" ++ literal)) (.endsWith literal) hread

end

/-! ## Main statement -/

/-- A literal with a run behind it, or in front, matches like `startsWith`, or `endsWith`, on every
    row but for texts with line feeds: what stands behind the literal, or in front, must be in one
    line, and a run alone matches the texts of one line. Literals too large for a pattern with a
    run are refused. -/
theorem like_run_needs_one_line [PatternLibrary] {literal : String} (hplain : IsPlain literal)
    (tables : Tables) (row : Value) (name : String) :
    let answer := textAnswer tables row name
    let field? := row.field? name
    (literal.utf8ByteSize ≤ 327643 ∨ field? = none →
      ((∀ text, field? = some (.string text) → '\n' ∉ text.toList) →
        answer "like" (literal ++ "%") = answer "startsWith" literal ∧
        answer "like" ("%" ++ literal) = answer "endsWith" literal) ∧
      (row.isObject = true ∨ row.isNull = true →
        TellsText field? (fun text => ∃ rest, text = literal ++ rest)
          (answer "startsWith" literal) ∧
        TellsText field? (fun text => ∃ rest, text = literal ++ rest ∧ '\n' ∉ rest.toList)
          (answer "like" (literal ++ "%")) ∧
        TellsText field? (fun text => ∃ rest, text = rest ++ literal)
          (answer "endsWith" literal) ∧
        TellsText field? (fun text => ∃ rest, text = rest ++ literal ∧ '\n' ∉ rest.toList)
          (answer "like" ("%" ++ literal)))) ∧
    (row.isObject = true ∨ row.isNull = true →
      TellsText field? (fun text => '\n' ∉ text.toList) (answer "like" "%")) ∧
    (327643 < literal.utf8ByteSize ∧ field? ≠ none →
      answer "like" (literal ++ "%") =
          .error (.execution (.invalidPattern (Pattern.ofWildcards (literal ++ "%")))) ∧
        answer "like" ("%" ++ literal) =
          .error (.execution (.invalidPattern (Pattern.ofWildcards ("%" ++ literal))))) := by
  intro answer field?
  refine ⟨?_, ?_, ?_⟩
  · intro hsize
    refine ⟨fun hline => ⟨run_behind_eq_startsWith hplain hsize hline,
      run_before_eq_endsWith hplain hsize hline⟩, fun hrow => ?_⟩
    have hstarts := @tellsText_startsWith _ tables row name hrow literal
      (hsize.imp_left (fun h => by omega))
    have hends := @tellsText_endsWith _ tables row name hrow literal
      (hsize.imp_left (fun h => by omega))
    exact ⟨hstarts.congr (fun text _ => prefix_toList_iff literal text),
      tellsText_run_behind hplain hrow hsize,
      hends.congr (fun text _ => suffix_toList_iff literal text),
      tellsText_run_before hplain hrow hsize⟩
  · intro hrow
    have hempty := @tellsText_run_behind _ tables row name "" (by decide) hrow (Or.inl (by decide))
    refine hempty.congr ?_
    intro text _
    simp only [String.empty_append, exists_eq_left']
  · rintro ⟨hsize, hpresent⟩
    obtain ⟨v, hfield⟩ := Option.ne_none_iff_exists'.mp hpresent
    exact textAnswer_run_of_lt hplain hsize hfield

/-- On two lines the run does not reach the end of the text, on one line it does. -/
theorem like_run_needs_one_line_sum :
    let row : Value := .object [("s", .string "1+1\n=2"), ("t", .string "1+1=2")]
    IsPlain "1+1" ∧
      textAnswer [] row "s" "startsWith" "1+1" = .ok true ∧
      textAnswer [] row "s" "like" ("1+1" ++ "%") = .ok false ∧
      textAnswer [] row "s" "like" "%" = .ok false ∧
      textAnswer [] row "t" "like" ("1+1" ++ "%") = textAnswer [] row "t" "startsWith" "1+1" := by
  intro row
  have hplain : IsPlain "1+1" := by decide
  have hsize : "1+1".utf8ByteSize ≤ 327643 := by decide
  have hs : row.field? "s" = some (.string "1+1\n=2") := rfl
  have ht : row.field? "t" = some (.string "1+1=2") := rfl
  obtain ⟨hliteral, hrun, -⟩ := like_run_needs_one_line hplain [] row "s"
  obtain ⟨hstarts, hbehind, -⟩ := (hliteral (Or.inl hsize)).2 (Or.inl rfl)
  have hlines : '\n' ∈ "1+1\n=2".toList := by decide
  refine ⟨hplain, ?_, ?_, ?_, ?_⟩
  · obtain ⟨holds, hanswer, hholds⟩ := hstarts
    have hyes : holds = true := hholds.mpr ⟨_, hs, "\n=2", by decide⟩
    rw [hanswer, hyes]
  · obtain ⟨holds, hanswer, hholds⟩ := hbehind
    have hno : holds = false := by
      rw [Bool.eq_false_iff]
      intro hyes
      obtain ⟨text, htext, rest, hrest, hline⟩ := hholds.mp hyes
      rw [hs] at htext
      cases htext
      rw [hrest, String.toList_append, List.mem_append] at hlines
      exact hlines.elim (by decide) hline
    rw [hanswer, hno]
  · rw [hs] at hrun
    exact (hrun (Or.inl rfl)).of_text
  · refine (((like_run_needs_one_line hplain [] row "t").1 (Or.inl hsize)).1 ?_).1
    intro text htext
    rw [ht] at htext
    cases htext
    decide

/-- A run is not any run of characters: it stops at a line feed, so that the literal with it does
    not match a text that begins or ends with the literal, and the run alone not every text. -/
theorem like_run_stops_at_line_feed :
    let row : Value := .object [("s", .string "a\nb")]
    row.field? "s" = some (.string "a\nb") ∧ IsPlain "a" ∧ IsPlain "b" ∧
      textAnswer [] row "s" "startsWith" "a" = .ok true ∧
      textAnswer [] row "s" "like" ("a" ++ "%") = .ok false ∧
      textAnswer [] row "s" "endsWith" "b" = .ok true ∧
      textAnswer [] row "s" "like" ("%" ++ "b") = .ok false ∧
      textAnswer [] row "s" "like" "%" = .ok false := by
  intro row
  exact ⟨rfl, by decide, by decide, rfl, rfl, rfl, rfl, rfl⟩

end DocQuery
