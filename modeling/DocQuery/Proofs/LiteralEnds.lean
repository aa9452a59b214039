import DocQuery.Proofs.WildcardMatching

set_option autoImplicit false

/-! # Literal beginnings and ends

`startsWith` and `endsWith` take their text literally: every character stands for itself, whatever
it means in a pattern (`matchesHere_literal`). Their patterns have an anchor at one end only and are
searched for from every place of the text (`occursFrom_iff`). With the anchor in front no place but
the start remains, with the anchor at the end every place is tried and the literal has to reach the
end, so that the two come to a prefix and a suffix. What is refused is again a matter of size, here
of the bytes of the text in UTF-8 (`isSome_usable?_ofBeginning`, `isSome_usable?_ofEnd`). -/

namespace DocQuery

/-! ## Tests on the text of a field -/

/-- What a condition on the field `name`, written as an operator with a text, says of a row. -/
def textAnswer [PatternLibrary] (tables : Tables) (row : Value) (name operator text : String) :
    Except QueryError Bool := do
  let condition ← Condition.ofValue name (.object [(operator, .string text)])
  (condition.compile (.field .row name)).accepts tables row

/-- The answer is whether the field is there and holds a text with the property. -/
def TellsText (field? : Option Value) (property : String → Prop)
    (answer : Except QueryError Bool) : Prop :=
  ∃ holds, answer = .ok holds ∧
    (holds = true ↔ ∃ text, field? = some (.string text) ∧ property text)

theorem TellsText.congr {field? : Option Value} {property property' : String → Prop}
    {answer : Except QueryError Bool} (h : TellsText field? property answer)
    (hiff : ∀ text, field? = some (.string text) → (property text ↔ property' text)) :
    TellsText field? property' answer := by
  obtain ⟨holds, hanswer, hholds⟩ := h
  refine ⟨holds, hanswer, hholds.trans ?_⟩
  constructor
  · rintro ⟨text, hfield, hproperty⟩
    exact ⟨text, hfield, (hiff text hfield).mp hproperty⟩
  · rintro ⟨text, hfield, hproperty⟩
    exact ⟨text, hfield, (hiff text hfield).mpr hproperty⟩

theorem TellsText.unique {field? : Option Value} {property : String → Prop}
    {answer answer' : Except QueryError Bool} (h : TellsText field? property answer)
    (h' : TellsText field? property answer') : answer = answer' := by
  obtain ⟨holds, rfl, hholds⟩ := h
  obtain ⟨holds', rfl, hholds'⟩ := h'
  rw [Bool.eq_iff_iff.mpr (hholds.trans hholds'.symm)]

/-- Of a text the answer is whether it has the property. -/
theorem TellsText.of_text {text : String} {property : String → Prop} [Decidable (property text)]
    {answer : Except QueryError Bool} (h : TellsText (some (.string text)) property answer) :
    answer = .ok (decide (property text)) := by
  obtain ⟨holds, rfl, hholds⟩ := h
  have htext : holds = true ↔ property text := by
    rw [hholds]
    constructor
    · rintro ⟨_, hsame, hproperty⟩
      cases hsame
      exact hproperty
    · intro hproperty
      exact ⟨text, rfl, hproperty⟩
  rw [Bool.eq_iff_iff.mpr (htext.trans decide_eq_true_iff.symm)]

/-- Of what is no text, or is not there, the answer is no. -/
theorem TellsText.of_no_text {field? : Option Value} {property : String → Prop}
    {answer : Except QueryError Bool} (h : TellsText field? property answer)
    (hno : ∀ text, field? ≠ some (.string text)) : answer = .ok false := by
  obtain ⟨holds, rfl, hholds⟩ := h
  have hfalse : holds = false := by
    rw [Bool.eq_false_iff]
    intro hyes
    obtain ⟨text, htext, -⟩ := hholds.mp hyes
    exact hno text htext
  rw [hfalse]

section

variable [PatternLibrary] {tables : Tables} {row : Value} {name pattern : String}
  {atoms : List Atom}
  {property : String → Prop}

/-- The pattern of a text condition decides what it tells of the rows. -/
theorem Condition.tellsText_accepts (condition : Condition)
    (hrow : row.isObject = true ∨ row.isNull = true)
    (hpattern : condition.pattern? = some pattern)
    (hpasses : ∀ v, condition.passes v = hasPattern atoms v)
    (hproperty : ∀ text, Pattern.occursIn atoms text = true ↔ property text)
    (husable : (Pattern.usable? pattern).isSome = true ∨ row.field? name = none) :
    TellsText (row.field? name) property
      ((condition.compile (.field .row name)).accepts tables row) := by
  have hread := readField_of_document hrow name
  cases hfield : row.field? name with
  | none =>
    rw [hfield] at hread
    refine ⟨false, ?_, by simp⟩
    rw [Expr.accepts, condition.evaluate_compile_error ((evaluate_row name).trans hread)]
    rfl
  | some v =>
    rw [hfield] at hread husable
    have hrefusal : condition.refusal? = none := by
      rw [refusal?, hpattern, Option.bind_some, if_pos (husable.resolve_right (by simp))]
    refine ⟨condition.passes v, ?_, ?_⟩
    · rw [condition.accepts_compile hread, hrefusal]
      rfl
    · rw [hpasses]
      cases v with
      | string s => simp [hasPattern, hproperty]
      | _ => simp [hasPattern]

/-- A pattern that is refused makes the condition fail on every row that has the field. -/
theorem Condition.accepts_of_refused (condition : Condition)
    (hpattern : condition.pattern? = some pattern)
    (hrefused : Pattern.usable? pattern = none) {v : Value} (hfield : row.field? name = some v) :
    (condition.compile (.field .row name)).accepts tables row =
      .error (.execution (.invalidPattern pattern)) := by
  rw [condition.accepts_compile (readField_of_field? hfield), refusal?, hpattern, Option.bind_some,
    hrefused]
  rfl

end

namespace Pattern

/-! ## Matching literally -/

/-- Literal characters take themselves off the text. -/
theorem matchesHere_literal (chars : List Char) (rest : List Atom) (atStart : Bool)
    (text : List Char) :
    matchesHere (chars.map .char ++ rest) atStart text = true ↔
      ∃ left, chars ++ left = text ∧ matchesHere rest (atStart && chars.isEmpty) left = true := by
  induction chars generalizing atStart text with
  | nil => simp
  | cons c chars ih =>
    cases text with
    | nil => simp [matchesHere]
    | cons d text =>
      rw [List.map_cons, List.cons_append, matchesHere, Bool.and_eq_true, beq_iff_eq, ih]
      constructor
      · rintro ⟨rfl, left, rfl, hrest⟩
        exact ⟨left, rfl, by simpa using hrest⟩
      · rintro ⟨left, htext, hrest⟩
        obtain ⟨rfl, rfl⟩ := List.cons.inj htext
        exact ⟨rfl, left, rfl, by simpa using hrest⟩

/-- A pattern occurs if it matches behind some part of the text. -/
theorem occursFrom_iff (atoms : List Atom) (atStart : Bool) (text : List Char) :
    occursFrom atoms atStart text = true ↔
      ∃ before after, before ++ after = text ∧
        matchesHere atoms (atStart && before.isEmpty) after = true := by
  induction text generalizing atStart with
  | nil => simp [occursFrom]
  | cons c text ih =>
    rw [occursFrom, Bool.or_eq_true, ih]
    constructor
    · rintro (hmatch | ⟨before, after, rfl, hmatch⟩)
      · exact ⟨[], c :: text, rfl, by simpa using hmatch⟩
      · exact ⟨c :: before, after, rfl, by simpa using hmatch⟩
    · rintro ⟨before, after, htext, hmatch⟩
      cases before with
      | nil =>
        obtain rfl : after = c :: text := htext
        exact Or.inl (by simpa using hmatch)
      | cons d before =>
        obtain ⟨rfl, rfl⟩ := List.cons.inj htext
        exact Or.inr ⟨before, after, rfl, by simpa using hmatch⟩

theorem occursIn_beginningAtoms (beginning text : String) :
    occursIn (beginningAtoms beginning) text = true ↔ beginning.toList <+: text.toList := by
  have hmatch := matchesHere_literal beginning.toList [] true text.toList
  rw [List.append_nil] at hmatch
  rw [occursIn, beginningAtoms, occursFrom_start, Bool.true_and, literalAtoms, hmatch]
  simp [matchesHere, List.IsPrefix]

theorem occursIn_endAtoms (ending text : String) :
    occursIn (endAtoms ending) text = true ↔ ending.toList <:+ text.toList := by
  rw [occursIn, occursFrom_iff, endAtoms, literalAtoms]
  simp only [matchesHere_literal, matchesHere, Bool.and_true, List.isEmpty_iff]
  constructor
  · rintro ⟨before, _, htext, _, rfl, rfl⟩
    exact ⟨before, by simpa using htext⟩
  · rintro ⟨before, htext⟩
    exact ⟨before, ending.toList, htext, [], List.append_nil _, rfl⟩

/-! ## The size of a literal -/

/-- The bytes that atoms take. -/
def bytesOf (size : Atom → AutomatonSize) (atoms : List Atom) : Nat :=
  (atoms.map (fun atom => (size atom).bytes)).foldr (· + ·) 0

theorem bytesOf_nil (size : Atom → AutomatonSize) : bytesOf size [] = 0 := rfl

theorem bytesOf_cons (size : Atom → AutomatonSize) (atom : Atom) (atoms : List Atom) :
    bytesOf size (atom :: atoms) = (size atom).bytes + bytesOf size atoms := rfl

theorem bytesOf_append (size : Atom → AutomatonSize) (atoms rest : List Atom) :
    bytesOf size (atoms ++ rest) = bytesOf size atoms + bytesOf size rest := by
  induction atoms with
  | nil => rw [List.nil_append, bytesOf_nil, Nat.zero_add]
  | cons atom atoms ih => rw [List.cons_append, bytesOf_cons, bytesOf_cons, ih, Nat.add_assoc]

/-- A literal takes one node for each of its bytes, in whichever direction it is read. -/
theorem bytesOf_literalAtoms (size : Atom → AutomatonSize)
    (hsize : ∀ c, (size (.char c)).bytes = 32 * c.utf8Size) (text : String) :
    bytesOf size (literalAtoms text) = 32 * text.utf8ByteSize := by
  obtain ⟨chars, rfl⟩ : ∃ chars, text = String.ofList chars :=
    ⟨text.toList, String.ofList_toList.symm⟩
  rw [literalAtoms, String.toList_ofList]
  induction chars with
  | nil => rfl
  | cons c chars ih =>
    rw [List.map_cons, bytesOf_cons, ih, hsize, String.ofList_cons, String.utf8ByteSize_append,
      String.utf8ByteSize_singleton]
    omega

section

variable {text : String} {before after : List Atom} {atStart atFinish : Bool}

/-- Besides the literal there is a fixed number of bytes. -/
theorem fits_around_literal
    (hstart : isAnchoredAtStart (before ++ literalAtoms text ++ after) = atStart)
    (hfinish : isAnchoredAtFinish (before ++ literalAtoms text ++ after) = atFinish) :
    fits (before ++ literalAtoms text ++ after) = true ↔
      (leadSize atStart).bytes + bytesOf Atom.forwardSize (before ++ after) + 96 +
          32 * text.utf8ByteSize ≤ maxBytes ∧
        (leadSize atFinish).bytes + bytesOf Atom.backwardSize (before ++ after) + 32 +
          32 * text.utf8ByteSize ≤ maxBytes := by
  have hforward : forwardBytes (before ++ literalAtoms text ++ after) =
      (leadSize atStart).bytes +
        bytesOf Atom.forwardSize (before ++ literalAtoms text ++ after) + 96 := by
    rw [forwardBytes, hstart]
    rfl
  have hbackward : backwardBytes (before ++ literalAtoms text ++ after) =
      (leadSize atFinish).bytes +
        bytesOf Atom.backwardSize (before ++ literalAtoms text ++ after) + 32 := by
    rw [backwardBytes, hfinish]
    rfl
  rw [fits, Bool.and_eq_true, decide_eq_true_iff, decide_eq_true_iff, hforward, hbackward]
  simp only [bytesOf_append, bytesOf_literalAtoms Atom.forwardSize (fun _ => rfl),
    bytesOf_literalAtoms Atom.backwardSize (fun _ => rfl)]
  constructor <;> rintro ⟨h, h'⟩ <;> constructor <;> omega

theorem isAnchoredAtStart_of_not_mem {atoms : List Atom} (h : Atom.start ∉ atoms) :
    isAnchoredAtStart atoms = false := by
  rw [isAnchoredAtStart, Bool.eq_false_iff]
  intro hmem
  exact h (List.takeWhile_subset _ (List.contains_iff_mem.mp hmem))

theorem isAnchoredAtFinish_of_not_mem {atoms : List Atom} (h : Atom.finish ∉ atoms) :
    isAnchoredAtFinish atoms = false := by
  rw [isAnchoredAtFinish, Bool.eq_false_iff]
  intro hmem
  exact h (List.mem_reverse.mp (List.takeWhile_subset _ (List.contains_iff_mem.mp hmem)))

end

theorem fits_beginningAtoms (beginning : String) :
    fits (beginningAtoms beginning) = true ↔ beginning.utf8ByteSize ≤ 327674 := by
  have hatoms : beginningAtoms beginning = [.start] ++ literalAtoms beginning ++ [] := by
    rw [beginningAtoms, List.append_nil, List.singleton_append]
  have hstart : isAnchoredAtStart ([.start] ++ literalAtoms beginning ++ []) = true := rfl
  have hfinish : isAnchoredAtFinish ([.start] ++ literalAtoms beginning ++ []) = false :=
    isAnchoredAtFinish_of_not_mem (by simp [literalAtoms])
  rw [hatoms, fits_around_literal hstart hfinish]
  simp only [leadSize, AutomatonSize.bytes, Atom.forwardSize, Atom.backwardSize, maxBytes,
    List.append_nil, bytesOf_cons, bytesOf_nil]
  simp only [if_true, Bool.false_eq_true, if_false]
  omega

theorem fits_endAtoms (ending : String) :
    fits (endAtoms ending) = true ↔ ending.utf8ByteSize ≤ 327672 := by
  have hatoms : endAtoms ending = [] ++ literalAtoms ending ++ [.finish] := by
    rw [endAtoms, List.nil_append]
  have hstart : isAnchoredAtStart ([] ++ literalAtoms ending ++ [.finish]) = false :=
    isAnchoredAtStart_of_not_mem (by simp [literalAtoms])
  have hfinish : isAnchoredAtFinish ([] ++ literalAtoms ending ++ [.finish]) = true := by
    simp [isAnchoredAtFinish, Atom.isAnchor]
  rw [hatoms, fits_around_literal hstart hfinish]
  simp only [leadSize, AutomatonSize.bytes, Atom.forwardSize, Atom.backwardSize, maxBytes,
    List.nil_append, bytesOf_cons, bytesOf_nil]
  simp only [if_true, Bool.false_eq_true, if_false]
  omega

theorem isSome_usable?_iff {pattern : String} {atoms : List Atom}
    (hread : ofText? pattern = some atoms) :
    (usable? pattern).isSome = true ↔ fits atoms = true := by
  rw [usable?_eq_of_ofText? hread]
  cases fits atoms <;> simp

theorem isSome_usable?_ofBeginning (beginning : String) :
    (usable? (ofBeginning beginning)).isSome = true ↔ beginning.utf8ByteSize ≤ 327674 :=
  (isSome_usable?_iff (ofText?_ofBeginning beginning)).trans (fits_beginningAtoms beginning)

theorem isSome_usable?_ofEnd (ending : String) :
    (usable? (ofEnd ending)).isSome = true ↔ ending.utf8ByteSize ≤ 327672 :=
  (isSome_usable?_iff (ofText?_ofEnd ending)).trans (fits_endAtoms ending)

end Pattern

/-! ## The two conditions -/

section

variable [PatternLibrary] {tables : Tables} {row : Value} {name : String}

theorem tellsText_startsWith (hrow : row.isObject = true ∨ row.isNull = true) {beginning : String}
    (hsize : beginning.utf8ByteSize ≤ 327674 ∨ row.field? name = none) :
    TellsText (row.field? name) (fun text => beginning.toList <+: text.toList)
      (textAnswer tables row name "startsWith" beginning) :=
  (Condition.startsWith beginning).tellsText_accepts hrow rfl (fun _ => rfl)
    (Pattern.occursIn_beginningAtoms beginning)
    (hsize.imp_left (Pattern.isSome_usable?_ofBeginning beginning).mpr)

theorem tellsText_endsWith (hrow : row.isObject = true ∨ row.isNull = true) {ending : String}
    (hsize : ending.utf8ByteSize ≤ 327672 ∨ row.field? name = none) :
    TellsText (row.field? name) (fun text => ending.toList <:+ text.toList)
      (textAnswer tables row name "endsWith" ending) :=
  (Condition.endsWith ending).tellsText_accepts hrow rfl (fun _ => rfl)
    (Pattern.occursIn_endAtoms ending)
    (hsize.imp_left (Pattern.isSome_usable?_ofEnd ending).mpr)

theorem textAnswer_startsWith_of_lt {beginning : String}
    (hsize : 327674 < beginning.utf8ByteSize) {v : Value} (hfield : row.field? name = some v) :
    textAnswer tables row name "startsWith" beginning =
      .error (.execution (.invalidPattern (Pattern.ofBeginning beginning))) := by
  have hrefused : Pattern.usable? (Pattern.ofBeginning beginning) = none := by
    rw [← Option.not_isSome_iff_eq_none, Pattern.isSome_usable?_ofBeginning]
    omega
  exact (Condition.startsWith beginning).accepts_of_refused rfl hrefused hfield

theorem textAnswer_endsWith_of_lt {ending : String} (hsize : 327672 < ending.utf8ByteSize)
    {v : Value} (hfield : row.field? name = some v) :
    textAnswer tables row name "endsWith" ending =
      .error (.execution (.invalidPattern (Pattern.ofEnd ending))) := by
  have hrefused : Pattern.usable? (Pattern.ofEnd ending) = none := by
    rw [← Option.not_isSome_iff_eq_none, Pattern.isSome_usable?_ofEnd]
    omega
  exact (Condition.endsWith ending).accepts_of_refused rfl hrefused hfield

end

/-! ## Main statement -/

/-- Of every document `startsWith` and `endsWith` tell whether the field is there and holds a text
    with the literal as a prefix, or as a suffix. All that can come between is a literal of more
    than 320 thousand bytes, which is refused on every document that has the field. -/
theorem literal_ends_tell [PatternLibrary] (tables : Tables) {row : Value}
    (hrow : row.isObject = true ∨ row.isNull = true) (name literal : String) :
    let answer := textAnswer tables row name
    ((literal.utf8ByteSize ≤ 327674 ∨ row.field? name = none →
        TellsText (row.field? name) (fun text => literal.toList <+: text.toList)
          (answer "startsWith" literal)) ∧
      (327674 < literal.utf8ByteSize ∧ row.field? name ≠ none →
        answer "startsWith" literal =
          .error (.execution (.invalidPattern (Pattern.ofBeginning literal))))) ∧
    ((literal.utf8ByteSize ≤ 327672 ∨ row.field? name = none →
        TellsText (row.field? name) (fun text => literal.toList <:+ text.toList)
          (answer "endsWith" literal)) ∧
      (327672 < literal.utf8ByteSize ∧ row.field? name ≠ none →
        answer "endsWith" literal =
          .error (.execution (.invalidPattern (Pattern.ofEnd literal))))) := by
  intro answer
  refine ⟨⟨tellsText_startsWith hrow, ?_⟩, ⟨tellsText_endsWith hrow, ?_⟩⟩
  · rintro ⟨hsize, hpresent⟩
    obtain ⟨v, hfield⟩ := Option.ne_none_iff_exists'.mp hpresent
    exact textAnswer_startsWith_of_lt hsize hfield
  · rintro ⟨hsize, hpresent⟩
    obtain ⟨v, hfield⟩ := Option.ne_none_iff_exists'.mp hpresent
    exact textAnswer_endsWith_of_lt hsize hfield

/-- Characters of patterns stand for themselves, the end is not in front of a last line feed, and
    nothing is the beginning of a number or of a field that is missing. -/
theorem literal_ends_tell_special_characters :
    let row : Value :=
      .object [("s", .string "^é.*\\$\n"), ("n", .number (.integer 1 (by decide)))]
    (row.isObject = true ∨ row.isNull = true) ∧
      textAnswer [] row "s" "startsWith" "^é.*\\" = .ok true ∧
      textAnswer [] row "s" "startsWith" "é" = .ok false ∧
      textAnswer [] row "s" "endsWith" "\\$\n" = .ok true ∧
      textAnswer [] row "s" "endsWith" "$" = .ok false ∧
      textAnswer [] row "n" "startsWith" "" = .ok false ∧
      textAnswer [] row "x" "endsWith" "" = .ok false := by
  intro row
  have hrow : row.isObject = true ∨ row.isNull = true := Or.inl rfl
  have hends (name literal : String) := literal_ends_tell [] hrow name literal
  refine ⟨hrow, ?_, ?_, ?_, ?_, ?_, ?_⟩
  · exact ((hends "s" "^é.*\\").1.1 (Or.inl (by decide))).of_text
  · exact ((hends "s" "é").1.1 (Or.inl (by decide))).of_text
  · exact ((hends "s" "\\$\n").2.1 (Or.inl (by decide))).of_text
  · exact ((hends "s" "$").2.1 (Or.inl (by decide))).of_text
  · exact ((hends "n" "").1.1 (Or.inl (by decide))).of_no_text (fun text h => by cases h)
  · exact ((hends "x" "").2.1 (Or.inl (by decide))).of_no_text (fun text h => by cases h)

/-! ## Literals that are refused -/

theorem utf8ByteSize_replicate (n : Nat) (c : Char) :
    (String.ofList (List.replicate n c)).utf8ByteSize = n * c.utf8Size := by
  induction n with
  | zero => rw [Nat.zero_mul]; rfl
  | succ n ih =>
    rw [List.replicate_succ, String.ofList_cons, String.utf8ByteSize_append,
      String.utf8ByteSize_singleton, ih, Nat.succ_mul, Nat.add_comm]

/-- A text begins and ends with itself, but of a long one no answer says so: it is too large to
    search for. -/
theorem literal_too_large_has_no_answer :
    let literal := String.ofList (List.replicate 82000 '𝄞')
    let row : Value := .object [("s", .string literal)]
    row.field? "s" = some (.string literal) ∧
      literal.toList <+: literal.toList ∧ literal.toList <:+ literal.toList ∧
      textAnswer [] row "s" "startsWith" literal =
        .error (.execution (.invalidPattern (Pattern.ofBeginning literal))) ∧
      textAnswer [] row "s" "endsWith" literal =
        .error (.execution (.invalidPattern (Pattern.ofEnd literal))) := by
  intro literal row
  have hfield : row.field? "s" = some (.string literal) := rfl
  have hsize : literal.utf8ByteSize = 328000 := utf8ByteSize_replicate 82000 '𝄞'
  refine ⟨hfield, List.prefix_refl _, List.suffix_refl _, ?_, ?_⟩
  · exact textAnswer_startsWith_of_lt (by omega) hfield
  · exact textAnswer_endsWith_of_lt (by omega) hfield

end DocQuery
