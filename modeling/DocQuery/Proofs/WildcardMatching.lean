import DocQuery.Descriptor.Condition
import DocQuery.Proofs.Answers

set_option autoImplicit false

/-! # Wildcard texts match whole texts

A wildcard text matches a text if the text can be cut into consecutive pieces, one for each of its
characters: a run for `%`, one character for `_`, and the character itself for any other
(`MatchesWildcards`). A `like` is not tested that way: it is compiled to a pattern with anchors,
which is searched for at every place of the text. For the atoms between the anchors the pieces come
from one step (`matchesHere_cons`) and one run (`matchesHere_append`); the anchors leave the whole
text to be cut (`occursIn_wildcardAtoms`). What `like` says beyond that is about size: a pattern
that is too large is refused, which takes more than ten thousand characters
(`isSome_usable?_ofWildcards`). -/

namespace DocQuery

/-! ## Cutting a text into pieces -/

/-- The pieces that the atom takes from a text. An anchor takes none, it asks for a place. -/
def Atom.Takes : Atom → List Char → Prop
  | .char c, piece => piece = [c]
  | .any, piece => ∃ c, c ≠ '\n' ∧ piece = [c]
  | .anyRun, piece => '\n' ∉ piece
  | .start, _ | .finish, _ => False

/-- The pieces that a character of a wildcard text stands for. -/
def StandsFor (c : Char) (piece : List Char) : Prop :=
  if c = '%' then '\n' ∉ piece
  else if c = '_' then ∃ d, d ≠ '\n' ∧ piece = [d]
  else piece = [c]

/-- The text is cut into consecutive pieces that the characters of the wildcard text stand for, one
    by one. -/
def MatchesWildcards (wildcards text : String) : Prop :=
  ∃ pieces : List (List Char), List.Forall₂ StandsFor wildcards.toList pieces ∧
    pieces.flatten = text.toList

theorem takes_wildcardAtom (c : Char) (piece : List Char) :
    (Pattern.wildcardAtom c).Takes piece ↔ StandsFor c piece := by
  unfold Pattern.wildcardAtom StandsFor
  split_ifs <;> rfl

theorem isAnchor_wildcardAtom (c : Char) : (Pattern.wildcardAtom c).isAnchor = false := by
  unfold Pattern.wildcardAtom
  split_ifs <;> rfl

namespace Pattern

/-! ## Matching takes pieces off a text -/

/-- Skipping a run is cutting it off. -/
theorem skipRun_iff (rest : Bool → List Char → Bool) (atStart : Bool) (text : List Char) :
    skipRun rest atStart text = true ↔
      ∃ run left, run ++ left = text ∧ '\n' ∉ run ∧ rest (atStart && run.isEmpty) left = true := by
  induction text generalizing atStart with
  | nil => simp [skipRun]
  | cons c cs ih =>
    rw [skipRun, Bool.or_eq_true, Bool.and_eq_true, ih false, bne_iff_ne]
    constructor
    · rintro (hrest | ⟨hc, run, left, rfl, hrun, hrest⟩)
      · exact ⟨[], c :: cs, rfl, by simp, by simpa using hrest⟩
      · refine ⟨c :: run, left, rfl, ?_, by simpa using hrest⟩
        simp [hrun, hc.symm]
    · rintro ⟨run, left, htext, hrun, hrest⟩
      cases run with
      | nil =>
        obtain rfl : left = c :: cs := htext
        exact Or.inl (by simpa using hrest)
      | cons d run =>
        obtain ⟨rfl, rfl⟩ := List.cons.inj htext
        simp only [List.mem_cons, not_or] at hrun
        exact Or.inr ⟨fun h => hrun.1 h.symm, run, left, rfl, hrun.2, by simpa using hrest⟩

/-- An atom takes a piece off the text and leaves the rest to the other atoms. -/
theorem matchesHere_cons {atom : Atom} (hatom : atom.isAnchor = false) (atoms : List Atom)
    (atStart : Bool) (text : List Char) :
    matchesHere (atom :: atoms) atStart text = true ↔
      ∃ piece left, piece ++ left = text ∧ atom.Takes piece ∧
        matchesHere atoms (atStart && piece.isEmpty) left = true := by
  cases atom with
  | char a =>
    cases text with
    | nil => simp [matchesHere, Atom.Takes]
    | cons c cs =>
      rw [matchesHere, Bool.and_eq_true, beq_iff_eq]
      constructor
      · rintro ⟨rfl, hmatch⟩
        exact ⟨[c], cs, rfl, rfl, by simpa using hmatch⟩
      · rintro ⟨_, left, htext, rfl, hmatch⟩
        obtain ⟨rfl, rfl⟩ := List.cons.inj htext
        exact ⟨rfl, by simpa using hmatch⟩
  | any =>
    cases text with
    | nil => simp [matchesHere, Atom.Takes]
    | cons c cs =>
      rw [matchesHere, Bool.and_eq_true, bne_iff_ne]
      constructor
      · rintro ⟨hc, hmatch⟩
        exact ⟨[c], cs, rfl, ⟨c, hc, rfl⟩, by simpa using hmatch⟩
      · rintro ⟨_, left, htext, ⟨d, hd, rfl⟩, hmatch⟩
        obtain ⟨rfl, rfl⟩ := List.cons.inj htext
        exact ⟨hd, by simpa using hmatch⟩
  | anyRun => exact skipRun_iff (matchesHere atoms) atStart text
  | start => cases hatom
  | finish => cases hatom

/-- Atoms without anchors take one piece each and leave what stands behind the pieces. -/
theorem matchesHere_append {atoms : List Atom} (hatoms : ∀ atom ∈ atoms, atom.isAnchor = false)
    (rest : List Atom) (atStart : Bool) (text : List Char) :
    matchesHere (atoms ++ rest) atStart text = true ↔
      ∃ pieces left, pieces.flatten ++ left = text ∧ List.Forall₂ Atom.Takes atoms pieces ∧
        matchesHere rest (atStart && pieces.all List.isEmpty) left = true := by
  induction atoms generalizing atStart text with
  | nil => simp
  | cons atom atoms ih =>
    obtain ⟨hatom, hatoms⟩ := List.forall_mem_cons.mp hatoms
    rw [List.cons_append, matchesHere_cons hatom]
    constructor
    · rintro ⟨piece, left, rfl, htakes, hmatch⟩
      obtain ⟨pieces, left, rfl, hpieces, hrest⟩ := (ih hatoms _ _).mp hmatch
      refine ⟨piece :: pieces, left, by simp, .cons htakes hpieces, ?_⟩
      simpa [Bool.and_assoc] using hrest
    · rintro ⟨pieces, left, rfl, hpieces, hrest⟩
      obtain _ | ⟨htakes, hpieces⟩ := hpieces
      next piece pieces =>
      refine ⟨piece, pieces.flatten ++ left, by simp, htakes, ?_⟩
      refine (ih hatoms _ _).mpr ⟨pieces, left, rfl, hpieces, ?_⟩
      simpa [Bool.and_assoc] using hrest

/-- A pattern with the anchor in front is found at the start of the text or nowhere. -/
theorem occursFrom_start (atoms : List Atom) (atStart : Bool) (text : List Char) :
    occursFrom (.start :: atoms) atStart text = (atStart && matchesHere atoms atStart text) := by
  induction text generalizing atStart with
  | nil => rfl
  | cons c cs ih => simp [occursFrom, matchesHere, ih]

/-- The anchors of a wildcard text leave no character out. -/
theorem occursIn_wildcardAtoms (wildcards text : String) :
    occursIn (wildcardAtoms wildcards) text = true ↔ MatchesWildcards wildcards text := by
  have hatoms : ∀ atom ∈ wildcards.toList.map wildcardAtom, atom.isAnchor = false := by
    intro atom hatom
    obtain ⟨c, -, rfl⟩ := List.mem_map.mp hatom
    exact isAnchor_wildcardAtom c
  rw [occursIn, wildcardAtoms, occursFrom_start, Bool.true_and, matchesHere_append hatoms]
  unfold MatchesWildcards
  simp only [List.forall₂_map_left_iff, takes_wildcardAtom, matchesHere, Bool.and_true,
    List.isEmpty_iff]
  constructor
  · rintro ⟨pieces, left, htext, hpieces, rfl⟩
    exact ⟨pieces, hpieces, by simpa using htext⟩
  · rintro ⟨pieces, hpieces, htext⟩
    exact ⟨pieces, [], by simpa using htext, hpieces, rfl⟩

instance (wildcards text : String) : Decidable (MatchesWildcards wildcards text) :=
  decidable_of_iff _ (occursIn_wildcardAtoms wildcards text)

/-! ## The size of a wildcard text -/

theorem forwardBytes_le (atom : Atom) : atom.forwardSize.bytes ≤ 1040 := by
  cases atom with
  | char c =>
    have := c.utf8Size_le_four
    simp only [Atom.forwardSize, AutomatonSize.bytes]
    omega
  | _ => decide

/-- The largest atom is the wildcard for a run, read backwards. -/
theorem backwardBytes_le (atom : Atom) : atom.backwardSize.bytes ≤ 1040 := by
  cases atom with
  | char c =>
    have := c.utf8Size_le_four
    simp only [Atom.backwardSize, AutomatonSize.bytes]
    omega
  | _ => decide

theorem leadBytes_le (anchored : Bool) : (leadSize anchored).bytes ≤ 112 := by
  cases anchored <;> decide

theorem sumBytes_le {size : Atom → AutomatonSize} (hsize : ∀ atom, (size atom).bytes ≤ 1040)
    (atoms : List Atom) :
    (atoms.map (fun atom => (size atom).bytes)).foldr (· + ·) 0 ≤ 1040 * atoms.length := by
  induction atoms with
  | nil => simp
  | cons atom atoms ih =>
    have := hsize atom
    rw [List.map_cons, List.foldr_cons, List.length_cons]
    omega

/-- Ten thousand atoms are never too many, whatever they are. -/
theorem fits_of_length_le {atoms : List Atom} (h : atoms.length ≤ 10080) : fits atoms = true := by
  have hforward := sumBytes_le forwardBytes_le atoms
  have hbackward := sumBytes_le backwardBytes_le atoms
  have hstart := leadBytes_le (isAnchoredAtStart atoms)
  have hfinish := leadBytes_le (isAnchoredAtFinish atoms)
  have hmarks : AutomatonSize.bytes ⟨3, 0, 0⟩ = 96 ∧ AutomatonSize.bytes ⟨1, 0, 0⟩ = 32 :=
    ⟨rfl, rfl⟩
  have hmax : maxBytes = 10485760 := rfl
  rw [fits, Bool.and_eq_true, decide_eq_true_iff, decide_eq_true_iff, forwardBytes, backwardBytes]
  omega

theorem isSome_usable?_ofWildcards {wildcards : String} (h : wildcards.length ≤ 10000) :
    (usable? (ofWildcards wildcards)).isSome = true := by
  have hlength : (wildcardAtoms wildcards).length = wildcards.length + 2 := by
    simp [wildcardAtoms, String.length_toList]
  have hfits : fits (wildcardAtoms wildcards) = true := fits_of_length_le (by omega)
  rw [usable?_eq_of_ofText? (ofText?_ofWildcards wildcards), hfits]
  rfl

end Pattern

/-! ## Main statement -/

/-- A value passes a `like` if it is a text that the wildcard text matches. -/
theorem passes_like_iff (wildcards : String) (v : Value) :
    (Condition.like wildcards).passes v = true ↔
      ∃ text, v = .string text ∧ MatchesWildcards wildcards text := by
  cases v with
  | string s =>
    simp [Condition.passes, hasPattern, Pattern.occursIn_wildcardAtoms]
  | _ => simp [Condition.passes, hasPattern]

/-- On a row with the field a `like` gives an answer, unless its pattern is refused as too large:
    that the value is a text which the wildcard text matches as a whole. -/
theorem accepts_like_iff_matchesWildcards [PatternLibrary] {tables : Tables} {row v : Value}
    {name wildcards : String} (hfield : row.field? name = some v) :
    ∃ condition, Condition.ofValue name (.object [("like", .string wildcards)]) = .ok condition ∧
      let result := (condition.compile (.field .row name)).accepts tables row
      ((Pattern.usable? (Pattern.ofWildcards wildcards)).isSome = true →
        ∃ holds, result = .ok holds ∧
          (holds = true ↔ ∃ text, v = .string text ∧ MatchesWildcards wildcards text)) ∧
      (Pattern.usable? (Pattern.ofWildcards wildcards) = none →
        result = .error (.execution (.invalidPattern (Pattern.ofWildcards wildcards)))) ∧
      (wildcards.length ≤ 10000 →
        (Pattern.usable? (Pattern.ofWildcards wildcards)).isSome = true) := by
  refine ⟨.like wildcards, rfl, ?_⟩
  intro result
  have hresult : result = (Condition.like wildcards).refusal?.elim
      (.ok ((Condition.like wildcards).passes v)) .error :=
    Condition.accepts_compile (.like wildcards) (readField_of_field? hfield)
  rw [Condition.refusal?, Condition.pattern?, Option.bind_some] at hresult
  refine ⟨fun husable => ?_, fun hrefused => ?_, Pattern.isSome_usable?_ofWildcards⟩
  · rw [if_pos husable] at hresult
    exact ⟨_, hresult, passes_like_iff wildcards v⟩
  · rw [hrefused] at hresult
    exact hresult

/-- A dot, brackets, a star, a backslash and a line feed stand for themselves; `%` and `_` do not
    stand for a line feed. -/
theorem accepts_like_special_characters :
    let wildcards := "%.c_(*\\\n]%"
    let row : Value := .object [("s", .string "a.cc.cd(*\\\n]"), ("t", .string "a\n.cd(*\\\n]")]
    let predicate (name : String) := (Condition.like wildcards).compile (.field .row name)
    row.field? "s" = some (.string "a.cc.cd(*\\\n]") ∧
      row.field? "t" = some (.string "a\n.cd(*\\\n]") ∧ wildcards.length ≤ 10000 ∧
      (predicate "s").accepts [] row = .ok true ∧ (predicate "t").accepts [] row = .ok false := by
  intro wildcards row predicate
  have hs : row.field? "s" = some (.string "a.cc.cd(*\\\n]") := rfl
  have ht : row.field? "t" = some (.string "a\n.cd(*\\\n]") := rfl
  have hlength : wildcards.length ≤ 10000 := by decide
  refine ⟨hs, ht, hlength, ?_, ?_⟩
  · obtain ⟨_, hread, htells, -, hsize⟩ :=
      @accepts_like_iff_matchesWildcards _ [] row _ "s" wildcards hs
    obtain rfl := Except.ok.inj hread
    obtain ⟨holds, hresult, hiff⟩ := htells (hsize hlength)
    have hholds : holds = true := hiff.mpr ⟨_, rfl, by decide⟩
    rw [hresult, hholds]
  · obtain ⟨_, hread, htells, -, hsize⟩ :=
      @accepts_like_iff_matchesWildcards _ [] row _ "t" wildcards ht
    obtain rfl := Except.ok.inj hread
    obtain ⟨holds, hresult, hiff⟩ := htells (hsize hlength)
    have hholds : holds = false := by
      rw [Bool.eq_false_iff]
      intro h
      obtain ⟨text, htext, hmatches⟩ := hiff.mp h
      obtain rfl := Value.string.inj htext
      exact absurd hmatches (by decide)
    rw [hresult, hholds]

/-! ## A match that is refused -/

theorem matchesWildcards_replicate (n : Nat) :
    MatchesWildcards (String.ofList (List.replicate n '_'))
      (String.ofList (List.replicate n 'a')) := by
  refine ⟨List.replicate n ['a'], ?_, by simp⟩
  rw [String.toList_ofList]
  induction n with
  | zero => exact .nil
  | succ n ih => exact .cons ⟨'a', by decide, rfl⟩ ih

/-- A text that matches a long wildcard text does not pass: the pattern is too large to search
    for. -/
theorem accepts_like_refused_match :
    let wildcards := String.ofList (List.replicate 12500 '_')
    let text := String.ofList (List.replicate 12500 'a')
    let row : Value := .object [("s", .string text)]
    MatchesWildcards wildcards text ∧ row.field? "s" = some (.string text) ∧
      Condition.ofValue "s" (.object [("like", .string wildcards)]) = .ok (.like wildcards) ∧
      ((Condition.like wildcards).compile (.field .row "s")).accepts [] row =
        .error (.execution (.invalidPattern (Pattern.ofWildcards wildcards))) := by
  intro wildcards text row
  have hrefused : Pattern.usable? (Pattern.ofWildcards wildcards) = none :=
    Pattern.usable?_ofWildcards_replicate (by decide)
  have hfield : row.field? "s" = some (.string text) := rfl
  refine ⟨matchesWildcards_replicate 12500, hfield, rfl, ?_⟩
  rw [Condition.accepts_compile _ (readField_of_field? hfield), Condition.refusal?,
    Condition.pattern?, Option.bind_some, hrefused]
  rfl

end DocQuery
