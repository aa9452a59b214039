import Mathlib.Tactic.Common
import DocQuery.Pattern.Like
import DocQuery.Pattern.Size

set_option autoImplicit false

/-! # The written forms of text conditions read back

A text condition is compiled to the written form of a pattern, and the form is read again when a row
is tested. Escaping makes every character stand for itself, so reading gives the atoms one would
expect: `ofText?_ofWildcards`, `ofText?_ofBeginning` and `ofText?_ofEnd`. What remains of the
question whether a pattern can be used is its size. -/

namespace DocQuery.Pattern

/-! ## The atoms of a text condition -/

/-- A text that stands for itself. -/
def literalAtoms (text : String) : List Atom :=
  text.toList.map .char

/-- The atom for a character of a wildcard text. -/
def wildcardAtom (c : Char) : Atom :=
  if c = '%' then .anyRun else if c = '_' then .any else .char c

/-- Texts that match the wildcard text as a whole. -/
def wildcardAtoms (text : String) : List Atom :=
  .start :: (text.toList.map wildcardAtom ++ [.finish])

/-- Texts that begin with the given one. -/
def beginningAtoms (text : String) : List Atom :=
  .start :: literalAtoms text

/-- Texts that end with the given one. -/
def endAtoms (text : String) : List Atom :=
  literalAtoms text ++ [.finish]

/-! ## Reading literal characters -/

theorem isEscapable_of_isSpecial {c : Char} (h : isSpecial c = true) : isEscapable c = true := by
  simp only [isSpecial, List.contains_iff_mem, List.mem_cons, List.not_mem_nil, or_false] at h
  rcases h with rfl | rfl | rfl | rfl | rfl | rfl | rfl | rfl | rfl | rfl | rfl | rfl | rfl | rfl |
    rfl | rfl | rfl | rfl <;> decide

theorem isSpecial_of_isRefused {c : Char} (h : isRefused c = true) : isSpecial c = true := by
  simp only [isRefused, List.contains_iff_mem, List.mem_cons, List.not_mem_nil, or_false] at h
  rcases h with rfl | rfl | rfl | rfl | rfl | rfl | rfl | rfl | rfl <;> decide

/-- A character written literally is read as itself, whatever follows. -/
theorem ofChars?_literalChar (c : Char) (rest : List Char) :
    ofChars? (literalChar c ++ rest) = (ofChars? rest).map (.char c :: ·) := by
  unfold literalChar
  split
  · next h => simp [ofChars?, isEscapable_of_isSpecial h]
  · next h =>
    have hrefused : isRefused c = false := by
      by_contra hne
      exact h (isSpecial_of_isRefused (by simpa using hne))
    have hne : ∀ d, isSpecial d = true → c ≠ d := fun d hd e => h (e ▸ hd)
    rw [List.singleton_append, ofChars?]
    · simp [hrefused]
    · intro _ _ e _
      exact hne '\\' (by decide) e
    · intro _ e _
      exact hne '.' (by decide) e
    · exact hne '.' (by decide)
    · exact hne '^' (by decide)
    · exact hne '$' (by decide)

theorem ofChars?_literal (chars rest : List Char) :
    ofChars? (chars.flatMap literalChar ++ rest) =
      (ofChars? rest).map (chars.map Atom.char ++ ·) := by
  induction chars with
  | nil => simp
  | cons c chars ih =>
    rw [List.flatMap_cons, List.append_assoc, ofChars?_literalChar, ih]
    cases ofChars? rest <;> simp

/-! ## Reading the three forms -/

/-- A wildcard for one character is never taken for one for a run: a star is always escaped. -/
theorem wildcards_ne_star (chars tail : List Char) :
    chars.flatMap wildcardChar ++ ['$'] ≠ '*' :: tail := by
  cases chars with
  | nil => simp
  | cons c chars =>
    intro h
    rw [List.flatMap_cons, wildcardChar] at h
    split_ifs at h
    · simp at h
    · simp at h
    · unfold literalChar at h
      split_ifs at h with hspecial
      · simp at h
      · simp only [List.cons_append, List.nil_append, List.cons.injEq] at h
        exact hspecial (h.1 ▸ by decide)

theorem ofChars?_wildcards (chars : List Char) :
    ofChars? (chars.flatMap wildcardChar ++ ['$']) =
      some (chars.map wildcardAtom ++ [.finish]) := by
  induction chars with
  | nil => rfl
  | cons c chars ih =>
    rw [List.flatMap_cons, List.append_assoc, List.map_cons, wildcardChar, wildcardAtom]
    split_ifs with hrun hone
    · simp [ofChars?, ih]
    · rw [List.singleton_append, ofChars?, ih]
      · rfl
      · intro rest h
        exact wildcards_ne_star chars rest h
    · rw [ofChars?_literalChar, ih]
      rfl

/-- A wildcard text is read character by character. -/
theorem ofText?_ofWildcards (text : String) :
    ofText? (ofWildcards text) = some (wildcardAtoms text) := by
  simp [ofText?, ofWildcards, wildcardAtoms, ofChars?, ofChars?_wildcards]

theorem ofText?_ofBeginning (text : String) :
    ofText? (ofBeginning text) = some (beginningAtoms text) := by
  have h := ofChars?_literal text.toList []
  rw [List.append_nil] at h
  simp [ofText?, ofBeginning, beginningAtoms, literal, literalAtoms, ofChars?, h]

theorem ofText?_ofEnd (text : String) : ofText? (ofEnd text) = some (endAtoms text) := by
  simp [ofText?, ofEnd, endAtoms, literal, literalAtoms, ofChars?_literal, ofChars?]

/-- A pattern that is read can be used if it is not too large. -/
theorem usable?_eq_of_ofText? {text : String} {atoms : List Atom}
    (hread : ofText? text = some atoms) :
    usable? text = if fits atoms then some atoms else none := by
  rw [usable?, hread, Option.filter]

end DocQuery.Pattern
