import Mathlib.Data.List.DropRight
import DocQuery.Text.Blank

set_option autoImplicit false

/-! # Trimming, cutting and words

A text that is cut at some characters falls into the pieces of the library's `List.splitOnP`. Blanks
around a text are trimmed off and blanks in it separate words. That is said here from the side of
the writer: `Spaced tokens text` holds if the text is the tokens in order with blanks around and
between them, as many as there are, but some between any two. The words of a text are the tokens it
is written with (`Spaced.words_eq`), also after trimming (`words_trimBlank`), and every text is
written with some (`exists_spaced`). -/

namespace DocQuery

variable {chars before after core : List Char}

/-! ## Trimming -/

theorem trimBlank_of_blank (h : ∀ c ∈ chars, isBlank c = true) : trimBlank chars = [] := by
  rw [trimBlank, List.dropWhile_eq_nil_iff.mpr h]
  rfl

theorem dropWhile_isBlank_of_solid (h : ∀ c ∈ chars, isBlank c = false) :
    chars.dropWhile isBlank = chars := by
  cases chars with
  | nil => rfl
  | cons c chars => rw [List.dropWhile_cons_of_neg (by simp [h c List.mem_cons_self])]

/-- Blanks around what has no blank in it are trimmed off. -/
theorem trimBlank_pad (hbefore : ∀ c ∈ before, isBlank c = true)
    (hcore : ∀ c ∈ core, isBlank c = false) (hafter : ∀ c ∈ after, isBlank c = true) :
    trimBlank (before ++ core ++ after) = core := by
  have hback : ((core ++ after).reverse.dropWhile isBlank).reverse = core := by
    have hcore' : ∀ c ∈ core.reverse, isBlank c = false :=
      fun c hc => hcore c (List.mem_reverse.mp hc)
    rw [List.reverse_append,
      List.dropWhile_append_of_pos (fun c hc => hafter c (List.mem_reverse.mp hc)),
      dropWhile_isBlank_of_solid hcore', List.reverse_reverse]
  rw [trimBlank, List.append_assoc, List.dropWhile_append_of_pos hbefore]
  cases core with
  | nil => rw [List.nil_append, List.dropWhile_eq_nil_iff.mpr hafter, List.reverse_nil]; rfl
  | cons c core =>
    rw [List.cons_append, List.dropWhile_cons_of_neg (by simp [hcore c List.mem_cons_self])]
    exact hback

/-! ## Cutting -/

theorem pieces_eq_splitOnP (isCut : Char → Bool) (chars : List Char) :
    pieces isCut chars = chars.splitOnP isCut := by
  induction chars with
  | nil => rfl
  | cons c rest ih =>
    rw [pieces, List.splitOnP_cons_eq_if_modifyHead, ih]
    cases h : rest.splitOnP isCut with
    | nil => exact absurd h (List.splitOnP_ne_nil isCut rest)
    | cons piece later => rfl

/-- No piece has a character in it at which the text is cut. -/
theorem not_mem_of_mem_splitOnP {isCut : Char → Bool} {piece : List Char}
    (h : piece ∈ chars.splitOnP isCut) {c : Char} (hc : isCut c = true) : c ∉ piece := by
  induction chars generalizing piece with
  | nil =>
    rw [List.splitOnP_nil, List.mem_singleton] at h
    rw [h]
    exact List.not_mem_nil
  | cons first rest ih =>
    rw [List.splitOnP_cons_eq_if_modifyHead] at h
    split at h
    · rcases List.mem_cons.mp h with rfl | hlater
      · exact List.not_mem_nil
      · exact ih hlater
    · next hfirst =>
      cases hrest : rest.splitOnP isCut with
      | nil => exact absurd hrest (List.splitOnP_ne_nil isCut rest)
      | cons head later =>
        rw [hrest] at h ih
        rcases List.mem_cons.mp h with rfl | hlater
        · have hne : c ≠ first := by
            rintro rfl
            exact hfirst hc
          simpa [hne] using ih List.mem_cons_self
        · exact ih (List.mem_cons_of_mem _ hlater)

/-! ## Words -/

theorem words_cons_blank {c : Char} (hc : isBlank c = true) (chars : List Char) :
    words (c :: chars) = words chars := by
  rw [words, pieces, if_pos hc]
  rfl

theorem words_append_blank (chars rest : List Char) {c : Char} (hc : isBlank c = true) :
    words (chars ++ c :: rest) = words chars ++ words rest := by
  rw [words, words, words, pieces_eq_splitOnP, pieces_eq_splitOnP, pieces_eq_splitOnP,
    List.splitOnP_append_cons chars rest hc, List.filter_append]

theorem words_blank_append (hbefore : ∀ c ∈ before, isBlank c = true) (chars : List Char) :
    words (before ++ chars) = words chars := by
  induction before with
  | nil => rfl
  | cons c before ih =>
    obtain ⟨hc, hbefore⟩ := List.forall_mem_cons.mp hbefore
    rw [List.cons_append, words_cons_blank hc, ih hbefore]

theorem words_of_solid (hne : chars ≠ []) (h : ∀ c ∈ chars, isBlank c = false) :
    words chars = [chars] := by
  rw [words, pieces_eq_splitOnP, List.splitOnP_eq_singleton h]
  simp [hne]

/-- Trimming leaves the words. -/
theorem words_trimBlank (chars : List Char) : words (trimBlank chars) = words chars := by
  have hfront : words (chars.dropWhile isBlank) = words chars := by
    induction chars with
    | nil => rfl
    | cons c chars ih =>
      rw [List.dropWhile_cons]
      split
      · next hc => rw [ih, words_cons_blank hc]
      · rfl
  have hback (rest : List Char) : words (rest.rdropWhile isBlank) = words rest := by
    induction rest using List.reverseRecOn with
    | nil => rfl
    | append_singleton rest c ih =>
      rw [List.rdropWhile_concat]
      split
      · next hc =>
        rw [ih, words_append_blank rest [] hc]
        exact (List.append_nil _).symm
      · rfl
  exact (hback _).trans hfront

/-- The text is the tokens, each without blanks, in order, with blanks around and between them. -/
inductive Spaced : List (List Char) → List Char → Prop where
  | blank {gap : List Char} (hgap : ∀ c ∈ gap, isBlank c = true) : Spaced [] gap
  | token {gap token rest : List Char} {tokens : List (List Char)}
      (hgap : ∀ c ∈ gap, isBlank c = true) (hne : token ≠ [])
      (hsolid : ∀ c ∈ token, isBlank c = false) (hrest : Spaced tokens rest)
      (hcut : ∀ c ∈ rest.head?, isBlank c = true) :
      Spaced (token :: tokens) (gap ++ (token ++ rest))

/-- What is no blank stands in a token. -/
theorem Spaced.not_mem {tokens : List (List Char)} {chars : List Char} (h : Spaced tokens chars)
    {c : Char} (hc : isBlank c = false) (htokens : ∀ token ∈ tokens, c ∉ token) : c ∉ chars := by
  have hsolid {gap : List Char} (hgap : ∀ c ∈ gap, isBlank c = true) : c ∉ gap := by
    intro hmem
    rw [hgap c hmem] at hc
    cases hc
  induction h with
  | blank hgap => exact hsolid hgap
  | token hgap _ _ _ _ ih =>
    obtain ⟨htoken, htokens⟩ := List.forall_mem_cons.mp htokens
    rw [List.mem_append, List.mem_append, not_or, not_or]
    exact ⟨hsolid hgap, htoken, ih htokens⟩

theorem Spaced.words_eq {tokens : List (List Char)} {chars : List Char} (h : Spaced tokens chars) :
    words chars = tokens := by
  induction h with
  | blank hgap =>
    have hwords := words_blank_append hgap []
    rwa [List.append_nil] at hwords
  | @token gap token rest tokens hgap hne hsolid hrest hcut ih =>
    rw [words_blank_append hgap]
    cases rest with
    | nil =>
      have hnone : tokens = [] := ih.symm
      rw [List.append_nil, words_of_solid hne hsolid, hnone]
    | cons c rest =>
      have hc : isBlank c = true := hcut c rfl
      rw [words_cons_blank hc] at ih
      rw [words_append_blank token rest hc, words_of_solid hne hsolid, ih, List.singleton_append]

/-- Every text is written with some tokens: a character in front widens the gap there or the token
    that follows, or is a token by itself. -/
theorem exists_spaced (chars : List Char) : ∃ tokens, Spaced tokens chars := by
  induction chars with
  | nil => exact ⟨[], .blank (List.forall_mem_nil _)⟩
  | cons c chars ih =>
    obtain ⟨tokens, h⟩ := ih
    by_cases hc : isBlank c = true
    · cases h with
      | blank hgap => exact ⟨[], .blank (List.forall_mem_cons.mpr ⟨hc, hgap⟩)⟩
      | token hgap hne hsolid hrest hcut =>
        exact ⟨_, .token (List.forall_mem_cons.mpr ⟨hc, hgap⟩) hne hsolid hrest hcut⟩
    · have hsingle : ∀ c' ∈ [c], isBlank c' = false :=
        List.forall_mem_singleton.mpr (Bool.eq_false_iff.mpr hc)
      have halone (hcut : ∀ c' ∈ chars.head?, isBlank c' = true) :
          Spaced ([c] :: tokens) (c :: chars) :=
        .token (List.forall_mem_nil _) (List.cons_ne_nil c []) hsingle h hcut
      cases h with
      | blank hgap => exact ⟨_, halone (fun c' hc' => hgap c' (List.mem_of_head? hc'))⟩
      | @token gap token rest tokens hgap hne hsolid hrest hcut =>
        cases gap with
        | nil =>
          have hlonger : ∀ c' ∈ c :: token, isBlank c' = false :=
            List.forall_mem_cons.mpr ⟨Bool.eq_false_iff.mpr hc, hsolid⟩
          exact ⟨_, .token (List.forall_mem_nil _) (List.cons_ne_nil c token) hlonger hrest hcut⟩
        | cons g gap =>
          refine ⟨_, halone (fun c' hc' => hgap c' ?_)⟩
          obtain rfl : g = c' := Option.some.inj hc'
          exact List.mem_cons_self

theorem spaced_iff {tokens : List (List Char)} {chars : List Char} :
    Spaced tokens chars ↔ words chars = tokens := by
  refine ⟨Spaced.words_eq, ?_⟩
  rintro rfl
  obtain ⟨tokens, h⟩ := exists_spaced chars
  exact h.words_eq.symm ▸ h

end DocQuery
