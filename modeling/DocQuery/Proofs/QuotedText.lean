import DocQuery.Json.Printer
import DocQuery.Proofs.Delimited
import DocQuery.Text.Quoted

set_option autoImplicit false

/-! # Quoted text determines the text

Names are quoted in one way and the strings of JSON in another, but both escape the quote and the
backslash, so that a backslash starts an escape and a quote ends the text. An escape says what it
stands for by a mark, or by the code of the character in hexadecimal digits (`IsEscape`). These end
at a brace in a name, and there are always four of them in JSON. -/

namespace DocQuery

/-! ## Hexadecimal digits -/

theorem hexDigit?_digitChar {n : Nat} (h : n < 16) : hexDigit? n.digitChar = some n := by
  have hall : ∀ n : Fin 16, hexDigit? n.val.digitChar = some n.val := by decide
  exact hall ⟨n, h⟩

theorem hexDigits_of_le {n : Nat} (h : 16 ≤ n) :
    hexDigits n = hexDigits (n / 16) ++ [(n % 16).digitChar] :=
  Nat.toDigits_of_base_le (by decide) h

theorem hexDigits_of_lt {n : Nat} (h : n < 16) : hexDigits n = [n.digitChar] :=
  Nat.toDigits_of_lt_base h

/-- The digits spell the number. -/
theorem natOfHex?_hexDigits (n : Nat) : natOfHex? (hexDigits n) = some n := by
  induction n using Nat.strongRecOn with
  | ind n ih =>
    by_cases h : n < 16
    · rw [hexDigits_of_lt h]
      simp [natOfHex?, hexDigit?_digitChar h]
    · have hrest := ih (n / 16) (by omega)
      rw [natOfHex?] at hrest
      rw [hexDigits_of_le (by omega), natOfHex?, List.foldlM_append, hrest]
      simp [hexDigit?_digitChar (Nat.mod_lt n (by decide)), Nat.div_add_mod]

theorem isSome_hexDigit?_of_mem {n : Nat} : ∀ c ∈ hexDigits n, (hexDigit? c).isSome = true := by
  induction n using Nat.strongRecOn with
  | ind n ih =>
    by_cases h : n < 16
    · simp [hexDigits_of_lt h, hexDigit?_digitChar h]
    · rw [hexDigits_of_le (by omega), List.forall_mem_append]
      exact ⟨ih (n / 16) (by omega), by simp [hexDigit?_digitChar (Nat.mod_lt n (by decide))]⟩

theorem hexDigits_injective {n m : Nat} (h : hexDigits n = hexDigits m) : n = m := by
  have hread := natOfHex?_hexDigits n
  rw [h, natOfHex?_hexDigits] at hread
  exact (Option.some.inj hread).symm

theorem natOfHex?_paddedHex (width n : Nat) : natOfHex? (paddedHex width n) = some n := by
  have hzeros : ∀ k, natOfHex? (List.replicate k '0') = some 0 := by
    intro k
    induction k with
    | zero => rfl
    | succ k ih => exact ih
  have hdigits := natOfHex?_hexDigits n
  rw [natOfHex?] at hdigits
  have hz := hzeros (width - (hexDigits n).length)
  rw [natOfHex?] at hz
  rw [paddedHex, natOfHex?, List.foldlM_append, hz]
  exact hdigits

theorem length_paddedHex {width n : Nat} (hwidth : 0 < width) (h : n < Nat.pow 16 width) :
    (paddedHex width n).length = width := by
  have hlength : (hexDigits n).length ≤ width :=
    (Nat.length_toDigits_le_iff (by decide) hwidth).mpr h
  simp only [paddedHex, List.length_append, List.length_replicate]
  omega

/-! ## Escapes -/

/-- What a mark after a backslash stands for, if it stands for a character. -/
def markedChar? : Char → Option Char
  | '"' => some '"'
  | '\\' => some '\\'
  | '0' => some '\x00'
  | 'b' => some '\x08'
  | 'f' => some '\x0c'
  | 'n' => some '\n'
  | 'r' => some '\r'
  | 't' => some '\t'
  | _ => none

/-- How a character may stand between quotes. -/
inductive IsEscape (code : Char → List Char) (coded : Char → Prop) (c : Char) :
    List Char → Prop where
  | plain (hbackslash : c ≠ '\\') (hquote : c ≠ '"') : IsEscape code coded c [c]
  | marked {mark : Char} (hmark : markedChar? mark = some c) :
    IsEscape code coded c ['\\', mark]
  | coded (hc : coded c) : IsEscape code coded c ('\\' :: 'u' :: code c)

variable {escape code : Char → List Char} {coded : Char → Prop}

section

variable (hescape : ∀ c, IsEscape code coded c (escape c))
  (hcode : ∀ c d r s, coded c → coded d → code c ++ r = code d ++ s → c = d ∧ r = s)
include hescape

theorem escape_append_ne_quote (c : Char) (t r : List Char) : escape c ++ t ≠ '"' :: r := by
  have h := hescape c
  intro heq
  generalize escape c = text at h heq
  cases h with
  | plain _ hquote => exact hquote (List.cons.inj heq).1
  | marked => simp at heq
  | coded => simp at heq

include hcode

/-- A character that is escaped shows where it ends. -/
theorem selfDelimited_escape (c : Char) : SelfDelimited escape c := by
  intro d r s heq
  have hc := hescape c
  have hd := hescape d
  generalize escape c = text at hc heq
  generalize escape d = text' at hd heq
  cases hc with
  | plain hbackslash hquote =>
    cases hd with
    | plain => exact List.cons.inj heq
    | marked => exact absurd (List.cons.inj heq).1 hbackslash
    | coded => exact absurd (List.cons.inj heq).1 hbackslash
  | marked hmark =>
    cases hd with
    | plain hbackslash => exact absurd (List.cons.inj heq).1.symm hbackslash
    | marked hmark' =>
      obtain ⟨rfl, hend⟩ := List.cons.inj (List.cons.inj heq).2
      exact ⟨Option.some.inj (hmark.symm.trans hmark'), hend⟩
    | coded =>
      obtain ⟨rfl, -⟩ := List.cons.inj (List.cons.inj heq).2
      cases hmark
  | coded hcoded =>
    cases hd with
    | plain hbackslash => exact absurd (List.cons.inj heq).1.symm hbackslash
    | marked hmark =>
      obtain ⟨rfl, -⟩ := List.cons.inj (List.cons.inj heq).2
      cases hmark
    | coded hcoded' => exact hcode c d r s hcoded hcoded' (List.cons.inj (List.cons.inj heq).2).2

/-- A text between quotes shows where it ends. -/
theorem selfDelimited_quotes (s : String) :
    SelfDelimited (fun s : String => '"' :: s.toList.flatMap escape ++ ['"']) s := by
  intro s' r t h
  simp only [List.cons_append, List.append_assoc, List.cons.injEq, true_and, List.nil_append] at h
  have hchars : ∀ c ∈ s.toList, Delimited escape (fun _ => True) c :=
    fun c _ => (selfDelimited_escape hescape hcode c).delimited _
  obtain ⟨hsame, hend⟩ := flatMap_cancel hchars (fun _ => trivial) (fun _ => trivial)
    (fun c t => escape_append_ne_quote hescape c t _)
    (fun c t => escape_append_ne_quote hescape c t _) h
  exact ⟨String.toList_injective hsame, (List.cons.inj hend).2⟩

end

/-! ## The two ways to quote -/

theorem isEscape_quotedChar (c : Char) :
    IsEscape (fun c => '\x7b' :: hexDigits c.toNat ++ ['\x7d']) (fun _ => True) c
      (quotedChar c) := by
  unfold quotedChar
  split
  · exact .marked rfl
  · exact .marked rfl
  · exact .marked rfl
  · exact .marked rfl
  · exact .marked rfl
  · exact .marked rfl
  · next hquote hbackslash _ _ _ _ =>
    split
    · exact .coded trivial
    · exact .plain hbackslash hquote

theorem isEscape_jsonChar (c : Char) :
    IsEscape (fun c => paddedHex 4 c.toNat) (fun c => c.toNat < 0x20) c (jsonChar c) := by
  unfold jsonChar
  split
  · exact .marked rfl
  · exact .marked rfl
  · exact .marked rfl
  · exact .marked rfl
  · exact .marked rfl
  · exact .marked rfl
  · exact .marked rfl
  · next hquote hbackslash _ _ _ _ _ =>
    split
    · next hcontrol => exact .coded hcontrol
    · exact .plain hbackslash hquote

/-- A quoted name shows which name it is and where it ends. -/
theorem selfDelimited_quoted (s : String) : SelfDelimited (fun s => (quoted s).toList) s := by
  have hquotes : (fun s => (quoted s).toList) =
      fun s : String => '"' :: s.toList.flatMap quotedChar ++ ['"'] :=
    funext (fun s => String.toList_ofList)
  rw [hquotes]
  refine selfDelimited_quotes isEscape_quotedChar (fun c d r s _ _ h => ?_) s
  simp only [List.cons_append, List.append_assoc, List.cons.injEq, true_and, List.nil_append] at h
  obtain ⟨hdigits, hend⟩ := run_cancel isSome_hexDigit?_of_mem isSome_hexDigit?_of_mem
    (by simp [hexDigit?]) (by simp [hexDigit?]) h
  exact ⟨Char.toNat_inj.mp (hexDigits_injective hdigits), (List.cons.inj hend).2⟩

/-- A string in JSON shows which string it is and where it ends. -/
theorem selfDelimited_jsonString (s : String) :
    SelfDelimited (fun s => (jsonString s).toList) s := by
  have hquotes : (fun s => (jsonString s).toList) =
      fun s : String => '"' :: s.toList.flatMap jsonChar ++ ['"'] :=
    funext (fun s => String.toList_ofList)
  rw [hquotes]
  refine selfDelimited_quotes isEscape_jsonChar (fun c d r s hc hd h => ?_) s
  have hfour : ∀ n, n < 0x20 → (paddedHex 4 n).length = 4 :=
    fun n hn => length_paddedHex (by decide) (Nat.lt_trans hn (by decide))
  obtain ⟨hdigits, hend⟩ := List.append_inj h ((hfour _ hc).trans (hfour _ hd).symm)
  have hread := natOfHex?_paddedHex 4 c.toNat
  rw [hdigits, natOfHex?_paddedHex] at hread
  exact ⟨Char.toNat_inj.mp (Option.some.inj hread).symm, hend⟩

end DocQuery
