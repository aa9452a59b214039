import DocQuery.Proofs.NumberText
import DocQuery.Proofs.QuotedText

set_option autoImplicit false

/-! # JSON determines the value

The first character of a value in JSON tells its kind (`startKind?`). Within a kind it is the number
or the quoted text that shows where it ends, or a closing bracket. The items and fields of arrays
and objects are values again, so this goes by induction on the value (`Value.delimited_compact`). -/

namespace DocQuery

/-! ## The first character -/

/-- The kind of value that starts with the character. -/
def startKind? : Char → Option Kind
  | 'n' => some .null
  | 't' => some .boolean
  | 'f' => some .boolean
  | '"' => some .string
  | '[' => some .array
  | '\x7b' => some .object
  | c => if c.isDigit || c = '-' || c = '.' || c = 'e' then some .number else none

theorem startKind?_of_isDigit {c : Char} (h : c.isDigit = true) : startKind? c = some .number := by
  unfold startKind?
  split
  · cases h
  · cases h
  · cases h
  · cases h
  · cases h
  · cases h
  · rw [h]
    rfl

theorem Number.IsWrittenAs.exists_startKind? {n : Number} {negative : Bool} {w : WrittenNumber}
    (h : n.IsWrittenAs negative w) : ∃ c t, w.chars = c :: t ∧ startKind? c = some .number := by
  have hdigits := h.hasDigits
  obtain ⟨whole, fraction, exponent⟩ := w
  cases whole with
  | cons c rest =>
    exact ⟨c, _, rfl, startKind?_of_isDigit (hdigits.whole c List.mem_cons_self)⟩
  | nil =>
    cases fraction with
    | cons c rest => exact ⟨'.', _, rfl, rfl⟩
    | nil =>
      cases exponent with
      | some e => exact ⟨'e', _, rfl, rfl⟩
      | none =>
        -- something is written: digits of a whole number, or the mark of a double
        cases n with
        | integer i hi =>
          have hwhole := congrArg WrittenNumber.whole h.2
          exact absurd hwhole.symm Nat.toDigits_ne_nil
        | double d => rcases h.2.marked with hmarked | hmarked <;> exact absurd rfl hmarked

theorem Number.startKind?_text (n : Number) :
    ∃ c t, n.text.toList = c :: t ∧ startKind? c = some .number := by
  obtain ⟨negative, w, hw, htext⟩ := n.exists_isWrittenAs
  rw [htext]
  cases negative with
  | true => exact ⟨'-', _, rfl, rfl⟩
  | false => exact hw.exists_startKind?

namespace Value

theorem startKind?_compact (v : Value) :
    ∃ c t, v.compact.toList = c :: t ∧ startKind? c = some v.kind := by
  cases v with
  | null => exact ⟨_, _, rfl, rfl⟩
  | bool b => cases b <;> exact ⟨_, _, rfl, rfl⟩
  | number n => exact n.startKind?_text
  | string s => exact ⟨'"', _, String.toList_ofList, rfl⟩
  | array items =>
    exact ⟨'[', _, by rw [compact, String.toList_append, String.toList_append]; rfl, rfl⟩
  | object fields =>
    exact ⟨'\x7b', _, by rw [compact, String.toList_append, String.toList_append]; rfl, rfl⟩

theorem kind_eq_of_append_eq {v w : Value} {r s : List Char}
    (h : v.compact.toList ++ r = w.compact.toList ++ s) : v.kind = w.kind := by
  obtain ⟨c, t, hv, hkind⟩ := v.startKind?_compact
  obtain ⟨c', t', hw, hkind'⟩ := w.startKind?_compact
  rw [hv, hw] at h
  obtain ⟨rfl, -⟩ := List.cons.inj h
  exact Option.some.inj (hkind.symm.trans hkind')

/-- No value starts with a character that no kind of value starts with. -/
theorem compact_append_ne {c : Char} (hc : startKind? c = none) (v : Value) (r s : List Char) :
    v.compact.toList ++ r ≠ c :: s := by
  intro h
  obtain ⟨c', t, hv, hkind⟩ := v.startKind?_compact
  rw [hv] at h
  obtain ⟨rfl, -⟩ := List.cons.inj h
  rw [hc] at hkind
  cases hkind

/-! ## Arrays and objects -/

theorem compactItems_eq_map (items : List Value) : compactItems items = items.map compact := by
  induction items with
  | nil => rfl
  | cons v rest ih => rw [compactItems, ih, List.map_cons]

theorem compactFields_eq_map (fields : List (String × Value)) :
    compactFields fields = fields.map (fun e => jsonString e.1 ++ ":" ++ e.2.compact) := by
  induction fields with
  | nil => rfl
  | cons e rest ih => rw [compactFields, ih, List.map_cons]

theorem toList_compact_array (items : List Value) : (array items).compact.toList =
    '[' :: listed [] ']' (fun v => v.compact.toList) items := by
  simp [compact, compactItems_eq_map, listed, String.toList_intercalate, Function.comp_def]

/-- A field of an object as it is written. -/
def fieldChars (e : String × Value) : List Char :=
  (jsonString e.1).toList ++ ':' :: e.2.compact.toList

theorem toList_compact_object (fields : List (String × Value)) : (object fields).compact.toList =
    '\x7b' :: listed [] '\x7d' fieldChars fields := by
  simp [compact, compactFields_eq_map, listed, String.toList_intercalate, Function.comp_def]
  rfl

theorem delimited_fieldChars {e : String × Value}
    (h : Delimited (fun v : Value => v.compact.toList) EndsValue e.2) :
    Delimited fieldChars EndsValue e := by
  intro e' r s hr hs hsame
  simp only [fieldChars, List.append_assoc, List.cons_append] at hsame
  obtain ⟨hname, hsame⟩ := selfDelimited_jsonString e.1 e'.1 _ _ hsame
  obtain ⟨hvalue, hend⟩ := h e'.2 r s hr hs (List.cons.inj hsame).2
  exact ⟨Prod.ext hname hvalue, hend⟩

theorem fieldChars_append_ne (e : String × Value) (r s : List Char) :
    fieldChars e ++ r ≠ '\x7d' :: s := by
  simp [fieldChars, jsonString]

/-! ## Every value -/

mutual

/-- A value in JSON shows which value it is and where it ends. -/
theorem delimited_compact : ∀ v : Value, Delimited (fun v => v.compact.toList) EndsValue v
  | .null => by
    intro w r s hr hs h
    have hkind := kind_eq_of_append_eq h
    cases w with
    | null => exact ⟨rfl, List.append_cancel_left h⟩
    | _ => cases hkind
  | .bool b => by
    intro w r s hr hs h
    have hkind := kind_eq_of_append_eq h
    cases w with
    | bool b' => cases b <;> cases b' <;> simp_all [compact, boolText]
    | _ => cases hkind
  | .number n => by
    intro w r s hr hs h
    have hkind := kind_eq_of_append_eq h
    cases w with
    | number n' =>
      obtain ⟨rfl, hend⟩ := n.delimited_text n' r s hr hs h
      exact ⟨rfl, hend⟩
    | _ => cases hkind
  | .string t => by
    intro w r s hr hs h
    have hkind := kind_eq_of_append_eq h
    cases w with
    | string t' =>
      obtain ⟨rfl, hend⟩ := selfDelimited_jsonString t t' r s h
      exact ⟨rfl, hend⟩
    | _ => cases hkind
  | .array items => by
    intro w r s hr hs h
    have hkind := kind_eq_of_append_eq h
    cases w with
    | array items' =>
      have hlist : SelfDelimited (listed [] ']' (fun v : Value => v.compact.toList)) items :=
        SelfDelimited.listed (items_delimited items) (fun _ => Or.inl (by simp))
          (fun _ => Or.inl (by simp)) (by decide) (compact_append_ne rfl)
      simp only [toList_compact_array] at h
      obtain ⟨rfl, hend⟩ := hlist items' r s (List.cons.inj h).2
      exact ⟨rfl, hend⟩
    | _ => cases hkind
  | .object fields => by
    intro w r s hr hs h
    have hkind := kind_eq_of_append_eq h
    cases w with
    | object fields' =>
      have hlist : SelfDelimited (listed [] '\x7d' fieldChars) fields :=
        SelfDelimited.listed (fun e he => delimited_fieldChars (fields_delimited fields e he))
          (fun _ => Or.inl (by simp)) (fun _ => Or.inl (by simp)) (by decide)
          fieldChars_append_ne
      simp only [toList_compact_object] at h
      obtain ⟨rfl, hend⟩ := hlist fields' r s (List.cons.inj h).2
      exact ⟨rfl, hend⟩
    | _ => cases hkind

theorem items_delimited : ∀ items : List Value, ∀ v ∈ items,
    Delimited (fun v : Value => v.compact.toList) EndsValue v
  | [] => by simp
  | v :: rest => List.forall_mem_cons.mpr ⟨delimited_compact v, items_delimited rest⟩

theorem fields_delimited : ∀ fields : List (String × Value), ∀ e ∈ fields,
    Delimited (fun v : Value => v.compact.toList) EndsValue e.2
  | [] => by simp
  | (_, v) :: rest => List.forall_mem_cons.mpr ⟨delimited_compact v, fields_delimited rest⟩

end

end Value

end DocQuery
