import DocQuery.Proofs.ValueEquality

set_option autoImplicit false

/-! # The order of fields

Equality looks the fields of the left object up in the right one, so it sees no order of fields on
the right; on the left it only asks that every field pass. Rearranging the fields of the left value,
at any depth, changes nothing for any two values (`Rearranged.equals_eq`). On the right this comes
from symmetry, and with it the names have to be distinct: of two fields of one name only the first
is ever found, and which one that is depends on the order. -/

namespace DocQuery

namespace Value

/-- Values that differ in the order of the fields of objects, at any depth. -/
inductive Rearranged : Value → Value → Prop where
  | refl (v : Value) : Rearranged v v
  /-- The fields of an object in another order. -/
  | fields {fields fields' : List (String × Value)} (h : fields.Perm fields') :
      Rearranged (.object fields) (.object fields')
  /-- An item of an array rearranged. -/
  | item (before after : List Value) {v v' : Value} (h : Rearranged v v') :
      Rearranged (.array (before ++ v :: after)) (.array (before ++ v' :: after))
  /-- The value of a field rearranged. -/
  | field (before after : List (String × Value)) (name : String) {v v' : Value}
      (h : Rearranged v v') :
      Rearranged (.object (before ++ (name, v) :: after)) (.object (before ++ (name, v') :: after))
  | trans {first second third : Value} (h₁ : Rearranged first second)
      (h₂ : Rearranged second third) : Rearranged first third

/-! ## Equality with one part replaced -/

section

variable {v v' : Value} (h : ∀ w : Value, v.equals w = v'.equals w)
include h

theorem equalItems_replace (before after ys : List Value) :
    equalItems (before ++ v :: after) ys = equalItems (before ++ v' :: after) ys := by
  induction before generalizing ys with
  | nil =>
    cases ys with
    | nil => rfl
    | cons y ys => rw [List.nil_append, List.nil_append, equalItems, equalItems, h y]
  | cons x before ih =>
    cases ys with
    | nil => rfl
    | cons y ys => rw [List.cons_append, List.cons_append, equalItems, equalItems, ih ys]

theorem equalFields_replace (name : String) (before after ys : List (String × Value)) :
    equalFields (before ++ (name, v) :: after) ys =
      equalFields (before ++ (name, v') :: after) ys := by
  induction before with
  | nil =>
    rw [List.nil_append, List.nil_append, equalFields, equalFields]
    cases ys.lookup name with
    | none => rfl
    | some w => simp only [h w]
  | cons e before ih => rw [List.cons_append, List.cons_append, equalFields, equalFields, ih]

end

theorem equalFields_perm {xs xs' : List (String × Value)} (h : xs.Perm xs')
    (ys : List (String × Value)) : equalFields xs ys = equalFields xs' ys := by
  rw [Bool.eq_iff_iff, equalFields_iff, equalFields_iff]
  simp only [h.mem_iff]

namespace Rearranged

variable {a b a' b' : Value}

/-! ## What rearranging keeps -/

/-- Rearranging the left value does not change what it equals. -/
theorem equals_eq (h : a.Rearranged a') (w : Value) : a.equals w = a'.equals w := by
  induction h generalizing w with
  | refl => rfl
  | fields h =>
    cases w with
    | object ys => rw [equals, equals, h.length_eq, equalFields_perm h]
    | _ => simp [equals]
  | item before after _ ih =>
    cases w with
    | array ys => rw [equals, equals, equalItems_replace ih]
    | _ => simp [equals]
  | field before after name _ ih =>
    cases w with
    | object ys =>
      rw [equals, equals, equalFields_replace ih, List.length_append, List.length_append,
        List.length_cons, List.length_cons]
    | _ => simp [equals]
  | trans _ _ ih₁ ih₂ => rw [ih₁, ih₂]

theorem hasDistinctNames (h : a.Rearranged a') (ha : a.hasDistinctNames = true) :
    a'.hasDistinctNames = true := by
  induction h with
  | refl => exact ha
  | fields h =>
    rw [hasDistinctNames_object] at ha ⊢
    exact ⟨(h.map Prod.fst).nodup_iff.mp ha.1, fun e he => ha.2 e (h.mem_iff.mpr he)⟩
  | item before after _ ih =>
    rw [hasDistinctNames_array, List.forall_mem_append, List.forall_mem_cons] at ha ⊢
    exact ⟨ha.1, ih ha.2.1, ha.2.2⟩
  | field before after name _ ih =>
    rw [hasDistinctNames_object, List.forall_mem_append, List.forall_mem_cons] at ha ⊢
    obtain ⟨hnodup, hbefore, hv, hafter⟩ := ha
    refine ⟨?_, hbefore, ih hv, hafter⟩
    simpa [Assoc.keys] using hnodup
  | trans _ _ ih₁ ih₂ => exact ih₂ (ih₁ ha)

/-- Rearranging the right value does not change what equals it, where names are distinct. -/
theorem equals_right_eq (h : b.Rearranged b') (ha : a.hasDistinctNames = true)
    (hb : b.hasDistinctNames = true) : a.equals b = a.equals b' := by
  rw [equals_comm ha hb, h.equals_eq a, equals_comm (h.hasDistinctNames hb) ha]

end Rearranged

end Value

/-! ## Main statement -/

/-- Among values whose objects have distinct names equality is reflexive and symmetric, and does not
    change if fields are rearranged in either value, at any depth. -/
theorem equality_disregards_order {a b a' b' : Value} (ha : a.hasDistinctNames = true)
    (hb : b.hasDistinctNames = true) (haa' : a.Rearranged a') (hbb' : b.Rearranged b') :
    a.equals a = true ∧ a.equals b = b.equals a ∧ a'.equals b' = a.equals b := by
  refine ⟨a.equals_self ha, Value.equals_comm ha hb, ?_⟩
  calc a'.equals b' = a.equals b' := (haa'.equals_eq b').symm
    _ = a.equals b := (hbb'.equals_right_eq ha hb).symm

/-- Two documents with a number in two forms, each rearranged at the top and in an array. -/
theorem equality_disregards_order_nested :
    let whole : Value := .number (.integer 1 (by decide))
    let double : Value := .number (.double ⟨false, 2 ^ 52, -52, by decide, by decide, by decide⟩)
    let inner : Value := .object [("x", .null), ("y", whole)]
    let inner' : Value := .object [("y", whole), ("x", .null)]
    let a : Value := .object [("k", .bool true), ("l", .array [.null, inner])]
    let a' : Value := .object [("l", .array [.null, inner']), ("k", .bool true)]
    let b : Value :=
      .object [("l", .array [.null, .object [("y", double), ("x", .null)]]), ("k", .bool true)]
    let b' : Value :=
      .object [("k", .bool true), ("l", .array [.null, .object [("y", double), ("x", .null)]])]
    a.hasDistinctNames = true ∧ b.hasDistinctNames = true ∧ a.Rearranged a' ∧ b.Rearranged b' ∧
      a.equals a = true ∧ a.equals b = true ∧ b.equals a = true ∧ a'.equals b' = true := by
  intro whole double inner inner' a a' b b'
  have ha : a.hasDistinctNames = true := by decide
  have hb : b.hasDistinctNames = true := by decide
  have hinner : inner.Rearranged inner' := .fields (List.Perm.swap _ _ [])
  have haa' : a.Rearranged a' :=
    .trans (.field [("k", .bool true)] [] "l" (.item [.null] [] hinner))
      (.fields (List.Perm.swap _ _ []))
  have hbb' : b.Rearranged b' := .fields (List.Perm.swap _ _ [])
  have hab : a.equals b = true := by decide +kernel
  obtain ⟨hself, hsymm, horder⟩ := equality_disregards_order ha hb haa' hbb'
  exact ⟨ha, hb, haa', hbb', hself, hab, hsymm ▸ hab, horder.trans hab⟩

end DocQuery
