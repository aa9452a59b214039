import Mathlib.Tactic.Common

set_option autoImplicit false

/-! # Texts that show where they end

Where two texts stand one after the other, the first one has to show where it ends. `Delimited` says
this of the text that is written for an item: nothing else that is written is the beginning of the
same text, as long as what comes after is something that may follow. A text that ends in a bracket
or in a quote is delimited whatever follows (`SelfDelimited`). Both carry over from the items of a
list to the list: to one text after the other (`flatMap_cancel`), and to texts between commas
(`SelfDelimited.listed`). -/

namespace DocQuery

variable {α : Type} {write : α → List Char} {follows : List Char → Prop} {a : α}

/-- The text that is written for the item, with something that may follow, is not the text of
    another item or of the same item with something else after it. -/
def Delimited (write : α → List Char) (follows : List Char → Prop) (a : α) : Prop :=
  ∀ b r s, follows r → follows s → write a ++ r = write b ++ s → a = b ∧ r = s

/-- The text that is written for the item is delimited whatever follows. -/
def SelfDelimited (write : α → List Char) (a : α) : Prop :=
  ∀ b r s, write a ++ r = write b ++ s → a = b ∧ r = s

theorem SelfDelimited.delimited (h : SelfDelimited write a) (follows : List Char → Prop) :
    Delimited write follows a :=
  fun b r s _ _ => h b r s

/-! ## What follows in the text of a plan -/

/-- Nothing follows, or a comma or a closing bracket. -/
def EndsItem (r : List Char) : Prop :=
  ∀ c ∈ r.head?, c = ',' ∨ c = ')' ∨ c = ']' ∨ c = '\x7d'

/-- The item ends, or a call follows: a point that no digit comes after. -/
def EndsValue (r : List Char) : Prop :=
  EndsItem r ∨ ∃ c t, r = '.' :: c :: t ∧ c.isDigit = false

@[simp] theorem endsItem_cons {c : Char} {r : List Char} :
    EndsItem (c :: r) ↔ c = ',' ∨ c = ')' ∨ c = ']' ∨ c = '\x7d' := by
  simp [EndsItem]

theorem EndsItem.endsValue {r : List Char} (h : EndsItem r) : EndsValue r :=
  Or.inl h

theorem EndsValue.head_cases {r : List Char} (h : EndsValue r) :
    ∀ c ∈ r.head?, c = ',' ∨ c = ')' ∨ c = ']' ∨ c = '\x7d' ∨ c = '.' := by
  rcases h with h | ⟨c, t, rfl, -⟩
  · intro c hc
    rcases h c hc with rfl | rfl | rfl | rfl <;> simp
  · simp

/-! ## Runs of characters -/

/-- A run of characters of one kind ends where a character of another kind comes. -/
theorem run_cancel {kind : Char → Bool} {a b r s : List Char} (ha : ∀ c ∈ a, kind c = true)
    (hb : ∀ c ∈ b, kind c = true) (hr : ∀ c ∈ r.head?, kind c = false)
    (hs : ∀ c ∈ s.head?, kind c = false) (h : a ++ r = b ++ s) : a = b ∧ r = s := by
  have hrun : ∀ {a r : List Char}, (∀ c ∈ a, kind c = true) → (∀ c ∈ r.head?, kind c = false) →
      (a ++ r).takeWhile kind = a := by
    intro a r ha hr
    have hnone : r.takeWhile kind = [] := by
      cases r with
      | nil => rfl
      | cons c rest => exact List.takeWhile_cons_of_neg (by simp [hr c (by simp)])
    rw [List.takeWhile_append_of_pos ha, hnone, List.append_nil]
  have hsame : a = b := by rw [← hrun ha hr, h, hrun hb hs]
  exact ⟨hsame, List.append_cancel_left (hsame ▸ h)⟩

/-! ## Lists of items -/

/-- Items that are written one after the other, up to something that no item starts with. -/
theorem flatMap_cancel {l l' : List α} {r s : List Char}
    (hl : ∀ a ∈ l, Delimited write follows a)
    (hr : ∀ l : List α, follows (l.flatMap write ++ r))
    (hs : ∀ l : List α, follows (l.flatMap write ++ s)) (hrstop : ∀ a t, write a ++ t ≠ r)
    (hsstop : ∀ a t, write a ++ t ≠ s) (h : l.flatMap write ++ r = l'.flatMap write ++ s) :
    l = l' ∧ r = s := by
  induction l generalizing l' with
  | nil =>
    cases l' with
    | nil => exact ⟨rfl, h⟩
    | cons b rest' =>
      rw [List.flatMap_cons, List.append_assoc] at h
      exact absurd h.symm (hrstop b _)
  | cons a rest ih =>
    rw [List.forall_mem_cons] at hl
    cases l' with
    | nil =>
      rw [List.flatMap_cons, List.append_assoc] at h
      exact absurd h (hsstop a _)
    | cons b rest' =>
      rw [List.flatMap_cons, List.flatMap_cons, List.append_assoc, List.append_assoc] at h
      obtain ⟨hab, hrest⟩ := hl.1 b _ _ (hr rest) (hs rest') h
      obtain ⟨hsame, hend⟩ := ih hl.2 hrest
      exact ⟨by rw [hab, hsame], hend⟩

/-- The items that are written, with a comma and `gap` between two of them, and a closing mark. -/
def listed (gap : List Char) (close : Char) (write : α → List Char) (items : List α) : List Char :=
  (',' :: gap).intercalate (items.map write) ++ [close]

theorem listed_cons (gap : List Char) (close : Char) (write : α → List Char) (a : α)
    (rest : List α) : listed gap close write (a :: rest) =
      write a ++ (rest.flatMap (fun b => ',' :: gap ++ write b) ++ [close]) := by
  induction rest generalizing a with
  | nil => simp [listed]
  | cons b rest ih =>
    have htail := ih b
    simp only [listed, List.map_cons, List.intercalate_cons_cons] at htail ⊢
    rw [List.append_assoc, htail, List.flatMap_cons]
    simp

/-- A list is delimited by its closing mark if the items are delimited by that mark and by the
    comma. -/
theorem SelfDelimited.listed {gap : List Char} {close : Char} {items : List α}
    (hitems : ∀ a ∈ items, Delimited write follows a) (hcomma : ∀ r, follows (',' :: r))
    (hclose : ∀ r, follows (close :: r)) (hne : close ≠ ',')
    (hstart : ∀ a r s, write a ++ r ≠ close :: s) :
    SelfDelimited (DocQuery.listed gap close write) items := by
  intro items' r s h
  cases items with
  | nil =>
    cases items' with
    | nil => exact ⟨rfl, List.append_cancel_left h⟩
    | cons b rest' =>
      rw [listed_cons, List.append_assoc] at h
      exact absurd h.symm (hstart b _ r)
  | cons a rest =>
    rw [List.forall_mem_cons] at hitems
    cases items' with
    | nil =>
      rw [listed_cons, List.append_assoc] at h
      exact absurd h (hstart a _ s)
    | cons b rest' =>
      -- what comes after an item is a comma and the next one, or the closing mark
      have hafter : ∀ (rest : List α) (r : List Char),
          follows (rest.flatMap (fun b => ',' :: gap ++ write b) ++ close :: r) := by
        intro rest r
        cases rest with
        | nil => exact hclose r
        | cons b rest => exact hcomma _
      have hrest : ∀ c ∈ rest, Delimited (fun b => ',' :: gap ++ write b) follows c := by
        intro c hc d r s hr hs hcd
        simp only [List.cons_append, List.append_assoc, List.cons.injEq, true_and] at hcd
        exact hitems.2 c hc d r s hr hs (List.append_cancel_left hcd)
      have hstop : ∀ (b : α) (t r : List Char), (',' :: gap ++ write b) ++ t ≠ close :: r := by
        intro b t r hcomma
        exact hne (List.cons.inj hcomma).1.symm
      rw [listed_cons, listed_cons, List.append_assoc, List.append_assoc, List.append_assoc,
        List.append_assoc] at h
      obtain ⟨hab, hlater⟩ := hitems.1 b _ _ (hafter rest r) (hafter rest' s) h
      obtain ⟨hsame, hend⟩ := flatMap_cancel hrest (fun l => hafter l r) (fun l => hafter l s)
        (fun b t => hstop b t r) (fun b t => hstop b t s) hlater
      exact ⟨by rw [hab, hsame], (List.cons.inj hend).2⟩

end DocQuery
