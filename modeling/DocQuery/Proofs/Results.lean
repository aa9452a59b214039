
set_option autoImplicit false

/-! # Results that may be errors

How the results of steps combine: what a step does with a value or an error, and what can be said
of the steps if the whole succeeds, or if it fails. -/

namespace DocQuery

variable {ε α β : Type}

@[simp] theorem ok_bind (a : α) (f : α → Except ε β) : (Except.ok a >>= f) = f a := rfl

@[simp] theorem error_bind (e : ε) (f : α → Except ε β) :
    ((Except.error e : Except ε α) >>= f) = .error e := rfl

@[simp] theorem pure_eq_ok (a : α) : (pure a : Except ε α) = .ok a := rfl

@[simp] theorem map_ok (f : α → β) (a : α) : (Except.ok a : Except ε α).map f = .ok (f a) := rfl

@[simp] theorem map_error (f : α → β) (e : ε) : (Except.error e : Except ε α).map f = .error e :=
  rfl

@[simp] theorem mapError_ok {ε' : Type} (f : ε → ε') (a : α) :
    (Except.ok a : Except ε α).mapError f = .ok a := rfl

@[simp] theorem mapError_error {ε' : Type} (f : ε → ε') (e : ε) :
    (Except.error e : Except ε α).mapError f = .error (f e) := rfl

theorem bind_eq_ok {x : Except ε α} {f : α → Except ε β} {b : β} :
    (x >>= f) = .ok b ↔ ∃ a, x = .ok a ∧ f a = .ok b := by
  cases x <;> simp

theorem bind_eq_error {x : Except ε α} {f : α → Except ε β} {e : ε} :
    (x >>= f) = .error e ↔ x = .error e ∨ ∃ a, x = .ok a ∧ f a = .error e := by
  cases x <;> simp

theorem map_eq_ok {x : Except ε α} {f : α → β} {b : β} :
    x.map f = .ok b ↔ ∃ a, x = .ok a ∧ f a = b := by
  cases x <;> simp

theorem exists_map_eq_ok {x : Except ε α} {f : α → β} :
    (∃ b, x.map f = .ok b) ↔ ∃ a, x = .ok a := by
  cases x <;> simp

theorem mapError_eq_ok {ε' : Type} {x : Except ε α} {f : ε → ε'} {a : α} :
    x.mapError f = .ok a ↔ x = .ok a := by
  cases x <;> simp

theorem mapError_eq_error {ε' : Type} {x : Except ε α} {f : ε → ε'} {e : ε'} :
    x.mapError f = .error e ↔ ∃ e', x = .error e' ∧ f e' = e := by
  cases x <;> simp

/-! ## What a result is known for -/

/-- A value with the property, or a fault of the kind. -/
def Yields (p : α → Prop) (fault : ε → Prop) : Except ε α → Prop
  | .ok a => p a
  | .error e => fault e

theorem Yields.of_eq_ok {p : α → Prop} {fault : ε → Prop} {x : Except ε α} {a : α}
    (h : Yields p fault x) (hx : x = .ok a) : p a := by
  rwa [hx] at h

theorem Yields.of_eq_error {p : α → Prop} {fault : ε → Prop} {x : Except ε α} {e : ε}
    (h : Yields p fault x) (hx : x = .error e) : fault e := by
  rwa [hx] at h

/-- There is a value if and only if what every value shows, and no fault allows, is true. -/
theorem Yields.exists_ok_iff {p : α → Prop} {fault : ε → Prop} {x : Except ε α} {P : Prop}
    (h : Yields p fault x) (hp : ∀ a, p a → P) (hfault : ∀ e, fault e → ¬ P) :
    (∃ a, x = .ok a) ↔ P := by
  cases x with
  | ok a => simp [hp a h]
  | error e => simp [hfault e h]

theorem Yields.bind {p : α → Prop} {q : β → Prop} {fault : ε → Prop}
    {x : Except ε α} {f : α → Except ε β} (hx : Yields p fault x)
    (hf : ∀ a, p a → Yields q fault (f a)) : Yields q fault (x >>= f) := by
  cases x with
  | ok a => exact hf a hx
  | error e => exact hx

theorem Yields.map {p : α → Prop} {q : β → Prop} {fault : ε → Prop} {x : Except ε α} {f : α → β}
    (h : Yields p fault x) (hf : ∀ a, p a → q (f a)) : Yields q fault (x.map f) := by
  cases x with
  | ok a => exact hf a h
  | error e => exact h

theorem Yields.mono {p q : α → Prop} {fault fault' : ε → Prop} {x : Except ε α}
    (h : Yields p fault x) (hp : ∀ a, p a → q a) (hfault : ∀ e, fault e → fault' e) :
    Yields q fault' x := by
  cases x with
  | ok a => exact hp a h
  | error e => exact hfault e h

theorem Yields.mono_fault {p : α → Prop} {fault fault' : ε → Prop} {x : Except ε α}
    (h : Yields p fault x) (hfault : ∀ e, fault e → fault' e) : Yields p fault' x :=
  h.mono (fun _ ha => ha) hfault

/-- A step that fails for one member of a list fails for the list, perhaps with the error of a
    member before. -/
theorem Yields.mapM_of_mem {fault : ε → Prop} {f : α → Except ε β} {list : List α} {a : α}
    (hall : ∀ a, Yields (fun _ => True) fault (f a)) (ha : a ∈ list)
    (hfails : Yields (fun _ => False) fault (f a)) :
    Yields (fun _ => False) fault (list.mapM f) := by
  induction list with
  | nil => cases ha
  | cons b rest ih =>
    rw [List.mapM_cons]
    rcases List.mem_cons.mp ha with rfl | hlater
    · exact hfails.bind (fun _ h => h.elim)
    · exact (hall b).bind (fun _ _ => (ih hlater).bind (fun _ h => h.elim))

end DocQuery
