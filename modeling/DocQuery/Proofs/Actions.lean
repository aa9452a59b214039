import DocQuery.Proofs.Results
import DocQuery.Store.Action

set_option autoImplicit false

/-! # Checks before writes

An action is atomic if it leaves the state as it found it whenever it fails. Nothing rolls back what
an action has written, so this is a matter of order: checks, which write nothing, may come before an
atomic action (`WritesNothing.bind`), and writes, which never fail, may come after one
(`Atomic.bind`). -/

namespace DocQuery.Action

variable {σ τ ε ε' α β : Type}

/-! ## Carrying out an action -/

@[simp] theorem on_pure (a : α) (s : σ) : (pure a : Action σ ε α).on s = (.ok a, s) := rfl

@[simp] theorem on_throw (e : ε) (s : σ) : (throw e : Action σ ε α).on s = (.error e, s) := rfl

@[simp] theorem on_get (s : σ) : (get : Action σ ε σ).on s = (.ok s, s) := rfl

@[simp] theorem on_set (t s : σ) : (set t : Action σ ε PUnit).on s = (.ok ⟨⟩, t) := rfl

@[simp] theorem on_modify (f : σ → σ) (s : σ) :
    (modify f : Action σ ε PUnit).on s = (.ok ⟨⟩, f s) := rfl

@[simp] theorem on_liftM (x : Except ε α) (s : σ) : (liftM x : Action σ ε α).on s = (x, s) := rfl

@[simp] theorem on_reading (look : σ → Except ε α) (s : σ) : (reading look).on s = (look s, s) := by
  show (liftExcept (look s) : Action σ ε α).on s = _
  cases look s <;> rfl

theorem on_mapError (report : ε → ε') (action : Action σ ε α) (s : σ) :
    (action.mapError report).on s = ((action.on s).1.mapError report, (action.on s).2) := rfl

theorem on_focus (part : τ → σ) (put : τ → σ → τ) (action : Action σ ε α) (t : τ) :
    (action.focus part put).on t =
      ((action.on (part t)).1, put t (action.on (part t)).2) := rfl

theorem on_bind (action : Action σ ε α) (f : α → Action σ ε β) (s : σ) :
    (action >>= f).on s = match action.on s with
      | (.ok a, s') => (f a).on s'
      | (.error e, s') => (.error e, s') := by
  show (ExceptT.bindCont f (action.on s).1 : StateM σ _) (action.on s).2 = _
  cases h : action.on s with
  | mk result s' => cases result <;> rfl

theorem on_tryCatch (action : Action σ ε α) (handle : ε → Action σ ε α) (s : σ) :
    (tryCatch action handle).on s = match action.on s with
      | (.ok a, s') => (.ok a, s')
      | (.error e, s') => (handle e).on s' := by
  show on (tryCatch (ExceptT.mk (pure (action.on s).1)) handle) (action.on s).2 = _
  cases h : action.on s with
  | mk result s' => cases result <;> rfl

/-- What an action of two parts returns if it succeeds. -/
theorem on_bind_eq_ok {action : Action σ ε α} {f : α → Action σ ε β} {s t : σ} {b : β} :
    (action >>= f).on s = (.ok b, t) ↔
      ∃ a s', action.on s = (.ok a, s') ∧ (f a).on s' = (.ok b, t) := by
  rw [on_bind]
  constructor
  · intro h
    split at h
    · next a s' hfirst => exact ⟨a, s', hfirst, h⟩
    · cases h
  · rintro ⟨a, s', hfirst, h⟩
    rw [hfirst]
    exact h

theorem on_bind_pure (action : Action σ ε α) (f : α → β) (s : σ) :
    (action >>= fun a => pure (f a)).on s = ((action.on s).1.map f, (action.on s).2) := by
  rw [on_bind]
  cases h : action.on s with
  | mk result s' => cases result <;> rfl

/-- An action of which the result is reported in another form. -/
theorem on_bind_pure_eq_ok {action : Action σ ε α} {f : α → β} {s t : σ} {b : β} :
    (action >>= fun a => pure (f a)).on s = (.ok b, t) ↔
      ∃ a, action.on s = (.ok a, t) ∧ f a = b := by
  rw [on_bind_eq_ok]
  constructor
  · rintro ⟨a, s', hfirst, h⟩
    obtain ⟨hresult, rfl⟩ := Prod.mk.inj h
    exact ⟨a, hfirst, Except.ok.inj hresult⟩
  · rintro ⟨a, hfirst, rfl⟩
    exact ⟨a, t, hfirst, rfl⟩

theorem on_mapError_eq_ok {report : ε → ε'} {action : Action σ ε α} {s t : σ} {a : α} :
    (action.mapError report).on s = (.ok a, t) ↔ action.on s = (.ok a, t) := by
  rw [on_mapError]
  cases h : action.on s with
  | mk result s' => cases result <;> simp

theorem attempt_eq_ok {action : Action σ ε α} {s t : σ} {a : α} :
    action.attempt s = .ok (a, t) ↔ action.on s = (.ok a, t) := by
  unfold attempt
  cases h : action.on s with
  | mk result s' => cases result <;> simp

/-! ### The first step of an action -/

section FirstStep

variable {s t : σ} {b : β}

-- by rewriting, not by `rfl`: then no proof has to compute what the rest of the action does

theorem on_get_bind (f : σ → Action σ ε β) (s : σ) : (get >>= f).on s = (f s).on s := by
  rw [on_bind, on_get]

theorem on_set_bind (f : PUnit → Action σ ε β) (s t : σ) : (set t >>= f).on s = (f ⟨⟩).on t := by
  rw [on_bind, on_set]

theorem on_throw_bind (e : ε) (f : α → Action σ ε β) (s : σ) :
    (throw e >>= f).on s = (.error e, s) := by
  rw [on_bind, on_throw]

theorem on_reading_bind_of_ok {look : σ → Except ε α} {a : α} (h : look s = .ok a)
    (f : α → Action σ ε β) : (reading look >>= f).on s = (f a).on s := by
  rw [on_bind, on_reading, h]

theorem on_reading_bind_eq_ok {look : σ → Except ε α} {f : α → Action σ ε β} :
    (reading look >>= f).on s = (.ok b, t) ↔ ∃ a, look s = .ok a ∧ (f a).on s = (.ok b, t) := by
  rw [on_bind, on_reading]
  cases look s <;> simp

theorem on_liftM_bind_eq_ok {x : Except ε α} {f : α → Action σ ε β} :
    (liftM x >>= f).on s = (.ok b, t) ↔ ∃ a, x = .ok a ∧ (f a).on s = (.ok b, t) := by
  rw [on_bind, on_liftM]
  cases x <;> simp

end FirstStep

/-! ## Checks, writes and atomic actions -/

/-- The action leaves every state as it is. -/
def WritesNothing (action : Action σ ε α) : Prop :=
  ∀ s, (action.on s).2 = s

/-- The action succeeds on every state. -/
def NeverFails (action : Action σ ε α) : Prop :=
  ∀ s, ∃ a s', action.on s = (.ok a, s')

/-- The action leaves a state as it is if it fails on it. -/
def Atomic (action : Action σ ε α) : Prop :=
  ∀ s e s', action.on s = (.error e, s') → s' = s

theorem writesNothing_get : WritesNothing (get : Action σ ε σ) := fun _ => rfl

theorem writesNothing_throw (e : ε) : WritesNothing (throw e : Action σ ε α) := fun _ => rfl

theorem writesNothing_liftM (x : Except ε α) : WritesNothing (liftM x : Action σ ε α) :=
  fun _ => rfl

theorem writesNothing_reading (look : σ → Except ε α) : WritesNothing (reading look) := by
  intro s
  rw [on_reading]

theorem neverFails_pure (a : α) : NeverFails (pure a : Action σ ε α) := fun s => ⟨a, s, rfl⟩

theorem neverFails_set (t : σ) : NeverFails (set t : Action σ ε PUnit) := fun _ => ⟨⟨⟩, t, rfl⟩

theorem neverFails_modify (f : σ → σ) : NeverFails (modify f : Action σ ε PUnit) :=
  fun s => ⟨⟨⟩, f s, rfl⟩

theorem NeverFails.bind {action : Action σ ε α} {f : α → Action σ ε β} (h : NeverFails action)
    (hf : ∀ a, NeverFails (f a)) : NeverFails (action >>= f) := by
  intro s
  obtain ⟨a, s', hfirst⟩ := h s
  rw [on_bind, hfirst]
  exact hf a s'

theorem WritesNothing.atomic {action : Action σ ε α} (h : WritesNothing action) :
    Atomic action := by
  intro s e s' hfail
  have hsame := h s
  rwa [hfail] at hsame

theorem NeverFails.atomic {action : Action σ ε α} (h : NeverFails action) : Atomic action := by
  intro s e s' hfail
  obtain ⟨a, t, hok⟩ := h s
  rw [hfail] at hok
  cases hok

/-- Nothing comes after a failure. -/
theorem atomic_throw_bind (e : ε) (f : α → Action σ ε β) : Atomic (throw e >>= f) := by
  intro s e' s' hfail
  rw [on_bind, on_throw] at hfail
  cases hfail
  rfl

/-- A check may come before an atomic action. -/
theorem WritesNothing.bind {action : Action σ ε α} {f : α → Action σ ε β}
    (h : WritesNothing action) (hf : ∀ a, Atomic (f a)) : Atomic (action >>= f) := by
  intro s e s' hfail
  have hsame := h s
  rw [on_bind] at hfail
  split at hfail
  · next a t hfirst =>
    rw [hfirst] at hsame
    exact (hf a t e s' hfail).trans hsame
  · next e' t hfirst =>
    rw [hfirst] at hsame
    cases hfail
    exact hsame

/-- A write may come after an atomic action. -/
theorem Atomic.bind {action : Action σ ε α} {f : α → Action σ ε β} (h : Atomic action)
    (hf : ∀ a, NeverFails (f a)) : Atomic (action >>= f) := by
  intro s e s' hfail
  rw [on_bind] at hfail
  split at hfail
  · next a t hfirst =>
    obtain ⟨b, u, hok⟩ := hf a t
    rw [hfail] at hok
    cases hok
  · next e' t hfirst =>
    cases hfail
    exact h s _ _ hfirst

/-- A failure may be handled by an atomic action. -/
theorem Atomic.tryCatch {action : Action σ ε α} {handle : ε → Action σ ε α} (h : Atomic action)
    (hhandle : ∀ e, Atomic (handle e)) : Atomic (tryCatch action handle) := by
  intro s e s' hfail
  rw [on_tryCatch] at hfail
  split at hfail
  · cases hfail
  · next e' t hfirst => exact (hhandle e' t e s' hfail).trans (h s e' t hfirst)

theorem Atomic.mapError {action : Action σ ε α} (h : Atomic action) (report : ε → ε') :
    Atomic (action.mapError report) := by
  intro s e s' hfail
  rw [on_mapError] at hfail
  cases hon : action.on s with
  | mk result t =>
    rw [hon] at hfail
    cases result with
    | ok a => cases hfail
    | error e' =>
      cases hfail
      exact h s e' _ hon

theorem Atomic.focus {action : Action σ ε α} (h : Atomic action) {part : τ → σ} {put : τ → σ → τ}
    (hput : ∀ t, put t (part t) = t) : Atomic (action.focus part put) := by
  intro t e t' hfail
  rw [on_focus] at hfail
  cases hon : action.on (part t) with
  | mk result s' =>
    rw [hon] at hfail
    obtain ⟨rfl, rfl⟩ := Prod.mk.inj hfail
    rw [h _ e s' hon]
    exact hput t

end DocQuery.Action
