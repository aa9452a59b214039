set_option autoImplicit false

/-! # Actions

An action works on a state step by step: it reads, it writes, and it may fail. A failure stops it
where it is. What it has written by then stays written, for nothing is ever rolled back; an action
that is to leave no trace when it fails has to make all its checks before it first writes. -/

namespace DocQuery

/-- Programs that work on a state `σ` and may fail with an `ε`. -/
abbrev Action (σ ε : Type) : Type → Type := ExceptT ε (StateM σ)

namespace Action

variable {σ τ ε ε' α : Type}

/-- Carry out an action on a state: what it returns, and the state it leaves, also where it
    fails. -/
def on (action : Action σ ε α) (s : σ) : Except ε α × σ :=
  (ExceptT.run action).run s

/-- Look at the state. -/
def reading (look : σ → Except ε α) : Action σ ε α := do
  let s ← get
  liftExcept (look s)

/-- An action whose failures are reported as others. -/
def mapError (report : ε → ε') (action : Action σ ε α) : Action σ ε' α :=
  ExceptT.adapt report action

/-- An action on a part of the state. -/
def focus (part : τ → σ) (put : τ → σ → τ) (action : Action σ ε α) : Action τ ε α :=
  ExceptT.mk (fun t =>
    let (result, s) := action.on (part t)
    (result, put t s))

/-- What an action that succeeds returns, with the state it leaves. -/
def attempt (action : Action σ ε α) (s : σ) : Except ε (α × σ) :=
  match action.on s with
  | (.ok a, s') => .ok (a, s')
  | (.error e, _) => .error e

end Action

end DocQuery
