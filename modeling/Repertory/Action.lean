/-!
# Actions on a state

An action runs on a state and gives a result or an error. What it did to the state before an error
stays done.
-/

namespace Repertory

abbrev Action (σ ε : Type) := ExceptT ε (StateM σ)

namespace Action

variable {σ ε ε' β γ : Type}

def exec (action : Action σ ε β) (s : σ) : Except ε β × σ :=
  action.run.run s

def state : Action σ ε σ := get

def become (s : σ) : Action σ ε Unit := set s

def ofExcept (outcome : Except ε β) : Action σ ε β :=
  ExceptT.mk (pure outcome)

def mapError (f : ε → ε') (action : Action σ ε β) : Action σ ε' β :=
  ExceptT.mk ((fun outcome => outcome.mapError f) <$> action.run)

/-- The action with its error as a possible outcome, so that the caller can go on. -/
def outcome (action : Action σ ε β) : Action σ ε' (Except ε β) :=
  ExceptT.lift action.run

/-! ## Running actions -/

@[simp]
theorem exec_pure (b : β) (s : σ) : (pure b : Action σ ε β).exec s = (.ok b, s) := rfl

@[simp]
theorem exec_throw (e : ε) (s : σ) : (throw e : Action σ ε β).exec s = (.error e, s) := rfl

@[simp]
theorem exec_bind (action : Action σ ε β) (next : β → Action σ ε γ) (s : σ) :
    (action >>= next).exec s =
      match action.exec s with
      | (.ok b, t) => (next b).exec t
      | (.error e, t) => (.error e, t) := by
  simp only [exec, ExceptT.run_bind, StateT.run_bind]
  rcases action.run.run s with ⟨_ | _, t⟩ <;> rfl

@[simp]
theorem exec_map (f : β → γ) (action : Action σ ε β) (s : σ) :
    (f <$> action).exec s = ((action.exec s).1.map f, (action.exec s).2) := by
  rw [← bind_pure_comp, exec_bind]
  rcases action.exec s with ⟨_ | _, t⟩ <;> rfl

@[simp]
theorem exec_state (s : σ) : (state : Action σ ε σ).exec s = (.ok s, s) := rfl

@[simp]
theorem exec_become (t s : σ) : (become t : Action σ ε Unit).exec s = (.ok (), t) := rfl

@[simp]
theorem exec_ofExcept (outcome : Except ε β) (s : σ) :
    (ofExcept outcome : Action σ ε β).exec s = (outcome, s) := rfl

@[simp]
theorem exec_mapError (f : ε → ε') (action : Action σ ε β) (s : σ) :
    (action.mapError f).exec s = ((action.exec s).1.mapError f, (action.exec s).2) := rfl

@[simp]
theorem exec_outcome (action : Action σ ε β) (s : σ) :
    (action.outcome : Action σ ε' (Except ε β)).exec s =
      (.ok (action.exec s).1, (action.exec s).2) := rfl

end Action

/-- A part of a state that can be read and replaced. -/
structure Lens (σ τ : Type) where
  get : σ → τ
  set : τ → σ → σ
  get_set : ∀ t s, get (set t s) = t := by intros; rfl
  set_get : ∀ s, set (get s) s = s := by intros; rfl
  set_set : ∀ t u s, set t (set u s) = set t s := by intros; rfl

namespace Lens

variable {σ τ ε β : Type}

def whole : Lens σ σ where
  get s := s
  set t _ := t

def read (lens : Lens σ τ) : Action σ ε τ := do
  return lens.get (← Action.state)

/-- Replaces the part by what a change of it makes of it, if the change is possible. -/
def change (lens : Lens σ τ) (f : τ → Except ε (β × τ)) : Action σ ε β := do
  let s ← Action.state
  match f (lens.get s) with
  | .ok (b, t) =>
    Action.become (lens.set t s)
    return b
  | .error e => throw e

@[simp]
theorem exec_read (lens : Lens σ τ) (s : σ) :
    (lens.read : Action σ ε τ).exec s = (.ok (lens.get s), s) := rfl

/-- A change that is not possible leaves the state as it was. -/
@[simp]
theorem exec_change (lens : Lens σ τ) (f : τ → Except ε (β × τ)) (s : σ) :
    (lens.change f).exec s =
      match f (lens.get s) with
      | .ok (b, t) => (.ok b, lens.set t s)
      | .error e => (.error e, s) := by
  simp only [change, Action.exec_bind, Action.exec_state]
  cases f (lens.get s) <;> rfl

end Lens
end Repertory
