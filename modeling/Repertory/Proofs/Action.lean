import Repertory.Action

/-!
# What actions do to the state

Most actions only read (`ReadOnly`), and what they do can be told from their result. Of those that
write it is often enough to know that they keep an invariant (`Keeps`), whether they fail or not.
Both pass from the steps of an action to the whole.
-/

namespace Repertory

theorem exists_of_bind_ok {ε β γ : Type} {x : Except ε β} {f : β → Except ε γ} {c : γ}
    (h : (x >>= f) = .ok c) : ∃ b, x = .ok b ∧ f b = .ok c := by
  cases x with
  | error e => cases h
  | ok b => exact ⟨b, rfl, h⟩

/-- What holds of the errors of both parts holds of those of the whole. -/
theorem of_bind_error {ε β γ : Type} {x : Except ε β} {f : β → Except ε γ} {P : ε → Prop}
    (hx : ∀ e, x = .error e → P e) (hf : ∀ b e, f b = .error e → P e) {e : ε}
    (h : (x >>= f) = .error e) : P e := by
  cases x with
  | error e' =>
    cases h
    exact hx _ rfl
  | ok b => exact hf b e h

namespace Action

variable {σ ε ε' β γ : Type}

theorem exec_of_fst {action : Action σ ε β} {s : σ} {r : Except ε β}
    (h : (action.exec s).1 = r) : action.exec s = (r, (action.exec s).2) :=
  Prod.ext h rfl

/-- The action leaves the state as it was. -/
def ReadOnly (action : Action σ ε β) : Prop := ∀ s, (action.exec s).2 = s

/-- The action leads from states that satisfy `I` to such states. -/
def Keeps (I : σ → Prop) (action : Action σ ε β) : Prop := ∀ s, I s → I (action.exec s).2

variable {action : Action σ ε β} {next : β → Action σ ε γ} {I : σ → Prop}

theorem ReadOnly.exec_eq (h : action.ReadOnly) (s : σ) :
    action.exec s = ((action.exec s).1, s) :=
  Prod.ext rfl (h s)

theorem ReadOnly.keeps (h : action.ReadOnly) : action.Keeps I := fun s hs => (h s).symm ▸ hs

theorem readOnly_pure (b : β) : (pure b : Action σ ε β).ReadOnly := fun _ => rfl

theorem readOnly_throw (e : ε) : (throw e : Action σ ε β).ReadOnly := fun _ => rfl

theorem readOnly_ofExcept (result : Except ε β) : (ofExcept result : Action σ ε β).ReadOnly :=
  fun _ => rfl

theorem ReadOnly.mapError (h : action.ReadOnly) (f : ε → ε') : (action.mapError f).ReadOnly := h

theorem ReadOnly.outcome (h : action.ReadOnly) :
    (action.outcome : Action σ ε' (Except ε β)).ReadOnly := h

theorem ReadOnly.bind (h : action.ReadOnly) (hnext : ∀ b, (next b).ReadOnly) :
    (action >>= next).ReadOnly := by
  intro s
  rw [exec_bind, h.exec_eq]
  cases (action.exec s).1 with
  | error e => rfl
  | ok b => exact hnext b s

theorem Keeps.mapError (h : action.Keeps I) (f : ε → ε') : (action.mapError f).Keeps I := h

theorem Keeps.outcome (h : action.Keeps I) :
    (action.outcome : Action σ ε' (Except ε β)).Keeps I := h

theorem Keeps.bind (h : action.Keeps I) (hnext : ∀ b, (next b).Keeps I) :
    (action >>= next).Keeps I := by
  intro s hs
  have hstep := h s hs
  rw [exec_bind]
  rcases hexec : action.exec s with ⟨_ | b, t⟩
  · rwa [hexec] at hstep
  · rw [hexec] at hstep
    exact hnext b t hstep

/-- An action that reads first goes on from the same state, with what was read. -/
theorem ReadOnly.exec_bind (h : action.ReadOnly) (s : σ) :
    (action >>= next).exec s =
      match (action.exec s).1 with
      | .ok b => (next b).exec s
      | .error e => (.error e, s) := by
  rw [Action.exec_bind, h.exec_eq]
  cases (action.exec s).1 <;> rfl

end Action
end Repertory
