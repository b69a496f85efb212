/-
Changes of a state that may fail on the way.

A change that fails leaves the state as far as it had come. So what a failure does to a
state is part of what a change means, and that it does nothing is something to be shown.
-/
import SceneEngine.SceneError

namespace SceneEngine

/-- A change of a state that may fail on the way. -/
abbrev Change (σ : Type) : Type → Type := EStateM SceneError σ

namespace Change

variable {σ τ β γ : Type}

/-- A change of a part as a change of the whole. What is left of the part is put back, also
when the change fails. -/
def within (part : σ → τ) (put : σ → τ → σ) (c : Change τ β) : Change σ β := fun s =>
  match c (part s) with
  | .ok x t => .ok x (put s t)
  | .error e t => .error e (put s t)

/-- The answer of a change and the state it leaves, or its error alone. -/
def outcome (c : Change σ β) (s : σ) : Except SceneError (β × σ) :=
  match c s with
  | .ok x s => .ok (x, s)
  | .error e _ => .error e

/-- What a change answers, and the state it leaves, also when it fails. -/
def perform (c : Change σ β) (s : σ) : Except SceneError β × σ :=
  match c s with
  | .ok x s => (.ok x, s)
  | .error e s => (.error e, s)

/-! How changes run. -/

section Apply

variable (s : σ)

@[simp] theorem pure_apply (x : β) : (pure x : Change σ β) s = .ok x s := rfl

@[simp] theorem get_apply : (get : Change σ σ) s = .ok s s := rfl

@[simp] theorem set_apply (s' : σ) : (set s' : Change σ PUnit) s = .ok ⟨⟩ s' := rfl

@[simp] theorem modify_apply (g : σ → σ) : (modify g : Change σ PUnit) s = .ok ⟨⟩ (g s) := rfl

@[simp] theorem throw_apply (e : SceneError) : (throw e : Change σ β) s = .error e s := rfl

@[simp] theorem ofExcept_ok_apply (x : β) :
    (ofExcept (.ok x : Except SceneError β) : Change σ β) s = .ok x s := rfl

@[simp] theorem ofExcept_error_apply (e : SceneError) :
    (ofExcept (.error e : Except SceneError β) : Change σ β) s = .error e s := rfl

/-- The second change runs in the state the first leaves, unless the first fails. -/
@[simp] theorem bind_apply (c : Change σ β) (f : β → Change σ γ) : (c >>= f) s = match c s with
    | .ok x s' => f x s'
    | .error e s' => .error e s' := by
  simp only [bind, EStateM.bind]
  cases c s <;> rfl

@[simp] theorem map_apply (g : β → γ) (c : Change σ β) : (g <$> c) s = match c s with
    | .ok x s' => .ok (g x) s'
    | .error e s' => .error e s' := by
  simp only [Functor.map, EStateM.map]
  cases c s <;> rfl

end Apply

end Change

end SceneEngine
