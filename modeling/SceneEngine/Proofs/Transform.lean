/-
The matrices of a transform are those of its fields.

A read takes one of three ways: stale matrices are computed anew, a normal matrix in the
cache is given as it is, and where the cache has none it is computed from the cached model.
All three give the same, because a cache that is not stale holds what the fields give
(`Current`), also after a refresh that failed: what it leaves out of the cache is then what
no computation can give.

Which models have an inverse is judged by a tolerance, so this takes one tolerance for all
refreshes and reads.
-/
import SceneEngine.Transform

namespace SceneEngine.Transform

variable {α ω : Type} [Scalar α] [Scalar ω] [Widening α ω]

/-! ## Runs -/

/-- What can be done to a transform. -/
inductive Change (α : Type) where
  | setPosition (position : Vec α 3)
  | setRotation (rotation : Vec α 3)
  | setScale (scale : Vec α 3)
  | move (offset : Vec α 3)
  | rotate (degrees : Vec α 3)
  | grow (amount : Vec α 3)
  | refresh

/-- The transform a change leaves. A refresh may fail, and leaves one too. -/
def after (tolerance : Tolerance ω) (t : Transform α) : Change α → Transform α
  | .setPosition position => t.setPosition position
  | .setRotation rotation => t.setRotation rotation
  | .setScale scale => t.setScale scale
  | .move offset => t.move offset
  | .rotate degrees => t.rotate degrees
  | .grow amount => t.grow amount
  | .refresh => (t.refresh tolerance).1

/-- What can be done with several transforms, which are numbered as they come up. -/
inductive Step (α : Type) where
  | new (position rotation scale : Vec α 3)
  /-- A copy, with its cache. -/
  | clone (i : Nat)
  | change (i : Nat) (c : Change α)

def Step.apply (tolerance : Tolerance ω) (held : List (Transform α)) : Step α → List (Transform α)
  | .new position rotation scale => held ++ [.new position rotation scale]
  | .clone i => held ++ held[i]?.toList
  | .change i c => held.modify i (·.after tolerance c)

/-- The transforms a series of steps leaves. -/
def play (tolerance : Tolerance ω) (steps : List (Step α)) : List (Transform α) :=
  steps.foldl (Step.apply tolerance) []

/-! ## What the cache holds -/

/-- The matrices the fields give, as a cache. -/
def computed (tolerance : Tolerance ω) (t : Transform α) : MatrixCache α :=
  ⟨false, t.computeModel, (t.computeModel.normalMatrix tolerance).toOption⟩

/-- A cache that is not stale holds what the fields give. -/
def Current (tolerance : Tolerance ω) (t : Transform α) : Prop :=
  t.cache.stale = false → t.cache = t.computed tolerance

variable {tolerance : Tolerance ω} {t : Transform α}

theorem current_of_stale (h : t.cache.stale = true) : t.Current tolerance := by
  intro hclean
  rw [h] at hclean
  cases hclean

/-- A refresh leaves the fields, and the matrices they give, in whichever way it answers. -/
theorem Current.refresh (h : t.Current tolerance) : (t.refresh tolerance).1.Current tolerance := by
  unfold Transform.refresh
  split
  · exact fun _ => rfl
  · exact h

theorem Current.after (h : t.Current tolerance) (change : Change α) :
    (t.after tolerance change).Current tolerance := by
  cases change with
  | refresh => exact h.refresh
  | setPosition | setRotation | setScale | move | rotate | grow => exact current_of_stale rfl

theorem Current.modelMatrix_eq (h : t.Current tolerance) : t.modelMatrix = t.computeModel := by
  unfold modelMatrix
  split
  · rfl
  · next hclean => rw [h (Bool.eq_false_iff.mpr hclean), computed]

theorem Current.normalMatrix_eq (h : t.Current tolerance) :
    t.normalMatrix tolerance = t.computeModel.normalMatrix tolerance := by
  unfold normalMatrix
  split
  · next normal hclean hnormal =>
    -- The cached normal matrix is one the computation gave.
    rw [h hclean, computed] at hnormal
    cases hcomputed : t.computeModel.normalMatrix tolerance with
    | error error => simp [hcomputed, Except.toOption] at hnormal
    | ok fresh =>
      rw [hcomputed, Except.toOption, Option.some.injEq] at hnormal
      rw [hnormal]
  · rw [h.modelMatrix_eq]

/-! ## Every transform there can be -/

theorem current_apply {held : List (Transform α)} (h : ∀ t ∈ held, t.Current tolerance)
    (step : Step α) : ∀ t ∈ step.apply tolerance held, t.Current tolerance := by
  intro t ht
  cases step with
  | new position rotation scale =>
    rcases List.mem_append.mp ht with ht | ht
    · exact h t ht
    · rw [List.mem_singleton.mp ht]
      exact current_of_stale rfl
  | clone i =>
    rcases List.mem_append.mp ht with ht | ht
    · exact h t ht
    · exact h t (List.mem_of_getElem? (Option.mem_toList.mp ht))
  | change i c =>
    obtain ⟨j, hj⟩ := List.mem_iff_getElem?.mp ht
    rw [Step.apply, List.getElem?_modify, Option.map_eq_map, Option.map_eq_some_iff] at hj
    obtain ⟨t₀, ht₀, rfl⟩ := hj
    have h₀ := h t₀ (List.mem_of_getElem? ht₀)
    split
    · exact h₀.after c
    · exact h₀

theorem current_of_mem_play (steps : List (Step α)) (ht : t ∈ play tolerance steps) :
    t.Current tolerance := by
  have hall : ∀ held : List (Transform α), (∀ t ∈ held, t.Current tolerance) →
      ∀ t ∈ steps.foldl (Step.apply tolerance) held, t.Current tolerance := by
    clear ht
    induction steps with
    | nil => exact fun _ h => h
    | cons step rest ih => exact fun held h => ih _ (current_apply h step)
  exact hall [] (by simp) t ht

/-- **Matrices are never out of date.** Whatever has been done to a transform and to those it
was copied from, its model matrix is that of its fields, and its normal matrix is the one
computed anew from that model: the same matrix, or the same error. -/
theorem matrices_current (tolerance : Tolerance ω) (steps : List (Step α)) {t : Transform α}
    (ht : t ∈ play tolerance steps) :
    t.modelMatrix = .model t.position t.rotation.toRadians t.scale ∧
    t.normalMatrix tolerance =
      (Mat.model t.position t.rotation.toRadians t.scale).normalMatrix tolerance :=
  have h := current_of_mem_play steps ht
  ⟨h.modelMatrix_eq, h.normalMatrix_eq⟩

/-- A transform turned by a quarter and then made flat, so that its second refresh fails. It is
copied, and the first is moved on: the copy is not stale and has no normal matrix. -/
theorem matrices_current_flat :
    ∃ (steps : List (Step F32)) (t : Transform F32), t ∈ play .single steps ∧
      t.rotation = .of3 0 0 (90 : Nat) ∧ t.scale = .of3 1 0 1 ∧
      t.cache.stale = false ∧ t.cache.normal = none ∧
      t.modelMatrix = .model t.position t.rotation.toRadians t.scale ∧
      t.normalMatrix .single =
        (Mat.model t.position t.rotation.toRadians t.scale).normalMatrix .single := by
  let steps : List (Step F32) :=
    [.new .zero (.of3 0 0 (90 : Nat)) (.splat 1), .change 0 .refresh,
      .change 0 (.setScale (.of3 1 0 1)), .change 0 .refresh, .clone 0, .change 0 (.move (.splat 1))]
  obtain ⟨t, ht, hrotation, hscale, hclean, hnone⟩ : ∃ t ∈ play .single steps,
      t.rotation = .of3 0 0 (90 : Nat) ∧ t.scale = .of3 1 0 1 ∧
        t.cache.stale = false ∧ t.cache.normal = none := by
    decide +kernel
  exact ⟨steps, t, ht, hrotation, hscale, hclean, hnone, matrices_current .single steps ht⟩

end SceneEngine.Transform
