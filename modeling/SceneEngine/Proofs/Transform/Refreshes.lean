/-
Transforms that are refreshed by several tolerances.

Who has a transform in hand can refresh it by a tolerance of their own, and a normal matrix that
comes into the cache that way is given out under every other tolerance too. So a transform may have
a normal matrix at a tolerance by which its model has none. It is never a wrong one: a tolerance
decides whether there is a normal matrix and not which (`Mat.normalMatrix_unique`). So what is given
out is the normal matrix of the fields, by the tolerance of the read or that of the last refresh.
-/
import SceneEngine.Proofs.Mat.Overflow
import SceneEngine.Proofs.Transform

namespace SceneEngine.Transform

variable {α ω : Type} [Scalar α] [Scalar ω] [Widening α ω] {tolerances : Set (Tolerance ω)}
  {tolerance : Tolerance ω} {t : Transform α}

/-- The transforms there can be when every refresh goes by one of these tolerances. -/
inductive Arises (tolerances : Set (Tolerance ω)) : Transform α → Prop
  | new (position rotation scale : Vec α 3) : Arises tolerances (.new position rotation scale)
  | after {t : Transform α} {tolerance : Tolerance ω} (change : Change α) :
    tolerance ∈ tolerances → Arises tolerances t → Arises tolerances (t.after tolerance change)

/-- A cache that is not stale holds what the fields give by one of these tolerances. -/
def CurrentBy (tolerances : Set (Tolerance ω)) (t : Transform α) : Prop :=
  t.cache.stale = false → ∃ tolerance ∈ tolerances, t.cache = t.computed tolerance

theorem currentBy_of_stale (h : t.cache.stale = true) : t.CurrentBy tolerances := by
  intro hclean
  rw [h] at hclean
  cases hclean

theorem CurrentBy.refresh (h : t.CurrentBy tolerances) (ht : tolerance ∈ tolerances) :
    (t.refresh tolerance).1.CurrentBy tolerances := by
  unfold Transform.refresh
  split
  · exact fun _ => ⟨tolerance, ht, rfl⟩
  · exact h

theorem CurrentBy.after (h : t.CurrentBy tolerances) (ht : tolerance ∈ tolerances)
    (change : Change α) : (t.after tolerance change).CurrentBy tolerances := by
  cases change with
  | refresh => exact h.refresh ht
  | setPosition | setRotation | setScale | move | rotate | grow => exact currentBy_of_stale rfl

theorem Arises.currentBy (h : t.Arises tolerances) : t.CurrentBy tolerances := by
  induction h with
  | new => exact currentBy_of_stale rfl
  | after change ht _ ih => exact ih.after ht change

theorem CurrentBy.modelMatrix_eq (h : t.CurrentBy tolerances) : t.modelMatrix = t.computeModel := by
  unfold modelMatrix
  split
  · rfl
  · next hclean =>
    obtain ⟨_, _, hcache⟩ := h (Bool.eq_false_iff.mpr hclean)
    rw [hcache, Transform.computed]

/-- The tolerances a read of the normal matrix goes by: the one it is given, and the one of the
refresh that left what is in the cache. -/
def ReadBy (tolerances : Set (Tolerance ω)) (tolerance : Tolerance ω) (t : Transform α)
    (other : Tolerance ω) : Prop :=
  other = tolerance ∨ other ∈ tolerances ∧ t.cache = t.computed other

/-- A normal matrix in the cache is the one of the fields, by the tolerance of the refresh. -/
theorem normalMatrix_eq_of_computed {other : Tolerance ω} (hcache : t.cache = t.computed other)
    {normal : Mat α 3 3} (h : t.computeModel.normalMatrix other = .ok normal) :
    t.normalMatrix tolerance = .ok normal := by
  simp [normalMatrix, hcache, computed, h, Except.toOption]

/-- **What is read is the normal matrix of the fields**, by one of the tolerances the read
goes by. -/
theorem CurrentBy.normalMatrix_eq_ok_iff (h : t.CurrentBy tolerances) (tolerance : Tolerance ω)
    (normal : Mat α 3 3) : t.normalMatrix tolerance = .ok normal ↔
      ∃ other, t.ReadBy tolerances tolerance other ∧
        t.computeModel.normalMatrix other = .ok normal := by
  -- Without a normal matrix in the cache it is computed at the tolerance of the read.
  have hread : (∃ other ∈ tolerances, ∃ cached, t.cache = t.computed other ∧
        t.computeModel.normalMatrix other = .ok cached) ∨
      t.normalMatrix tolerance = t.computeModel.normalMatrix tolerance := by
    unfold normalMatrix
    split
    · next cached hclean hcached =>
      obtain ⟨other, hother, hcache⟩ := h hclean
      rw [hcache, computed] at hcached
      cases hresult : t.computeModel.normalMatrix other with
      | error error => simp [hresult, Except.toOption] at hcached
      | ok fresh => exact .inl ⟨other, hother, fresh, hcache, hresult⟩
    · exact .inr (by rw [h.modelMatrix_eq])
  obtain ⟨other, hother, cached, hcache, hcached⟩ | heq := hread
  · rw [normalMatrix_eq_of_computed hcache hcached]
    constructor
    · rintro ⟨⟩
      exact ⟨other, .inr ⟨hother, hcache⟩, hcached⟩
    · rintro ⟨_, _, hcomputed⟩
      rw [Mat.normalMatrix_unique hcached hcomputed]
  · rw [heq]
    refine ⟨fun hcomputed => ⟨tolerance, .inl rfl, hcomputed⟩, ?_⟩
    rintro ⟨_, rfl | ⟨_, hcache⟩, hcomputed⟩
    · exact hcomputed
    · rw [← heq, normalMatrix_eq_of_computed hcache hcomputed]

/-- With one tolerance for refreshes and reads there is no other. -/
theorem readBy_singleton {other : Tolerance ω} :
    t.ReadBy {tolerance} tolerance other ↔ other = tolerance := by
  simp only [ReadBy, Set.mem_singleton_iff, or_iff_left_iff_imp]
  exact And.left

/-- A flat transform that was refreshed by a tolerance that takes nothing for negligible. -/
example : let t : Transform F32 := .new .zero .zero (.of3 1 0 1)
    (t.normalMatrix .single).toOption.isSome = false ∧
      ((t.refresh ⟨-1, 0⟩).1.normalMatrix .single).toOption.isSome = true := by decide +kernel

end SceneEngine.Transform
