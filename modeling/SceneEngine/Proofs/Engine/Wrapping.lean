/-
How rotations settle under upkeep.

A rotation is wrapped as a whole: when one of its axes makes a difference, all three are
brought back, and when none does, none is. No axis grows, and one that made the difference
shrinks, so the sizes of the axes add up to less with each such update and there are only
finitely many of them. What is left is a rotation whose axes are all within a full turn or
so far that two turns make no difference (`exists_settled`); of those, upkeep changes
nothing ever after.

Without rounding an axis moves by whole turns only.
-/
import Mathlib.Algebra.BigOperators.Fin
import Mathlib.Algebra.Order.BigOperators.Group.Finset
import SceneEngine.Proofs.Engine.Kept
import SceneEngine.Proofs.Exact
import SceneEngine.Proofs.Transform.Wrapping

namespace SceneEngine

/-! ## Rotations -/

namespace Transform

variable {r : Vec F32 3}

theorem getElem_wrapRotation {α : Type} [Scalar α] (r : Vec α 3) (k : Fin 3) :
    (wrapRotation r)[k] = wrapAngle r[k] := Vec.getElem_ofFn _ k

/-- All axes are numbers. -/
def FiniteAxes (r : Vec F32 3) : Prop := ∀ k : Fin 3, r[k].isFinite = true

/-- No axis is left that two turns would make a difference to. -/
def Settled (r : Vec F32 3) : Prop := ∀ k : Fin 3, Within r[k] ∨ Beyond r[k]

instance (r : Vec F32 3) : Decidable (FiniteAxes r) := inferInstanceAs (Decidable (∀ _, _))

instance (r : Vec F32 3) : Decidable (Settled r) := inferInstanceAs (Decidable (∀ _, _))

theorem alike_wrapRotation_iff (hr : FiniteAxes r) : (wrapRotation r).alike r = true ↔ Settled r := by
  have hall : (wrapRotation r).alike r = true ↔
      ∀ k : Fin 3, Tolerance.single.approxEq (wrapRotation r)[k] r[k] = true := by
    unfold Vec.alike Vec.approxEq
    simp only [List.all_eq_true, List.mem_finRange, true_implies]
    rfl
  rw [hall]
  refine forall_congr' fun k => ?_
  rw [getElem_wrapRotation]
  exact alike_wrapAngle_iff (hr k)

end Transform

namespace Upkeep

open Transform (Within Beyond Settled FiniteAxes)

variable {r : Vec F32 3}

theorem wrapped_of_settled (hr : FiniteAxes r) (h : Settled r) : wrapped r = r :=
  if_pos ((Transform.alike_wrapRotation_iff hr).mpr h)

theorem getElem_wrapped (hr : FiniteAxes r) (h : ¬ Settled r) (k : Fin 3) :
    (wrapped r)[k] = Transform.wrapAngle r[k] := by
  rw [wrapped, if_neg (mt (Transform.alike_wrapRotation_iff hr).mp h),
    Transform.getElem_wrapRotation]

theorem magnitude_wrapped_le (hr : FiniteAxes r) (k : Fin 3) :
    (wrapped r)[k].magnitude ≤ r[k].magnitude := by
  by_cases h : Settled r
  · rw [wrapped_of_settled hr h]
  · rw [getElem_wrapped hr h]
    exact Transform.magnitude_wrapAngle_le (hr k)

theorem finite_wrapped (hr : FiniteAxes r) : FiniteAxes (wrapped r) := fun k =>
  Binary.isFinite_of_le (hr k) (magnitude_wrapped_le hr k)

/-- The sizes of the axes, added up. -/
def size (r : Vec F32 3) : Nat := ∑ k : Fin 3, r[k].magnitude

/-- Some axis shrinks as long as the rotation is not settled. -/
theorem size_wrapped_lt (hr : FiniteAxes r) (h : ¬ Settled r) : size (wrapped r) < size r := by
  obtain ⟨k, hk⟩ := not_forall.mp h
  obtain ⟨hwithin, hbeyond⟩ := not_or.mp hk
  refine Finset.sum_lt_sum (fun k _ => magnitude_wrapped_le hr k) ⟨k, Finset.mem_univ k, ?_⟩
  rw [Transform.beyond_iff (Binary.isNaN_of_isFinite (hr k))] at hbeyond
  obtain ⟨-, -, -, hlt⟩ := Transform.exists_units_wrapAngle (hr k) hwithin (by omega)
  rwa [getElem_wrapped hr h]

/-- An update changes exactly the rotations that are not settled. -/
theorem wrapped_eq_iff (hr : FiniteAxes r) : wrapped r = r ↔ Settled r := by
  refine ⟨fun heq => ?_, wrapped_of_settled hr⟩
  by_contra h
  have hlt := size_wrapped_lt hr h
  rw [heq] at hlt
  exact Nat.lt_irrefl _ hlt

theorem finite_iterate (hr : FiniteAxes r) (n : Nat) : FiniteAxes (wrapped^[n] r) := by
  induction n with
  | zero => exact hr
  | succ n ih =>
    rw [Function.iterate_succ_apply']
    exact finite_wrapped ih

theorem magnitude_iterate_le (hr : FiniteAxes r) (n : Nat) (k : Fin 3) :
    (wrapped^[n] r)[k].magnitude ≤ r[k].magnitude := by
  induction n with
  | zero => exact Nat.le_refl _
  | succ n ih =>
    rw [Function.iterate_succ_apply']
    exact (magnitude_wrapped_le (finite_iterate hr n) k).trans ih

/-- Every rotation settles. -/
theorem exists_settled (hr : FiniteAxes r) : ∃ n, Settled (wrapped^[n] r) := by
  induction hn : size r using Nat.strong_induction_on generalizing r with
  | _ n ih =>
    by_cases h : Settled r
    · exact ⟨0, h⟩
    · obtain ⟨m, hm⟩ := ih _ (hn ▸ size_wrapped_lt hr h) (finite_wrapped hr) rfl
      exact ⟨m + 1, hm⟩

/-- And stays. -/
theorem iterate_of_settled (hr : FiniteAxes r) {m n : Nat} (h : Settled (wrapped^[m] r)) (hle : m ≤ n) :
    wrapped^[n] r = wrapped^[m] r := by
  obtain ⟨d, rfl⟩ := Nat.exists_eq_add_of_le' hle
  rw [Function.iterate_add_apply]
  exact Function.iterate_fixed (wrapped_of_settled (finite_iterate hr m) h) d

/-! ## Without rounding -/

section Exact

open scoped Exact

variable {K : Type} [Field K] [LinearOrder K] [FieldFunctions K]

theorem exists_wrapAngle_eq (a : K) : ∃ z : ℤ, Transform.wrapAngle a = a + z * 360 := by
  unfold Transform.wrapAngle
  dsimp only
  split
  · exact ⟨2, by push_cast; ring⟩
  split
  · exact ⟨-2, by push_cast; ring⟩
  · exact ⟨0, by simp⟩

theorem exists_rotation_tend (tolerance : Tolerance K) (t : Transform K) (k : Fin 3) :
    ∃ z : ℤ, (tend tolerance t).rotation[k] = t.rotation[k] + z * 360 := by
  unfold tend
  dsimp only
  rw [(refresh_keeps _ _).1]
  split
  · exact ⟨0, by simp⟩
  · obtain ⟨z, hz⟩ := exists_wrapAngle_eq t.rotation[k]
    exact ⟨z, (Transform.getElem_wrapRotation t.rotation k).trans hz⟩

/-- Updates turn an axis by whole turns. -/
theorem exists_rotation_iterate (tolerance : Tolerance K) (t : Transform K) (n : Nat) (k : Fin 3) :
    ∃ z : ℤ, ((tend tolerance)^[n] t).rotation[k] = t.rotation[k] + z * 360 := by
  induction n with
  | zero => exact ⟨0, by simp⟩
  | succ n ih =>
    obtain ⟨z, hz⟩ := ih
    obtain ⟨z', hz'⟩ := exists_rotation_tend tolerance ((tend tolerance)^[n] t) k
    refine ⟨z + z', ?_⟩
    rw [Function.iterate_succ_apply', hz', hz]
    push_cast
    ring

end Exact

/-! ## Worlds -/

variable {w : World} {id : SystemId}

/-- The world after some updates. -/
def updates (id : SystemId) (n : Nat) (w : World) : World := (fun w => w.after (step id))^[n] w

/-- The rotation an entity has, if it has one. -/
def rotationOf (w : World) (x : EntityId) : Option (Vec F32 3) :=
  (w.get? .transform x).map Transform.rotation

theorem exists_update (hc : w.Coherent) (ha : w.AsksExactly id required) :
    ∃ w', w.perform (step id) = (.ok (), w') ∧ w'.Coherent ∧ w'.AsksExactly id required ∧
      ∀ x, rotationOf w' x = (rotationOf w x).map wrapped := by
  obtain ⟨w', hp, hw', hparts⟩ := exists_step_tended hc ha
  refine ⟨w', hp, hw'.toRewritten.coherent hc, ha.extends (.rewritten hw'.toRewritten), fun x => ?_⟩
  have htransform : w'.get? .transform x = (w.get? .transform x).map (tend w.tolerance) :=
    congrFun (hparts x) .transform
  rw [rotationOf, htransform, rotationOf, Option.map_map, Option.map_map]
  exact congrArg (Option.map · _) (funext (rotation_tend w.tolerance))

theorem updates_succ (n : Nat) : updates id (n + 1) w = (updates id n w).after (step id) :=
  Function.iterate_succ_apply' _ n w

/-- Updates always come to their end, and each wraps every rotation once. -/
theorem updates_cases (hc : w.Coherent) (ha : w.AsksExactly id required) (n : Nat) :
    (updates id n w).perform (step id) = (.ok (), updates id (n + 1) w) ∧
      ∀ x, rotationOf (updates id n w) x = (rotationOf w x).map wrapped^[n] := by
  have hall : (updates id n w).Coherent ∧ (updates id n w).AsksExactly id required ∧
      ∀ x, rotationOf (updates id n w) x = (rotationOf w x).map wrapped^[n] := by
    induction n with
    | zero => exact ⟨hc, ha, fun x => (congrFun Option.map_id (rotationOf w x)).symm⟩
    | succ n ih =>
      obtain ⟨hcn, han, hrotation⟩ := ih
      obtain ⟨w', hp, hc', ha', hrotation'⟩ := exists_update hcn han
      have hnext : updates id (n + 1) w = w' := by rw [updates_succ, World.after, hp]
      rw [hnext]
      refine ⟨hc', ha', fun x => ?_⟩
      rw [hrotation', hrotation, Option.map_map, Function.iterate_succ']
  obtain ⟨hcn, han, hrotation⟩ := hall
  obtain ⟨w', hp, -⟩ := exists_update hcn han
  exact ⟨by rw [updates_succ, World.after, hp], hrotation⟩

/-- A world in which upkeep is installed and entity `0` is turned by `r`. -/
def turned (r : Vec F32 3) : World :=
  let empty : World := ⟨.withLimit 4, .new 16, .empty, .single⟩
  let w := empty.after (World.registerSystemFor systemName required)
  (w.after (World.serve (.create none))).after
    (World.serve (.add .transform 0 (.new .zero r (.splat 1))))

theorem reachable_turned (r : Vec F32 3) : (turned r).Reachable := by
  have hnew : World.new ⟨4, 16⟩ .single = .ok ⟨.withLimit 4, .new 16, .empty, .single⟩ := rfl
  exact .serve _ (.serve _ (.registerSystemFor systemName required (.new hnew)))

theorem asksExactly_turned (r : Vec F32 3) : (turned r).AsksExactly 0 required := by
  let empty : World := ⟨.withLimit 4, .new 16, .empty, .single⟩
  have hnew : World.new ⟨4, 16⟩ .single = .ok empty := rfl
  obtain ⟨answer, w, hp, hc, -, -, hasks⟩ :=
    World.registerSystemFor_cases (World.coherent_new hnew) systemName required
  have hzero : answer.toOption = some 0 := by
    have hfirst : (empty.perform (World.registerSystemFor systemName required)).1.toOption =
        some 0 := by decide +kernel
    rwa [hp] at hfirst
  have hturned : turned r = (w.after (World.serve (.create none))).after
      (World.serve (.add .transform 0 (.new .zero r (.splat 1)))) := by
    have hw : empty.after (World.registerSystemFor systemName required) = w := by
      rw [World.after, hp]
    rw [← hw]
    rfl
  rw [hturned]
  exact ((hasks 0 (eq_ok_of_toOption hzero)).extends (World.extends_serve hc _)).extends
    (World.extends_serve (hc.serve _) _)

open scoped Exact in
/-- **Rotations settle.** Updates of a world always come to their end, and after some of them
the rotation of an entity, whose axes are numbers to begin with, stays what it is. Its axes
are then within a full turn, or at least `72000000` degrees away from zero where two turns
make no difference; within a full turn all of them, if none was that far to begin with. An
update leaves a rotation as it is exactly when that is so. Without rounding an axis never
differs from what it was by anything but whole turns. -/
theorem rotation_settles (hw : w.Reachable) (ha : w.AsksExactly id required) {x : EntityId}
    {t : Transform F32} (ht : w.get? .transform x = some t)
    (hfin : ∀ k : Fin 3, t.rotation[k].isFinite = true) :
    (∀ n, (updates id n w).perform (step id) = (.ok (), updates id (n + 1) w)) ∧
    (∃ (N : Nat) (last : Vec F32 3),
      (∀ n, N ≤ n → rotationOf (updates id n w) x = some last) ∧
      (∀ k : Fin 3, Within last[k] ∨ Beyond last[k]) ∧
      ((∀ k : Fin 3, ¬ Beyond t.rotation[k]) → ∀ k : Fin 3, Within last[k])) ∧
    (∀ (n : Nat) (r : Vec F32 3), rotationOf (updates id n w) x = some r →
      (rotationOf (updates id (n + 1) w) x = some r ↔ ∀ k : Fin 3, Within r[k] ∨ Beyond r[k])) ∧
    ∀ (K : Type) [Field K] [LinearOrder K] [FieldFunctions K] (tolerance : Tolerance K)
      (t : Transform K) (n : Nat) (k : Fin 3),
      ∃ z : ℤ, ((tend tolerance)^[n] t).rotation[k] = t.rotation[k] + z * 360 := by
  have hcases := updates_cases hw.coherent ha
  have hrotation : ∀ n, rotationOf (updates id n w) x = some (wrapped^[n] t.rotation) := by
    intro n
    rw [(hcases n).2 x, rotationOf, ht]
    rfl
  refine ⟨fun n => (hcases n).1, ?_, fun n r hr => ?_,
    fun K _ _ _ tolerance t n k => exists_rotation_iterate tolerance t n k⟩
  · obtain ⟨N, hN⟩ := exists_settled hfin
    refine ⟨N, wrapped^[N] t.rotation, fun n hn => ?_, hN, fun hnear k => (hN k).resolve_right ?_⟩
    · rw [hrotation, iterate_of_settled hfin hN hn]
    · -- An axis that was not so far is not farther now.
      have hle := magnitude_iterate_le hfin N k
      have hnear := hnear k
      rw [Transform.beyond_iff (Binary.isNaN_of_isFinite (hfin k))] at hnear
      rw [Transform.beyond_iff (Binary.isNaN_of_isFinite (finite_iterate hfin N k))]
      omega
  · rw [hrotation, Option.some.injEq] at hr
    rw [hrotation, Option.some.injEq, Function.iterate_succ_apply', hr]
    exact wrapped_eq_iff (hr ▸ finite_iterate hfin n)

/-- One axis takes thousands of updates, one a single one, and one none. -/
theorem rotation_settles_slowly :
    ∃ (w : World) (t : Transform F32) (N : Nat) (last : Vec F32 3),
      w.Reachable ∧ w.AsksExactly 0 required ∧ w.get? .transform 0 = some t ∧
      t.rotation = .of3 ((10000000 : Nat) : F32) (-((725 : Nat) : F32)) ((90 : Nat) : F32) ∧
      rotationOf (updates 0 1 w) 0 =
        some (.of3 ((9999280 : Nat) : F32) (-((5 : Nat) : F32)) ((90 : Nat) : F32)) ∧
      (∀ n, N ≤ n → rotationOf (updates 0 n w) 0 = some last) ∧ ∀ k : Fin 3, Within last[k] := by
  let r : Vec F32 3 := .of3 ((10000000 : Nat) : F32) (-((725 : Nat) : F32)) ((90 : Nat) : F32)
  let t : Transform F32 := .new .zero r (.splat 1)
  have ht : (turned r).get? .transform 0 = some t := by decide +kernel
  have hfin : ∀ k : Fin 3, r[k].isFinite = true := by decide +kernel
  have hnear : ∀ k : Fin 3, ¬ Beyond r[k] := by decide +kernel
  obtain ⟨-, ⟨N, last, hlast, -, hwithin⟩, -⟩ :=
    rotation_settles (reachable_turned r) (asksExactly_turned r) ht hfin
  exact ⟨turned r, t, N, last, reachable_turned r, asksExactly_turned r, ht, rfl, by decide +kernel,
    hlast, hwithin hnear⟩

/-- A hundred million degrees. Every update takes the wrapped rotation for the same. -/
theorem far_rotation_stays :
    ∃ (w : World) (r : Vec F32 3), w.Reachable ∧ w.AsksExactly 0 required ∧
      r = .of3 ((100000000 : Nat) : F32) 0 0 ∧ (∀ k : Fin 3, r[k].isFinite = true) ∧
      (∀ n, rotationOf (updates 0 n w) 0 = some r) ∧ ¬ Within r[(0 : Fin 3)] := by
  let r : Vec F32 3 := .of3 ((100000000 : Nat) : F32) 0 0
  have hr : rotationOf (turned r) 0 = some r := by decide +kernel
  have hfin : FiniteAxes r := by decide +kernel
  have hsettled : Settled r := by decide +kernel
  refine ⟨turned r, r, reachable_turned r, asksExactly_turned r, rfl, hfin, fun n => ?_, ?_⟩
  · rw [(updates_cases (reachable_turned r).coherent (asksExactly_turned r) n).2, hr]
    exact congrArg some (iterate_of_settled (m := 0) hfin hsettled (Nat.zero_le n))
  · decide +kernel

end Upkeep

end SceneEngine
