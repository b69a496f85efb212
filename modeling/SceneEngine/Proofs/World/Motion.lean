/-
What motion and upkeep do to an entity.

Both systems take their members one by one, and what becomes of an entity follows from its
own components: motion moves a transform by the body beside it (`Motion.moved`), upkeep
tends a transform where it stands (`Upkeep.tended`). A member has the components its system
reads, so neither of them fails (`Asks.turns_members`). When all entities with these
components are members, whether an entity is one need not be said (`AsksExactly.turns_all`).
-/
import SceneEngine.Proofs.World.Parts
import SceneEngine.Proofs.World.Systems
import SceneEngine.World.Motion
import SceneEngine.World.Upkeep

namespace SceneEngine

variable {w : World} {id : SystemId} {e : EntityId}

/-! ## Members one by one -/

namespace World

variable {kinds : List Kind} {rule : EntityId → Action Unit} {turn : Parts → Parts}

/-- A rule that needs what the system asks for runs on all its members and on nothing else. -/
theorem Asks.turns_members (ha : w.Asks id kinds) (hc : w.Coherent)
    (hrule : ∀ w' e, w.Revalued w' → (∀ k ∈ kinds, (w'.get? k e).isSome = true) →
      w'.Turns (rule e) e (turn (w'.parts e))) :
    ∃ ids w', w.members id = .ok ids ∧
      w.perform (do (← readMembers id).forM rule) = (.ok (), w') ∧ w.Revalued w' ∧
      ∀ e, w'.parts e = if e ∈ ids then turn (w.parts e) else w.parts e := by
  obtain ⟨ids, hm, hids⟩ := ha.members hc
  have hnd : ids.Nodup := (hc.members_ascending hm).imp Nat.ne_of_lt
  refine ⟨ids, (turns_perMember hc.storage hm hnd fun e he w₁ h₁ hparts => ?_).imp
    fun w' h => ⟨hm, h⟩⟩
  rw [← hparts]
  exact hrule w₁ e h₁ fun k hk => (h₁.isSome_get? k e).trans (hids e he k hk)

/-- Who is no member lacks something that is asked for. If the rule would change nothing
there, it is as if it had run on every entity. -/
theorem AsksExactly.turns_all (ha : w.AsksExactly id kinds) (hne : kinds ≠ []) (hc : w.Coherent)
    (hrule : ∀ w' e, w.Revalued w' → (∀ k ∈ kinds, (w'.get? k e).isSome = true) →
      w'.Turns (rule e) e (turn (w'.parts e)))
    (hlacks : ∀ p : Parts, (∃ k ∈ kinds, p k = none) → turn p = p) :
    ∃ w', w.perform (do (← readMembers id).forM rule) = (.ok (), w') ∧ w.Revalued w' ∧
      ∀ e, w'.parts e = turn (w.parts e) := by
  obtain ⟨ids, w', hm, hp, hw', hparts⟩ := ha.asks.turns_members hc hrule
  refine ⟨w', hp, hw', fun e => ?_⟩
  rw [hparts]
  split
  · rfl
  · next he =>
    refine (hlacks _ ?_).symm
    by_contra! hhas
    exact he ((ha.mem_iff hne hc hm).mpr fun k hk => Option.isSome_iff_ne_none.mpr (hhas k hk))

end World

/-! ## The two systems -/

namespace Motion

/-- A transform and a body after a step. -/
def moved (config : PhysicsConfig) (dt : F32) (p : Parts) : Parts
  | .transform =>
    match p .transform, p .body with
    | some t, some b => some (moveBody config dt t b).1
    | t, _ => t
  | .body =>
    match p .transform, p .body with
    | some t, some b => some (moveBody config dt t b).2
    | _, b => b
  | k => p k

section MoveBody

variable (config : PhysicsConfig) (dt : F32) (t : Transform F32) (b : Body)

theorem moveBody_snd : (moveBody config dt t b).2 =
    { b with previousPosition := t.position }.integrate config dt := by
  unfold moveBody
  dsimp only
  split <;> rfl

@[simp] theorem previousPosition_moveBody :
    (moveBody config dt t b).2.previousPosition = t.position := by
  rw [moveBody_snd, Body.integrate]
  split <;> rfl

@[simp] theorem fixed_moveBody : (moveBody config dt t b).2.fixed = b.fixed := by
  rw [moveBody_snd, Body.integrate]
  split <;> rfl

/-- Where the body was before counts for nothing in its velocity. -/
theorem velocity_moveBody :
    (moveBody config dt t b).2.velocity = (b.integrate config dt).velocity := by
  rw [moveBody_snd, Body.integrate, Body.integrate]
  split <;> rfl

/-- A body that is not fixed moves by its new velocity, if that has a length. -/
theorem position_moveBody (hfree : b.fixed = false) (k : Fin 3) :
    (moveBody config dt t b).1.position[k] =
      if 0 < (b.integrate config dt).velocity.lengthSquared then
        t.position[k] + (b.integrate config dt).velocity[k] * dt
      else t.position[k] := by
  have hfixed : ({ b with previousPosition := t.position }.integrate config dt).fixed = false := by
    rw [← moveBody_snd, fixed_moveBody, hfree]
  rw [← velocity_moveBody config dt t b, moveBody_snd, moveBody]
  simp only [hfixed, Bool.not_false, Bool.true_and, decide_eq_true_eq]
  split
  · have hadd : ∀ p q : Vec F32 3, (p + q)[k] = p[k] + q[k] := fun p q => Vec.getElem_ofFn _ k
    have hmul : ∀ v : Vec F32 3, (v * dt)[k] = v[k] * dt := fun v => Vec.getElem_ofFn _ k
    simp only [Transform.move, Transform.setPosition, Transform.invalidate, hadd, hmul]
  · rfl

end MoveBody

theorem turns_stepEntity (hs : w.storage.Sound)
    (hhas : ∀ k ∈ required, (w.get? k e).isSome = true) (config : PhysicsConfig) (dt : F32) :
    w.Turns (stepEntity config dt e) e (moved config dt (w.parts e)) := by
  have ht := hhas .transform (by simp [required])
  have hb := hhas .body (by simp [required])
  obtain ⟨t, ht'⟩ := Option.isSome_iff_exists.mp ht
  obtain ⟨b, hb'⟩ := Option.isSome_iff_exists.mp hb
  refine .of_read (World.perform_readPair_of hs (by decide) ht' hb') ?_
  refine (World.turns_writePair hs (by decide) ht hb (moveBody config dt t b).1
    (moveBody config dt t b).2).of_eq ?_
  funext k
  cases k <;> simp [moved, World.parts, ht', hb']

/-- A step moves its members and nothing else. -/
theorem step_parts (hc : w.Coherent) (ha : w.Asks id required) (config : PhysicsConfig) (dt : F32) :
    ∃ ids w', w.members id = .ok ids ∧ w.perform (step config id dt) = (.ok (), w') ∧
      w.Revalued w' ∧
      ∀ e, w'.parts e = if e ∈ ids then moved config dt (w.parts e) else w.parts e :=
  ha.turns_members hc fun _ _ h₁ hhas => turns_stepEntity h₁.sound hhas config dt

theorem moved_of_lacking (config : PhysicsConfig) (dt : F32) {p : Parts}
    (h : p .transform = none ∨ p .body = none) : moved config dt p = p := by
  funext k
  rcases h with h | h <;> cases k <;> simp [moved, h]

theorem exists_step_moved (hc : w.Coherent) (ha : w.AsksExactly id required)
    (config : PhysicsConfig) (dt : F32) :
    ∃ w', w.perform (step config id dt) = (.ok (), w') ∧ w.Revalued w' ∧
      ∀ x, w'.parts x = moved config dt (w.parts x) := by
  refine ha.turns_all (by decide) hc
    (fun _ _ h₁ hhas => turns_stepEntity h₁.sound hhas config dt) ?_
  rintro p ⟨k, hk, hnone⟩
  refine moved_of_lacking config dt ?_
  simp only [required, List.mem_cons, List.not_mem_nil, or_false] at hk
  rcases hk with rfl | rfl
  · exact .inl hnone
  · exact .inr hnone

end Motion

namespace Upkeep

theorem position_refresh (tolerance : Tolerance F64) (t : Transform F32) :
    (t.refresh tolerance).1.position = t.position := by
  unfold Transform.refresh
  split <;> rfl

/-- Upkeep turns and refreshes; it moves nothing. -/
theorem position_tend (tolerance : Tolerance F64) (t : Transform F32) :
    (tend tolerance t).position = t.position := by
  unfold tend
  dsimp only
  rw [position_refresh]
  split <;> rfl

/-- A transform after a step. -/
def tended (tolerance : Tolerance F64) (p : Parts) : Parts
  | .transform => (p .transform).map (tend tolerance)
  | k => p k

theorem turns_stepEntity (hs : w.storage.Sound)
    (hhas : ∀ k ∈ required, (w.get? k e).isSome = true) :
    w.Turns (stepEntity e) e (tended w.tolerance (w.parts e)) := by
  have ht := hhas .transform (by simp [required])
  obtain ⟨t, ht'⟩ := Option.isSome_iff_exists.mp ht
  refine .of_read (World.perform_read_of ht') (.of_read (World.perform_get w) ?_)
  refine (World.turns_write hs ht _).of_eq ?_
  funext k
  cases k <;> simp [tended, World.parts, ht']

/-- A step tends its members and nothing else. -/
theorem step_parts (hc : w.Coherent) (ha : w.Asks id required) :
    ∃ ids w', w.members id = .ok ids ∧ w.perform (step id) = (.ok (), w') ∧
      w.Revalued w' ∧
      ∀ e, w'.parts e = if e ∈ ids then tended w.tolerance (w.parts e) else w.parts e :=
  ha.turns_members hc fun _ _ h₁ hhas => h₁.tolerance ▸ turns_stepEntity h₁.sound hhas

theorem tended_of_lacking (tolerance : Tolerance F64) {p : Parts} (h : p .transform = none) :
    tended tolerance p = p := by
  funext k
  cases k <;> simp [tended, h]

theorem exists_step_tended (hc : w.Coherent) (ha : w.AsksExactly id required) :
    ∃ w', w.perform (step id) = (.ok (), w') ∧ w.Revalued w' ∧
      ∀ x, w'.parts x = tended w.tolerance (w.parts x) :=
  ha.turns_all (by decide) hc
    (fun _ _ h₁ hhas => h₁.tolerance ▸ turns_stepEntity h₁.sound hhas)
    fun _ ⟨k, hk, hnone⟩ => tended_of_lacking w.tolerance (List.mem_singleton.mp hk ▸ hnone)

end Upkeep

end SceneEngine
