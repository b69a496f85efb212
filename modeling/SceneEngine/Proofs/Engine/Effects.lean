/-
What a simulation step does to the components of every entity.

A built-in system has all the entities with the components it asks for, so whether an
entity is a member need not be said: motion moves what can be moved, upkeep tends every
transform, and contact makes of an entity what follows from its own components and from
the snapshot (`Contact.outcome`). This holds in all engines that can be reached, since
they are `Wired`, and a simulation step is the three one after the other
(`Wired.exists_simulate`).
-/
import SceneEngine.Proofs.Engine.Step

namespace SceneEngine

namespace Contact

variable {w : World} {id : SystemId}

/-- The components of an entity after a step with this snapshot. A body is resolved and
reported on; of any other entity that contact looks at, the report is cleared. -/
def outcome (config : PhysicsConfig) (solids : Array Solid) (x : EntityId) (p : Parts) : Parts :=
  match (List.finRange solids.size).find? fun i => (solids.toVector.get i).entity = x with
  | some i => settled config solids.toVector (candidatePairs solids.toVector) i p
  | none => if (p .transform).isSome then cleared p else p

theorem outcome_cases (config : PhysicsConfig) (solids : Array Solid) (x : EntityId) (p : Parts) :
    (∃ i, (solids.toVector.get i).entity = x ∧ outcome config solids x p =
      settled config solids.toVector (candidatePairs solids.toVector) i p) ∨
    (∀ i, (solids.toVector.get i).entity ≠ x) ∧
      outcome config solids x p = if (p .transform).isSome then cleared p else p := by
  unfold outcome
  split
  · next i hi =>
    have hi := List.find?_some hi
    exact .inl ⟨i, of_decide_eq_true hi, rfl⟩
  · next hnone =>
    refine .inr ⟨fun i hi => ?_, rfl⟩
    exact List.find?_eq_none.mp hnone i (List.mem_finRange i) (decide_eq_true hi)

theorem cleared_of_lacking {p : Parts} (h : p .collider = none) : cleared p = p :=
  cleared_eq_self fun c hc => by simp [h] at hc

theorem exists_step_outcome (hc : w.Coherent) (ha : w.AsksExactly id required) (m : ContactMemory) :
    ∃ solids w', gather w id = .ok solids ∧ step m id w = (m.observe (found w id), .ok () w') ∧
      w.Revalued w' ∧ ∀ x, w'.parts x = outcome m.config solids x (w.parts x) := by
  obtain ⟨solids, hg⟩ := exists_gather_of_asks hc ha.asks
  obtain ⟨ids, hm, _⟩ := ha.asks.members hc
  obtain ⟨w', hstep, hw', hin, hout⟩ := exists_step_parts hc hg m
  refine ⟨solids, w', hg, hstep, hw', fun x => ?_⟩
  rcases outcome_cases m.config solids x (w.parts x) with ⟨i, rfl, heq⟩ | ⟨hno, heq⟩ <;> rw [heq]
  · exact hin i
  · rw [hout x ids hm hno]
    -- A member has a transform; an entity that has one and is no member has no collider.
    have hmem := ha.mem_iff (by decide) hc hm (e := x)
    simp only [required, List.mem_cons, List.not_mem_nil, or_false, forall_eq_or_imp,
      forall_eq] at hmem
    cases ht : (w.parts x .transform).isSome with
    | false =>
      rw [if_neg (fun hx => by simp [World.parts, (hmem.mp hx).1] at ht), if_neg (by simp)]
    | true =>
      rw [if_pos rfl]
      split
      · rfl
      · next hx =>
        have hnone : w.parts x .collider = none := by
          rw [← Option.not_isSome_iff_eq_none]
          exact fun hcollider => hx (hmem.mpr ⟨ht, hcollider⟩)
        exact (cleared_of_lacking hnone).symm

end Contact

/-! ## Engines -/

namespace Engine

variable {e e' : Engine}

/-- Every built-in system asks for what it reads and for nothing else, and goes by the
configuration of the engine. -/
structure Wired (e : Engine) : Prop where
  ready : e.Ready
  installed : e.Installed
  upkeep : e.world.AsksExactly e.upkeepId Upkeep.required
  rendering : ∀ id r, e.renderer = some (id, r) → e.world.AsksExactly id Rendering.required
  tolerance : e.world.tolerance = e.config.tolerance.tolerance
  physics : e.contact.config = e.config.physics

theorem Wired.continues (h : e.Wired) (hc : Continues e e') : e'.Wired where
  ready := h.ready.continues hc
  installed := h.installed.continues hc
  upkeep := hc.upkeepId ▸ h.upkeep.extends hc.registered
  rendering id r hr := by
    rcases hc.renderer id r hr with ⟨r₀, hr₀⟩ | hasks
    · exact (h.rendering id r₀ hr₀).extends hc.registered
    · exact hasks
  tolerance := by rw [hc.tolerance, hc.config, h.tolerance]
  physics := by rw [hc.physics, hc.config, h.physics]

theorem Reachable.wired (h : Reachable e) : e.Wired := by
  refine (h.induction (fun h => ?_) fun _ hc hw => hw.continues hc).2
  obtain ⟨_, hmotion, hcontact, hupkeep, hrenderer, _, htolerance, hphysics⟩ := new_cases h
  exact ⟨ready_new h, ⟨hmotion, hcontact⟩, hupkeep, by simp [hrenderer], htolerance, hphysics⟩

/-- A simulation step: motion, contact and upkeep in turn, each on what the one before it
has left of every entity. -/
theorem Wired.exists_simulate (h : e.Wired) (dt : F32) :
    ∃ w₁ w₂ w₃ solids,
      simulate dt e = .ok () { e with
        world := w₃, contact := e.contact.observe (Contact.found w₁ e.contactId) } ∧
      w₁ = e.world.after (Motion.step e.config.physics e.motionId dt) ∧ e.world.Revalued w₁ ∧
      (∀ x, w₁.parts x = Motion.moved e.config.physics dt (e.world.parts x)) ∧
      Contact.gather w₁ e.contactId = .ok solids ∧ w₁.Revalued w₂ ∧
      (∀ x, w₂.parts x = Contact.outcome e.config.physics solids x (w₁.parts x)) ∧
      w₂.Revalued w₃ ∧
      ∀ x, w₃.parts x = Upkeep.tended e.config.tolerance.tolerance (w₂.parts x) := by
  obtain ⟨w₁, hmotion, h₁, hmoved⟩ :=
    Motion.exists_step_moved h.ready.world h.installed.motion e.config.physics dt
  have hc₁ := h₁.coherent h.ready.world
  obtain ⟨solids, w₂, hg, hcontact, h₂, houtcome⟩ := Contact.exists_step_outcome hc₁
    (h.installed.contact.extends (.rewritten h₁.toRewritten)) e.contact
  have h₁₂ := h₁.trans h₂
  obtain ⟨w₃, hupkeep, h₃, htended⟩ := Upkeep.exists_step_tended (h₂.coherent hc₁)
    (h.upkeep.extends (.rewritten h₁₂.toRewritten))
  rw [h₁₂.tolerance, h.tolerance] at htended
  rw [h.physics] at houtcome
  exact ⟨w₁, w₂, w₃, solids, simulate_of_steps h.ready.behaviors hmotion hcontact hupkeep,
    by rw [World.after, hmotion], h₁, hmoved, hg, h₂, houtcome, h₃, htended⟩

theorem Wired.simulate (h : e.Wired) {dt : F32} (hsim : Engine.simulate dt e = .ok () e') :
    e'.Wired := by
  obtain ⟨world, contact, hrun, hw, hconfig⟩ := simulate_ok h.ready dt
  obtain ⟨-, rfl⟩ := EStateM.Result.ok.inj (hsim.symm.trans hrun)
  exact h.continues (.revalued h.ready.world hw hconfig rfl)

end Engine

end SceneEngine
