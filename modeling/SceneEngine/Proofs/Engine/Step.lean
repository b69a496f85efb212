/-
What one simulation step does to an entity that moves and collides.

Motion moves it and notes where it was, contact puts it back on the axes it is blocked on,
and upkeep leaves positions alone. That contact puts it back to where this step found it,
and not to where some earlier step did, takes two things: whatever contact takes for moving
has been a member of motion in the same step, since each system has all the entities with
the components it asks for (`Installed`), and motion runs first. So it does not matter what
was done to the entity since the last step (`simulate_moves_or_keeps`).
-/
import SceneEngine.Proofs.Contact.Outcome
import SceneEngine.Proofs.Engine.Progress

namespace SceneEngine.Engine

variable {e e' : Engine}

/-! ## Membership in motion and contact -/

/-- Motion and contact ask for what they read and for nothing else. -/
structure Installed (e : Engine) : Prop where
  motion : e.world.AsksExactly e.motionId Motion.required
  contact : e.world.AsksExactly e.contactId Contact.required

theorem Installed.continues (h : e.Installed) (hc : Continues e e') : e'.Installed where
  motion := hc.motionId ▸ h.motion.extends hc.registered
  contact := hc.contactId ▸ h.contact.extends hc.registered

theorem Reachable.installed (h : Reachable e) : e.Installed := by
  refine (h.induction (fun h => ?_) fun _ hc hi => hi.continues hc).2
  obtain ⟨_, hmotion, hcontact, _⟩ := new_cases h
  exact ⟨hmotion, hcontact⟩

/-- The engines in which a simulation step can begin: those that can be reached, and those
in the midst of a tick, after some of its steps and with some time left over. -/
inductive Underway : Engine → Prop
  | reached {e : Engine} : Reachable e → Underway e
  | waited {e : Engine} (leftover : F32) : Underway e → Underway { e with leftover }
  | simulated {e : Engine} (dt : F32) : Underway e → Underway (e.after (simulate dt))

theorem Underway.ready_installed (h : Underway e) : e.Ready ∧ e.Installed := by
  induction h with
  | reached h => exact ⟨h.ready, h.installed⟩
  | @waited e leftover _ ih =>
    obtain ⟨hr, hi⟩ := ih
    have hc : Continues e { e with leftover } :=
      .revalued hr.world (.refl hr.world.storage) rfl rfl
    exact ⟨hr.continues hc, hi.continues hc⟩
  | @simulated e dt _ ih =>
    obtain ⟨hr, hi⟩ := ih
    obtain ⟨world, contact, hrun, hw, hconfig⟩ := simulate_ok hr dt
    rw [after, hrun]
    have hc : Continues e { e with world, contact } := .revalued hr.world hw hconfig rfl
    exact ⟨hr.continues hc, hi.continues hc⟩

/-! ## One entity through the systems -/

section Systems

variable {w : World} {id : SystemId} {x : EntityId} {t : Transform F32} {b : Body} {c : Collider}

theorem exists_motion_moved (hc : w.Coherent) (ha : w.AsksExactly id Motion.required)
    (ht : w.get? .transform x = some t) (hb : w.get? .body x = some b) (config : PhysicsConfig)
    (dt : F32) :
    ∃ w', w.perform (Motion.step config id dt) = (.ok (), w') ∧ w.Revalued w' ∧
      w'.get? .transform x = some (Motion.moveBody config dt t b).1 ∧
      w'.get? .body x = some (Motion.moveBody config dt t b).2 ∧
      w'.get? .collider x = w.get? .collider x := by
  obtain ⟨w', hp, hw', hparts⟩ := Motion.exists_step_moved hc ha config dt
  have hget : ∀ k, w'.get? k x = Motion.moved config dt (w.parts x) k := congrFun (hparts x)
  refine ⟨w', hp, hw', ?_, ?_, hget .collider⟩
  · rw [hget]
    simp [Motion.moved, World.parts, ht, hb]
  · rw [hget]
    simp [Motion.moved, World.parts, ht, hb]

theorem exists_contact_settled (hc : w.Coherent) (ha : w.AsksExactly id Contact.required)
    (hcol : w.get? .collider x = some c) (hsolid : c.solid = true)
    (ht : w.get? .transform x = some t) (m : ContactMemory) :
    ∃ m' w' contacts, Contact.step m id w = (m', .ok () w') ∧ w.Revalued w' ∧
      Contact.Settled w w' (.ofComponents x c t (w.get? .body x)) contacts := by
  obtain ⟨solids, hg⟩ := Contact.exists_gather_of_asks hc ha.asks
  obtain ⟨ids, h⟩ := Contact.exists_gathered hg
  have hx : x ∈ ids := (ha.mem_iff (by decide) hc h.members).mpr fun k hk => by
    simp only [Contact.required, List.mem_cons, List.not_mem_nil, or_false] at hk
    rcases hk with rfl | rfl <;> simp [ht, hcol]
  have hmem := (h.mem_iff _).mpr
    ⟨x, hx, Contact.snapshot_eq_some_iff.mpr ⟨c, t, hcol, hsolid, ht, rfl⟩⟩
  obtain ⟨i, hi⟩ := Contact.exists_get_of_mem hmem
  obtain ⟨m', w', hstep, hw', hsettled⟩ := Contact.exists_step_settled hc hg m
  exact ⟨m', w', _, hstep, hw', hi ▸ hsettled i⟩

theorem exists_upkeep_tended (hc : w.Coherent) (ha : w.Asks id Upkeep.required)
    (ht : w.get? .transform x = some t) :
    ∃ w' t', w.perform (Upkeep.step id) = (.ok (), w') ∧ w'.get? .transform x = some t' ∧
      t'.position = t.position ∧ w'.get? .body x = w.get? .body x ∧
      w'.get? .collider x = w.get? .collider x := by
  obtain ⟨ids, w', _, hp, _, hparts⟩ := Upkeep.step_parts hc ha
  -- A member is tended, anything else left; the position is the same either way.
  by_cases hx : x ∈ ids
  · have hget : ∀ k, w'.get? k x = Upkeep.tended w.tolerance (w.parts x) k :=
      congrFun ((hparts x).trans (if_pos hx))
    refine ⟨w', _, hp, ?_, Upkeep.position_tend w.tolerance t, hget .body, hget .collider⟩
    rw [hget]
    simp [Upkeep.tended, World.parts, ht]
  · have hget : ∀ k, w'.get? k x = w.get? k x := congrFun ((hparts x).trans (if_neg hx))
    exact ⟨w', t, hp, (hget _).trans ht, rfl, hget .body, hget .collider⟩

end Systems

/-! ## A simulation step -/

/-- **A step moves an entity or keeps it, axis by axis.** Of an entity with a transform, a
body that is not fixed and a solid collider, a simulation step of any length leaves each
coordinate as it found it or adds what the velocity of this step makes of the time. A
coordinate is kept where the collider says that the axis was blocked, and moved where it
does not, unless the velocity has no length. The previous position is the one before this
step. -/
theorem simulate_moves_or_keeps (h : Underway e) (dt : F32) {x : EntityId} {t : Transform F32}
    {b : Body} {c : Collider} (ht : e.world.get? .transform x = some t)
    (hb : e.world.get? .body x = some b) (hfree : b.fixed = false)
    (hcol : e.world.get? .collider x = some c) (hsolid : c.solid = true) :
    ∃ e' t' b' c', simulate dt e = .ok () e' ∧ e'.world.get? .transform x = some t' ∧
      e'.world.get? .body x = some b' ∧ e'.world.get? .collider x = some c' ∧
      b'.previousPosition = t.position ∧
      ∀ k : Fin 3,
        (t'.position[k] = t.position[k] ∨
          t'.position[k] = t.position[k] + (b.integrate e.config.physics dt).velocity[k] * dt) ∧
        (c'.report.blockedAxes[k] = true → t'.position[k] = t.position[k]) ∧
        (c'.report.blockedAxes[k] = false →
          0 < (b.integrate e.config.physics dt).velocity.lengthSquared →
          t'.position[k] = t.position[k] + (b.integrate e.config.physics dt).velocity[k] * dt) := by
  obtain ⟨hr, hi⟩ := h.ready_installed
  obtain ⟨w₁, hmotion, h₁, ht₁, hb₁, hcol₁⟩ :=
    exists_motion_moved hr.world hi.motion ht hb e.config.physics dt
  have hc₁ := h₁.coherent hr.world
  have ha₁ := hi.contact.extends (.rewritten h₁.toRewritten)
  obtain ⟨m, w₂, contacts, hcontact, h₂, hsettled⟩ :=
    exists_contact_settled hc₁ ha₁ (hcol₁.trans hcol) hsolid ht₁ e.contact
  rw [hb₁] at hsettled
  have hr₂ : Ready { e with world := w₂, contact := m, leftover := e.leftover } :=
    hr.rewritten (h₁.trans h₂).toRewritten
  obtain ⟨t₂, ht₂, hp₂⟩ := hsettled.transform
  obtain ⟨c₂, hcol₂, _, _, haxes⟩ := hsettled.collider
  obtain ⟨b₂, hb₂, hprev₂⟩ := hsettled.body _ hb₁
  obtain ⟨w₃, t₃, hupkeep, ht₃, hp₃, hb₃, hcol₃⟩ :=
    exists_upkeep_tended hr₂.world hr₂.upkeep ht₂
  refine ⟨_, t₃, b₂, c₂, simulate_of_steps hr.behaviors hmotion hcontact hupkeep, ht₃,
    hb₃.trans hb₂, hcol₃.trans hcol₂, ?_, fun k => ?_⟩
  · rw [hprev₂, Motion.previousPosition_moveBody]
  · rw [haxes (by simp [Contact.Solid.ofComponents, hfree]), hp₃, hp₂,
      Contact.Solid.restingPosition, Vec.getElem_ofFn]
    simp only [Contact.Solid.ofComponents, Motion.fixed_moveBody, hfree, Bool.false_eq_true, if_false,
      Motion.previousPosition_moveBody, Motion.position_moveBody _ _ _ _ hfree]
    cases contacts.blocked[k] with
    | true => simp
    | false =>
      by_cases hlength : 0 < (b.integrate e.config.physics dt).velocity.lengthSquared <;>
        simp [hlength]

/-- A body that moves right and up. -/
def loose : Body := { Body.immovable with fixed := false, velocity := .of3 1 1 0 }

/-- A place a quarter above the origin. -/
def above : Vec F32 3 := .of3 0 (Scalar.half * Scalar.half) 0

/-- Two cubes beside each other. The first was fixed for a tick, and is then moved by hand and
set in motion. -/
def released (e : Engine) : Engine :=
  let cubes := Request.cube 0 .origin ++ Request.cube 1 (.ofPosition (.of3 (1 + Scalar.half) 0 0))
  ((e.serving (cubes ++ [.add .body 0 .immovable])).after (tick 1)).serving
    [.update .transform 0 (·.setPosition above), .update .body 0 fun _ => loose]

theorem reachable_released (h : Reachable e) : Reachable (released e) :=
  .serving (.tick _ (h.serving _)) _

/-- An entity that was fixed in the last step and has since been moved by hand and set in
motion: it is kept on the axis on which it runs into another, and moves on along it. -/
theorem simulate_moves_or_keeps_by_hand :
    ∃ (e e' : Engine) (t t' : Transform F32) (b b' : Body), Reachable e ∧ e.frame = 1 ∧
      e.world.get? .transform 0 = some t ∧ e.world.get? .body 0 = some b ∧
      b.previousPosition ≠ t.position ∧ simulate 1 e = .ok () e' ∧
      e'.world.get? .transform 0 = some t' ∧ e'.world.get? .body 0 = some b' ∧
      b'.previousPosition = t.position ∧ t'.position.x = t.position.x ∧
      t'.position.y = t.position.y + (b.integrate e.config.physics 1).velocity.y * 1 := by
  have hfacts : (Engine.new .standard).toOption.any (fun e =>
      (released e).frame = 1 ∧ (released e).config.physics = .standard ∧
      ((released e).world.get? .transform 0).map Transform.position = some above ∧
      (released e).world.get? .body 0 = some loose ∧
      ((released e).world.get? .collider 0).map Collider.solid = some true ∧
      ((((released e).outcome? (simulate 1)).bind fun (_, e') => e'.world.get? .collider 0).map
        (·.report.blockedAxes)) = some (.of3 true false false)) = true := by
    decide +kernel
  obtain ⟨e₀, hnew, hfacts⟩ := (Option.any_eq_true _ _).mp hfacts
  obtain ⟨hframe, hconfig, hposition, hb, hsolid, haxes⟩ := of_decide_eq_true hfacts
  obtain ⟨t, ht, hposition⟩ := Option.map_eq_some_iff.mp hposition
  obtain ⟨c, hc, hsolid⟩ := Option.map_eq_some_iff.mp hsolid
  have hreach : Reachable (released e₀) := reachable_released (.new (eq_ok_of_toOption hnew))
  obtain ⟨e', t', b', c', hsim, ht', hb', hc', hprev, hall⟩ :=
    simulate_moves_or_keeps (.reached hreach) 1 ht hb rfl hc hsolid
  have hblocked : c'.report.blockedAxes = .of3 true false false := by
    simpa only [outcome?_eq_some_iff.mpr hsim, Option.bind_some, hc', Option.map_some,
      Option.some.injEq] using haxes
  refine ⟨released e₀, e', t, t', loose, b', hreach, hframe, ht, hb, ?_, hsim, ht', hb', hprev,
    (hall 0).2.1 (by rw [hblocked]; rfl), (hall 1).2.2 (by rw [hblocked]; rfl) ?_⟩
  · rw [hposition]
    decide +kernel
  · rw [hconfig]
    decide +kernel

end SceneEngine.Engine
