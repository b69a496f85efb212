/-
What ticks leave alone.

Ticks change values of components and neither entities nor systems, and of the components
only transforms, bodies and colliders. Of these they keep what a user has given: the scale
of a transform and where it stands, unless a body moves it; its rotation, which is wrapped
once in each simulation step; what a body is made of; and the box of a collider (`Kept`).
Each system keeps this of every entity, so a step does, and from there any number of ticks
(`Wired.ticks_kept`).
-/
import Mathlib.Algebra.Order.Ring.Nat
import SceneEngine.Proofs.Engine.Effects

namespace SceneEngine

/-- What a body is made of. Its motion is not part of it. -/
def Body.traits (b : Body) : F32 × F32 × Option F32 × Bool × Bool :=
  (b.mass, b.friction, b.airFriction, b.fixed, b.affectedByGravity)

/-- A rotation as upkeep leaves it: wrapped, unless that makes no difference. -/
def Upkeep.wrapped (rotation : Vec F32 3) : Vec F32 3 :=
  if (Transform.wrapRotation rotation).alike rotation then rotation
  else Transform.wrapRotation rotation

namespace Parts

/-- What `n` simulation steps leave of the components of an entity. -/
structure Kept (n : Nat) (p q : Parts) : Prop where
  other : ∀ k, k ≠ .transform → k ≠ .body → k ≠ .collider → q k = p k
  scale : (q .transform).map Transform.scale = (p .transform).map Transform.scale
  rotation : (q .transform).map Transform.rotation =
    (p .transform).map fun t => Upkeep.wrapped^[n] t.rotation
  traits : (q .body).map Body.traits = (p .body).map Body.traits
  bounds : (q .collider).map Collider.bounds = (p .collider).map Collider.bounds
  solid : (q .collider).map Collider.solid = (p .collider).map Collider.solid
  /-- Without a body, or with a fixed one. -/
  position : (∀ b, p .body = some b → b.fixed = true) →
    (q .transform).map Transform.position = (p .transform).map Transform.position

variable {m n : Nat} {p q r : Parts}

theorem Kept.refl (p : Parts) : Kept 0 p p :=
  ⟨fun _ _ _ _ => rfl, rfl, rfl, rfl, rfl, rfl, fun _ => rfl⟩

theorem Kept.fixed (h : Kept n p q) (hp : ∀ b, p .body = some b → b.fixed = true) {b : Body}
    (hb : q .body = some b) : b.fixed = true := by
  have ht := h.traits
  rw [hb, Option.map_some] at ht
  obtain ⟨b₀, hb₀, heq⟩ := Option.map_eq_some_iff.mp ht.symm
  simp only [Body.traits, Prod.mk.injEq] at heq
  rw [← heq.2.2.2.1]
  exact hp b₀ hb₀

theorem Kept.trans (h : Kept m p q) (h' : Kept n q r) : Kept (m + n) p r where
  other k ht hb hc := (h'.other k ht hb hc).trans (h.other k ht hb hc)
  scale := h'.scale.trans h.scale
  rotation := by
    have hq : (q .transform).map (fun t => Upkeep.wrapped^[n] t.rotation) =
        ((q .transform).map Transform.rotation).map Upkeep.wrapped^[n] := by
      rw [Option.map_map]
      rfl
    rw [h'.rotation, hq, h.rotation, Option.map_map]
    simp only [Function.comp_def, ← Function.iterate_add_apply, Nat.add_comm]
  traits := h'.traits.trans h.traits
  bounds := h'.bounds.trans h.bounds
  solid := h'.solid.trans h.solid
  position hp := (h'.position fun _ hb => h.fixed hp hb).trans (h.position hp)

/-- Transform, body and collider are each changed into another that keeps what counts. -/
theorem kept_of_map {f : Transform F32 → Transform F32} {g : Body → Body} {h : Collider → Collider}
    (ht : q .transform = (p .transform).map f) (hb : q .body = (p .body).map g)
    (hc : q .collider = (p .collider).map h)
    (other : ∀ k, k ≠ .transform → k ≠ .body → k ≠ .collider → q k = p k)
    (hf : ∀ t, p .transform = some t →
      (f t).scale = t.scale ∧ (f t).rotation = Upkeep.wrapped^[n] t.rotation ∧
      ((∀ b, p .body = some b → b.fixed = true) → (f t).position = t.position))
    (hg : ∀ b, (g b).traits = b.traits)
    (hh : ∀ c, (h c).bounds = c.bounds ∧ (h c).solid = c.solid) : Kept n p q where
  other := other
  scale := by
    rw [ht, Option.map_map]
    exact Option.map_congr fun t h => (hf t h).1
  rotation := by
    rw [ht, Option.map_map]
    exact Option.map_congr fun t h => (hf t h).2.1
  traits := by
    rw [hb, Option.map_map]
    exact Option.map_congr fun b _ => hg b
  bounds := by
    rw [hc, Option.map_map]
    exact Option.map_congr fun c _ => (hh c).1
  solid := by
    rw [hc, Option.map_map]
    exact Option.map_congr fun c _ => (hh c).2
  position hp := by
    rw [ht, Option.map_map]
    exact Option.map_congr fun t h => (hf t h).2.2 hp

/-- Only the collider is changed. -/
theorem kept_of_collider {h : Collider → Collider} (hc : q .collider = (p .collider).map h)
    (other : ∀ k, k ≠ .collider → q k = p k)
    (hh : ∀ c, (h c).bounds = c.bounds ∧ (h c).solid = c.solid) : Kept 0 p q := by
  refine kept_of_map (f := id) (g := id) ?_ ?_ hc (fun k _ _ hk => other k hk)
    (fun t _ => ⟨rfl, rfl, fun _ => rfl⟩) (fun b => rfl) hh
  · rw [Option.map_id, id, other .transform (by decide)]
  · rw [Option.map_id, id, other .body (by decide)]

end Parts

/-! ## The systems -/

namespace Motion

variable (config : PhysicsConfig) (dt : F32) (t : Transform F32) (b : Body)

theorem traits_moveBody : (moveBody config dt t b).2.traits = b.traits := by
  rw [moveBody_snd, Body.integrate]
  split <;> rfl

/-- A body moves a transform from its place, unless it is fixed, and does nothing else to it. -/
theorem moveBody_fst : (moveBody config dt t b).1 = t ∨
    b.fixed = false ∧ ∃ position, (moveBody config dt t b).1 = t.setPosition position := by
  have hfixed := fixed_moveBody config dt t b
  rw [moveBody_snd] at hfixed
  unfold moveBody
  dsimp only
  split
  · next hmoves =>
    rw [hfixed] at hmoves
    exact .inr ⟨by simpa using (Bool.and_eq_true_iff.mp hmoves).1, _, rfl⟩
  · exact .inl rfl

theorem kept_moved (p : Parts) : p.Kept 0 (moved config dt p) := by
  by_cases hlacks : p .transform = none ∨ p .body = none
  · rw [moved_of_lacking config dt hlacks]
    exact .refl p
  · rw [not_or] at hlacks
    obtain ⟨t, ht⟩ := Option.ne_none_iff_exists'.mp hlacks.1
    obtain ⟨b, hb⟩ := Option.ne_none_iff_exists'.mp hlacks.2
    refine Parts.kept_of_map (f := fun t => (moveBody config dt t b).1)
      (g := fun b => (moveBody config dt t b).2) (h := id) ?_ ?_ ?_ ?_ ?_ ?_ ?_
    · simp [moved, ht, hb]
    · simp [moved, ht, hb]
    · simp [moved]
    · intro k ht hb _
      cases k <;> simp_all [moved]
    · intro t _
      rcases moveBody_fst config dt t b with hstays | ⟨hfree, position, hmoves⟩
      · simp [hstays]
      · rw [hmoves]
        exact ⟨rfl, rfl, fun hfixed => by simp [hfixed b hb] at hfree⟩
    · exact fun b => traits_moveBody config dt t b
    · exact fun c => ⟨rfl, rfl⟩

end Motion

namespace Contact

variable {w : World} {id : SystemId} {p : Parts}

/-- Only a body that is not fixed is resolved, so the place of any other is kept. -/
theorem kept_resolved (config : PhysicsConfig) (s : Solid) (c : AxisContacts) {b : Body}
    (hb : p .body = some b) (hfree : b.fixed = false) : p.Kept 0 (resolved config s c p) := by
  refine Parts.kept_of_map rfl rfl rfl (fun k ht hb hc => ?_) (fun t _ => ?_) (fun b => ?_)
    fun collider => ⟨rfl, rfl⟩
  · cases k <;> simp_all [resolved]
  · refine ⟨?_, ?_, fun hfixed => by simp [hfixed b hb] at hfree⟩ <;> split <;> rfl
  · dsimp only
    split <;> rfl

theorem kept_reported (collidingWith blockedBy : List EntityId) (p : Parts) :
    p.Kept 0 (reported collidingWith blockedBy p) := by
  refine Parts.kept_of_collider rfl (fun k hk => ?_) fun c => ⟨rfl, rfl⟩
  cases k <;> simp_all [reported]

theorem kept_cleared (p : Parts) : p.Kept 0 (cleared p) := by
  refine Parts.kept_of_collider rfl (fun k hk => ?_) fun c => ?_
  · cases k <;> simp_all [cleared]
  · split <;> exact ⟨rfl, rfl⟩

theorem exists_body_of_dynamic {s : Solid} {e : EntityId} (h : snapshot w e = .ok (some s))
    (hdyn : s.dynamic = true) : ∃ b, w.parts s.entity .body = some b ∧ b.fixed = false := by
  obtain ⟨c, t, _, _, _, rfl⟩ := snapshot_eq_some_iff.mp h
  simpa [Solid.ofComponents, World.parts, Option.any_eq_true] using hdyn

theorem kept_outcome {solids : Array Solid} (hg : gather w id = .ok solids) (config : PhysicsConfig)
    (x : EntityId) : (w.parts x).Kept 0 (outcome config solids x (w.parts x)) := by
  obtain ⟨ids, h⟩ := exists_gathered hg
  rcases outcome_cases config solids x (w.parts x) with ⟨i, rfl, heq⟩ | ⟨_, heq⟩ <;> rw [heq]
  · refine .trans (m := 0) (n := 0) ?_ (kept_reported _ _ _)
    unfold relieved
    split
    · next hdyn =>
      obtain ⟨e, _, he⟩ := (h.mem_iff _).mp (Array.getElem_mem i.isLt)
      obtain ⟨b, hb, hfree⟩ := exists_body_of_dynamic he hdyn
      exact kept_resolved config _ _ hb hfree
    · exact .refl _
  · split
    · exact kept_cleared _
    · exact .refl _

end Contact

namespace Upkeep

theorem refresh_keeps {α ω : Type} [Scalar α] [Scalar ω] [Widening α ω] (tolerance : Tolerance ω)
    (t : Transform α) :
    (t.refresh tolerance).1.rotation = t.rotation ∧ (t.refresh tolerance).1.scale = t.scale := by
  unfold Transform.refresh
  split <;> exact ⟨rfl, rfl⟩

theorem rotation_tend (tolerance : Tolerance F64) (t : Transform F32) :
    (tend tolerance t).rotation = wrapped t.rotation := by
  unfold tend wrapped
  dsimp only
  rw [(refresh_keeps _ _).1]
  split <;> rfl

theorem scale_tend (tolerance : Tolerance F64) (t : Transform F32) :
    (tend tolerance t).scale = t.scale := by
  unfold tend
  dsimp only
  rw [(refresh_keeps _ _).2]
  split <;> rfl

theorem kept_tended (tolerance : Tolerance F64) (p : Parts) : p.Kept 1 (tended tolerance p) := by
  refine Parts.kept_of_map (g := id) (h := id) rfl ?_ ?_ (fun k ht _ _ => ?_) (fun t _ => ?_)
    (fun b => rfl) fun c => ⟨rfl, rfl⟩
  · simp [tended]
  · simp [tended]
  · cases k <;> simp_all [tended]
  · exact ⟨scale_tend tolerance t, rotation_tend tolerance t, fun _ => position_tend tolerance t⟩

end Upkeep

/-! ## Ticks -/

namespace Engine

variable {e e' : Engine}

theorem simulate_kept (h : e.Wired) {dt : F32} (hsim : simulate dt e = .ok () e') (x : EntityId) :
    (e.world.parts x).Kept 1 (e'.world.parts x) := by
  obtain ⟨w₁, w₂, w₃, solids, hrun, _, _, hmoved, hg, _, houtcome, _, htended⟩ := h.exists_simulate dt
  obtain ⟨-, rfl⟩ := EStateM.Result.ok.inj (hsim.symm.trans hrun)
  have hk₁ := Motion.kept_moved e.config.physics dt (e.world.parts x)
  have hk₂ := Contact.kept_outcome hg e.config.physics x
  have hk₃ := Upkeep.kept_tended e.config.tolerance.tolerance (w₂.parts x)
  rw [← hmoved] at hk₁
  rw [← houtcome] at hk₂
  rw [← htended] at hk₃
  exact (hk₁.trans hk₂).trans hk₃

theorem simulateAll_kept (h : e.Wired) {lengths : List F32}
    (hall : simulateAll lengths e = .ok () e') (x : EntityId) :
    (e.world.parts x).Kept lengths.length (e'.world.parts x) := by
  induction lengths generalizing e with
  | nil =>
    obtain rfl := simulateAll_nil_eq_ok_iff.mp hall
    exact .refl _
  | cons dt rest ih =>
    obtain ⟨e₁, hsim, hrest⟩ := simulateAll_cons_eq_ok_iff.mp hall
    rw [List.length_cons, Nat.add_comm]
    exact (simulate_kept h hsim x).trans (ih (h.simulate hsim) hrest)

theorem Wired.tick_kept (h : e.Wired) (dt : F32) :
    ∃ stats e', Engine.tick dt e = .ok stats e' ∧ e'.Wired ∧ e.world.Rewritten e'.world ∧
      ∀ x, (e.world.parts x).Kept stats.steps (e'.world.parts x) := by
  obtain ⟨stats, e', htick, hc, hw, _⟩ := h.ready.tick dt
  refine ⟨stats, e', htick, h.continues hc, hw, ?_⟩
  obtain ⟨world, contact, renderer, hall, _, rfl, rfl⟩ := tick_eq_ok_iff.mp htick
  have hk := simulateAll_kept h hall
  rwa [stepsOf, List.length_replicate] at hk

theorem Wired.ticks_kept (h : e.Wired) (dts : List F32) :
    ∃ all e', ticks dts e = .ok all e' ∧ e.world.Rewritten e'.world ∧
      ∀ x, (e.world.parts x).Kept (all.map TickStats.steps).sum (e'.world.parts x) := by
  induction dts generalizing e with
  | nil => exact ⟨[], e, rfl, .refl h.ready.world.storage, fun x => .refl _⟩
  | cons dt rest ih =>
    obtain ⟨stats, e₁, htick, hw₁, h₁, hk₁⟩ := h.tick_kept dt
    obtain ⟨all, e', hrest, h', hk⟩ := ih hw₁
    exact ⟨stats :: all, e', ticks_cons_eq_ok_iff.mpr ⟨stats, e₁, all, htick, hrest, rfl⟩,
      h₁.trans h', fun x => (hk₁ x).trans (hk x)⟩

/-- **What ticks leave alone.** However an engine came about, any number of ticks of any
lengths come to their end. All entities keep their names and signatures, all kinds their
places and all systems their members. Of the components of each entity everything is kept
but what simulation steps are there to change. -/
theorem ticks_keep (h : Reachable e) (dts : List F32) :
    ∃ all e', ticks dts e = .ok all e' ∧ e'.world.entities = e.world.entities ∧
      e'.world.storage.kinds = e.world.storage.kinds ∧ e'.world.roster = e.world.roster ∧
      ∀ x, (e.world.parts x).Kept (all.map TickStats.steps).sum (e'.world.parts x) := by
  obtain ⟨all, e', hticks, hw, hk⟩ := h.wired.ticks_kept dts
  exact ⟨all, e', hticks, hw.entities, hw.kinds, hw.roster, hk⟩

/-- Beside a body that falls, one that is fixed and turned beyond a full turn. -/
def overturned (e : Engine) : Engine :=
  e.serving [.create none, .add .transform 0 (.new .zero (.of3 (400 : Nat) 0 0) (.splat 1)),
    .add .body 0 .immovable, .create none, .add .transform 1 .origin,
    .add .body 1 { Body.immovable with fixed := false, affectedByGravity := true },
    .add (.custom 0) 0 7]

/-- The two bodies ticked three times, once by a negative time. -/
theorem ticks_keep_turned :
    ∃ (e e' : Engine) (all : List TickStats) (t t' : Transform F32), Reachable e ∧
      ticks [1, -1, 1] e = .ok all e' ∧ (all.map TickStats.steps).sum = 3 ∧
      e.world.get? .transform 0 = some t ∧ t.rotation = .of3 (400 : Nat) 0 0 ∧
      e'.world.get? .transform 0 = some t' ∧ t'.position = t.position ∧
      t'.rotation = Transform.wrapRotation t.rotation ∧ e'.world.get? (.custom 0) 0 = some 7 := by
  have hfacts : (Engine.new .standard).toOption.any (fun e =>
      ((overturned e).outcome? (ticks [1, -1, 1])).map (fun (all, _) => (all.map TickStats.steps).sum) =
        some 3 ∧
      (overturned e).world.get? (.custom 0) 0 = some 7 ∧
      ((overturned e).world.get? .transform 0).map Transform.rotation = some (.of3 (400 : Nat) 0 0) ∧
      ((overturned e).world.get? .body 0).map Body.fixed = some true) = true := by
    decide +kernel
  obtain ⟨e₀, hnew, hfacts⟩ := (Option.any_eq_true _ _).mp hfacts
  obtain ⟨hsteps, hcustom, hrotation, hfixed⟩ := of_decide_eq_true hfacts
  obtain ⟨t, ht, hrotation⟩ := Option.map_eq_some_iff.mp hrotation
  obtain ⟨b, hb, hfixed⟩ := Option.map_eq_some_iff.mp hfixed
  have hreach : Reachable (overturned e₀) := .serving (.new (eq_ok_of_toOption hnew)) _
  obtain ⟨all, e', hticks, _, _, _, hkept⟩ := ticks_keep hreach [1, -1, 1]
  have hsum : (all.map TickStats.steps).sum = 3 := by
    simpa only [outcome?_eq_some_iff.mpr hticks, Option.map_some, Option.some.injEq] using hsteps
  rw [hsum] at hkept
  have hpt : (overturned e₀).world.parts 0 .transform = some t := ht
  have hpb : (overturned e₀).world.parts 0 .body = some b := hb
  have hturned := (hkept 0).rotation
  rw [hpt, Option.map_some] at hturned
  obtain ⟨t', ht', hturned⟩ := Option.map_eq_some_iff.mp hturned
  have hplace := (hkept 0).position fun b' hb' => by
    rw [hpb, Option.some.injEq] at hb'
    exact hb' ▸ hfixed
  rw [hpt, ht', Option.map_some, Option.map_some, Option.some.injEq] at hplace
  refine ⟨overturned e₀, e', all, t, t', hreach, hticks, hsum, ht, hrotation, ht', hplace, ?_,
    ((hkept 0).other (.custom 0) (by decide) (by decide) (by decide)).trans hcustom⟩
  rw [hturned, hrotation]
  decide +kernel

end Engine

end SceneEngine
