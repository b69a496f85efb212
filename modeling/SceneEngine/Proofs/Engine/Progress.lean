/-
A tick of an engine without added behaviors never fails.

Each built-in system gives up when a member lacks a component. None of them ever does:
a system asks for the components it reads, and a member has what its system asks for, as
long as entities, components and systems are in step. That they are is an invariant of
all engines that can be reached (`Reachable.ready`), and the systems of a tick keep it
for one another because they change only values. What no operation changes of an engine is
said once (`Continues`), so that an invariant need only look at that
(`Reachable.induction`).
-/
import SceneEngine.Proofs.Contact.Outcome
import SceneEngine.Proofs.Engine.Ticks
import SceneEngine.Proofs.World.Motion

namespace SceneEngine

/-! ## The built-in systems -/

section Systems

variable {w : World} {id : SystemId}

theorem Contact.exists_gather_of_asks (hc : w.Coherent) (ha : w.Asks id required) :
    ∃ solids, gather w id = .ok solids := by
  obtain ⟨ids, hm, hids⟩ := ha.members hc
  exact exists_gather hm fun e he =>
    exists_snapshot (hids e he _ (by simp [required])) (hids e he _ (by simp [required]))

theorem Contact.exists_step (hc : w.Coherent) (ha : w.Asks id required) (m : ContactMemory) :
    ∃ w', step m id w = (m.observe (found w id), .ok () w') ∧ w.Revalued w' := by
  obtain ⟨solids, hg⟩ := exists_gather_of_asks hc ha
  obtain ⟨w', hstep, hw', _⟩ := exists_step_parts hc hg m
  exact ⟨w', hstep, hw'⟩

theorem Rendering.exists_step (hc : w.Coherent) (ha : w.Asks id required) (r : Rendering) :
    ∃ r', r.step id w = .ok r' := by
  obtain ⟨ids, hm, hids⟩ := ha.members hc
  have hpacket : ∀ e ∈ ids, ∃ p, packet w e = .ok p := by
    intro e he
    obtain ⟨t, ht⟩ := Option.isSome_iff_exists.mp (hids e he .transform (by simp [required]))
    obtain ⟨d, hd⟩ := Option.isSome_iff_exists.mp (hids e he .drawable (by simp [required]))
    -- A draw that is hidden or has no normal matrix is left out and fails nothing.
    cases hv : d.visible <;> cases hn : t.normalMatrix w.tolerance <;>
      simp [packet, World.component, ht, hd, hv, hn, bind, Except.bind, pure, Except.pure]
  obtain ⟨drawn, hdrawn⟩ := exists_mapM_eq_ok hpacket
  exact ⟨_, by simp [step, packets, hm, hdrawn, bind, Except.bind, pure, Except.pure]; rfl⟩

end Systems

namespace Engine

variable {e : Engine}

/-! ## Engines that can be reached -/

/-- The engine an action leaves, also when it fails. -/
def after {β : Type} (e : Engine) (action : EngineAction β) : Engine :=
  match action e with
  | .ok _ e => e
  | .error _ e => e

/-- What runs alike leaves the same. -/
theorem after_congr {β : Type} {e e₁ : Engine} {a b : EngineAction β} (h : a e = b e₁) :
    e.after a = e₁.after b := by
  rw [after, after, h]

/-- The engines that come of a new one to which no behavior is added. The receivers of
events and frames act on their channels as they like. -/
inductive Reachable : Engine → Prop
  | new {config : EngineConfig} {e : Engine} : Engine.new config = .ok e → Reachable e
  | serve {e : Engine} (r : Request) : Reachable e → Reachable (e.after (onWorld (World.serve r)))
  | registerSystem {e : Engine} (name : String) (required : Signature) :
    Reachable e → Reachable (e.after (onWorld (World.registerSystem name required)))
  | registerSystemFor {e : Engine} (name : String) (kinds : List Kind) :
    Reachable e → Reachable (e.after (onWorld (World.registerSystemFor name kinds)))
  | attachRenderer {e : Engine} (capacity : Nat) :
    Reachable e → Reachable (e.after (attachRenderer capacity))
  | tick {e : Engine} (dt : F32) : Reachable e → Reachable (e.after (tick dt))
  | receiveEvents {e : Engine} (events : Channel ContactEvent) :
    Reachable e → Reachable { e with contact := { e.contact with events } }
  | receiveFrames {e : Engine} {id : SystemId} {r : Rendering} (frames : Channel Frame) :
    e.renderer = some (id, r) → Reachable e →
      Reachable { e with renderer := some (id, { r with frames }) }

/-- The engine a series of requests to its world leaves. -/
def serving (e : Engine) (rs : List Request) : Engine :=
  rs.foldl (fun e r => e.after (onWorld (World.serve r))) e

theorem Reachable.serving (h : Reachable e) (rs : List Request) : Reachable (e.serving rs) := by
  induction rs generalizing e with
  | nil => exact h
  | cons r rest ih => exact ih (h.serve r)

/-- The world is in step, and every system of a tick asks for what it reads. -/
structure Ready (e : Engine) : Prop where
  world : e.world.Coherent
  motion : e.world.Asks e.motionId Motion.required
  contact : e.world.Asks e.contactId Contact.required
  upkeep : e.world.Asks e.upkeepId Upkeep.required
  rendering : ∀ id r, e.renderer = some (id, r) → e.world.Asks id Rendering.required
  behaviors : e.behaviors = []

/-- What a step of the simulation may change. -/
theorem Ready.rewritten {world : World} {contact : ContactMemory} {leftover : F32} (h : e.Ready)
    (hw : e.world.Rewritten world) : Ready { e with world, contact, leftover } where
  world := hw.coherent h.world
  motion := h.motion.extends (.rewritten hw)
  contact := h.contact.extends (.rewritten hw)
  upkeep := h.upkeep.extends (.rewritten hw)
  rendering id r hr := (h.rendering id r hr).extends (.rewritten hw)
  behaviors := h.behaviors

/-- What no operation on an engine changes: its configuration, its systems, and what the
world has registered. A renderer is the one there was, or it asks for what it reads. -/
structure Continues (e e' : Engine) : Prop where
  config : e'.config = e.config
  motionId : e'.motionId = e.motionId
  contactId : e'.contactId = e.contactId
  upkeepId : e'.upkeepId = e.upkeepId
  behaviors : e'.behaviors = e.behaviors
  physics : e'.contact.config = e.contact.config
  world : e'.world.Coherent
  registered : e.world.Extends e'.world
  tolerance : e'.world.tolerance = e.world.tolerance
  renderer : ∀ id r, e'.renderer = some (id, r) →
    (∃ r₀, e.renderer = some (id, r₀)) ∨ e'.world.AsksExactly id Rendering.required

theorem Continues.ofWorld {world : World} (hc : world.Coherent) (hw : e.world.Extends world)
    (ht : world.tolerance = e.world.tolerance) : Continues e { e with world } :=
  ⟨rfl, rfl, rfl, rfl, rfl, rfl, hc, hw, ht, fun _ r hr => .inl ⟨r, hr⟩⟩

/-- A renderer under the id of another stands for that one. -/
theorem exists_renderer {renderer before : Option (SystemId × Rendering)} {id : SystemId} {r : Rendering}
    (hid : renderer.map Prod.fst = before.map Prod.fst) (hr : renderer = some (id, r)) :
    ∃ r₀, before = some (id, r₀) := by
  rw [hr, Option.map_some] at hid
  obtain ⟨⟨_, r₀⟩, hr₀, rfl⟩ := Option.map_eq_some_iff.mp hid.symm
  exact ⟨r₀, hr₀⟩

/-- What a tick may change: a renderer stays the one it is. -/
theorem Continues.revalued {world : World} {contact : ContactMemory} {leftover : F32}
    {renderer : Option (SystemId × Rendering)} {frame : Nat} (hc : e.world.Coherent)
    (hw : e.world.Revalued world) (hconfig : contact.config = e.contact.config)
    (hid : renderer.map Prod.fst = e.renderer.map Prod.fst) :
    Continues e { e with world, contact, leftover, renderer, frame } := by
  refine ⟨rfl, rfl, rfl, rfl, rfl, hconfig, hw.coherent hc, .rewritten hw.toRewritten, hw.tolerance,
    fun id r hr => .inl ?_⟩
  exact exists_renderer hid hr

theorem Ready.continues {e' : Engine} (h : e.Ready) (hc : Continues e e') : e'.Ready where
  world := hc.world
  motion := hc.motionId ▸ h.motion.extends hc.registered
  contact := hc.contactId ▸ h.contact.extends hc.registered
  upkeep := hc.upkeepId ▸ h.upkeep.extends hc.registered
  rendering id r hr := by
    rcases hc.renderer id r hr with ⟨r₀, hr₀⟩ | hasks
    · exact (h.rendering id r₀ hr₀).extends hc.registered
    · exact hasks.asks
  behaviors := hc.behaviors.trans h.behaviors

/-! ## A tick -/

/-- A simulation step is its systems one after the other, when no behavior is added. -/
theorem simulate_of_steps {dt : F32} {m : ContactMemory} {w₁ w₂ w₃ : World} (hb : e.behaviors = [])
    (hmotion : e.world.perform (Motion.step e.config.physics e.motionId dt) = (.ok (), w₁))
    (hcontact : Contact.step e.contact e.contactId w₁ = (m, .ok () w₂))
    (hupkeep : w₂.perform (Upkeep.step e.upkeepId) = (.ok (), w₃)) :
    simulate dt e = .ok () { e with world := w₃, contact := m } := by
  have hrest : e.behaviors.run dt w₃ = .ok () w₃ := by
    rw [hb]
    rfl
  exact simulate_eq_ok_iff.mpr ⟨w₁, m, w₂, w₃, w₃, World.eq_ok_of_perform hmotion, hcontact,
    World.eq_ok_of_perform hupkeep, hrest, rfl⟩

theorem simulate_ok (h : e.Ready) (dt : F32) :
    ∃ world contact, simulate dt e = .ok () { e with world, contact } ∧
      e.world.Revalued world ∧ contact.config = e.contact.config := by
  -- Each system begins in the world the one before it has rewritten.
  obtain ⟨_, w₁, _, hmotion, h₁, _⟩ := Motion.step_parts h.world h.motion e.config.physics dt
  have hr₁ : Ready { e with world := w₁ } := h.rewritten h₁.toRewritten
  obtain ⟨w₂, hcontact, h₂⟩ := Contact.exists_step hr₁.world hr₁.contact e.contact
  have hr₂ : Ready { e with world := w₂ } := hr₁.rewritten h₂.toRewritten
  obtain ⟨_, w₃, _, hupkeep, h₃, _⟩ := Upkeep.step_parts hr₂.world hr₂.upkeep
  exact ⟨w₃, _, simulate_of_steps h.behaviors hmotion hcontact hupkeep, (h₁.trans h₂).trans h₃, rfl⟩

theorem simulateAll_ok (h : e.Ready) (lengths : List F32) :
    ∃ world contact, simulateAll lengths e = .ok () { e with world, contact } ∧
      e.world.Revalued world ∧ contact.config = e.contact.config := by
  induction lengths generalizing e with
  | nil => exact ⟨e.world, e.contact, rfl, .refl h.world.storage, rfl⟩
  | cons dt rest ih =>
    obtain ⟨w₁, m₁, hsim, h₁, hm₁⟩ := simulate_ok h dt
    have hr₁ : Ready { e with world := w₁, contact := m₁ } := h.rewritten h₁.toRewritten
    obtain ⟨w₂, m₂, hrest, h₂, hm₂⟩ := ih hr₁
    exact ⟨w₂, m₂, simulateAll_cons_eq_ok_iff.mpr ⟨_, hsim, hrest⟩, h₁.trans h₂, hm₂.trans hm₁⟩

theorem shown_ok (h : e.Ready) : ∃ renderer, e.shown = .ok renderer ∧
    renderer.map Prod.fst = e.renderer.map Prod.fst := by
  unfold shown
  cases hr : e.renderer with
  | none => exact ⟨none, rfl, rfl⟩
  | some entry =>
    obtain ⟨id, rendering⟩ := entry
    obtain ⟨rendering', hstep⟩ := rendering.exists_step h.world (h.rendering id rendering hr)
    exact ⟨some (id, rendering'), by simp only [hstep, Except.map], rfl⟩

/-- A tick of an engine that is ready comes to its end. It counts itself and changes values
of components, and nothing else in the world. -/
theorem Ready.tick (h : e.Ready) (dt : F32) :
    ∃ stats e', Engine.tick dt e = .ok stats e' ∧ Continues e e' ∧ e.world.Rewritten e'.world ∧
      stats.frame = e.frame ∧ e'.frame = e.frame + 1 := by
  obtain ⟨world, contact, hall, hw, hconfig⟩ := simulateAll_ok h (e.stepsOf dt)
  have hr : Ready { e with world, contact } := h.rewritten hw.toRewritten
  obtain ⟨renderer, hshown, hid⟩ := shown_ok hr
  exact ⟨_, _, tick_eq_ok_iff.mpr ⟨world, contact, renderer, hall, hshown, rfl, rfl⟩,
    .revalued h.world hw hconfig hid, hw.toRewritten, rfl, rfl⟩

/-! ## Every reachable engine -/

theorem after_onWorld {β : Type} (e : Engine) (action : Action β) :
    e.after (onWorld action) = { e with world := e.world.after action } := by
  unfold after onWorld World.after World.perform Change.perform
  cases action e.world <;> rfl

/-- The built-in systems ask for what they read from their installation on. -/
theorem install_cases {w w' : World} {ids : SystemId × SystemId × SystemId} (h : w.Coherent)
    (hi : install w = .ok ids w') :
    w'.Coherent ∧ w'.tolerance = w.tolerance ∧ w'.AsksExactly ids.1 Motion.required ∧
      w'.AsksExactly ids.2.1 Contact.required ∧ w'.AsksExactly ids.2.2 Upkeep.required := by
  have hp : w.perform install = (.ok ids, w') := by simp [World.perform, Change.perform, hi]
  obtain ⟨r₁, w₁, hp₁, hc₁, _, ht₁, ha₁⟩ :=
    World.registerSystemFor_cases h Motion.systemName Motion.required
  obtain ⟨r₂, w₂, hp₂, hc₂, he₂, ht₂, ha₂⟩ :=
    World.registerSystemFor_cases hc₁ Contact.systemName Contact.required
  obtain ⟨r₃, w₃, hp₃, hc₃, he₃, ht₃, ha₃⟩ :=
    World.registerSystemFor_cases hc₂ Upkeep.systemName Upkeep.required
  simp only [install, World.perform_bind, hp₁] at hp
  cases r₁ with
  | error _ => cases hp
  | ok motion =>
    simp only [hp₂] at hp
    cases r₂ with
    | error _ => cases hp
    | ok contact =>
      simp only [hp₃] at hp
      cases r₃ with
      | error _ => cases hp
      | ok upkeep =>
        cases hp
        exact ⟨hc₃, ht₃.trans (ht₂.trans ht₁), ((ha₁ _ rfl).extends he₂).extends he₃,
          (ha₂ _ rfl).extends he₃, ha₃ _ rfl⟩

theorem new_cases {config : EngineConfig} (h : Engine.new config = .ok e) :
    e.world.Coherent ∧ e.world.AsksExactly e.motionId Motion.required ∧
      e.world.AsksExactly e.contactId Contact.required ∧
      e.world.AsksExactly e.upkeepId Upkeep.required ∧ e.renderer = none ∧ e.behaviors = [] ∧
      e.world.tolerance = e.config.tolerance.tolerance ∧ e.contact.config = e.config.physics := by
  obtain ⟨empty, world, motionId, contactId, upkeepId, hempty, hi, rfl⟩ := exists_of_new h
  obtain ⟨hc, ht, hmotion, hcontact, hupkeep⟩ := install_cases (World.coherent_new hempty) hi
  exact ⟨hc, hmotion, hcontact, hupkeep, rfl, rfl, ht.trans (World.tolerance_new hempty), rfl⟩

theorem ready_new {config : EngineConfig} (h : Engine.new config = .ok e) : e.Ready := by
  obtain ⟨hc, hmotion, hcontact, hupkeep, hrenderer, hbehaviors, _⟩ := new_cases h
  exact ⟨hc, hmotion.asks, hcontact.asks, hupkeep.asks, by simp [hrenderer], hbehaviors⟩

/-- Attaching a renderer, also when it fails. -/
theorem continues_attachRenderer (h : e.Ready) (capacity : Nat) :
    Continues e (e.after (attachRenderer capacity)) := by
  obtain ⟨r, w', hp, hc, hext, ht, hasks⟩ :=
    World.registerSystemFor_cases h.world Rendering.systemName Rendering.required
  unfold World.perform Change.perform at hp
  split at hp <;> cases hp
  · next id hrun =>
    have hlift : onWorld (World.registerSystemFor Rendering.systemName Rendering.required) e =
        .ok id { e with world := w' } := by simp [onWorld, hrun]
    have hafter : e.after (attachRenderer capacity) =
        { e with world := w', renderer := some (id, .new capacity) } := by
      rw [after, attachRenderer, bind_ok hlift]
      rfl
    rw [hafter]
    refine { Continues.ofWorld hc hext ht with renderer := ?_ }
    rintro _ _ ⟨⟩
    exact .inr (hasks id rfl)
  · next error hrun =>
    have hafter : e.after (attachRenderer capacity) = { e with world := w' } := by
      simp [after, attachRenderer, bind, EStateM.bind, onWorld, hrun]
    rw [hafter]
    exact .ofWorld hc hext ht

/-- What holds of a new engine and stays true whatever is done, holds of every engine that
can be reached. -/
theorem Reachable.induction {P : Engine → Prop} (h : Reachable e)
    (new : ∀ {config e}, Engine.new config = .ok e → P e)
    (next : ∀ {e e'}, e.Ready → Continues e e' → P e → P e') : e.Ready ∧ P e := by
  have step : ∀ {e e'}, e.Ready ∧ P e → Continues e e' → e'.Ready ∧ P e' := fun ⟨hr, hp⟩ hc =>
    ⟨hr.continues hc, next hr hc hp⟩
  induction h with
  | new h => exact ⟨ready_new h, new h⟩
  | serve r _ ih =>
    rw [after_onWorld]
    exact step ih (.ofWorld (ih.1.world.serve r) (World.extends_serve ih.1.world r)
      (World.tolerance_serve ih.1.world r))
  | registerSystem name required _ ih =>
    rw [after_onWorld]
    exact step ih (.ofWorld (ih.1.world.registerSystem name required)
      (World.extends_registerSystem _ name required) (World.tolerance_registerSystem _ name required))
  | registerSystemFor name kinds _ ih =>
    rw [after_onWorld]
    obtain ⟨r, w', hp, hc, hext, ht, _⟩ := World.registerSystemFor_cases ih.1.world name kinds
    rw [World.after, hp]
    exact step ih (.ofWorld hc hext ht)
  | attachRenderer capacity _ ih => exact step ih (continues_attachRenderer ih.1 capacity)
  | tick dt _ ih =>
    obtain ⟨stats, e', htick, hc, _⟩ := ih.1.tick dt
    rw [after, htick]
    exact step ih hc
  | receiveEvents events _ ih =>
    exact step ih (.revalued ih.1.world (.refl ih.1.world.storage) rfl rfl)
  | receiveFrames frames hr _ ih =>
    exact step ih (.revalued ih.1.world (.refl ih.1.world.storage) rfl (by rw [hr]; rfl))

theorem Reachable.ready (h : Reachable e) : e.Ready :=
  (h.induction (P := fun _ => True) (fun _ => trivial) fun _ _ _ => trivial).1

/-- **A tick never fails.** However an engine came about, and whatever the time to advance
by, a tick comes to its end. It counts itself and changes values of components, and
nothing else in the world. -/
theorem tick_succeeds (h : Reachable e) (dt : F32) :
    ∃ stats e', Engine.tick dt e = .ok stats e' ∧ e.world.Rewritten e'.world ∧
      stats.frame = e.frame ∧ e'.frame = e.frame + 1 := by
  obtain ⟨stats, e', htick, _, hw, hframe, hnext⟩ := h.ready.tick dt
  exact ⟨stats, e', htick, hw, hframe, hnext⟩

/-- A body inside another, drawn by a renderer, after one tick and one component taken
away. -/
def stripped (e : Engine) : Engine :=
  let overlapping := Request.cube 0 .origin ++ Request.cube 1 .origin ++
    [.add .body 0 { Body.immovable with fixed := false }]
  (((e.serving overlapping).after (attachRenderer 4)).after (tick 1)).serving [.remove .collider 1]

theorem reachable_stripped (h : Reachable e) : Reachable (stripped e) :=
  .serving (.tick _ (.attachRenderer _ (h.serving _))) _

/-- Two bodies of which one has lost its collider, ticked by a NaN. -/
theorem tick_succeeds_nan :
    ∃ (e : Engine) (dt : F32) (stats : TickStats) (e' : Engine), Reachable e ∧
      e.world.livingEntities = [0, 1] ∧ dt.isNaN = true ∧ e.frame = 1 ∧
      Engine.tick dt e = .ok stats e' ∧ stats.frame = 1 := by
  have hfacts : (Engine.new .standard).toOption.any (fun e =>
      (stripped e).world.livingEntities = [0, 1] ∧ (stripped e).frame = 1) = true := by
    decide +kernel
  obtain ⟨e₀, hnew, hfacts⟩ := (Option.any_eq_true _ _).mp hfacts
  obtain ⟨hliving, hone⟩ := of_decide_eq_true hfacts
  have hreach : Reachable (stripped e₀) := reachable_stripped (.new (eq_ok_of_toOption hnew))
  obtain ⟨stats, e', htick, _, hframe, _⟩ := tick_succeeds hreach (.signedNaN false)
  exact ⟨stripped e₀, _, stats, e', hreach, hliving, by decide, hone, htick, hframe.trans hone⟩

end Engine

end SceneEngine
