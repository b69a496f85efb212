/-
What a renderer is sent, over whole runs.

Whatever is done to an engine, its world stays one that operations bring about and its renderer
keeps the system it was registered with (`Steady`), also where ticks fail on the way. So the frame
that can be built of such a world (`Rendering.exists_depicts`) is the one that is sent: one with
each tick that comes to its end, none with any other, and numbered by those sent before
(`frames_exact`).
-/
import SceneEngine.Proofs.Engine.Deliveries
import SceneEngine.Proofs.Engine.Depiction

namespace SceneEngine

open World (ByOperations)

variable {tolerances : Set (Tolerance F64)}

/-- A system is registered only under a name that is free, and takes it. -/
theorem World.find?_of_registerSystemFor {w w' : World} (hs : w.storage.Aligned) {name : String}
    {kinds : List Kind} {id : SystemId} (h : w.perform (registerSystemFor name kinds) = (.ok id, w')) :
    (w.roster.find? name).isSome = false ∧ (w'.roster.find? name).isSome = true := by
  rw [registerSystemFor, perform_bind, signatureFor] at h
  rcases insertKinds_added hs .empty kinds with ⟨s, hp⟩ | ⟨_, _, _, _, hp⟩ <;> rw [hp] at h
  · dsimp only at h
    rcases registerSystem_cases { w with storage := w.storage.extend (w.storage.newKinds kinds) } name s
      with ⟨_, hq⟩ | ⟨hfree, roster, hentered, hq⟩ <;> rw [hq] at h <;> cases h
    refine ⟨hfree, ?_⟩
    simp [hentered.find?]
  · cases h

namespace Engine

variable {e e' : Engine} {renderer : Option (SystemId × Rendering)}

/-! ## What every deed keeps -/

/-- The world is one that operations bring about, and goes on to be. A renderer has the entities
it asks for. -/
structure Steady (tolerances : Set (Tolerance F64)) (e : Engine) : Prop where
  placed : e.world.Placed tolerances
  tolerance : e.world.tolerance = e.config.tolerance.tolerance
  behaviors : ∀ entry ∈ e.behaviors, ∀ dt, ByOperations tolerances (entry.2.step entry.1 dt)
  rendering : ∀ id r, e.renderer = some (id, r) → e.world.AsksExactly id Rendering.required
  /-- There is no second renderer. -/
  attached : e.renderer.isSome = true → (e.world.roster.find? Rendering.systemName).isSome = true

theorem Steady.next {world : World} {contact : ContactMemory} {leftover : F32} {frame : Nat}
    (h : e.Steady tolerances) (hworld : world.Placed tolerances ∧ e.world.Grows world)
    (hid : renderer.map Prod.fst = e.renderer.map Prod.fst) :
    Steady tolerances { e with world, contact, leftover, renderer, frame } where
  placed := hworld.1
  tolerance := hworld.2.tolerance.trans h.tolerance
  behaviors := h.behaviors
  rendering id r hr := by
    obtain ⟨r₀, hr₀⟩ := exists_renderer hid hr
    exact (h.rendering id r₀ hr₀).extends hworld.2.toExtends
  attached hsome := by
    have hsome : renderer.isSome = true := hsome
    rw [← Option.isSome_map (f := Prod.fst), hid, Option.isSome_map] at hsome
    exact hworld.2.names _ (h.attached hsome)

theorem steady_new {config : EngineConfig} (h : Engine.new config = .ok e)
    (ht : config.tolerance.tolerance ∈ tolerances) : e.Steady tolerances ∧ e.renderer = none := by
  have hinstall : ByOperations tolerances install :=
    (World.byOperations_registerSystemFor _ _).bind fun _ =>
      (World.byOperations_registerSystemFor _ _).bind fun _ =>
        (World.byOperations_registerSystemFor _ _).bind fun _ => World.byOperations_pure _
  obtain ⟨empty, world, _, _, _, hempty, hi, rfl⟩ := exists_of_new h
  have hafter : empty.after install = world := by rw [World.after, World.perform, Change.perform, hi]
  obtain ⟨hplaced, hgrows⟩ := hinstall.placed (World.placed_new hempty ht)
  rw [hafter] at hplaced hgrows
  exact ⟨⟨hplaced, hgrows.tolerance.trans (World.tolerance_new hempty), by simp, by simp, by simp⟩, rfl⟩

/-! ## Simulation -/

/-- The engine is steady and has this renderer. -/
structure Attends (tolerances : Set (Tolerance F64)) (renderer : Option (SystemId × Rendering))
    (e : Engine) : Prop extends e.Steady tolerances where
  renderer_eq : e.renderer = renderer

/-- What two actions keep, one after the other keeps, also when the first fails. -/
theorem after_bind_keeps {β γ : Type} {I : Engine → Prop} {a : EngineAction β}
    {f : β → EngineAction γ} (ha : I (e.after a)) (hf : ∀ x e', I e' → I (e'.after (f x))) :
    I (e.after (a >>= f)) := by
  rw [after] at ha
  rw [after_bind]
  cases hrun : a e with
  | ok x e' => exact hf x e' (by rwa [hrun] at ha)
  | error _ e' => rwa [hrun] at ha

theorem Attends.next {world : World} {contact : ContactMemory} {leftover : F32}
    (h : e.Attends tolerances renderer) (hworld : world.Placed tolerances ∧ e.world.Grows world) :
    Attends tolerances renderer { e with world, contact, leftover } :=
  ⟨h.toSteady.next hworld rfl, h.renderer_eq⟩

theorem Attends.onWorld {β : Type} {action : Action β} (h : e.Attends tolerances renderer)
    (ha : ByOperations tolerances action) : (e.after (onWorld action)).Attends tolerances renderer := by
  rw [after_onWorld]
  exact h.next (ha.placed h.placed)

theorem Attends.stepContact (h : e.Attends tolerances renderer) :
    (e.after stepContact).Attends tolerances renderer := by
  obtain ⟨action, ha, hstep⟩ :=
    Contact.exists_byOperations_step tolerances e.contact e.contactId e.world
  have hworld := ha.placed h.placed
  rw [World.after, World.perform, Change.perform, ← hstep] at hworld
  rw [after, Engine.stepContact]
  rcases hrun : Contact.step e.contact e.contactId e.world with ⟨contact, _ | _⟩ <;>
    rw [hrun] at hworld <;> exact h.next hworld

theorem Attends.simulate (h : e.Attends tolerances renderer) (dt : F32) :
    (e.after (simulate dt)).Attends tolerances renderer := by
  rw [after_congr (simulate_eq e dt)]
  refine after_bind_keeps (h.onWorld (Motion.byOperations_step _ _ _)) fun _ e₁ h₁ => ?_
  refine after_bind_keeps h₁.stepContact fun _ e₂ h₂ => ?_
  refine after_bind_keeps (h₂.onWorld (Upkeep.byOperations_step _)) fun _ e₃ h₃ => ?_
  exact h₃.onWorld (World.byOperations_forM fun entry hentry => h.behaviors entry hentry dt)

theorem Attends.waited (h : e.Attends tolerances renderer) (leftover : F32) :
    Attends tolerances renderer { e with leftover } := h.next ⟨h.placed, .refl e.world⟩

theorem Attends.simulateSteps (h : e.Attends tolerances renderer) (step : F32) (n : Nat) :
    (e.after (simulateSteps step n)).Attends tolerances renderer := by
  induction n generalizing e with
  | zero => exact h
  | succ n ih => exact after_bind_keeps (h.simulate step) fun _ e₁ h₁ => ih (h₁.waited _)

theorem Attends.simulateFixed (h : e.Attends tolerances renderer) (step dt : F32) :
    (e.after (simulateFixed step dt)).Attends tolerances renderer :=
  after_bind_keeps (e := { e with leftover := e.leftover + dt })
    ((h.waited _).simulateSteps step _) fun _ _ h₁ => h₁.waited _

/-! ## A tick -/

/-- A tick is its simulation, and then a frame. -/
theorem Steady.exists_simulation (h : e.Steady tolerances) (dt : F32) :
    ∃ simulation : EngineAction (Nat × F32), tick dt e = (simulation >>= conclude) e ∧
      (e.after simulation).Attends tolerances e.renderer := by
  have hattends : e.Attends tolerances e.renderer := ⟨h, rfl⟩
  cases hstep : e.config.physics.fixedTimestep with
  | some step => exact ⟨_, tick_of_fixed hstep dt, hattends.simulateFixed step _⟩
  | none =>
    refine ⟨do simulate (effectiveDelta dt); pure (1, 0), ?_, ?_⟩
    · rw [tick_of_free hstep, bind_assoc]
      rfl
    · exact after_bind_keeps (hattends.simulate _) fun _ _ h₁ => h₁

/-- The frame that a renderer is sent of a steady engine. -/
theorem Steady.exists_shown {id : SystemId} {r : Rendering} (h : e.Steady tolerances)
    (hr : e.renderer = some (id, r)) :
    ∃ frame, r.frame id e.world = .ok frame ∧ frame.number = r.next ∧
      frame.Depicts tolerances e.world ∧
      e.shown = .ok (some (id, ⟨r.frames.send frame, r.next + 1⟩)) := by
  obtain ⟨frame, hframe, hnumber, hdepicts⟩ :=
    Rendering.exists_depicts h.placed (h.rendering id r hr) r
  refine ⟨frame, hframe, hnumber, hdepicts, ?_⟩
  simp only [shown, hr, Rendering.step_eq, hframe, Except.map]

/-- A tick that fails sends nothing, and one that does not ends with a frame of its world. -/
theorem Steady.tick_cases (h : e.Steady tolerances) (dt : F32) :
    (∃ error e', tick dt e = .error error e' ∧ e'.Attends tolerances e.renderer) ∨
    ∃ (stats : TickStats) (e₁ : Engine) (renderer : Option (SystemId × Rendering)),
      tick dt e = .ok stats { e₁ with renderer, frame := e₁.frame + 1 } ∧
      e₁.Attends tolerances e.renderer ∧ e₁.shown = .ok renderer := by
  obtain ⟨simulation, htick, hafter⟩ := h.exists_simulation dt
  rw [after] at hafter
  cases hrun : simulation e with
  | error error e₁ =>
    rw [hrun] at hafter
    refine .inl ⟨error, e₁, ?_, hafter⟩
    simp [htick, bind, EStateM.bind, hrun]
  | ok x e₁ =>
    rw [hrun] at hafter
    have hshown : ∃ renderer, e₁.shown = .ok renderer := by
      cases hr : e₁.renderer with
      | none => exact ⟨none, by simp only [shown, hr]⟩
      | some entry =>
        obtain ⟨frame, _, _, _, hshown⟩ := hafter.toSteady.exists_shown hr
        exact ⟨_, hshown⟩
    obtain ⟨renderer, hshown⟩ := hshown
    refine .inr ⟨⟨e₁.frame, x.1, x.2⟩, e₁, renderer, ?_, hafter, hshown⟩
    rw [htick, bind_ok hrun]
    exact conclude_eq_ok_iff.mpr ⟨renderer, hshown, rfl, rfl⟩

/-! ## Runs -/

/-- Changes of the world come down to operations, and so do the behaviors that are added. -/
def Deed.ByOperations (tolerances : Set (Tolerance F64)) : Deed → Prop
  | .change action => World.ByOperations tolerances action
  | .addBehavior b => ∀ id dt, World.ByOperations tolerances (b.step id dt)
  | _ => True

/-- The frames a renderer is sent in a deed. -/
def submits (e : Engine) : Deed → List Frame
  | .tick dt =>
    match tick dt e, e.renderer with
    | .ok _ e', some (id, r) => (r.frame id e'.world).toOption.toList
    | _, _ => []
  | _ => []

/-- The frames sent in a run, in the order they were sent. -/
def submitted (e : Engine) (run : List Deed) : List Frame := along submits e run

/-- How many frames the renderer has been sent. -/
def updates (e : Engine) : Nat := e.renderer.elim 0 fun (_, r) => r.next

/-- The frame a tick sends, if it comes to its end. -/
theorem Steady.exists_sent {dt : F32} {stats : TickStats} {id : SystemId} {r : Rendering}
    (h : e.Steady tolerances) (hr : e.renderer = some (id, r)) (htick : tick dt e = .ok stats e') :
    ∃ frame, e.submits (.tick dt) = [frame] ∧ frame.number = r.next ∧
      frame.Depicts tolerances e'.world ∧ e'.Steady tolerances ∧
      e'.renderer = some (id, ⟨r.frames.send frame, r.next + 1⟩) := by
  rcases h.tick_cases dt with ⟨_, _, herror, _⟩ | ⟨_, e₁, renderer, hok, hafter, hshown⟩
  · rw [htick] at herror
    cases herror
  · obtain ⟨rfl, rfl⟩ := EStateM.Result.ok.inj (htick.symm.trans hok)
    have hr₁ : e₁.renderer = some (id, r) := hafter.renderer_eq.trans hr
    obtain ⟨frame, hframe, hnumber, hdepicts, hshown'⟩ := hafter.toSteady.exists_shown hr₁
    obtain rfl := Except.ok.inj (hshown.symm.trans hshown')
    refine ⟨frame, ?_, hnumber, hdepicts,
      hafter.toSteady.next ⟨hafter.placed, .refl _⟩ (by rw [hr₁]; rfl), rfl⟩
    simp only [submits, htick, hr, hframe, Except.toOption, Option.toList_some]

/-- A tick keeps the engine steady, and the frame it sends is counted. -/
theorem Steady.tick (h : e.Steady tolerances) (dt : F32) :
    (e.after (Engine.tick dt)).Steady tolerances ∧
      List.range e.updates ++ (e.submits (.tick dt)).map Frame.number =
        List.range (e.after (Engine.tick dt)).updates := by
  rcases h.tick_cases dt with ⟨error, e', htick, hafter⟩ | ⟨stats, e₁, renderer, htick, hafter, hshown⟩
  · have hnone : e.submits (.tick dt) = [] := by simp only [submits, htick]
    rw [after, htick, hnone]
    exact ⟨hafter.toSteady, by simp [updates, hafter.renderer_eq]⟩
  · rw [after, htick]
    cases hr : e.renderer with
    | none =>
      obtain rfl : renderer = none := by
        simpa [shown, hafter.renderer_eq, hr, eq_comm] using hshown
      have hnone : e.submits (.tick dt) = [] := by simp only [submits, htick, hr]
      rw [hnone]
      refine ⟨hafter.toSteady.next ⟨hafter.placed, .refl _⟩ (by rw [hafter.renderer_eq, hr]), ?_⟩
      simp [updates, hr]
    | some entry =>
      obtain ⟨frame, hone, hnumber, _, hsteady, hr'⟩ := h.exists_sent hr htick
      refine ⟨hsteady, ?_⟩
      rw [hone, updates, updates, hr, hr']
      simp [hnumber, List.range_succ]

/-- There is no renderer before one is attached, and afterwards none can be. -/
theorem Steady.attachRenderer (h : e.Steady tolerances) (capacity : Nat) :
    (e.after (Engine.attachRenderer capacity)).Steady tolerances ∧
      (e.after (Engine.attachRenderer capacity)).updates = e.updates := by
  have hregister : ByOperations tolerances _ :=
    World.byOperations_registerSystemFor Rendering.systemName Rendering.required
  have hworld := hregister.placed h.placed
  obtain ⟨_, _, hp, _, _, _, hasks⟩ :=
    World.registerSystemFor_cases h.placed.coherent Rendering.systemName Rendering.required
  rw [World.after, World.perform, Change.perform] at hworld
  rw [World.perform, Change.perform] at hp
  rw [Engine.attachRenderer, after_bind, Engine.onWorld]
  cases hrun : World.registerSystemFor Rendering.systemName Rendering.required e.world with
  | error error world =>
    rw [hrun] at hworld
    exact ⟨h.next hworld rfl, rfl⟩
  | ok id world =>
    have hperform : e.world.perform (World.registerSystemFor Rendering.systemName Rendering.required) =
        (.ok id, world) := by rw [World.perform, Change.perform, hrun]
    have hname := World.find?_of_registerSystemFor h.placed.coherent.storage.toAligned hperform
    rw [hrun] at hworld hp
    cases hp
    refine ⟨⟨hworld.1, hworld.2.tolerance.trans h.tolerance, h.behaviors, ?_, fun _ => hname.2⟩, ?_⟩
    · rintro _ _ ⟨⟩
      exact hasks id rfl
    · cases hr : e.renderer with
      | none => simp only [updates, hr]; rfl
      | some entry =>
        have htaken := h.attached (by rw [hr]; rfl)
        rw [hname.1] at htaken
        cases htaken

theorem Steady.addBehavior (h : e.Steady tolerances) {b : Behavior}
    (hb : ∀ id dt, ByOperations tolerances (b.step id dt)) :
    (e.after (Engine.addBehavior b)).Steady tolerances ∧
      (e.after (Engine.addBehavior b)).updates = e.updates := by
  have hregister : ByOperations tolerances _ :=
    World.byOperations_registerSystemFor b.name b.required
  have hworld := hregister.placed h.placed
  rw [World.after] at hworld
  rw [after, addBehavior_apply]
  rcases hrun : e.world.perform (World.registerSystemFor b.name b.required) with ⟨error | id, world⟩ <;>
    rw [hrun] at hworld
  · exact ⟨h.next hworld rfl, rfl⟩
  · have hnext : Steady tolerances { e with world } := h.next hworld rfl
    refine ⟨{ hnext with behaviors := fun entry hentry => ?_ }, rfl⟩
    rcases List.mem_append.mp hentry with hold | hnew
    · exact h.behaviors entry hold
    · rw [List.mem_singleton.mp hnew]
      exact hb id

/-- What one deed keeps, and the frames it sends. -/
theorem Steady.enact (h : e.Steady tolerances) {deed : Deed} (hdeed : deed.ByOperations tolerances) :
    (e.enact deed).Steady tolerances ∧
      List.range e.updates ++ (e.submits deed).map Frame.number =
        List.range (e.enact deed).updates := by
  have hquiet : ∀ {e' : Engine}, e'.Steady tolerances ∧ e'.updates = e.updates →
      e'.Steady tolerances ∧ List.range e.updates ++ List.map Frame.number [] =
        List.range e'.updates := by
    rintro e' ⟨h', hupdates⟩
    exact ⟨h', by simp [hupdates]⟩
  cases deed with
  | tick dt => exact h.tick dt
  | change action =>
    refine hquiet ?_
    have hafter := (Attends.onWorld ⟨h, rfl⟩ hdeed :
      (e.after (onWorld action)).Attends tolerances e.renderer)
    exact ⟨hafter.toSteady, by simp only [updates, Engine.enact, hafter.renderer_eq]⟩
  | attachRenderer capacity => exact hquiet (h.attachRenderer capacity)
  | addBehavior b => exact hquiet (h.addBehavior hdeed)
  | receiveFrames act =>
    refine hquiet ⟨h.next ⟨h.placed, .refl _⟩ ?_, ?_⟩
    · cases e.renderer <;> rfl
    · simp only [updates, Engine.enact]
      cases e.renderer <;> rfl
  | drainEvents => exact hquiet ⟨h.next ⟨h.placed, .refl _⟩ rfl, rfl⟩

/-- What one deed keeps, a run keeps. -/
theorem Steady.enactAll (h : e.Steady tolerances) {run : List Deed}
    (hrun : ∀ deed ∈ run, deed.ByOperations tolerances) :
    (e.enactAll run).Steady tolerances ∧
      List.range e.updates ++ (e.submitted run).map Frame.number =
        List.range (e.enactAll run).updates := by
  induction run generalizing e with
  | nil => exact ⟨h, List.append_nil _⟩
  | cons deed rest ih =>
    obtain ⟨hfirst, hcount⟩ := h.enact (hrun deed (by simp))
    obtain ⟨hlast, hrest⟩ := ih hfirst fun deed' hdeed' => hrun deed' (by simp [hdeed'])
    refine ⟨hlast, ?_⟩
    rw [submitted, along, List.map_append, ← List.append_assoc, hcount]
    exact hrest

theorem submitted_tick (e : Engine) (run : List Deed) (dt : F32) :
    e.submitted (run ++ [.tick dt]) = e.submitted run ++ (e.enactAll run).submits (.tick dt) := by
  rw [submitted, along_append, along, along, List.append_nil]
  rfl

/-- **Every frame is exact.** Whatever has been done to an engine by way of its operations, an update
of its renderer sends a frame that depicts the world, numbered by the frames sent before, and
changes nothing but the renderer. The updates are those of the ticks that come to their end, after
all simulation steps. Refreshes go by any of the `tolerances`. When that of the engine is the only
one, drawn is exactly what has a normal matrix by it (`Frame.Depicts.mem_packets_iff`). -/
theorem frames_exact {config : EngineConfig} {e₀ : Engine} (hnew : Engine.new config = .ok e₀)
    (htolerance : config.tolerance.tolerance ∈ tolerances) {run : List Deed}
    (hrun : ∀ deed ∈ run, deed.ByOperations tolerances) {id : SystemId} {r : Rendering}
    (hr : (e₀.enactAll run).renderer = some (id, r)) :
    let e := e₀.enactAll run
    let sent := e₀.submitted run
    e.world.tolerance = e.config.tolerance.tolerance ∧
    sent.map Frame.number = List.range sent.length ∧ r.next = sent.length ∧
    (∃ frame, r.frame id e.world = .ok frame ∧ frame.number = sent.length ∧
      frame.Depicts tolerances e.world ∧
      present e = .ok () { e with renderer := some (id, ⟨r.frames.send frame, r.next + 1⟩) }) ∧
    (∀ dt stats e', tick dt e = .ok stats e' → ∃ frame contact,
      e₀.submitted (run ++ [.tick dt]) = sent ++ [frame] ∧ frame.number = sent.length ∧
      frame.Depicts tolerances e'.world ∧ e'.world.tolerance = e.world.tolerance ∧
      simulateAll (e.stepsOf dt) e = .ok () { e with world := e'.world, contact } ∧
      e'.renderer = some (id, ⟨r.frames.send frame, r.next + 1⟩)) ∧
    ∀ dt error e', tick dt e = .error error e' →
      e₀.submitted (run ++ [.tick dt]) = sent ∧ e'.renderer = e.renderer := by
  intro e sent
  obtain ⟨hsteady₀, hnone⟩ := steady_new hnew htolerance
  obtain ⟨hsteady, hcount⟩ := hsteady₀.enactAll hrun
  have hnumbers : sent.map Frame.number = List.range r.next := by
    simpa [updates, hnone, hr] using hcount
  have hnext : r.next = sent.length := by simpa using (congrArg List.length hnumbers).symm
  refine ⟨hsteady.tolerance, hnext ▸ hnumbers, hnext, ?_, fun dt stats e' htick => ?_,
    fun dt error e' htick => ?_⟩
  · obtain ⟨frame, hframe, hnumber, hdepicts, hshown⟩ := hsteady.exists_shown hr
    exact ⟨frame, hframe, hnumber.trans hnext, hdepicts, by rw [present_eq, hshown]⟩
  · obtain ⟨frame, hone, hnumber, hdepicts, hsteady', hr'⟩ := hsteady.exists_sent hr htick
    obtain ⟨world, contact, renderer, hall, _, _, rfl⟩ := tick_eq_ok_iff.mp htick
    refine ⟨frame, contact, ?_, hnumber.trans hnext, hdepicts,
      hsteady'.tolerance.trans hsteady.tolerance.symm, hall, hr'⟩
    rw [submitted_tick, hone]
  · rcases hsteady.tick_cases dt with ⟨_, _, herror, hafter⟩ | ⟨_, _, _, hok, _⟩
    · obtain ⟨rfl, rfl⟩ := EStateM.Result.error.inj (htick.symm.trans herror)
      have hnone : (e₀.enactAll run).submits (.tick dt) = [] := by simp only [submits, herror]
      exact ⟨by rw [submitted_tick, hnone, List.append_nil], hafter.renderer_eq⟩
    · rw [htick] at hok
      cases hok

namespace Scrambled

/-! A run after which little stands where it was put. -/

def settings : EngineConfig :=
  { EngineConfig.standard with physics := { PhysicsConfig.standard with fixedTimestep := none } }

def requests : List Request :=
  [.create none, .create none, .create none, .create none, .create none,
    .add .transform 0 .origin, .add .transform 1 .origin, .add .transform 2 .origin,
    .add .transform 3 (.new .zero .zero (.of3 1 0 1)), .add .transform 4 .origin,
    .add .camera 4 .standard, .add .camera 2 .standard, .add .camera 1 .standard,
    .add .camera 0 .standard, .remove .camera 4, .remove .transform 0,
    .add .drawable 1 ⟨0, 0, false⟩, .add .drawable 3 ⟨0, 0, true⟩, .add .drawable 4 ⟨0, 0, true⟩]

/-- Turns whatever has a place. -/
def turn : Behavior := .perMember "turn" [.transform] fun e => do
  let t ← World.read .transform e
  World.write .transform e (t.rotate (.of3 0 0 1))

def run : List Deed := requests.map .serve ++ [.attachRenderer 4, .addBehavior turn, .tick 1]

theorem byOperations_turn (id : SystemId) (dt : F32) :
    ByOperations {settings.tolerance.tolerance} (turn.step id dt) :=
  World.byOperations_perMember id fun _ =>
    World.byOperations_rewrite (k := .transform) (fun t => t.rotate (.of3 0 0 1))
      fun _ hw _ ht => ht.after (.rotate _) hw.tolerance

theorem keeps_requests : ∀ r ∈ requests, r.Keeps (Arising {settings.tolerance.tolerance}) := by
  have hnew : ∀ position rotation scale : Vec F32 3, Arising {settings.tolerance.tolerance}
      .transform (Transform.new position rotation scale) := .new
  simp only [requests, List.forall_mem_cons, Request.Keeps, Arising, true_and]
  exact ⟨hnew _ _ _, hnew _ _ _, hnew _ _ _, hnew _ _ _, hnew _ _ _, by simp⟩

theorem byOperations_run : ∀ deed ∈ run, deed.ByOperations {settings.tolerance.tolerance} := by
  intro deed hdeed
  rcases List.mem_append.mp hdeed with hdeed | hdeed
  · obtain ⟨r, hr, rfl⟩ := List.mem_map.mp hdeed
    exact (World.byOperations_serve (keeps_requests r hr)).discard
  · simp only [List.mem_cons, List.not_mem_nil, or_false] at hdeed
    rcases hdeed with rfl | rfl | rfl
    · trivial
    · exact byOperations_turn
    · trivial

end Scrambled

/-- Five entities. The first two slots of the cameras hold one that has lost its place and one
that is not the lowest, one draw is hidden and one is flat, and a behavior turns them all. The
second frame is still seen through the lowest camera that has a place. -/
theorem frames_exact_scrambled :
    ∃ (config : EngineConfig) (e₀ : Engine) (run : List Deed) (id : SystemId) (r : Rendering)
      (frame : Frame), Engine.new config = .ok e₀ ∧ (e₀.enactAll run).renderer = some (id, r) ∧
      ((e₀.enactAll run).world.storage.column? .camera).map Column.owners = some #[0, 2, 1] ∧
      (e₀.enactAll run).world.get? .transform 0 = none ∧
      r.frame id (e₀.enactAll run).world = .ok frame ∧ frame.number = 1 ∧
      frame.packets.map Packet.entity = [4] ∧ frame.camera.map FrameCamera.entity = some 1 ∧
      frame.Depicts {config.tolerance.tolerance} (e₀.enactAll run).world ∧
      ∀ p, p ∈ frame.packets ↔ ∃ t, p.Portrays (e₀.enactAll run).world t config.tolerance.tolerance := by
  have hfacts : (Engine.new Scrambled.settings).toOption.any (fun e₀ =>
      (e₀.enactAll Scrambled.run).renderer.any (fun (id, r) => r.next = 1 ∧
        (r.frame id (e₀.enactAll Scrambled.run).world).toOption.any fun frame =>
          frame.packets.map Packet.entity = [4] ∧ frame.camera.map FrameCamera.entity = some 1) ∧
      ((e₀.enactAll Scrambled.run).world.storage.column? .camera).map Column.owners = some #[0, 2, 1] ∧
      (e₀.enactAll Scrambled.run).world.get? .transform 0 = none ∧
      (e₀.enactAll Scrambled.run).world.tolerance = Scrambled.settings.tolerance.tolerance) = true := by
    decide +kernel
  obtain ⟨e₀, hnew, hfacts⟩ := (Option.any_eq_true _ _).mp hfacts
  obtain ⟨hrenderer, hslots, hplace, htolerance⟩ := of_decide_eq_true hfacts
  obtain ⟨⟨id, r⟩, hr, hrenderer⟩ := (Option.any_eq_true _ _).mp hrenderer
  obtain ⟨hone, hframe⟩ := of_decide_eq_true hrenderer
  obtain ⟨frame, hframe, hshown⟩ := (Option.any_eq_true _ _).mp hframe
  obtain ⟨hpackets, hcamera⟩ := of_decide_eq_true hshown
  have hnew := eq_ok_of_toOption hnew
  obtain ⟨_, _, hnext, ⟨frame', hframe', hnumber, hdepicts, _⟩, _⟩ :=
    frames_exact hnew (Set.mem_singleton _) Scrambled.byOperations_run hr
  obtain rfl := Except.ok.inj ((eq_ok_of_toOption hframe).symm.trans hframe')
  refine ⟨Scrambled.settings, e₀, Scrambled.run, id, r, frame, hnew, hr, hslots, hplace, hframe',
    hnumber.trans (hnext.symm.trans hone), hpackets, hcamera, hdepicts, fun p => ?_⟩
  rw [← htolerance] at hdepicts ⊢
  exact hdepicts.mem_packets_iff p

/-- An engine that takes every size for negligible next to itself. By its tolerance no model has
a normal matrix, but a transform that was refreshed by another one is drawn. -/
theorem frame_draws_refreshed_elsewhere :
    let config : EngineConfig := { EngineConfig.standard with
      tolerance := { ToleranceConfig.standard with relativeEpsilon := 1 } }
    let run : List Deed :=
      [.serve (.create none), .serve (.add .transform 0 .origin),
        .serve (.add .drawable 0 ⟨0, 0, true⟩),
        .serve (.update .transform 0 fun t : Transform F32 => (t.refresh .single).1),
        .attachRenderer 1, .tick 1]
    ∃ (e₀ : Engine) (frame : Frame) (p : Packet) (t : Transform F32), Engine.new config = .ok e₀ ∧
      e₀.submitted run = [frame] ∧ p ∈ frame.packets ∧
      (e₀.enactAll run).world.get? .transform p.entity = some t ∧
      ∃ error, (Mat.model t.position t.rotation.toRadians t.scale).normalMatrix
        config.tolerance.tolerance = .error error := by
  intro config run
  have hfacts : (Engine.new config).toOption.any (fun e₀ =>
      (e₀.submitted run).length = 1 ∧ (e₀.submitted run).any fun frame => frame.packets.any fun p =>
        ((e₀.enactAll run).world.get? .transform p.entity).any fun t =>
          ((Mat.model t.position t.rotation.toRadians t.scale).normalMatrix
            config.tolerance.tolerance).toOption = none) = true := by
    decide +kernel
  obtain ⟨e₀, hnew, hfacts⟩ := (Option.any_eq_true _ _).mp hfacts
  obtain ⟨hone, hsent⟩ := of_decide_eq_true hfacts
  obtain ⟨frame, hframe⟩ := List.length_eq_one_iff.mp hone
  rw [hframe, List.any_cons, List.any_nil, Bool.or_false, List.any_eq_true] at hsent
  obtain ⟨p, hp, hplace⟩ := hsent
  obtain ⟨t, ht, hnormal⟩ := (Option.any_eq_true _ _).mp hplace
  refine ⟨e₀, frame, p, t, eq_ok_of_toOption hnew, hframe, hp, ht, ?_⟩
  cases hresult : (Mat.model t.position t.rotation.toRadians t.scale).normalMatrix
      config.tolerance.tolerance with
  | error error => exact ⟨error, rfl⟩
  | ok normal =>
    rw [hresult] at hnormal
    cases of_decide_eq_true hnormal

end Engine

end SceneEngine
