/-
What a tick is made of.

Simulation steps neither see the time left over nor change it, so the clock of a tick and
its simulation come apart. What a tick does to time is its `division`: with a fixed
timestep that of `Clock.advance`, without one a single step. What it does to the world is
that many simulation steps of that length, one after the other, and then a frame
(`tick_eq_ok_iff`).
-/
import SceneEngine.Engine

namespace SceneEngine.Engine

variable {e e' : Engine}

/-! ## Actions that come to their end -/

/-- An action that begins by looking at the engine. -/
theorem get_bind {β : Type} (f : Engine → EngineAction β) : (get >>= f) e = f e e := rfl

theorem bind_ok {β γ : Type} {a : EngineAction β} {f : β → EngineAction γ} {x : β}
    (h : a e = .ok x e') : (a >>= f) e = f x e' := by
  simp [bind, EStateM.bind, h]

theorem bind_eq_ok_iff {β γ : Type} {a : EngineAction β} {f : β → EngineAction γ} {y : γ} :
    (a >>= f) e = .ok y e' ↔ ∃ x e₁, a e = .ok x e₁ ∧ f x e₁ = .ok y e' := by
  simp only [bind, EStateM.bind]
  cases a e <;> simp [and_assoc]

theorem modify_bind {β : Type} (g : Engine → Engine) (f : Unit → EngineAction β) :
    (modify g >>= f) e = f () (g e) := rfl

/-- What an action that comes to its end answers and leaves. -/
def outcome? {β : Type} (e : Engine) (a : EngineAction β) : Option (β × Engine) :=
  match a e with
  | .ok x e' => some (x, e')
  | .error _ _ => none

theorem outcome?_eq_some_iff {β : Type} {a : EngineAction β} {x : β} :
    e.outcome? a = some (x, e') ↔ a e = .ok x e' := by
  unfold outcome?
  cases a e <;> simp

theorem onWorld_eq_ok_iff {β : Type} {action : Action β} {x : β} :
    onWorld action e = .ok x e' ↔
      ∃ world, action e.world = .ok x world ∧ e' = { e with world } := by
  unfold onWorld
  cases action e.world <;> simp [and_assoc, eq_comm (b := e')]

theorem stepContact_eq_ok_iff {x : Unit} : stepContact e = .ok x e' ↔ ∃ contact world,
    Contact.step e.contact e.contactId e.world = (contact, .ok () world) ∧
      e' = { e with contact, world } := by
  unfold stepContact
  rcases Contact.step e.contact e.contactId e.world with ⟨contact, _ | _⟩ <;>
    simp [and_assoc, eq_comm (b := e')]

/-! ## Simulation, part by part -/

theorem simulate_eq (e : Engine) (dt : F32) : simulate dt e =
    (onWorld (Motion.step e.config.physics e.motionId dt) >>= fun _ => stepContact >>= fun _ =>
      onWorld (Upkeep.step e.upkeepId) >>= fun _ => onWorld (e.behaviors.run dt)) e := rfl

theorem simulateSteps_succ (step : F32) (n : Nat) : simulateSteps step (n + 1) =
    (simulate step >>= fun _ => modify (fun e => { e with leftover := e.leftover - step }) >>=
      fun _ => simulateSteps step n) := rfl

/-- The steps that are due are run once the time of the tick is added to what was left. -/
theorem simulateFixed_eq (e : Engine) (step dt : F32) : simulateFixed step dt e =
    (simulateSteps step (Clock.dueSteps step Clock.maxSteps (e.leftover + dt)) >>= fun _ => do
      modify fun e => { e with leftover := Clock.trim step e.leftover }
      return (Clock.dueSteps step Clock.maxSteps (e.leftover + dt), (← get).leftover / step))
      { e with leftover := e.leftover + dt } := rfl

/-- A simulation step is the steps of its systems, one after the other. -/
theorem simulate_eq_ok_iff {dt : F32} : simulate dt e = .ok () e' ↔
    ∃ w₁ contact w₂ w₃ world,
      Motion.step e.config.physics e.motionId dt e.world = .ok () w₁ ∧
      Contact.step e.contact e.contactId w₁ = (contact, .ok () w₂) ∧
      Upkeep.step e.upkeepId w₂ = .ok () w₃ ∧ e.behaviors.run dt w₃ = .ok () world ∧
      e' = { e with world, contact } := by
  rw [simulate_eq]
  simp only [bind_eq_ok_iff, onWorld_eq_ok_iff, stepContact_eq_ok_iff]
  constructor
  · rintro ⟨_, _, ⟨w₁, h₁, rfl⟩, _, _, ⟨contact, w₂, h₂, rfl⟩, _, _,
      ⟨w₃, h₃, rfl⟩, world, h₄, rfl⟩
    exact ⟨w₁, contact, w₂, w₃, world, h₁, h₂, h₃, h₄, rfl⟩
  · rintro ⟨w₁, contact, w₂, w₃, world, h₁, h₂, h₃, h₄, rfl⟩
    exact ⟨(), _, ⟨w₁, h₁, rfl⟩, (), _, ⟨contact, w₂, h₂, rfl⟩, (), _,
      ⟨w₃, h₃, rfl⟩, world, h₄, rfl⟩

/-! ## New engines -/

/-- A new engine: the built-in systems are installed in an empty world, and nothing has
happened yet. -/
theorem exists_of_new {config : EngineConfig} (h : Engine.new config = .ok e) :
    ∃ empty world motionId contactId upkeepId,
      World.new config.capacity config.tolerance.tolerance = .ok empty ∧
      install empty = .ok (motionId, contactId, upkeepId) world ∧
      e = ⟨config, world, motionId, contactId, .new config.physics, upkeepId, [], none, 0, 0⟩ := by
  unfold Engine.new at h
  cases hvalid : config.validate with
  | error _ => simp [hvalid, bind, Except.bind] at h
  | ok _ =>
    cases hworld : World.new config.capacity config.tolerance.tolerance with
    | error _ => simp [hvalid, hworld, bind, Except.bind] at h
    | ok empty =>
      simp only [hvalid, hworld, bind, Except.bind] at h
      split at h
      · cases h
      next motionId contactId upkeepId world hi =>
      simp only [pure, Except.pure, Except.ok.injEq] at h
      exact ⟨empty, world, motionId, contactId, upkeepId, rfl, hi, h.symm⟩

/-! ## Series of simulation steps -/

/-- Simulation steps of the given lengths, one after the other. -/
def simulateAll (lengths : List F32) : EngineAction Unit := lengths.forM simulate

theorem simulateAll_nil_eq_ok_iff : simulateAll [] e = .ok () e' ↔ e' = e := by
  have hnil : simulateAll [] e = .ok () e := rfl
  rw [hnil, EStateM.Result.ok.injEq, eq_comm (b := e')]
  simp

theorem simulateAll_cons_eq_ok_iff {dt : F32} {rest : List F32} :
    simulateAll (dt :: rest) e = .ok () e' ↔
      ∃ e₁, simulate dt e = .ok () e₁ ∧ simulateAll rest e₁ = .ok () e' := by
  have hcons : simulateAll (dt :: rest) = (simulate dt >>= fun _ => simulateAll rest) := rfl
  rw [hcons, bind_eq_ok_iff]
  exact ⟨fun ⟨_, e₁, h⟩ => ⟨e₁, h⟩, fun ⟨e₁, h⟩ => ⟨(), e₁, h⟩⟩

/-- Simulation steps change the world and what contact remembers. -/
theorem exists_of_simulateAll {lengths : List F32} (h : simulateAll lengths e = .ok () e') :
    ∃ world contact, e' = { e with world, contact } := by
  induction lengths generalizing e with
  | nil => exact ⟨e.world, e.contact, simulateAll_nil_eq_ok_iff.mp h⟩
  | cons dt rest ih =>
    obtain ⟨e₁, h₁, hrest⟩ := simulateAll_cons_eq_ok_iff.mp h
    obtain ⟨_, contact, _, _, world, _, _, _, _, rfl⟩ := simulate_eq_ok_iff.mp h₁
    obtain ⟨world', contact', rfl⟩ := ih hrest
    exact ⟨world', contact', rfl⟩

theorem simulateAll_append_eq_ok_iff {first second : List F32} :
    simulateAll (first ++ second) e = .ok () e' ↔
      ∃ e₁, simulateAll first e = .ok () e₁ ∧ simulateAll second e₁ = .ok () e' := by
  induction first generalizing e with
  | nil => simp [simulateAll_nil_eq_ok_iff]
  | cons dt rest ih =>
    simp only [List.cons_append, simulateAll_cons_eq_ok_iff, ih]
    constructor
    · rintro ⟨e₁, h₁, e₂, h₂, h₃⟩
      exact ⟨e₂, ⟨e₁, h₁, h₂⟩, h₃⟩
    · rintro ⟨e₂, ⟨e₁, h₁, h₂⟩, h₃⟩
      exact ⟨e₁, h₁, e₂, h₂, h₃⟩

/-- They do so whatever time is left over, and whatever has been shown and counted. -/
theorem simulateAll_beside {lengths : List F32} (leftover : F32)
    (renderer : Option (SystemId × Rendering)) (frame : Nat)
    (h : simulateAll lengths e = .ok () e') :
    simulateAll lengths { e with leftover, renderer, frame } =
      .ok () { e' with leftover, renderer, frame } := by
  induction lengths generalizing e with
  | nil => exact simulateAll_nil_eq_ok_iff.mpr (by rw [simulateAll_nil_eq_ok_iff.mp h])
  | cons dt rest ih =>
    obtain ⟨e₁, h₁, hrest⟩ := simulateAll_cons_eq_ok_iff.mp h
    refine simulateAll_cons_eq_ok_iff.mpr ⟨{ e₁ with leftover, renderer, frame }, ?_, ih hrest⟩
    obtain ⟨w₁, contact, w₂, w₃, world, hmotion, hcontact, hupkeep, hadded, rfl⟩ :=
      simulate_eq_ok_iff.mp h₁
    exact simulate_eq_ok_iff.mpr
      ⟨w₁, contact, w₂, w₃, world, hmotion, hcontact, hupkeep, hadded, rfl⟩

theorem simulateAll_waited {lengths : List F32} (leftover : F32)
    (h : simulateAll lengths e = .ok () e') :
    simulateAll lengths { e with leftover } = .ok () { e' with leftover } := by
  obtain ⟨world, contact, rfl⟩ := exists_of_simulateAll h
  exact simulateAll_beside leftover e.renderer e.frame h

theorem simulateSteps_eq_ok_iff {step : F32} {n : Nat} : simulateSteps step n e = .ok () e' ↔
    ∃ e₁, simulateAll (List.replicate n step) e = .ok () e₁ ∧
      e' = { e₁ with leftover := Clock.spend step n e.leftover } := by
  induction n generalizing e with
  | zero =>
    have hzero : simulateSteps step 0 e = .ok () e := rfl
    rw [hzero, EStateM.Result.ok.injEq, List.replicate_zero]
    simp [simulateAll_nil_eq_ok_iff, Clock.spend, eq_comm (b := e')]
  | succ n ih =>
    rw [simulateSteps_succ, bind_eq_ok_iff, List.replicate_succ]
    simp only [modify_bind, ih, simulateAll_cons_eq_ok_iff]
    -- The clock is put forward between the steps there and after them here.
    constructor
    · rintro ⟨_, e₁, h₁, e₂, hrest, rfl⟩
      obtain ⟨_, contact, _, _, world, _, _, _, _, rfl⟩ := simulate_eq_ok_iff.mp h₁
      exact ⟨{ e₂ with leftover := e.leftover }, ⟨_, h₁, simulateAll_waited e.leftover hrest⟩, rfl⟩
    · rintro ⟨e₂, ⟨e₁, h₁, hrest⟩, rfl⟩
      obtain ⟨_, contact, _, _, world, _, _, _, _, rfl⟩ := simulate_eq_ok_iff.mp h₁
      exact ⟨(), _, h₁, _, simulateAll_waited (e.leftover - step) hrest, rfl⟩

/-! ## A tick -/

/-- How a tick divides its time. -/
structure Division where
  /-- The number of simulation steps. -/
  steps : Nat
  /-- The length of each. -/
  length : F32
  /-- The time left over afterwards. -/
  leftover : F32
  /-- The share of a step that is. -/
  alpha : F32

def division (e : Engine) (dt : F32) : Division :=
  match e.config.physics.fixedTimestep with
  | some step =>
    let (steps, leftover) := Clock.advance step e.leftover (effectiveDelta dt)
    ⟨steps, step, leftover, leftover / step⟩
  | none => ⟨1, effectiveDelta dt, e.leftover, 0⟩

/-- The simulation steps of a tick, by their lengths. -/
def stepsOf (e : Engine) (dt : F32) : List F32 :=
  List.replicate (e.division dt).steps (e.division dt).length

theorem simulateFixed_eq_ok_iff {step dt : F32} {x : Nat × F32} :
    simulateFixed step dt e = .ok x e' ↔
      ∃ e₁, simulateAll (List.replicate (Clock.advance step e.leftover dt).1 step) e = .ok () e₁ ∧
        x = ((Clock.advance step e.leftover dt).1, (Clock.advance step e.leftover dt).2 / step) ∧
        e' = { e₁ with leftover := (Clock.advance step e.leftover dt).2 } := by
  let time := e.leftover + dt
  let n := Clock.dueSteps step Clock.maxSteps time
  rw [simulateFixed_eq, bind_eq_ok_iff]
  constructor
  · rintro ⟨_, e₁, hsteps, hend⟩
    obtain ⟨e₁, hall, rfl⟩ := simulateSteps_eq_ok_iff.mp hsteps
    obtain ⟨rfl, rfl⟩ := EStateM.Result.ok.inj hend
    have hall : simulateAll (List.replicate n step) e = .ok () { e₁ with leftover := e.leftover } :=
      simulateAll_waited (e := { e with leftover := time }) e.leftover hall
    exact ⟨_, hall, rfl, rfl⟩
  · rintro ⟨e₁, hall, rfl, rfl⟩
    exact ⟨(), _, simulateSteps_eq_ok_iff.mpr ⟨_, simulateAll_waited time hall, rfl⟩, rfl⟩

/-- The renderer once it has been sent a frame. -/
def shown (e : Engine) : Except SceneError (Option (SystemId × Rendering)) :=
  match e.renderer with
  | none => .ok none
  | some (id, r) => (r.step id e.world).map fun r => some (id, r)

theorem present_eq (e : Engine) : present e = match e.shown with
    | .ok renderer => .ok () { e with renderer }
    | .error error => .error error e := by
  have hget : present e = (match e.renderer with
      | none => return
      | some (id, rendering) => do
        let rendering ← ofExcept (rendering.step id e.world)
        set { e with renderer := some (id, rendering) } : EngineAction Unit) e := rfl
  rw [hget, shown]
  cases hr : e.renderer with
  | none => exact congrArg (EStateM.Result.ok ()) (by rw [← hr])
  | some entry =>
    obtain ⟨id, rendering⟩ := entry
    dsimp only
    cases rendering.step id e.world <;> rfl

/-- What is left of a tick after its simulation. -/
theorem conclude_eq_ok_iff {steps : Nat} {alpha : F32} {stats : TickStats} :
    (do
      present
      let e ← get
      set { e with frame := e.frame + 1 }
      return ⟨e.frame, steps, alpha⟩ : EngineAction TickStats) e = .ok stats e' ↔
    ∃ renderer, e.shown = .ok renderer ∧ stats = ⟨e.frame, steps, alpha⟩ ∧
      e' = { e with renderer, frame := e.frame + 1 } := by
  rw [bind_eq_ok_iff, present_eq]
  cases e.shown with
  | error error => simp
  | ok renderer =>
    constructor
    · rintro ⟨_, _, hpresent, hend⟩
      obtain ⟨rfl, rfl⟩ := EStateM.Result.ok.inj hpresent
      obtain ⟨rfl, rfl⟩ := EStateM.Result.ok.inj hend
      exact ⟨renderer, rfl, rfl, rfl⟩
    · rintro ⟨_, hshown, rfl, rfl⟩
      obtain rfl := Except.ok.inj hshown
      exact ⟨(), _, rfl, rfl⟩

/-- **What a tick does.** It comes to its end when its simulation steps do and a frame can be
built, and then it has divided its time, run the steps, sent the frame and counted itself. -/
theorem tick_eq_ok_iff {dt : F32} {stats : TickStats} : tick dt e = .ok stats e' ↔
    ∃ world contact renderer, simulateAll (e.stepsOf dt) e = .ok () { e with world, contact } ∧
      shown { e with world, contact } = .ok renderer ∧
      stats = ⟨e.frame, (e.division dt).steps, (e.division dt).alpha⟩ ∧
      e' = { e with
        world, contact, leftover := (e.division dt).leftover, renderer, frame := e.frame + 1 } := by
  rw [tick, get_bind]
  simp only [stepsOf, division]
  cases e.config.physics.fixedTimestep with
  | some step =>
    dsimp only
    rw [bind_eq_ok_iff]
    constructor
    · rintro ⟨x, _, hfixed, hend⟩
      obtain ⟨e₁, hall, rfl, rfl⟩ := simulateFixed_eq_ok_iff.mp hfixed
      obtain ⟨renderer, hshown, rfl, rfl⟩ := conclude_eq_ok_iff.mp hend
      obtain ⟨world, contact, rfl⟩ := exists_of_simulateAll hall
      exact ⟨world, contact, renderer, hall, hshown, rfl, rfl⟩
    · rintro ⟨world, contact, renderer, hall, hshown, rfl, rfl⟩
      exact ⟨_, _, simulateFixed_eq_ok_iff.mpr ⟨_, hall, rfl, rfl⟩,
        conclude_eq_ok_iff.mpr ⟨renderer, hshown, rfl, rfl⟩⟩
  | none =>
    dsimp only
    rw [bind_eq_ok_iff]
    constructor
    · rintro ⟨_, e₁, hsim, hend⟩
      have hall := simulateAll_cons_eq_ok_iff.mpr ⟨e₁, hsim, simulateAll_nil_eq_ok_iff.mpr rfl⟩
      obtain ⟨renderer, hshown, rfl, rfl⟩ := conclude_eq_ok_iff.mp hend
      obtain ⟨world, contact, rfl⟩ := exists_of_simulateAll hall
      exact ⟨world, contact, renderer, hall, hshown, rfl, rfl⟩
    · rintro ⟨world, contact, renderer, hall, hshown, rfl, rfl⟩
      obtain ⟨e₁, hsim, hnil⟩ := simulateAll_cons_eq_ok_iff.mp hall
      obtain rfl := simulateAll_nil_eq_ok_iff.mp hnil
      exact ⟨(), _, hsim, conclude_eq_ok_iff.mpr ⟨renderer, hshown, rfl, rfl⟩⟩

/-! ## Series of ticks -/

/-- Ticks one after the other, with what each of them did. -/
def ticks : List F32 → EngineAction (List TickStats)
  | [] => return []
  | dt :: rest => do
    let stats ← tick dt
    return stats :: (← ticks rest)

theorem ticks_nil_eq_ok_iff {all : List TickStats} : ticks [] e = .ok all e' ↔ all = [] ∧ e' = e := by
  have hnil : ticks [] e = .ok [] e := rfl
  rw [hnil, EStateM.Result.ok.injEq, eq_comm (a := e'), eq_comm (a := all)]

theorem ticks_cons_eq_ok_iff {dt : F32} {rest : List F32} {all : List TickStats} :
    ticks (dt :: rest) e = .ok all e' ↔ ∃ stats e₁ others, tick dt e = .ok stats e₁ ∧
      ticks rest e₁ = .ok others e' ∧ all = stats :: others := by
  rw [ticks, bind_eq_ok_iff]
  simp only [bind_eq_ok_iff]
  constructor
  · rintro ⟨stats, e₁, htick, others, _, hrest, hend⟩
    obtain ⟨rfl, rfl⟩ := EStateM.Result.ok.inj hend
    exact ⟨stats, e₁, others, htick, hrest, rfl⟩
  · rintro ⟨stats, e₁, others, htick, hrest, rfl⟩
    exact ⟨stats, e₁, htick, others, e', hrest, rfl⟩

end SceneEngine.Engine
