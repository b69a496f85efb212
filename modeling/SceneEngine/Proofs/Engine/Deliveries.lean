/-
Where the events of an engine are, over whole runs.

Whatever is done to an engine, ticks that fail on the way included, what happens to the
channel of its events is that some are sent and, now and then, all that are queued are
taken. So a run of an engine is a run of that channel (`exists_acts`), and its books
balance as those of any channel do.
-/
import SceneEngine.Proofs.Channel
import SceneEngine.Proofs.Engine.Likeness
import SceneEngine.Proofs.World.Failure

namespace SceneEngine

theorem Contact.events_step (m : ContactMemory) (id : SystemId) (w : World) :
    (step m id w).1.events = (freshEvents m.activePairs (found w id)).foldl Channel.send m.events := by
  unfold step stepOver found
  cases gather w id <;> rfl

namespace Engine

variable {e e' : Engine} {dt : F32}

/-! ## Actions that may fail -/

theorem after_bind {β γ : Type} (e : Engine) (a : EngineAction β) (f : β → EngineAction γ) :
    e.after (a >>= f) = match a e with
      | .ok x e' => e'.after (f x)
      | .error _ e' => e' := by
  simp only [after, bind, EStateM.bind]
  cases a e <;> rfl

/-- An action that leaves a part alone comes after another. -/
theorem part_after_bind {β γ δ : Type} (part : Engine → δ) {a : EngineAction β}
    {f : β → EngineAction γ} (hf : ∀ (x : β) (e' : Engine), part (e'.after (f x)) = part e') :
    part (e.after (a >>= f)) = part (e.after a) := by
  rw [after_bind, after]
  cases a e with
  | ok x e' => exact hf x e'
  | error _ e' => rfl

theorem contact_after_bind {β γ : Type} {a : EngineAction β} {f : β → EngineAction γ}
    (hf : ∀ (x : β) (e' : Engine), (e'.after (f x)).contact = e'.contact) :
    (e.after (a >>= f)).contact = (e.after a).contact :=
  part_after_bind Engine.contact hf

theorem contact_after_onWorld {β : Type} (e : Engine) (action : Action β) :
    (e.after (onWorld action)).contact = e.contact := by
  rw [after_onWorld]

theorem contact_after_present (e : Engine) : (e.after present).contact = e.contact := by
  rw [after, present_eq]
  cases e.shown <;> rfl

theorem contact_after_attachRenderer (e : Engine) (capacity : Nat) :
    (e.after (attachRenderer capacity)).contact = e.contact := by
  rw [attachRenderer, contact_after_bind fun _ _ => rfl, contact_after_onWorld]

/-- Adding a behavior changes the world and the schedule, also when it fails. -/
theorem after_addBehavior (e : Engine) (b : Behavior) :
    ∃ world behaviors, e.after (addBehavior b) = { e with world, behaviors } := by
  rw [after, addBehavior_apply]
  rcases e.world.perform (World.registerSystemFor b.name b.required) with ⟨_ | _, _⟩ <;>
    exact ⟨_, _, rfl⟩

theorem contact_after_addBehavior (e : Engine) (b : Behavior) :
    (e.after (addBehavior b)).contact = e.contact := by
  obtain ⟨_, _, hafter⟩ := after_addBehavior e b
  rw [hafter]

/-! ## What a simulation emits -/

/-- The events a simulation step emits, also when it fails later on. -/
def dispatch (e : Engine) (dt : F32) : List ContactEvent :=
  match Motion.step e.config.physics e.motionId dt e.world with
  | .ok _ _ => e.news dt
  | .error _ _ => []

/-- The events of a series of simulation steps, the first failure of which ends it. -/
def dispatches : List F32 → Engine → List ContactEvent
  | [], _ => []
  | dt :: rest, e => e.dispatch dt ++
    match simulate dt e with
    | .ok _ e' => dispatches rest e'
    | .error _ _ => []

theorem events_after_simulate (e : Engine) (dt : F32) : (e.after (simulate dt)).contact.events =
    (e.dispatch dt).foldl Channel.send e.contact.events := by
  rw [after_congr (simulate_eq e dt), after_bind, onWorld, dispatch, news, World.after,
    World.perform, Change.perform]
  cases Motion.step e.config.physics e.motionId dt e.world with
  | error error world => rfl
  | ok _ world =>
    dsimp only
    have hrest : ∀ (_ : Unit) (e' : Engine), (e'.after (onWorld (Upkeep.step e.upkeepId) >>= fun _ =>
        onWorld (e.behaviors.run dt))).contact = e'.contact := by
      intro _ e'
      rw [contact_after_bind fun _ => (contact_after_onWorld · _), contact_after_onWorld]
    rw [contact_after_bind hrest, ← Contact.events_step]
    have hstep : (after { e with world } stepContact).contact =
        (Contact.step e.contact e.contactId world).1 := by
      unfold after stepContact
      rcases Contact.step e.contact e.contactId world with ⟨contact, _ | _⟩ <;> rfl
    rw [hstep]

/-! ## What a tick emits -/

theorem dispatch_waited (e : Engine) (leftover dt : F32) :
    dispatch { e with leftover } dt = e.dispatch dt := rfl

theorem simulate_waited (leftover : F32) (h : simulate dt e = .ok () e') :
    simulate dt { e with leftover } = .ok () { e' with leftover } := by
  obtain ⟨w₁, contact, w₂, w₃, world, h₁, h₂, h₃, h₄, rfl⟩ := simulate_eq_ok_iff.mp h
  exact simulate_eq_ok_iff.mpr ⟨w₁, contact, w₂, w₃, world, h₁, h₂, h₃, h₄, rfl⟩

/-- The time left over has no part in what is emitted. -/
theorem dispatches_waited (e : Engine) (leftover : F32) (lengths : List F32) :
    dispatches lengths { e with leftover } = dispatches lengths e := by
  induction lengths generalizing e with
  | nil => rfl
  | cons dt rest ih =>
    rw [dispatches, dispatches, dispatch_waited]
    cases hsim : simulate dt e with
    | ok _ e' =>
      rw [simulate_waited leftover hsim]
      exact congrArg _ (ih e')
    | error error e' =>
      cases hsim' : simulate dt { e with leftover } with
      | ok _ e'' =>
        -- With its own time left over the engine would have come to the end of the step.
        have hback := simulate_waited e.leftover hsim'
        rw [hsim] at hback
        cases hback
      | error _ _ => rfl

theorem events_after_simulateSteps (e : Engine) (step : F32) (n : Nat) :
    (e.after (simulateSteps step n)).contact.events =
      (dispatches (List.replicate n step) e).foldl Channel.send e.contact.events := by
  induction n generalizing e with
  | zero => rfl
  | succ n ih =>
    have hfirst := events_after_simulate e step
    rw [simulateSteps_succ, after_bind, List.replicate_succ, dispatches, List.foldl_append]
    rw [after] at hfirst
    cases hsim : simulate step e with
    | error error e' =>
      rw [hsim] at hfirst
      exact hfirst
    | ok _ e' =>
      rw [hsim] at hfirst
      dsimp only at hfirst ⊢
      rw [← hfirst, ← dispatches_waited e' (e'.leftover - step)]
      exact ih { e' with leftover := e'.leftover - step }

theorem events_after_simulateFixed (e : Engine) (step dt : F32) :
    (e.after (simulateFixed step dt)).contact.events =
      (dispatches (List.replicate (Clock.advance step e.leftover dt).1 step) e).foldl
        Channel.send e.contact.events := by
  rw [after_congr (simulateFixed_eq e step dt), contact_after_bind fun _ _ => rfl,
    events_after_simulateSteps, dispatches_waited]
  rfl

/-- What comes after the simulation of a tick. -/
def conclude (x : Nat × F32) : EngineAction TickStats := do
  present
  let e ← get
  set { e with frame := e.frame + 1 }
  return ⟨e.frame, x.1, x.2⟩

theorem contact_after_conclude (x : Nat × F32) (e : Engine) :
    (e.after (conclude x)).contact = e.contact := by
  rw [conclude, contact_after_bind fun _ _ => rfl, contact_after_present]

theorem tick_of_fixed {step : F32} (h : e.config.physics.fixedTimestep = some step) (dt : F32) :
    tick dt e = (simulateFixed step (effectiveDelta dt) >>= conclude) e := by
  rw [tick, get_bind, h]
  rfl

theorem tick_of_free (h : e.config.physics.fixedTimestep = none) (dt : F32) :
    tick dt e = (simulate (effectiveDelta dt) >>= fun _ => conclude (1, 0)) e := by
  rw [tick, get_bind, h]
  rfl

/-- A tick sends the events of its simulation steps, wherever it ends. -/
theorem events_after_tick (e : Engine) (dt : F32) : (e.after (tick dt)).contact.events =
    (dispatches (e.stepsOf dt) e).foldl Channel.send e.contact.events := by
  cases hstep : e.config.physics.fixedTimestep with
  | some step =>
    rw [after_congr (tick_of_fixed hstep dt), contact_after_bind contact_after_conclude,
      events_after_simulateFixed, stepsOf, division, hstep]
  | none =>
    have hone : dispatches [effectiveDelta dt] e = e.dispatch (effectiveDelta dt) := by
      rw [dispatches]
      cases simulate (effectiveDelta dt) e <;> exact List.append_nil _
    rw [after_congr (tick_of_free hstep dt), contact_after_bind fun _ => contact_after_conclude (1, 0),
      events_after_simulate, stepsOf, division, hstep]
    exact congrArg (List.foldl _ _) hone.symm

/-! ## Runs -/

/-- What is done to an engine. Changes of its world and the behaviors added to it may be
anything. -/
inductive Deed where
  | change (action : Action Unit)
  | attachRenderer (capacity : Nat)
  | addBehavior (b : Behavior)
  | tick (dt : F32)
  /-- The receiver of the frames acts on their channel. -/
  | receiveFrames (act : Channel Frame → Channel Frame)
  | drainEvents

/-- A request to the world, whatever is answered. -/
def Deed.serve (r : Request) : Deed := .change (discard (World.serve r))

/-- What a deed leaves, also when it fails. -/
def enact (e : Engine) : Deed → Engine
  | .change action => e.after (onWorld action)
  | .attachRenderer capacity => e.after (Engine.attachRenderer capacity)
  | .addBehavior b => e.after (Engine.addBehavior b)
  | .tick dt => e.after (Engine.tick dt)
  | .receiveFrames act =>
    { e with renderer := e.renderer.map fun (id, r) => (id, { r with frames := act r.frames }) }
  | .drainEvents => e.drainEvents.2

/-- The events emitted in a deed. -/
def emits (e : Engine) : Deed → List ContactEvent
  | .tick dt => dispatches (e.stepsOf dt) e
  | _ => []

/-- The events received by it. -/
def drains (e : Engine) : Deed → List ContactEvent
  | .drainEvents => e.drainEvents.1
  | _ => []

/-- What it does at the ends of the channel. -/
def acts (e : Engine) (deed : Deed) : List (Channel.Act ContactEvent) :=
  match deed with
  | .drainEvents => [.drain]
  | _ => (e.emits deed).map .send

def enactAll (e : Engine) (run : List Deed) : Engine := run.foldl enact e

/-- Gathers what the deeds of a run give, one after the other. -/
def along {β : Type} (f : Engine → Deed → List β) (e : Engine) : List Deed → List β
  | [] => []
  | deed :: rest => f e deed ++ along f (e.enact deed) rest

theorem along_append {β : Type} (f : Engine → Deed → List β) (e : Engine) (first second : List Deed) :
    along f e (first ++ second) = along f e first ++ along f (e.enactAll first) second := by
  induction first generalizing e with
  | nil => rfl
  | cons deed rest ih =>
    rw [List.cons_append, along, along, ih, List.append_assoc]
    rfl

/-- The events emitted in a run, in the order of emission. -/
def emitted (e : Engine) (run : List Deed) : List ContactEvent := along emits e run

/-- The events received in it, in the order of receipt. -/
def drained (e : Engine) (run : List Deed) : List ContactEvent := along drains e run

open Channel (Ledger)

/-- A deed does to the ledger of the events what it does at the ends of the channel. -/
theorem play_acts {l : Ledger ContactEvent} (hl : l.channel = e.contact.events) (deed : Deed) :
    l.play (e.acts deed) =
      ⟨(e.enact deed).contact.events, l.sent ++ e.emits deed, l.received ++ e.drains deed, l.left⟩ := by
  have hidle : ∀ e' : Engine, e'.contact = e.contact →
      l.play [] = ⟨e'.contact.events, l.sent ++ [], l.received ++ [], l.left⟩ := by
    intro e' he'
    rw [he', ← hl, List.append_nil, List.append_nil]
    rfl
  cases deed with
  | change action => exact hidle _ (contact_after_onWorld e action)
  | attachRenderer capacity => exact hidle _ (contact_after_attachRenderer e capacity)
  | addBehavior b => exact hidle _ (contact_after_addBehavior e b)
  | receiveFrames act => exact hidle _ rfl
  | tick dt =>
    have hsends : e.acts (.tick dt) = (dispatches (e.stepsOf dt) e).map .send := rfl
    have hnone : e.drains (.tick dt) = [] := rfl
    rw [hsends, Ledger.play_sends, hl, enact, events_after_tick, hnone, List.append_nil]
    rfl
  | drainEvents =>
    have hdrain : l.play (e.acts .drainEvents) = l.after .drain := rfl
    have hnone : e.emits .drainEvents = [] := rfl
    rw [hdrain, Ledger.after, hl, hnone, List.append_nil]
    rfl

theorem play_along {l : Ledger ContactEvent} (hl : l.channel = e.contact.events)
    (run : List Deed) : l.play (along acts e run) =
      ⟨(e.enactAll run).contact.events, l.sent ++ e.emitted run, l.received ++ e.drained run,
        l.left⟩ := by
  induction run generalizing e l with
  | nil =>
    rw [emitted, drained, along, along, along, List.append_nil, List.append_nil, enactAll,
      List.foldl_nil, ← hl]
    rfl
  | cons deed rest ih =>
    rw [along, Ledger.play_append, play_acts hl, ih rfl]
    simp only [emitted, drained, along, List.append_assoc]
    rfl

/-- **Nothing sent is lost uncounted, repeated or reordered.** However the two ends of a
channel act, what was received, then what the receiver left behind and what is queued, is
part of what was sent and in the same order; and everything sent is in one of these or has
been counted as dropped. Whatever is done to an engine from its beginning on, the same is
true of the events it emits and those that are drained. -/
theorem deliveries_accounted :
    (∀ (α : Type) (capacity : Nat) (acts : List (Channel.Act α)),
      let l := (Ledger.new capacity).play acts
      l.received.Sublist l.sent ∧ (l.received ++ l.left ++ l.channel.queue).Sublist l.sent ∧
      l.sent.length =
        l.received.length + l.channel.queue.length + l.channel.dropped + l.left.length) ∧
    ∀ (config : EngineConfig) (e₀ : Engine), Engine.new config = .ok e₀ → ∀ run : List Deed,
      let channel := (e₀.enactAll run).contact.events
      (e₀.drained run).Sublist (e₀.emitted run) ∧
      (e₀.drained run ++ channel.queue).Sublist (e₀.emitted run) ∧
      (e₀.emitted run).length =
        (e₀.drained run).length + channel.queue.length + channel.dropped := by
  refine ⟨fun α capacity acts => ?_, fun config e₀ hnew run => ?_⟩
  · have hbalanced : ((Ledger.new capacity : Ledger α).play acts).Balanced :=
      (Ledger.balanced_new capacity).play acts
    exact ⟨hbalanced.received, hbalanced.order, hbalanced.count⟩
  · -- The run of the engine is one of the channel, at which the receiver stays.
    have hchannel : (Ledger.new config.physics.eventCapacity).channel = e₀.contact.events := by
      obtain ⟨_, _, _, _, _, _, _, rfl⟩ := exists_of_new hnew
      rfl
    have hbalanced := (Ledger.balanced_new config.physics.eventCapacity).play (along acts e₀ run)
    rw [play_along hchannel] at hbalanced
    have horder := hbalanced.order
    rw [show (Ledger.new config.physics.eventCapacity : Ledger ContactEvent).left = [] from rfl,
      List.append_nil] at horder
    exact ⟨hbalanced.received, horder, hbalanced.count⟩

/-- Three cubes in one place, and room for one event. The first tick fills the channel and
two events are dropped, and after a drain the second tick has nothing to tell. -/
theorem deliveries_accounted_full :
    ∃ (config : EngineConfig) (e₀ : Engine) (run : List Deed) (event : ContactEvent),
      Engine.new config = .ok e₀ ∧ (e₀.emitted run).length = 3 ∧ e₀.drained run = [event] ∧
      [event].Sublist (e₀.emitted run) ∧ (e₀.enactAll run).contact.events.dropped = 2 := by
  let config : EngineConfig := { EngineConfig.standard with
    physics := { PhysicsConfig.standard with eventCapacity := 1 } }
  let cubes := Request.cube 0 .origin ++ Request.cube 1 .origin ++ Request.cube 2 .origin
  let run : List Deed := cubes.map .serve ++ [.tick 1, .drainEvents, .tick 1]
  have hfacts : (Engine.new config).toOption.any (fun e₀ =>
      (e₀.emitted run).length = 3 ∧ e₀.drained run = [⟨0, 1, 1⟩] ∧
        (e₀.enactAll run).contact.events.queue = []) = true := by
    decide +kernel
  obtain ⟨e₀, hnew, hfacts⟩ := (Option.any_eq_true _ _).mp hfacts
  obtain ⟨hemitted, hdrained, hqueue⟩ := of_decide_eq_true hfacts
  have hnew := eq_ok_of_toOption hnew
  obtain ⟨hsub, _, hcount⟩ := deliveries_accounted.2 config e₀ hnew run
  rw [hdrained] at hsub
  rw [hemitted, hdrained, hqueue] at hcount
  refine ⟨config, e₀, run, _, hnew, hemitted, hdrained, hsub, ?_⟩
  simp only [List.length_singleton, List.length_nil] at hcount
  omega

end Engine

end SceneEngine
