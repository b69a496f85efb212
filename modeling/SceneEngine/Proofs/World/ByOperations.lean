/-
Systems work on a world through its operations.

What a system does in a step may depend on all it finds, and it may give up half way. But what
it leaves is always what some run of operations would have left (`ByOperations`): the built-in
systems work so, and so does what a user puts together from operations. An operation takes back
nothing that is registered, and a transform that is put in or changed by one is one that the operations
on transforms can bring about. So all transforms of a world stay such (`Placed`), whatever systems it
has.
-/
import SceneEngine.Proofs.Transform.Refreshes
import SceneEngine.Proofs.World.Numbering
import SceneEngine.Proofs.World.Values
import SceneEngine.Schedule

namespace SceneEngine

/-- A transform has come of refreshes by these tolerances; other components may be anything. -/
def Arising (tolerances : Set (Tolerance F64)) : (k : Kind) → k.Value → Prop
  | .transform, t => Transform.Arises tolerances t
  | _, _ => True

namespace World

variable {tolerances : Set (Tolerance F64)} {w w' w'' : World}

/-- What the operation writes into the world has arisen so, if what it found there has. -/
def Operation.Keeps (tolerances : Set (Tolerance F64)) : Operation → Prop
  | .serve r => r.Keeps (Arising tolerances)
  | _ => True

/-! ## What operations keep -/

/-- The second world has all that is registered in the first. -/
structure Grows (w w' : World) : Prop extends w.Extends w' where
  tolerance : w'.tolerance = w.tolerance
  names : ∀ name, (w.roster.find? name).isSome = true → (w'.roster.find? name).isSome = true

theorem Grows.refl (w : World) : w.Grows w := ⟨.refl w, rfl, fun _ h => h⟩

theorem Grows.trans (h : w.Grows w') (h' : w'.Grows w'') : w.Grows w'' where
  toExtends := h.toExtends.trans h'.toExtends
  tolerance := h'.tolerance.trans h.tolerance
  names name hname := h'.names name (h.names name hname)

theorem Effect.names {op : Operation} (h : w.Effect op w') {name : String}
    (hname : (w.roster.find? name).isSome = true) : (w'.roster.find? name).isSome = true := by
  cases h with
  | quiet _ _ _ names => exact names name hname
  | created name' id _ _ roster => rwa [roster]
  | destroyed id _ _ roster | refitted id s _ _ roster =>
    rw [roster]
    exact hname

theorem grows_advance (h : w.Coherent) (op : Operation) : w.Grows (w.advance op) := by
  have hnames : ∀ name, (w.roster.find? name).isSome = true →
      ((w.advance op).roster.find? name).isSome = true := fun _ => (effect_advance h op).names
  cases op with
  | serve r => exact ⟨extends_serve h r, tolerance_serve h r, hnames⟩
  | registerSystem name required =>
    exact ⟨extends_registerSystem w name required, tolerance_registerSystem w name required, hnames⟩
  | registerSystemFor name kinds =>
    obtain ⟨_, w', hp, _, hext, ht, _⟩ := registerSystemFor_cases h name kinds
    rw [advance, after, hp] at hnames ⊢
    exact ⟨hext, ht, hnames⟩

/-- All transforms have come of refreshes by these tolerances, and comparisons are made by one
of them. -/
structure Placed (tolerances : Set (Tolerance F64)) (w : World) : Prop where
  coherent : w.Coherent
  values : w.Every (Arising tolerances)
  tolerance : w.tolerance ∈ tolerances

theorem placed_new {capacity : CapacityConfig} {tolerance : Tolerance F64}
    (h : World.new capacity tolerance = .ok w) (ht : tolerance ∈ tolerances) :
    w.Placed tolerances :=
  ⟨coherent_new h, every_new h, (tolerance_new h).symm ▸ ht⟩

theorem Placed.advance (h : w.Placed tolerances) {op : Operation} (hop : op.Keeps tolerances) :
    (w.advance op).Placed tolerances where
  coherent := h.coherent.advance op
  values := by
    cases op with
    | serve r => exact h.values.serve h.coherent hop
    | registerSystem name required => exact h.values.registerSystem name required
    | registerSystemFor name kinds => exact h.values.registerSystemFor h.coherent name kinds
  tolerance := (grows_advance h.coherent op).tolerance ▸ h.tolerance

/-- What one operation keeps, a run of them keeps. -/
theorem Placed.play (h : w.Placed tolerances) {run : List Operation}
    (hrun : ∀ op ∈ run, op.Keeps tolerances) :
    (w.play run).Placed tolerances ∧ w.Grows (w.play run) := by
  induction run generalizing w with
  | nil => exact ⟨h, .refl w⟩
  | cons op rest ih =>
    obtain ⟨hplaced, hgrows⟩ := ih (h.advance (hrun op (by simp))) fun op hop => hrun op (by simp [hop])
    exact ⟨hplaced, (grows_advance h.coherent op).trans hgrows⟩

theorem Placed.currentBy (h : w.Placed tolerances) {x : EntityId} {t : Transform F32}
    (ht : w.get? .transform x = some t) : t.CurrentBy tolerances :=
  have harises : t.Arises tolerances := h.values .transform x t ht
  harises.currentBy

/-! ## Actions that come down to operations -/

/-- The action leaves what a run of operations leaves, also when it fails. Which operations these
are may depend on the world. -/
def ByOperations {β : Type} (tolerances : Set (Tolerance F64)) (action : Action β) : Prop :=
  ∀ w : World, w.Placed tolerances →
    ∃ run : List Operation, (∀ op ∈ run, op.Keeps tolerances) ∧ w.after action = w.play run

section ByOperations

variable {β γ : Type}

theorem ByOperations.placed {action : Action β} (ha : ByOperations tolerances action)
    (h : w.Placed tolerances) :
    (w.after action).Placed tolerances ∧ w.Grows (w.after action) := by
  obtain ⟨run, hrun, heq⟩ := ha w h
  rw [heq]
  exact h.play hrun

theorem byOperations_of_unchanged {action : Action β} (h : ∀ w : World, w.after action = w) :
    ByOperations tolerances action := fun w _ => ⟨[], by simp, h w⟩

theorem byOperations_advance {action : Action β} (op : World → Operation)
    (hop : ∀ w : World, w.Placed tolerances → (op w).Keeps tolerances)
    (h : ∀ w : World, w.Placed tolerances → w.after action = w.advance (op w)) :
    ByOperations tolerances action := fun w hw => ⟨[op w], by simpa using hop w hw, h w hw⟩

theorem byOperations_serve {r : Request} (hr : r.Keeps (Arising tolerances)) :
    ByOperations tolerances (serve r) :=
  byOperations_advance (fun _ => .serve r) (fun _ _ => hr) fun _ _ => rfl

theorem byOperations_registerSystemFor (name : String) (kinds : List Kind) :
    ByOperations tolerances (registerSystemFor name kinds) :=
  byOperations_advance (fun _ => .registerSystemFor name kinds) (fun _ _ => trivial)
    fun _ _ => rfl

theorem ByOperations.bind {a : Action β} {f : β → Action γ} (ha : ByOperations tolerances a)
    (hf : ∀ x, ByOperations tolerances (f x)) : ByOperations tolerances (a >>= f) := by
  intro w hw
  refine after_bind w (I := fun w' => ∃ run : List Operation,
    (∀ op ∈ run, op.Keeps tolerances) ∧ w' = w.play run) (ha w hw) ?_
  rintro x _ ⟨first, hfirst, rfl⟩
  obtain ⟨second, hsecond, heq⟩ := hf x _ (hw.play hfirst).1
  refine ⟨first ++ second, fun op hop => ?_, by rw [heq, play, play, play, List.foldl_append]⟩
  exact (List.mem_append.mp hop).elim (hfirst op) (hsecond op)

theorem byOperations_pure (x : β) : ByOperations tolerances (pure x) :=
  byOperations_of_unchanged fun _ => rfl

theorem ByOperations.discard {action : Action β} (ha : ByOperations tolerances action) :
    ByOperations tolerances (discard action) := ha.bind fun _ => byOperations_pure _

theorem byOperations_read (k : Kind) (e : EntityId) : ByOperations tolerances (read k e) :=
  byOperations_of_unchanged fun w => by rw [after, perform_read]

theorem byOperations_readMembers (id : SystemId) : ByOperations tolerances (readMembers id) :=
  byOperations_of_unchanged fun w => by
    cases hm : w.members id <;> simp [after, readMembers, hm]

theorem byOperations_write {k : Kind} {e : EntityId} {value : k.Value}
    (h : Arising tolerances k value) : ByOperations tolerances (write k e value) := by
  refine byOperations_advance (fun _ => .serve (.update k e fun _ => value))
    (fun _ _ _ _ => h) fun w hw => ?_
  rcases write_cases hw.coherent.storage k e value with ⟨hnone, hp⟩ | ⟨hsome, storage, _, hp⟩
  · simp [advance, after, serve, perform_read, component, hnone, hp]
  · obtain ⟨x, hx⟩ := Option.isSome_iff_exists.mp hsome
    simp [advance, after, serve, perform_read, component, hx, hp]

/-- A component is replaced by what is made from it and from the world. -/
theorem byOperations_update {k : Kind} {e : EntityId} (g : World → k.Value → k.Value)
    (hg : ∀ w : World, w.Placed tolerances →
      ∀ x, Arising tolerances k x → Arising tolerances k (g w x)) :
    ByOperations tolerances (do
      let x ← read k e
      write k e (g (← get) x)) := by
  refine byOperations_advance (fun w => .serve (.update k e (g w))) hg ?_
  intro w _
  rw [advance, after, after, serve, perform_bind, perform_bind, perform_read]
  cases w.component k e with
  | error error => rfl
  | ok x =>
    dsimp only
    rw [perform_bind, perform_get]
    dsimp only
    rw [perform_bind]
    rcases w.perform (write k e (g w x)) with ⟨_ | _, _⟩ <;> rfl

/-- A component is replaced by what is made from it alone. -/
theorem byOperations_rewrite {k : Kind} {e : EntityId} (g : k.Value → k.Value)
    (hg : ∀ w : World, w.Placed tolerances → ∀ x, Arising tolerances k x → Arising tolerances k (g x)) :
    ByOperations tolerances (do
      let x ← read k e
      write k e (g x)) :=
  byOperations_update (fun _ => g) hg

theorem byOperations_updatePair {a b : Kind} {e : EntityId} (g : a.Value × b.Value → a.Value × b.Value)
    (hg : ∀ w : World, w.Placed tolerances → ∀ x y, Arising tolerances a x → Arising tolerances b y →
      Arising tolerances a (g (x, y)).1 ∧ Arising tolerances b (g (x, y)).2) :
    ByOperations tolerances (do
      let xy ← readPair a b e
      writePair a b e (g xy).1 (g xy).2) := by
  refine byOperations_advance (fun _ => .serve (.updatePair a b e g)) hg ?_
  intro w _
  rw [advance, after, after, serve, perform_bind, perform_bind, perform_readPair]
  cases w.storage.pair a b e <;> rfl

theorem byOperations_forM {l : List β} {f : β → Action Unit}
    (h : ∀ x ∈ l, ByOperations tolerances (f x)) : ByOperations tolerances (l.forM f) := by
  induction l with
  | nil => exact byOperations_pure ()
  | cons x rest ih =>
    exact (h x (by simp)).bind fun _ => ih fun y hy => h y (by simp [hy])

theorem byOperations_perMember (id : SystemId) {rule : EntityId → Action Unit}
    (h : ∀ e, ByOperations tolerances (rule e)) :
    ByOperations tolerances (do (← readMembers id).forM rule) :=
  (byOperations_readMembers id).bind fun _ => byOperations_forM fun e _ => h e

end ByOperations

end World

/-! ## Systems -/

open World (ByOperations)

variable {tolerances : Set (Tolerance F64)}

namespace Motion

theorem arises_moveBody {tolerance : Tolerance F64} (ht : tolerance ∈ tolerances)
    (config : PhysicsConfig) (dt : F32) {t : Transform F32} (h : t.Arises tolerances) (b : Body) :
    (moveBody config dt t b).1.Arises tolerances := by
  unfold moveBody
  dsimp only
  split
  · exact h.after (.move _) ht
  · exact h

theorem byOperations_step (config : PhysicsConfig) (id : SystemId) (dt : F32) :
    ByOperations tolerances (Motion.step config id dt) :=
  World.byOperations_perMember id fun _ =>
    World.byOperations_updatePair (a := .transform) (b := .body)
      (fun tb => moveBody config dt tb.1 tb.2)
      fun _ hw _ b ht _ => ⟨arises_moveBody hw.tolerance config dt ht b, trivial⟩

end Motion

namespace Upkeep

theorem arises_tend {tolerance : Tolerance F64} (ht : tolerance ∈ tolerances) {t : Transform F32}
    (h : t.Arises tolerances) : (tend tolerance t).Arises tolerances := by
  unfold tend
  dsimp only
  split
  · exact h.after .refresh ht
  · exact (h.after (.setRotation _) ht).after .refresh ht

theorem byOperations_step (id : SystemId) : ByOperations tolerances (Upkeep.step id) :=
  World.byOperations_perMember id fun _ =>
    World.byOperations_update (k := .transform) (fun w => tend w.tolerance)
      fun _ hw _ ht => arises_tend hw.tolerance ht

end Upkeep

namespace Contact

theorem byOperations_resolve (config : PhysicsConfig) (s : Solid) (c : AxisContacts) :
    ByOperations tolerances (resolve config s c) := by
  have htold (wasOnGround : Bool) : ByOperations tolerances (do
      let collider ← World.read .collider s.entity
      World.write .collider s.entity { collider with
        report := { collider.report with
          blockedAxes := c.blocked, wasOnGround, onGround := c.onGround } }) :=
    (World.byOperations_read .collider s.entity).bind fun _ =>
      World.byOperations_write (k := .collider) trivial
  refine (World.byOperations_read .collider s.entity).bind fun collider => ?_
  dsimp only
  split
  · have hrelieved : ByOperations tolerances _ :=
      World.byOperations_updatePair (a := .transform) (b := .body) (e := s.entity) (fun tb =>
        let b : Body := tb.2
        let velocity := respond config.bounciness config.bouncinessThreshold b.velocity c.blocked
          collider.report.onGround b.friction c.friction
        (tb.1.setPosition (s.restingPosition c), { b with velocity }))
      fun _ hw _ _ ht _ => ⟨ht.after (.setPosition _) hw.tolerance, trivial⟩
    have hboth := hrelieved.bind fun _ => htold collider.report.onGround
    rw [bind_assoc] at hboth
    exact hboth
  · exact htold _

theorem byOperations_report (e : EntityId) (collidingWith blockedBy : List EntityId) :
    ByOperations tolerances (report e collidingWith blockedBy) :=
  (World.byOperations_read .collider e).bind fun _ => World.byOperations_write (k := .collider) trivial

theorem byOperations_clearReport (e : EntityId) : ByOperations tolerances (clearReport e) := by
  refine (World.byOperations_read .collider e).bind fun collider => ?_
  split
  · exact World.byOperations_write (k := .collider) trivial
  · exact World.byOperations_pure ()

theorem byOperations_settle {n : Nat} (config : PhysicsConfig) (bodies : Vector Solid n)
    (pairs : List (Pair n)) (id : SystemId) :
    ByOperations tolerances (settle config bodies pairs id) := by
  refine (World.byOperations_forM fun i _ => ?_).bind fun _ =>
    (World.byOperations_forM fun i _ => byOperations_report _ _ _).bind fun _ =>
      World.byOperations_perMember id byOperations_clearReport
  split
  · exact byOperations_resolve config _ _
  · exact World.byOperations_pure ()

/-- The world after a contact step is that after an action of this kind. -/
theorem exists_byOperations_step (tolerances : Set (Tolerance F64)) (m : ContactMemory)
    (id : SystemId) (w : World) :
    ∃ action : Action Unit, ByOperations tolerances action ∧ (step m id w).2 = action w := by
  unfold step stepOver
  cases gather w id with
  | error error => exact ⟨throw error, World.byOperations_of_unchanged fun _ => rfl, rfl⟩
  | ok solids => exact ⟨_, byOperations_settle m.config solids.toVector _ id, rfl⟩

end Contact

end SceneEngine
