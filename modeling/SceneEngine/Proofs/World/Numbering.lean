/-
What follows from the numbering of kinds, for everything that goes by numbers.

Signatures have a fixed width, and a bit beyond it would be mistaken for another one. No
world that comes of an empty one ever names such a bit: with any other way to handle bits,
as long as it is right within the width, it would do the same (`WithinWidth`). Systems
change a world through its own operations, so that running them is part of a run
(`Acts`). And an operation fails for a kind that is not registered only if it never was.
-/
import SceneEngine.Proofs.Contact.Events
import SceneEngine.Proofs.World.Registry
import SceneEngine.World.Motion
import SceneEngine.World.Upkeep

namespace SceneEngine

/-! ## Bits of signatures -/

/-- A way to handle the bits of a signature. -/
structure BitAccess where
  insert : Signature → Nat → Signature
  erase : Signature → Nat → Signature
  has : Signature → Nat → Bool

namespace BitAccess

def standard : BitAccess := ⟨Signature.insert, Signature.erase, Signature.has⟩

/-- Right within the width. Beyond it anything may happen. -/
structure Right (access : BitAccess) : Prop where
  insert : ∀ s i, i < signatureBits → access.insert s i = s.insert i
  erase : ∀ s i, i < signatureBits → access.erase s i = s.erase i
  has : ∀ s i, i < signatureBits → access.has s i = s.has i

end BitAccess

namespace World

variable {w w' : World} {access : BitAccess}

/-! The operations that name bits, over any way to handle them. -/

def addComponentBy (access : BitAccess) (k : Kind) (e : EntityId) (value : k.Value) :
    Action Unit := do
  let signature ← ofExcept ((← get).signature e)
  let typeId ← registerComponent k
  onStorage (Storage.addComponent k e value)
  changeSignature e (access.insert signature typeId)

def removeComponentBy (access : BitAccess) (k : Kind) (e : EntityId) : Action k.Value := do
  let w ← get
  let signature ← ofExcept (w.signature e)
  match w.storage.typeId? k with
  | none => throw (.componentNotRegistered k)
  | some typeId =>
    let value ← onStorage (Storage.removeComponent k e)
    changeSignature e (access.erase signature typeId)
    return value

def signatureForBy (access : BitAccess) (kinds : List Kind) : Action Signature :=
  kinds.foldlM (fun s k => return access.insert s (← registerComponent k)) .empty

def checkStorageBy (access : BitAccess) (w : World) : Bool :=
  let living := w.entities.livingEntities
  (List.range w.storage.count).all fun typeId =>
    (living.all fun (e, s) => access.has s typeId == w.storage.stores typeId e) &&
      (living.filter fun (_, s) => access.has s typeId).length == w.storage.storedCount typeId

theorem by_standard : addComponentBy .standard = addComponent ∧
    removeComponentBy .standard = removeComponent ∧ signatureForBy .standard = signatureFor ∧
    checkStorageBy .standard = checkStorage := ⟨rfl, rfl, rfl, rfl⟩

/-- No operation names a bit beyond the width. -/
structure WithinWidth (w : World) : Prop where
  add : ∀ access : BitAccess, access.Right → ∀ k e value,
    w.perform (addComponentBy access k e value) = w.perform (addComponent k e value)
  remove : ∀ access : BitAccess, access.Right → ∀ k e,
    w.perform (removeComponentBy access k e) = w.perform (removeComponent k e)
  system : ∀ access : BitAccess, access.Right → ∀ kinds,
    w.perform (signatureForBy access kinds) = w.perform (signatureFor kinds)
  check : ∀ access : BitAccess, access.Right → checkStorageBy access w = w.checkStorage

end World

namespace World

variable {w w' : World} {access : BitAccess}

theorem perform_insertKindsBy (h : w.storage.Aligned) (ha : access.Right) (s : Signature)
    (kinds : List Kind) :
    w.perform (kinds.foldlM (fun s k => return access.insert s (← registerComponent k)) s) =
      w.perform (kinds.foldlM (fun s k => return s.insert (← registerComponent k)) s) := by
  induction kinds generalizing w s with
  | nil => rfl
  | cons k rest ih =>
    rw [List.foldlM_cons, List.foldlM_cons]
    rcases perform_registerComponent_cases h k with ⟨t, s', hr, ht, hs'⟩ | ⟨_, hr⟩
    · have hrest := ih (w := { w with storage := s' }) hs'.aligned (s.insert t)
      simpa [hr, ha.insert s t (hs'.aligned.typeId_lt_bits ht)] using hrest
    · simp [hr]

theorem withinWidth_of_aligned (h : w.storage.Aligned) : w.WithinWidth where
  add access ha k e value := by
    cases hs : w.signature e with
    | error error => simp [addComponentBy, addComponent, hs]
    | ok s =>
      rcases perform_registerComponent_cases h k with ⟨t, s', hr, ht, hs'⟩ | ⟨_, hr⟩
      · have hbit := hs'.aligned.typeId_lt_bits ht
        simp [addComponentBy, addComponent, hs, hr, ha.insert s t hbit]
      · simp [addComponentBy, addComponent, hs, hr]
  remove access ha k e := by
    cases hs : w.signature e with
    | error error => simp [removeComponentBy, removeComponent, hs]
    | ok s =>
      cases ht : w.storage.typeId? k with
      | none => simp [removeComponentBy, removeComponent, hs, ht]
      | some t =>
        simp [removeComponentBy, removeComponent, hs, ht, ha.erase s t (h.typeId_lt_bits ht)]
  system access ha kinds := perform_insertKindsBy h ha .empty kinds
  check access ha := by
    have hhas : ∀ t ∈ List.range w.storage.count, ∀ s : Signature, access.has s t = s.has t := by
      intro t ht s
      obtain ⟨k, hk⟩ := h.exists_typeId?_of_lt (List.mem_range.mp ht)
      exact ha.has s t (h.typeId_lt_bits hk)
    rw [Bool.eq_iff_iff, checkStorageBy, checkStorage, List.all_eq_true, List.all_eq_true]
    refine forall₂_congr fun t ht => ?_
    simp only [hhas t ht]

/-! ## Systems -/

/-- The action changes a world through its operations, whatever world it is. -/
def Acts {β : Type} (action : Action β) : Prop :=
  ∀ w : World, ∃ run : List Deed, w.after action = w.enactAll run

section Acts

variable {β γ : Type}

theorem acts_of_unchanged {action : Action β} (h : ∀ w : World, w.after action = w) : Acts action :=
  fun w => ⟨[], h w⟩

theorem Acts.bind {a : Action β} {f : β → Action γ} (ha : Acts a) (hf : ∀ x, Acts (f x)) :
    Acts (a >>= f) := by
  intro w
  refine after_bind w (I := fun w' => ∃ run, w' = w.enactAll run) (ha w) ?_
  intro x w' hw'
  obtain ⟨first, rfl⟩ := hw'
  obtain ⟨second, hsecond⟩ := hf x (w.enactAll first)
  exact ⟨first ++ second, by rw [hsecond, enactAll_append]⟩

theorem acts_pure (x : β) : Acts (pure x) := acts_of_unchanged fun _ => rfl

theorem acts_get : Acts get := acts_of_unchanged fun _ => rfl

theorem acts_read (k : Kind) (e : EntityId) : Acts (read k e) :=
  acts_of_unchanged fun w => by rw [after, perform_read]

theorem acts_readPair (a b : Kind) (e : EntityId) : Acts (readPair a b e) :=
  acts_of_unchanged fun w => by rw [after, perform_readPair]

theorem acts_readMembers (id : SystemId) : Acts (readMembers id) :=
  acts_of_unchanged fun w => by
    cases hm : w.members id <;> simp [after, readMembers, hm]

/-- A component written in place. -/
theorem exists_deeds_of_set (w : World) (k : Kind) (e : EntityId) (value : k.Value) :
    ∃ run : List Deed,
      { w with storage := (w.storage.set? k e value).getD w.storage } = w.enactAll run := by
  cases hset : w.storage.set? k e value with
  | none => exact ⟨[], rfl⟩
  | some storage =>
    obtain ⟨c, rfl⟩ := Storage.exists_setColumn_of_set? hset
    exact ⟨[.replace c], rfl⟩

theorem acts_write (k : Kind) (e : EntityId) (value : k.Value) : Acts (write k e value) := by
  intro w
  have hrun : w.after (write k e value) =
      { w with storage := (w.storage.set? k e value).getD w.storage } := by
    cases hset : w.storage.set? k e value <;> simp [after, write, hset]
  rw [hrun]
  exact exists_deeds_of_set w k e value

theorem acts_writePair (a b : Kind) (e : EntityId) (x : a.Value) (y : b.Value) :
    Acts (writePair a b e x y) := by
  intro w
  obtain ⟨first, hfirst⟩ := exists_deeds_of_set w a e x
  obtain ⟨second, hsecond⟩ := exists_deeds_of_set (w.enactAll first) b e y
  refine ⟨first ++ second, ?_⟩
  rw [enactAll_append, ← hsecond, ← hfirst]
  rfl

theorem acts_serve (r : Request) : Acts (serve r) := fun _ => ⟨[.operate (.serve r)], rfl⟩

theorem acts_forM {l : List β} {f : β → Action Unit} (h : ∀ x ∈ l, Acts (f x)) : Acts (l.forM f) := by
  induction l with
  | nil => exact acts_pure ()
  | cons x rest ih =>
    exact (h x (by simp)).bind fun _ => ih fun y hy => h y (by simp [hy])

theorem acts_perMember (id : SystemId) {rule : EntityId → Action Unit} (h : ∀ e, Acts (rule e)) :
    Acts (do (← readMembers id).forM rule) :=
  (acts_readMembers id).bind fun _ => acts_forM fun e _ => h e

end Acts

end World

open World (Acts)

theorem Schedule.acts_run {s : Schedule} {dt : F32} (h : ∀ entry ∈ s, Acts (entry.2.step entry.1 dt)) :
    Acts (s.run dt) := World.acts_forM h

theorem Motion.acts_step (config : PhysicsConfig) (id : SystemId) (dt : F32) :
    Acts (Motion.step config id dt) :=
  World.acts_perMember id fun e =>
    (World.acts_readPair .transform .body e).bind fun _ => World.acts_writePair .transform .body e _ _

theorem Upkeep.acts_step (id : SystemId) : Acts (Upkeep.step id) :=
  World.acts_perMember id fun e =>
    (World.acts_read .transform e).bind fun _ => World.acts_get.bind fun _ =>
      World.acts_write .transform e _

namespace Contact

theorem acts_resolve (config : PhysicsConfig) (s : Solid) (c : AxisContacts) :
    Acts (resolve config s c) := by
  refine (World.acts_read .collider s.entity).bind fun collider => ?_
  dsimp only
  split
  · exact (World.acts_readPair .transform .body s.entity).bind fun _ =>
      (World.acts_writePair .transform .body s.entity _ _).bind fun _ =>
        (World.acts_read .collider s.entity).bind fun _ => World.acts_write .collider s.entity _
  · exact (World.acts_read .collider s.entity).bind fun _ => World.acts_write .collider s.entity _

theorem acts_clearReport (e : EntityId) : Acts (clearReport e) := by
  refine (World.acts_read .collider e).bind fun collider => ?_
  split
  · exact World.acts_write .collider e _
  · exact World.acts_pure ()

theorem acts_settle {n : Nat} (config : PhysicsConfig) (bodies : Vector Solid n)
    (pairs : List (Pair n)) (id : SystemId) : Acts (settle config bodies pairs id) := by
  refine (World.acts_forM fun i _ => ?_).bind fun _ => (World.acts_forM fun i _ => ?_).bind fun _ =>
    World.acts_perMember id acts_clearReport
  · split
    · exact acts_resolve config _ _
    · exact World.acts_pure ()
  · exact (World.acts_read .collider _).bind fun _ => World.acts_write .collider _ _

/-- A contact step changes the world through its operations, or not at all. -/
theorem exists_deeds_of_update (id : SystemId) (s : Scene) :
    ∃ run : List World.Deed, (s.after id .update).world = s.world.enactAll run := by
  unfold Scene.after step stepOver
  cases gather s.world id with
  | error error => exact ⟨[], rfl⟩
  | ok solids =>
    obtain ⟨run, hrun⟩ := acts_settle s.memory.config solids.toVector
      (candidatePairs solids.toVector) id s.world
    refine ⟨run, ?_⟩
    rw [← hrun, World.after, World.perform, Change.perform]
    dsimp only
    cases settle s.memory.config solids.toVector (candidatePairs solids.toVector) id s.world <;> rfl

end Contact

/-! ## Kinds that are not registered -/

namespace World

variable {w w' : World} {k : Kind}

/-- If the action fails for a kind that is not registered, it is not, and has not been by the
action. -/
def TruthfulAt {β : Type} (w : World) (action : Action β) : Prop :=
  ∀ k, (w.perform action).1 = .error (.componentNotRegistered k) →
    k ∉ (w.after action).storage.kinds

section Truthful

variable {β γ : Type}

theorem truthful_of_ok {a : Action β} {x : β} (h : w.perform a = (.ok x, w')) : w.TruthfulAt a := by
  intro k hk
  rw [h] at hk
  cases hk

theorem truthful_of_error {a : Action β} {error : SceneError} (h : w.perform a = (.error error, w'))
    (hne : ∀ k, error ≠ .componentNotRegistered k) : w.TruthfulAt a := by
  intro k hk
  rw [h] at hk
  exact absurd (Except.error.inj hk) (hne k)

theorem truthful_ofExcept {x : Except SceneError β}
    (h : ∀ k, x = .error (.componentNotRegistered k) → k ∉ w.storage.kinds) :
    w.TruthfulAt (ofExcept x) := by
  intro k hk
  cases x with
  | ok y => cases hk
  | error error =>
    obtain rfl := Except.error.inj hk
    exact h k rfl

theorem TruthfulAt.bind {a : Action β} {f : β → Action γ} (ha : w.TruthfulAt a)
    (hf : ∀ x w', w.perform a = (.ok x, w') → w'.TruthfulAt (f x)) : w.TruthfulAt (a >>= f) := by
  intro k hk
  rw [after, perform_bind]
  rw [perform_bind] at hk
  rcases hp : w.perform a with ⟨error | x, w'⟩
  · rw [hp] at hk
    obtain rfl := Except.error.inj hk
    have hk := ha k (by rw [hp])
    rwa [after, hp] at hk
  · rw [hp] at hk
    exact hf x w' hp k hk

/-- An action that begins by looking at the world. -/
theorem TruthfulAt.of_get {f : World → Action β} (h : w.TruthfulAt (f w)) :
    w.TruthfulAt (get >>= f) := h

/-- Taking a result changes nothing. -/
theorem eq_of_ofExcept {x : Except SceneError β} {y : β} (h : w.perform (ofExcept x) = (.ok y, w')) :
    w = w' := by
  cases x <;> cases h
  rfl

end Truthful

theorem truthful_signature (w : World) (e : EntityId) : w.TruthfulAt (ofExcept (w.signature e)) := by
  refine truthful_ofExcept fun k hk => ?_
  cases hs : w.entities.signature? e <;> simp [signature, EntityTable.signature, hs] at hk

theorem truthful_onEntities {β : Type} {c : Change EntityTable β}
    (h : ∀ k t, c w.entities ≠ .error (.componentNotRegistered k) t) :
    w.TruthfulAt (onEntities c) := by
  intro k hk
  rw [perform_onEntities] at hk
  cases hc : c w.entities with
  | ok x t => simp [hc] at hk
  | error error t =>
    rw [hc] at hk
    obtain rfl := Except.error.inj hk
    exact absurd hc (h k t)

/-- The change of a column that is found fails so only if it does by itself. -/
theorem truthful_onColumn {β : Type} {change : Change (Column k) β} (hs : w.storage.Aligned)
    (h : ∀ c k' c', change c ≠ .error (.componentNotRegistered k') c') :
    w.TruthfulAt (onStorage (Storage.onColumn k change)) := by
  intro k' hk'
  rw [after, perform_onStorage]
  rw [perform_onStorage] at hk'
  cases hc : w.storage.column? k with
  | none =>
    rw [Storage.onColumn_of_none hc] at hk' ⊢
    obtain rfl := SceneError.componentNotRegistered.inj (Except.error.inj hk')
    exact hs.column?_eq_none_iff.mp hc
  | some c =>
    rw [Storage.onColumn_apply hc] at hk'
    cases hx : change c with
    | ok x c' => simp [hx] at hk'
    | error error c' =>
      rw [hx] at hk'
      obtain rfl := Except.error.inj hk'
      exact absurd hx (h c k' c')

theorem truthful_changeSignature (w : World) (e : EntityId) (s : Signature) :
    w.TruthfulAt (changeSignature e s) := by
  rcases changeSignature_cases w e s with ⟨_, hp⟩ | ⟨_, _, hp⟩
  · exact truthful_of_error hp fun k => nofun
  · exact truthful_of_ok hp

theorem truthful_createEntity (w : World) (name : Option String) :
    w.TruthfulAt (createEntity name) := by
  refine truthful_onEntities fun k t hc => ?_
  rcases EntityTable.createEntity_error hc with ⟨_, herror⟩ | herror <;> cases herror

theorem truthful_read (w : World) (k : Kind) (e : EntityId) : w.TruthfulAt (read k e) := by
  refine .of_get (truthful_ofExcept fun k' hk' => ?_)
  unfold component at hk'
  split at hk' <;> cases hk'

theorem truthful_write (w : World) (k : Kind) (e : EntityId) (value : k.Value) :
    w.TruthfulAt (write k e value) := by
  refine .of_get ?_
  split
  · exact truthful_of_ok rfl
  · exact truthful_of_error rfl fun k' => nofun

/-- A pair fails so only for one of its own kinds. -/
theorem truthful_readPair (hs : w.storage.Aligned) (a b : Kind) (e : EntityId) :
    w.TruthfulAt (readPair a b e) := by
  intro k hk
  rw [after, perform_readPair]
  rw [perform_readPair, hs.pair_eq] at hk
  split at hk
  · next ha =>
    cases hk
    exact ha
  · split at hk
    · next hb =>
      cases hk
      exact hb
    · split at hk
      · cases hk
      · split at hk <;> cases hk

theorem truthful_registerComponent (hs : w.storage.Aligned) (k : Kind) :
    w.TruthfulAt (registerComponent k) := by
  rcases perform_registerComponent_cases hs k with ⟨t, storage, hp, _⟩ | ⟨_, hp⟩
  · exact truthful_of_ok hp
  · exact truthful_of_error hp fun k => nofun

/-- A kind has the number that its registration answers. -/
theorem typeId?_of_registerComponent (hs : w.storage.Aligned) {t : Nat}
    (h : w.perform (registerComponent k) = (.ok t, w')) : w'.storage.typeId? k = some t := by
  rcases perform_registerComponent_cases hs k with ⟨t', storage, hp, ht, _⟩ | ⟨_, hp⟩ <;>
    rw [hp] at h <;> cases h
  exact ht

theorem truthful_addComponent (hs : w.storage.Aligned) (k : Kind) (e : EntityId)
    (value : k.Value) : w.TruthfulAt (addComponent k e value) := by
  refine .of_get (.bind (truthful_signature w e) fun s w₁ hp₁ => ?_)
  obtain rfl := eq_of_ofExcept hp₁
  refine .bind (truthful_registerComponent hs k) fun t w₂ hp₂ => ?_
  have hs₂ : w₂.storage.Aligned := by
    have henrolls := enrolls_registerComponent hs k
    rw [after, hp₂] at henrolls
    exact henrolls.aligned
  refine .bind (truthful_onColumn hs₂ fun c k' c' hc => ?_) fun _ w₃ _ =>
    truthful_changeSignature w₃ e (s.insert t)
  rw [Column.insertComponent_apply] at hc
  split at hc <;> cases hc

theorem truthful_removeComponent (hs : w.storage.Aligned) (k : Kind) (e : EntityId) :
    w.TruthfulAt (removeComponent k e) := by
  refine .of_get (.bind (truthful_signature w e) fun s w₁ hp => ?_)
  obtain rfl := eq_of_ofExcept hp
  cases ht : w.storage.typeId? k with
  | none =>
    intro k' hk'
    cases hk'
    exact hs.typeId?_eq_none_iff.mp ht
  | some t =>
    refine .bind (truthful_onColumn hs fun c k' c' hc => ?_) fun _ w₂ _ =>
      .bind (truthful_changeSignature w₂ e (s.erase t)) fun _ _ _ => truthful_of_ok rfl
    rw [Column.removeComponent_apply] at hc
    split at hc <;> cases hc

theorem truthful_serve (hs : w.storage.Aligned) (r : Request) : w.TruthfulAt (serve r) := by
  cases r with
  | create name => exact truthful_createEntity w name
  | destroy e =>
    rcases destroyEntity_cases w e with ⟨_, hp⟩ | ⟨_, _, hp⟩
    · exact truthful_of_error hp fun k => nofun
    · exact truthful_of_ok hp
  | register k => exact truthful_registerComponent hs k
  | add k e value => exact truthful_addComponent hs k e value
  | remove k e => exact truthful_removeComponent hs k e
  | component k e => exact truthful_read w k e
  | signature e => exact .of_get (truthful_signature w e)
  | update k e change =>
    exact .bind (truthful_read w k e) fun x w' _ =>
      .bind (truthful_write w' k e (change x)) fun _ _ _ => truthful_of_ok rfl
  | update? k e change =>
    refine .of_get ?_
    split
    · exact truthful_of_ok rfl
    · exact .bind (truthful_write w k e _) fun _ _ _ => truthful_of_ok rfl
  | updatePair a b e change =>
    exact .bind (truthful_readPair hs a b e) fun _ _ _ => truthful_of_ok rfl
  | component? k' e | hasComponent k' e | isAlive e | byName name | nameOf e | living =>
    exact truthful_of_ok rfl

/-! ## Worlds that come of an empty one -/

theorem storage_of_new {capacity : CapacityConfig} {tolerance : Tolerance F64}
    (h : World.new capacity tolerance = .ok w) : w.storage = .new capacity.maxComponents := by
  rw [eq_of_new h]

/-- **Kinds keep their numbers.** Whatever is done to a world from its beginning on, the kinds
registered are those asked for first, as many as there is room for and at most as many as a
signature has bits; they are numbered from zero in that order, and the entry under a number
is the column of its kind. A number answered is the number of the kind and stays it. An
operation fails for a kind that is not registered only if it never was, and no operation
names a bit beyond the width of a signature. Running systems is part of a run, as they
change a world through its operations. -/
theorem kinds_keep_numbers {capacity : CapacityConfig} {tolerance : Tolerance F64} {w₀ : World}
    (hnew : World.new capacity tolerance = .ok w₀) (run : List Deed) :
    (w₀.enactAll run).storage.Numbered (w₀.demands run) (min capacity.maxComponents 64) ∧
    (∀ k t later, (w₀.enactAll run).storage.typeId? k = some t →
      (w₀.enactAll (run ++ later)).storage.typeId? k = some t) ∧
    (∀ k t, ((w₀.enactAll run).perform (registerComponent k)).1 = .ok t →
      ((w₀.enactAll run).after (registerComponent k)).storage.typeId? k = some t) ∧
    (∀ r k, ((w₀.enactAll run).perform (serve r)).1 = .error (.componentNotRegistered k) →
      ∀ earlier, earlier <+: run → k ∉ (w₀.enactAll earlier).storage.kinds) ∧
    (w₀.enactAll run).WithinWidth ∧
    (∀ (schedule : Schedule) (dt : F32), (∀ entry ∈ schedule, Acts (entry.2.step entry.1 dt)) →
      Acts (schedule.run dt)) ∧
    (∀ config id dt, Acts (Motion.step config id dt)) ∧ (∀ id, Acts (Upkeep.step id)) ∧
    ∀ (id : SystemId) (s : Scene), ∃ run, (s.after id .update).world = s.world.enactAll run := by
  have hempty := storage_of_new hnew
  have haligned : w₀.storage.Aligned := by
    rw [hempty]
    exact .new _
  have henrolls := enrolls_enactAll haligned run
  have hlimit : w₀.storage.limit = min capacity.maxComponents 64 := by rw [hempty]; rfl
  have hnumbered := henrolls.numbered (by rw [hempty]; rfl)
  rw [hlimit] at hnumbered
  refine ⟨hnumbered, fun k t later ht => ?_, fun k t hok => ?_, fun r k herror earlier hearlier => ?_,
    withinWidth_of_aligned henrolls.aligned, fun schedule dt => Schedule.acts_run, Motion.acts_step,
    Upkeep.acts_step, Contact.exists_deeds_of_update⟩
  · rw [enactAll_append]
    exact (enrolls_enactAll henrolls.aligned later).typeId? henrolls.aligned ht
  · exact typeId?_of_registerComponent henrolls.aligned (Prod.ext hok rfl)
  · -- What was registered earlier would still be.
    obtain ⟨later, rfl⟩ := hearlier
    intro hk
    have hearlier := (enrolls_enactAll haligned earlier).aligned
    rw [enactAll_append] at herror
    have hlater := enrolls_enactAll hearlier later
    refine truthful_serve hlater.aligned r k herror ?_
    exact (enrolls_serve hlater.aligned r).mem_kinds (hlater.mem_kinds hk)

/-- Room for three kinds. A system that asks for four fails at the last, which gets no number
and is not found, and a behavior destroys entities. -/
theorem kinds_keep_numbers_full :
    ∃ (w₀ : World) (run : List Deed), World.new ⟨2, 3⟩ .single = .ok w₀ ∧
      w₀.demands run = [.custom 2, .transform, .custom 2, .body, .collider, .transform] ∧
      (w₀.enactAll run).storage.typeId? .body = some 2 ∧
      (w₀.enactAll (run ++ [.discard 0])).storage.typeId? .body = some 2 ∧
      (∀ earlier, earlier <+: run → Kind.collider ∉ (w₀.enactAll earlier).storage.kinds) ∧
      Acts (Schedule.run [(0, .perMember "reaper" [.custom 2] destroyEntity)] 1) := by
  let w₀ : World := ⟨.withLimit 2, .new 3, .empty, .single⟩
  let run : List Deed :=
    [.operate (.serve (.create none)), .operate (.serve (.add (.custom 2) 0 1)),
      .operate (.serve (.add .camera 1 .standard)),
      .operate (.registerSystemFor "all" [.transform, .custom 2, .body, .collider]),
      .addBehavior [] (.perMember "reaper" [.transform] destroyEntity)]
  have hnew : World.new ⟨2, 3⟩ .single = .ok w₀ := rfl
  obtain ⟨hnumbered, hstays, _, hunregistered, _, hschedule, _⟩ := kinds_keep_numbers hnew run
  have hdemands : w₀.demands run =
      [.custom 2, .transform, .custom 2, .body, .collider, .transform] := by decide +kernel
  have hbody : (w₀.enactAll run).storage.typeId? .body = some 2 := by
    rw [hnumbered.order, hdemands]
    decide
  refine ⟨w₀, run, hnew, hdemands, hbody, hstays _ _ _ hbody,
    hunregistered (.remove .collider 0) .collider ?_, hschedule _ _ ?_⟩
  · exact eq_error_of_fault (by decide +kernel)
  · intro entry hentry
    rw [List.mem_singleton.mp hentry]
    exact acts_perMember 0 fun e => acts_serve (.destroy e)

end World

end SceneEngine
