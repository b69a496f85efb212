/-
What can be asked of a world, and which worlds can come of it.

A `Request` is one operation on entities or components with its arguments;
`World.serve` answers it. A world is `Reachable` when it comes from an empty one by
requests and registrations of systems, each of which may fail: a failed operation
leaves a world too, and that world is reachable as well.

The rest says how actions run. `World.perform` keeps both the answer and the world
left behind, and the `_cases` theorems say once what each operation can do, so that
no later proof has to open one.
-/
import SceneEngine.Proofs.Entities
import SceneEngine.Proofs.Storage
import SceneEngine.World

namespace SceneEngine

/-- An operation on the entities and components of a world. -/
inductive Request where
  | create (name : Option String)
  | destroy (e : EntityId)
  | register (k : Kind)
  | add (k : Kind) (e : EntityId) (value : k.Value)
  | remove (k : Kind) (e : EntityId)
  | component (k : Kind) (e : EntityId)
  | component? (k : Kind) (e : EntityId)
  | hasComponent (k : Kind) (e : EntityId)
  /-- Changes a component in place; the answer is the new value. -/
  | update (k : Kind) (e : EntityId) (change : k.Value → k.Value)
  /-- Changes a component in place, if there is one. -/
  | update? (k : Kind) (e : EntityId) (change : k.Value → k.Value)
  /-- Changes two components of one entity in place. -/
  | updatePair (a b : Kind) (e : EntityId) (change : a.Value × b.Value → a.Value × b.Value)
  | isAlive (e : EntityId)
  | signature (e : EntityId)
  | byName (name : String)
  | nameOf (e : EntityId)
  | living

/-- What a request is answered with when it does not fail. -/
abbrev Request.Answer : Request → Type
  | create _ => EntityId
  | destroy _ => Unit
  | register _ => Nat
  | add .. => Unit
  | remove k _ => k.Value
  | component k _ => k.Value
  | component? k _ => Option k.Value
  | hasComponent .. => Bool
  | update k .. => k.Value
  | update? k .. => Option k.Value
  | updatePair a b .. => a.Value × b.Value
  | isAlive _ => Bool
  | signature _ => Signature
  | byName _ => Option EntityId
  | nameOf _ => Option String
  | living => List EntityId

/-- The components a request is about: those it may write. -/
def Request.Touches : Request → Kind → EntityId → Prop
  | destroy e, _, e' => e' = e
  | add k e _, k', e' | remove k e, k', e' | update k e _, k', e' | update? k e _, k', e' =>
    k' = k ∧ e' = e
  | updatePair a b e _, k', e' => (k' = a ∨ k' = b) ∧ e' = e
  | _, _, _ => False

/-- What is asked for a cube at `t`, when `e` is the id of the next entity. -/
def Request.cube (e : EntityId) (t : Transform F32) : List Request :=
  [.create none, .add .transform e t, .add .collider e (.new (.ofExtents 1 1 1))]

namespace World

def serve : (r : Request) → Action r.Answer
  | .create name => createEntity name
  | .destroy e => destroyEntity e
  | .register k => registerComponent k
  | .add k e value => addComponent k e value
  | .remove k e => removeComponent k e
  | .component k e => read k e
  | .component? k e => do return (← get).get? k e
  | .hasComponent k e => do return (← get).hasComponent k e
  | .update k e change => do
    let x ← read k e
    write k e (change x)
    return change x
  | .update? k e change => do
    match (← get).get? k e with
    | none => return none
    | some x =>
      write k e (change x)
      return some (change x)
  | .updatePair a b e change => do
    let xy ← readPair a b e
    writePair a b e (change xy).1 (change xy).2
    return change xy
  | .isAlive e => do return (← get).isAlive e
  | .signature e => do ofExcept ((← get).signature e)
  | .byName name => do return (← get).entities.byName? name
  | .nameOf e => do return (← get).entities.name? e
  | .living => do return (← get).livingEntities

/-- What an action answers, and the world it leaves, also when it fails. -/
def perform {β : Type} (w : World) (action : Action β) : Except SceneError β × World :=
  Change.perform action w

/-- The world an action leaves. -/
def after {β : Type} (w : World) (action : Action β) : World := (w.perform action).2

/-- The answers to a series of requests, each served in the world the ones before it
leave. -/
def answers (w : World) : List Request → List (Σ r : Request, Except SceneError r.Answer)
  | [] => []
  | r :: rest => ⟨r, (w.perform (serve r)).1⟩ :: (w.after (serve r)).answers rest

/-- The world a series of requests leaves. -/
def serving (w : World) (rs : List Request) : World := rs.foldl (fun w r => w.after (serve r)) w

/-- The worlds that come of an empty one. -/
inductive Reachable : World → Prop
  | new {capacity : CapacityConfig} {tolerance : Tolerance F64} {w : World} :
    World.new capacity tolerance = .ok w → Reachable w
  | serve {w : World} (r : Request) : Reachable w → Reachable (w.after (serve r))
  | registerSystem {w : World} (name : String) (required : Signature) :
    Reachable w → Reachable (w.after (registerSystem name required))
  | registerSystemFor {w : World} (name : String) (kinds : List Kind) :
    Reachable w → Reachable (w.after (registerSystemFor name kinds))

theorem Reachable.serving {w : World} (h : Reachable w) (rs : List Request) :
    Reachable (w.serving rs) := by
  induction rs generalizing w with
  | nil => exact h
  | cons r rest ih => exact ih (h.serve r)

/-- A world that is made is an empty one with room for what was asked. -/
theorem eq_of_new {capacity : CapacityConfig} {tolerance : Tolerance F64} {w : World}
    (h : World.new capacity tolerance = .ok w) :
    w = ⟨.withLimit capacity.maxEntities, .new capacity.maxComponents, .empty, tolerance⟩ := by
  unfold World.new EntityTable.new at h
  split at h
  · cases h
  · exact (Except.ok.inj h).symm

/-! ## Running actions -/

section Perform

variable {β γ : Type} (w : World)

@[simp] theorem perform_pure (x : β) : w.perform (pure x) = (.ok x, w) := rfl

@[simp] theorem perform_get : w.perform get = (.ok w, w) := rfl

@[simp] theorem perform_set (w' : World) : w.perform (set w') = (.ok (), w') := rfl

@[simp] theorem perform_modify (g : World → World) : w.perform (modify g) = (.ok (), g w) := rfl

@[simp] theorem perform_throw (e : SceneError) :
    w.perform (throw e : Action β) = (.error e, w) := rfl

@[simp] theorem perform_ofExcept_ok (x : β) :
    w.perform (ofExcept (Except.ok x : Except SceneError β)) = (.ok x, w) := rfl

@[simp] theorem perform_ofExcept_error (e : SceneError) :
    w.perform (ofExcept (Except.error e : Except SceneError β)) = (.error e, w) := rfl

/-- The second action runs in the world the first leaves, unless the first fails. -/
@[simp] theorem perform_bind (a : Action β) (f : β → Action γ) :
    w.perform (a >>= f) = match w.perform a with
      | (.ok x, w') => w'.perform (f x)
      | (.error e, w') => (.error e, w') := by
  simp only [perform, Change.perform, bind, EStateM.bind]
  cases a w <;> rfl

@[simp] theorem perform_map (g : β → γ) (a : Action β) :
    w.perform (g <$> a) = ((w.perform a).1.map g, (w.perform a).2) := by
  simp only [perform, Change.perform, Functor.map, EStateM.map]
  cases a w <;> rfl

/-! A change of a part does to the world what it does to the part. -/

theorem perform_onEntities (c : Change EntityTable β) :
    w.perform (onEntities c) = match c w.entities with
      | .ok x entities => (.ok x, { w with entities })
      | .error e entities => (.error e, { w with entities }) := by
  simp only [perform, Change.perform, onEntities, Change.within]
  cases c w.entities <;> rfl

theorem perform_onStorage (c : Change Storage β) :
    w.perform (onStorage c) = match c w.storage with
      | .ok x storage => (.ok x, { w with storage })
      | .error e storage => (.error e, { w with storage }) := by
  simp only [perform, Change.perform, onStorage, Change.within]
  cases c w.storage <;> rfl

theorem perform_onRoster (c : Change Roster β) :
    w.perform (onRoster c) = match c w.roster with
      | .ok x roster => (.ok x, { w with roster })
      | .error e roster => (.error e, { w with roster }) := by
  simp only [perform, Change.perform, onRoster, Change.within]
  cases c w.roster <;> rfl

/-- What two actions keep, one after the other keeps. -/
theorem after_bind {I : World → Prop} {a : Action β} {f : β → Action γ} (ha : I (w.after a))
    (hf : ∀ x w', I w' → I (w'.after (f x))) : I (w.after (a >>= f)) := by
  rw [after] at ha
  rw [after, perform_bind]
  rcases hp : w.perform a with ⟨_ | x, w'⟩
  · simpa [hp] using ha
  · exact hf x w' (by simpa [hp] using ha)

end Perform

/-! ## What each operation can do -/

variable {w : World}

theorem createEntity_cases (h : w.entities.Sound) (name : Option String) :
    (∃ n, name = some n ∧ w.entities.isTaken name = true ∧
      w.perform (createEntity name) = (.error (.duplicateEntityName n), w)) ∨
    (w.entities.isTaken name = false ∧ w.entities.limit ≤ w.entities.nextFresh ∧
      w.entities.available = [] ∧
      w.perform (createEntity name) = (.error (.entityCapacityExceeded w.entities.limit), w)) ∨
    ∃ id entities, w.entities.Created name id entities ∧
      w.perform (createEntity name) = (.ok id, { w with entities }) := by
  simp only [createEntity, perform_onEntities]
  rcases EntityTable.createEntity_cases h name with
    ⟨n, hn, ht, hc⟩ | ⟨ht, hf, ha, hc⟩ | ⟨id, entities, hc, hcr⟩ <;> rw [hc]
  · exact .inl ⟨n, hn, ht, rfl⟩
  · exact .inr (.inl ⟨ht, hf, ha, rfl⟩)
  · exact .inr (.inr ⟨id, entities, hcr, rfl⟩)

theorem destroyEntity_cases (w : World) (e : EntityId) :
    (w.entities.signature? e = none ∧
      w.perform (destroyEntity e) = (.error (.entityNotAlive e), w)) ∨
    ∃ entities, w.entities.Destroyed e entities ∧
      w.perform (destroyEntity e) = (.ok (), { w with
        entities, storage := w.storage.discard e, roster := w.roster.entityDestroyed e }) := by
  rcases w.entities.destroyEntity_cases e with ⟨hs, _⟩ | ⟨entities, hd, hds⟩
  · exact .inl ⟨hs, by simp [destroyEntity, EntityTable.isAlive, hs]⟩
  · have halive := EntityTable.isAlive_iff.mpr hds.alive
    exact .inr ⟨entities, hds, by simp [destroyEntity, perform_onEntities, halive, hd]⟩

theorem registerComponent_cases (h : w.storage.Sound) (k : Kind) :
    (k ∉ w.storage.kinds ∧ w.storage.limit ≤ w.storage.count ∧
      w.perform (registerComponent k) = (.error (.componentCapacityExceeded w.storage.limit), w)) ∨
    ∃ t storage, w.storage.Registered k t storage ∧
      w.perform (registerComponent k) = (.ok t, { w with storage }) := by
  simp only [registerComponent, perform_onStorage]
  rcases Storage.registerComponent_cases h k with ⟨hk, hl, hr⟩ | ⟨t, storage, hr, hreg⟩ <;> rw [hr]
  · exact .inl ⟨hk, hl, rfl⟩
  · exact .inr ⟨t, storage, hreg, rfl⟩

theorem changeSignature_cases (w : World) (e : EntityId) (s : Signature) :
    (w.entities.signature? e = none ∧
      w.perform (changeSignature e s) = (.error (.entityNotAlive e), w)) ∨
    ∃ entities, w.entities.Resigned e s entities ∧
      w.perform (changeSignature e s) =
        (.ok (), { w with entities, roster := w.roster.signatureChanged e s }) := by
  rcases w.entities.changeSignature_cases e s with ⟨hs, hc⟩ | ⟨entities, hc, hr⟩
  · exact .inl ⟨hs, by simp [changeSignature, perform_onEntities, hc]⟩
  · exact .inr ⟨entities, hr, by simp [changeSignature, perform_onEntities, hc]⟩

theorem addComponent_cases (h : w.storage.Sound) (k : Kind) (e : EntityId) (value : k.Value) :
    (w.entities.signature? e = none ∧
      w.perform (addComponent k e value) = (.error (.entityNotAlive e), w)) ∨
    ∃ s, w.entities.signature? e = some s ∧
      ((k ∉ w.storage.kinds ∧ w.storage.limit ≤ w.storage.count ∧ w.perform (addComponent k e value) =
          (.error (.componentCapacityExceeded w.storage.limit), w)) ∨
      ((w.get? k e).isSome = true ∧ w.perform (addComponent k e value) =
          (.error (.componentAlreadyPresent e k), w)) ∨
      (w.get? k e = none ∧ ∃ t storage₁ storage entities, w.storage.Registered k t storage₁ ∧
        storage₁.Updated k e (some value) storage ∧
        w.entities.Resigned e (s.insert t) entities ∧
        w.perform (addComponent k e value) = (.ok (), { w with
          entities, storage, roster := w.roster.signatureChanged e (s.insert t) }))) := by
  cases hs : w.entities.signature? e with
  | none => exact .inl ⟨rfl, by simp [addComponent, signature, EntityTable.signature, hs]⟩
  | some s =>
    refine .inr ⟨s, rfl, ?_⟩
    have hsig : w.signature e = .ok s := EntityTable.signature_eq.mpr hs
    rcases registerComponent_cases h k with ⟨hk, hl, hr⟩ | ⟨t, storage₁, hreg, hr⟩
    · exact .inl ⟨hk, hl, by simp [addComponent, hsig, hr]⟩
    · right
      have hk := hreg.sound.mem_kinds hreg.place
      rcases Storage.addComponent_cases hreg.sound hk e value with
        ⟨hsome, ha⟩ | ⟨hnone, storage, ha, hu⟩
      · -- Who has a component of a kind shows that the kind was registered before.
        rw [hreg.get?] at hsome
        obtain rfl := hreg.eq_of_mem (Storage.mem_kinds_of_isSome hsome)
        exact .inl ⟨hsome, by simp [addComponent, perform_onStorage, hsig, hr, ha]⟩
      · rw [hreg.get?] at hnone
        rcases changeSignature_cases { w with storage } e (s.insert t) with
          ⟨hn, _⟩ | ⟨entities, hres, hp⟩
        · simp [hs] at hn
        · refine .inr ⟨hnone, t, storage₁, storage, entities, hreg, hu, hres, ?_⟩
          simp [addComponent, perform_onStorage, hsig, hr, ha, hp]

theorem removeComponent_cases (h : w.storage.Sound) (k : Kind) (e : EntityId) :
    (w.entities.signature? e = none ∧
      w.perform (removeComponent k e) = (.error (.entityNotAlive e), w)) ∨
    ∃ s, w.entities.signature? e = some s ∧
      ((k ∉ w.storage.kinds ∧ w.perform (removeComponent k e) =
          (.error (.componentNotRegistered k), w)) ∨
      (k ∈ w.storage.kinds ∧ w.get? k e = none ∧ w.perform (removeComponent k e) =
          (.error (.componentMissing e k), w)) ∨
      (∃ value t storage entities, w.get? k e = some value ∧ w.storage.typeId? k = some t ∧
        w.storage.Updated k e none storage ∧ w.entities.Resigned e (s.erase t) entities ∧
        w.perform (removeComponent k e) = (.ok value, { w with
          entities, storage, roster := w.roster.signatureChanged e (s.erase t) }))) := by
  cases hs : w.entities.signature? e with
  | none => exact .inl ⟨rfl, by simp [removeComponent, signature, EntityTable.signature, hs]⟩
  | some s =>
    refine .inr ⟨s, rfl, ?_⟩
    have hsig : w.signature e = .ok s := EntityTable.signature_eq.mpr hs
    cases ht : w.storage.typeId? k with
    | none => exact .inl ⟨h.typeId?_eq_none_iff.mp ht, by simp [removeComponent, hsig, ht]⟩
    | some t =>
      right
      have hk := h.mem_kinds ht
      rcases Storage.removeComponent_cases h hk e with ⟨hnone, hr⟩ | ⟨value, storage, hv, hr, hu⟩
      · exact .inl ⟨hk, hnone, by simp [removeComponent, perform_onStorage, hsig, ht, hr]⟩
      · rcases changeSignature_cases { w with storage } e (s.erase t) with
          ⟨hn, _⟩ | ⟨entities, hres, hp⟩
        · simp [hs] at hn
        · refine .inr ⟨value, t, storage, entities, hv, rfl, hu, hres, ?_⟩
          simp [removeComponent, perform_onStorage, hsig, ht, hr, hp, Except.map]

theorem perform_read (w : World) (k : Kind) (e : EntityId) :
    w.perform (read k e) = (w.component k e, w) := by
  cases hc : w.component k e <;> simp [read, hc]

theorem write_cases (h : w.storage.Sound) (k : Kind) (e : EntityId) (value : k.Value) :
    (w.get? k e = none ∧ w.perform (write k e value) = (.error (.componentMissing e k), w)) ∨
    (w.get? k e).isSome = true ∧ ∃ storage, w.storage.Updated k e (some value) storage ∧
      w.perform (write k e value) = (.ok (), { w with storage }) := by
  rcases Storage.set?_cases h k e value with ⟨hnone, hs⟩ | ⟨hsome, storage, hs, hu⟩
  · exact .inl ⟨hnone, by simp [write, hs]⟩
  · exact .inr ⟨hsome, storage, hu, by simp [write, hs]⟩

theorem perform_readPair (w : World) (a b : Kind) (e : EntityId) :
    w.perform (readPair a b e) = (w.storage.pair a b e, w) := by
  rw [readPair, perform_onStorage, Storage.getPair_apply]
  cases w.storage.pair a b e <;> rfl

theorem perform_update_cases (h : w.storage.Sound) (k : Kind) (e : EntityId)
    (change : k.Value → k.Value) :
    (w.get? k e = none ∧ w.perform (serve (.update k e change)) =
      (.error (.componentMissing e k), w)) ∨
    ∃ x storage, w.get? k e = some x ∧ w.storage.Updated k e (some (change x)) storage ∧
      w.perform (serve (.update k e change)) = (.ok (change x), { w with storage }) := by
  cases hx : w.get? k e with
  | none => exact .inl ⟨rfl, by simp [serve, perform_read, component, hx]⟩
  | some x =>
    rcases write_cases h k e (change x) with ⟨hnone, _⟩ | ⟨_, storage, hu, hw⟩
    · simp [hx] at hnone
    · exact .inr ⟨x, storage, rfl, hu, by simp [serve, perform_read, component, hx, hw, Except.map]⟩

theorem perform_update?_cases (h : w.storage.Sound) (k : Kind) (e : EntityId)
    (change : k.Value → k.Value) :
    (w.get? k e = none ∧ w.perform (serve (.update? k e change)) = (.ok none, w)) ∨
    ∃ x storage, w.get? k e = some x ∧ w.storage.Updated k e (some (change x)) storage ∧
      w.perform (serve (.update? k e change)) = (.ok (some (change x)), { w with storage }) := by
  cases hx : w.get? k e with
  | none => exact .inl ⟨rfl, by simp [serve, hx]⟩
  | some x =>
    rcases write_cases h k e (change x) with ⟨hnone, _⟩ | ⟨_, storage, hu, hw⟩
    · simp [hx] at hnone
    · exact .inr ⟨x, storage, rfl, hu, by simp [serve, hx, hw, Except.map]⟩

theorem perform_updatePair_cases (h : w.storage.Sound) (a b : Kind) (e : EntityId)
    (change : a.Value × b.Value → a.Value × b.Value) :
    (∃ err, w.storage.pair a b e = .error err ∧ w.perform (serve (.updatePair a b e change)) =
      (.error err, w)) ∨
    ∃ x y storage₁ storage, a ≠ b ∧ w.get? a e = some x ∧ w.get? b e = some y ∧
      w.storage.pair a b e = .ok (x, y) ∧
      w.storage.Updated a e (some (change (x, y)).1) storage₁ ∧
      storage₁.Updated b e (some (change (x, y)).2) storage ∧
      w.perform (serve (.updatePair a b e change)) = (.ok (change (x, y)), { w with storage }) := by
  cases hp : w.storage.pair a b e with
  | error err => exact .inl ⟨err, rfl, by simp [serve, perform_readPair, hp]⟩
  | ok xy =>
    have heq := hp
    rw [h.pair_eq] at heq
    split at heq
    · simp at heq
    split at heq
    · simp at heq
    split at heq
    · simp at heq
    next hab =>
    split at heq
    · next x y hx hy =>
      rw [Except.ok.injEq] at heq
      subst heq
      obtain ⟨storage₁, hu₁, hu₂⟩ :=
        Storage.setPair_updated h hab hx hy (change (x, y)).1 (change (x, y)).2
      refine .inr ⟨x, y, storage₁, _, hab, hx, hy, rfl, hu₁, hu₂, ?_⟩
      simp [serve, perform_readPair, hp, writePair, Except.map]
    · simp at heq
    · simp at heq

/-- What the registration of a system does: it stands behind the others, with all live
entities that have what it asks for, and is found under its name. -/
structure Entered (w : World) (name : String) (required : Signature) (roster : Roster) : Prop where
  systems : roster.systems = w.roster.systems ++
    [Membership.seed ⟨name, required, []⟩ w.entities.livingEntities]
  find? : ∀ name', roster.find? name' =
    if name = name' then some w.roster.systems.length else w.roster.find? name'

/-- Only a name that is taken fails, before anything is written. Once the system is entered,
it is found when its members are filled in and when they are counted. -/
theorem registerSystem_cases (w : World) (name : String) (required : Signature) :
    ((w.roster.find? name).isSome = true ∧ w.perform (registerSystem name required) =
      (.error (.systemAlreadyRegistered name), w)) ∨
    ((w.roster.find? name).isSome = false ∧ ∃ roster, w.Entered name required roster ∧
      w.perform (registerSystem name required) =
        (.ok w.roster.systems.length, { w with roster })) := by
  cases hf : (w.roster.find? name).isSome with
  | true =>
    refine .inl ⟨rfl, ?_⟩
    simp [registerSystem, perform_onRoster, Roster.registerSystem, hf]
  | false =>
    let m : Membership := ⟨name, required, []⟩
    let entered : Roster := ⟨w.roster.systems ++ [m],
      w.roster.idOfName.insert name w.roster.systems.length⟩
    let roster : Roster := { entered with
      systems := w.roster.systems ++ [m.seed w.entities.livingEntities] }
    have henter : Roster.registerSystem name required w.roster =
        .ok w.roster.systems.length entered := by
      simp [Roster.registerSystem, hf, entered, m]
    have hseed : Roster.seedSystem w.roster.systems.length w.entities.livingEntities entered =
        .ok () roster := by
      simp [Roster.seedSystem, Roster.get, entered, roster]
    have hmembers : World.members { w with roster } w.roster.systems.length =
        .ok (m.seed w.entities.livingEntities).members := by
      simp [World.members, Roster.members, Roster.get, roster, Except.map]
    refine .inr ⟨rfl, roster, ⟨rfl, fun name' => ?_⟩, ?_⟩
    · simp [Roster.find?, roster, entered, Std.TreeMap.getElem?_insert]
    · simp [registerSystem, perform_onRoster, henter, hseed, readMembers, hmembers, Except.map]

end World

end SceneEngine
