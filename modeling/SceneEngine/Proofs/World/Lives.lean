/-
Entities over a whole run: how long they live, and what they are called meanwhile.

A run is any series of operations on a world, each of which may fail. What one operation does
to entities and systems is said once (`Effect`): nothing, or one entity comes, goes, or has
its signature replaced. An id comes back when its entity is destroyed and another created, so
it stands for the same entity only as long as that one lives (`LivesThrough`).

Names follow entities and not ids. The two tables of names are inverse to each other in every
reachable world, and an entity keeps the name it was created with, or goes without one, for as
long as it lives (`reachable_names`).
-/
import SceneEngine.Proofs.Entities.Reuse
import SceneEngine.Proofs.World.Failure

namespace SceneEngine

namespace EntityTable

variable {t t' : EntityTable} {e id : EntityId} {name : Option String}

/-! ## Who is live, and under which name -/

theorem Created.isAlive_iff (hc : Created t name id t') :
    t'.isAlive e = true ↔ e = id ∨ t.isAlive e = true := by
  rw [EntityTable.isAlive_iff, EntityTable.isAlive_iff, hc.signature? e]
  by_cases he : e = id <;> simp [he]

theorem Destroyed.isAlive_iff (hd : Destroyed t id t') :
    t'.isAlive e = true ↔ e ≠ id ∧ t.isAlive e = true := by
  rw [EntityTable.isAlive_iff, EntityTable.isAlive_iff, hd.signature? e]
  by_cases he : e = id <;> simp [he]

theorem Resigned.isAlive_iff {s : Signature} (hr : Resigned t id s t') :
    t'.isAlive e = true ↔ t.isAlive e = true := by
  rw [EntityTable.isAlive_iff, EntityTable.isAlive_iff, hr.signature? e]
  by_cases he : e = id
  · simpa [he] using hr.alive
  · simp [he]

theorem Created.not_alive (hc : Created t name id t') : t.isAlive id = false := by
  simp [isAlive, hc.free]

theorem Sound.isTaken_iff (h : t.Sound) {n : String} :
    t.isTaken (some n) = true ↔ ∃ e, t.isAlive e = true ∧ t.name? e = some n := by
  rw [isTaken_some, Option.isSome_iff_exists]
  refine exists_congr fun e => ?_
  rw [← h.name_iff]
  exact ⟨fun hn => ⟨h.named_alive e n hn, hn⟩, fun hn => hn.2⟩

/-- Whether a name is taken is looked at first. -/
theorem Sound.create_duplicate_iff (h : t.Sound) {n m : String} :
    t.create (some n) = .error (.duplicateEntityName m) ↔ m = n ∧ t.isTaken (some n) = true := by
  rcases create_cases h (some n) with ⟨n', hn, htaken, hc⟩ | ⟨htaken, _, _, hc⟩ | ⟨_, _, hc, hcr⟩
  · obtain rfl := Option.some.inj hn
    simp [hc, htaken, eq_comm]
  · simp [hc, htaken]
  · simp [hc, hcr.untaken]

end EntityTable

namespace World

variable {w w' : World} {e : EntityId}

/-! ## Runs -/

/-- An operation on a world. -/
inductive Operation where
  | serve (r : Request)
  | registerSystem (name : String) (required : Signature)
  | registerSystemFor (name : String) (kinds : List Kind)

/-- The world an operation leaves. -/
def advance (w : World) : Operation → World
  | .serve r => w.after (World.serve r)
  | .registerSystem name required => w.after (World.registerSystem name required)
  | .registerSystemFor name kinds => w.after (World.registerSystemFor name kinds)

/-- The world a series of operations leaves. -/
def play (w : World) (run : List Operation) : World := run.foldl advance w

/-- The entity is live from the beginning of the run to its end. -/
def LivesThrough (w : World) : List Operation → EntityId → Prop
  | [], e => w.isAlive e = true
  | op :: rest, e => w.isAlive e = true ∧ (w.advance op).LivesThrough rest e

/-- The operation gives the entity a component, or takes one from it, and does not fail. -/
def Refits (w : World) : Operation → EntityId → Prop
  | .serve (.add k e value), x =>
    x = e ∧ ∃ answer, (w.perform (addComponent k e value)).1 = .ok answer
  | .serve (.remove k e), x => x = e ∧ ∃ answer, (w.perform (removeComponent k e)).1 = .ok answer
  | _, _ => False

/-- What one operation can do to entities and systems. -/
inductive Effect (w : World) (op : Operation) (w' : World) : Prop
  | quiet (refits : ∀ x, ¬ w.Refits op x) (entities : w'.entities = w.entities)
    (roster : ∃ added, w'.roster.systems = w.roster.systems ++ added)
    (names : ∀ n, (w.roster.find? n).isSome = true → (w'.roster.find? n).isSome = true)
  | created (name : Option String) (id : EntityId) (refits : ∀ x, ¬ w.Refits op x)
    (entities : w.entities.Created name id w'.entities) (roster : w'.roster = w.roster)
  | destroyed (id : EntityId) (refits : ∀ x, ¬ w.Refits op x)
    (entities : w.entities.Destroyed id w'.entities)
    (roster : w'.roster = w.roster.entityDestroyed id)
  | refitted (id : EntityId) (s : Signature) (refits : ∀ x, w.Refits op x ↔ x = id)
    (entities : w.entities.Resigned id s w'.entities)
    (roster : w'.roster = w.roster.signatureChanged id s)

theorem Coherent.advance (h : w.Coherent) (op : Operation) : (w.advance op).Coherent := by
  cases op with
  | serve r => exact h.serve r
  | registerSystem name required => exact h.registerSystem name required
  | registerSystemFor name kinds => exact h.registerSystemFor name kinds

theorem Coherent.play (h : w.Coherent) (run : List Operation) : (w.play run).Coherent := by
  induction run generalizing w with
  | nil => exact h
  | cons op rest ih => exact ih (h.advance op)

/-- A change of components that leaves all signatures. -/
theorem Effect.of_storage {op : Operation} (hop : ∀ x, ¬ w.Refits op x)
    (hw : ∃ storage, w' = { w with storage }) : w.Effect op w' := by
  obtain ⟨storage, rfl⟩ := hw
  exact .quiet hop rfl ⟨[], by simp⟩ fun _ => id

theorem effect_serve (h : w.Coherent) (r : Request) : w.Effect (.serve r) (w.after (serve r)) := by
  cases r with
  | create name =>
    rcases createEntity_cases h.entities name with
      ⟨_, _, _, hp⟩ | ⟨_, _, _, hp⟩ | ⟨id, entities, hc, hp⟩ <;> rw [after, serve, hp]
    · exact .of_storage (fun _ => id) ⟨_, rfl⟩
    · exact .of_storage (fun _ => id) ⟨_, rfl⟩
    · exact .created name id (fun _ hr => hr) hc rfl
  | destroy e =>
    rcases destroyEntity_cases w e with ⟨_, hp⟩ | ⟨entities, hd, hp⟩ <;> rw [after, serve, hp]
    · exact .of_storage (fun _ => id) ⟨_, rfl⟩
    · exact .destroyed e (fun _ => id) hd rfl
  | register k =>
    rcases registerComponent_cases h.storage k with ⟨_, _, hp⟩ | ⟨t, storage, _, hp⟩ <;>
      rw [after, serve, hp] <;> exact .of_storage (fun _ => id) ⟨_, rfl⟩
  | add k e value =>
    rcases addComponent_cases h.storage k e value with
      ⟨_, hp⟩ | ⟨s, _, ⟨_, _, hp⟩ | ⟨_, hp⟩ | ⟨_, t, _, storage, entities, _, _, hres, hp⟩⟩ <;>
      rw [after, serve, hp]
    · exact .of_storage (by simp [Refits, hp]) ⟨_, rfl⟩
    · exact .of_storage (by simp [Refits, hp]) ⟨_, rfl⟩
    · exact .of_storage (by simp [Refits, hp]) ⟨_, rfl⟩
    · exact .refitted e _ (by simp [Refits, hp]) hres rfl
  | remove k e =>
    rcases removeComponent_cases h.storage k e with
      ⟨_, hp⟩ | ⟨s, _, ⟨_, hp⟩ | ⟨_, _, hp⟩ |
        ⟨value, t, storage, entities, _, _, _, hres, hp⟩⟩ <;>
      rw [after, serve, hp]
    · exact .of_storage (by simp [Refits, hp]) ⟨_, rfl⟩
    · exact .of_storage (by simp [Refits, hp]) ⟨_, rfl⟩
    · exact .of_storage (by simp [Refits, hp]) ⟨_, rfl⟩
    · exact .refitted e _ (by simp [Refits, hp]) hres rfl
  | update k e change =>
    rcases perform_update_cases h.storage k e change with ⟨_, hp⟩ | ⟨x, storage, _, _, hp⟩ <;>
      rw [after, hp] <;> exact .of_storage (fun _ => id) ⟨_, rfl⟩
  | update? k e change =>
    rcases perform_update?_cases h.storage k e change with ⟨_, hp⟩ | ⟨x, storage, _, _, hp⟩ <;>
      rw [after, hp] <;> exact .of_storage (fun _ => id) ⟨_, rfl⟩
  | updatePair a b e change =>
    rcases perform_updatePair_cases h.storage a b e change with
      ⟨_, _, hp⟩ | ⟨x, y, _, storage, _, _, _, _, _, _, hp⟩ <;>
      rw [after, hp] <;> exact .of_storage (fun _ => id) ⟨_, rfl⟩
  | component k e =>
    rw [after, serve, perform_read]
    exact .of_storage (fun _ => id) ⟨_, rfl⟩
  | signature e =>
    refine .of_storage (fun _ => id) ⟨w.storage, ?_⟩
    cases hs : w.signature e <;> simp [after, serve, hs]
  | component? k e | hasComponent k e | isAlive e | byName name | nameOf e | living =>
    exact .of_storage (fun _ => id) ⟨_, rfl⟩

/-- Systems and their names are only ever added. -/
theorem after_registerSystem (w : World) (name : String) (required : Signature) :
    ∃ roster, w.after (registerSystem name required) = { w with roster } ∧
      (∃ added, roster.systems = w.roster.systems ++ added) ∧
      ∀ n, (w.roster.find? n).isSome = true → (roster.find? n).isSome = true := by
  rcases registerSystem_cases w name required with ⟨_, hp⟩ | ⟨_, roster, hr, hp⟩ <;> rw [after, hp]
  · exact ⟨w.roster, rfl, ⟨[], by simp⟩, fun _ => id⟩
  · refine ⟨roster, rfl, ⟨_, hr.systems⟩, fun n hn => ?_⟩
    rw [hr.find? n]
    split
    · rfl
    · exact hn

theorem effect_advance (h : w.Coherent) (op : Operation) : w.Effect op (w.advance op) := by
  cases op with
  | serve r => exact effect_serve h r
  | registerSystem name required =>
    obtain ⟨roster, hw, hsystems, hnames⟩ := after_registerSystem w name required
    rw [World.advance, hw]
    exact .quiet (fun _ => id) rfl hsystems hnames
  | registerSystemFor name kinds =>
    rw [World.advance, after, registerSystemFor, perform_bind, signatureFor]
    rcases insertKinds_added h.storage.toAligned .empty kinds with ⟨s, hp⟩ | ⟨_, _, _, _, hp⟩ <;>
      rw [hp] <;> dsimp only
    · obtain ⟨roster, hw, hsystems, hnames⟩ := after_registerSystem
        { w with storage := w.storage.extend (w.storage.newKinds kinds) } name s
      rw [after] at hw
      rw [hw]
      exact .quiet (fun _ => id) rfl hsystems hnames
    · exact .of_storage (fun _ => id) ⟨_, rfl⟩

/-! ## Lives -/

theorem LivesThrough.isAlive {run : List Operation} (h : w.LivesThrough run e) :
    w.isAlive e = true := by
  cases run with
  | nil => exact h
  | cons op rest => exact h.1

/-- A name lasts as long as its entity: none is given or taken in between. -/
theorem Effect.name?_eq {op : Operation} (h : w.Effect op w') (hw : w.isAlive e = true)
    (hw' : w'.isAlive e = true) : w'.entities.name? e = w.entities.name? e := by
  cases h with
  | quiet _ entities => rw [entities]
  | created name id _ entities _ =>
    have hne : e ≠ id := by
      rintro rfl
      rw [World.isAlive, entities.not_alive] at hw
      cases hw
    rw [entities.name?, if_neg hne]
  | destroyed id _ entities _ => rw [entities.name?, if_neg (entities.isAlive_iff.mp hw').1]
  | refitted id s _ entities _ =>
    obtain ⟨signatures, heq, _⟩ := entities.eq
    rw [heq]
    rfl

theorem LivesThrough.name?_eq {run : List Operation} (h : w.LivesThrough run e) (hc : w.Coherent) :
    (w.play run).entities.name? e = w.entities.name? e := by
  induction run generalizing w with
  | nil => rfl
  | cons op rest ih =>
    calc ((w.advance op).play rest).entities.name? e
        = (w.advance op).entities.name? e := ih h.2 (hc.advance op)
      _ = w.entities.name? e := (effect_advance hc op).name?_eq h.1 h.2.isAlive

/-! ## Names -/

theorem perform_createEntity_error_iff (w : World) (name : Option String) (error : SceneError) :
    (w.perform (createEntity name)).1 = .error error ↔ w.entities.create name = .error error := by
  rw [createEntity, perform_onEntities, EntityTable.create, Change.outcome]
  cases EntityTable.createEntity name w.entities <;> simp

/-- **Names are those of live entities.** In every reachable world looking up a name and looking
up an entity are inverse to each other, and what either finds is live. An entity has the name it
was created with, or none, for as long as it lives, whoever had its id before. A name is
refused exactly when a live entity has it, whether or not there is room; room is looked for
after that. -/
theorem reachable_names (h : Reachable w) :
    (∀ n e, w.entities.byName? n = some e ↔ w.entities.name? e = some n) ∧
    (∀ n e, w.entities.name? e = some n → w.isAlive e = true) ∧
    (∀ name id w', w.perform (createEntity name) = (.ok id, w') →
      ∀ run, w'.LivesThrough run id → (w'.play run).entities.name? id = name) ∧
    (∀ n m, (w.perform (createEntity (some n))).1 = .error (.duplicateEntityName m) ↔
      m = n ∧ ∃ e, w.isAlive e = true ∧ w.entities.name? e = some n) ∧
    ∀ n limit, (w.perform (createEntity (some n))).1 = .error (.entityCapacityExceeded limit) ↔
      limit = w.entities.limit ∧ w.livingEntities.length = limit ∧
        ¬ ∃ e, w.isAlive e = true ∧ w.entities.name? e = some n := by
  have hs := h.coherent.entities
  refine ⟨fun n e => (hs.name_iff e n).symm, fun n e => hs.named_alive e n, ?_, fun n m => ?_,
    fun n limit => ?_⟩
  · intro name id w' hp run hlives
    have hc : w.entities.Created name id w'.entities := by
      rcases createEntity_cases hs name with
        ⟨_, _, _, h'⟩ | ⟨_, _, _, h'⟩ | ⟨id', entities, hc, h'⟩ <;> rw [h'] at hp <;> cases hp
      exact hc
    have hw' : w'.Coherent := by simpa [after, hp] using h.coherent.createEntity name
    rw [hlives.name?_eq hw', hc.name?, if_pos rfl]
  · rw [perform_createEntity_error_iff, hs.create_duplicate_iff, hs.isTaken_iff]
    rfl
  · have hlen : w.livingEntities.length = w.entities.living := by
      rw [hs.living, World.livingEntities, EntityTable.length_livingIds]
    rw [hlen, perform_createEntity_error_iff, hs.create_full_iff, ← Bool.not_eq_true,
      hs.isTaken_iff]
    constructor
    · rintro ⟨rfl, hfree, hfull⟩
      exact ⟨rfl, hfull, hfree⟩
    · rintro ⟨rfl, hfull, hfree⟩
      exact ⟨rfl, hfree, hfull⟩

/-- A world with room for one: a taken name is refused as taken though there is no room either,
and who gets the id next, unnamed, has no name, also after another creation fails. -/
theorem reachable_names_reused_id :
    ∃ w w' : World, Reachable w ∧ w.entities.byName? "a" = some 0 ∧
      (w.perform (createEntity (some "a"))).1 = .error (.duplicateEntityName "a") ∧
      (w.perform (createEntity (some "b"))).1 = .error (.entityCapacityExceeded 1) ∧
      (w.after (serve (.destroy 0))).perform (createEntity none) = (.ok 0, w') ∧
      (w'.play [.serve (.create (some "a"))]).entities.name? 0 = none := by
  let w₀ : World := ⟨.withLimit 1, .new 4, .empty, .single⟩
  let w₁ := w₀.after (serve (.create (some "a")))
  let w₂ := w₁.after (serve (.destroy 0))
  let w₃ := w₂.after (serve (.create none))
  have hnew : World.new ⟨1, 4⟩ .single = .ok w₀ := rfl
  have hreach₁ : Reachable w₁ := .serve _ (.new hnew)
  have hreach₂ : Reachable w₂ := .serve _ hreach₁
  have hp : w₂.perform (createEntity none) = (.ok 0, w₃) := rfl
  have hname : w₁.entities.name? 0 = some "a" := by decide +kernel
  obtain ⟨hinverse, _, _, hdup, hfull⟩ := reachable_names hreach₁
  obtain ⟨_, _, hkeep, _, _⟩ := reachable_names hreach₂
  have hbare := hkeep none 0 w₃ hp [.serve (.create (some "a"))]
    ⟨by decide +kernel, by rw [LivesThrough]; decide +kernel⟩
  refine ⟨w₁, w₃, hreach₁, (hinverse "a" 0).mpr hname, ?_, ?_, hp, hbare⟩
  · exact (hdup "a" "a").mpr ⟨rfl, 0, by decide +kernel, hname⟩
  · refine (hfull "b" 1).mpr ⟨rfl, by decide +kernel, ?_⟩
    rintro ⟨e, _, he⟩
    have hb := (hinverse "b" e).mpr he
    have hnone : w₁.entities.byName? "b" = none := by decide +kernel
    rw [hnone] at hb
    cases hb

end World

end SceneEngine
