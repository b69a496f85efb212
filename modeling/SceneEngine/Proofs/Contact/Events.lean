/-
Events tell of overlaps that begin, over whole runs.

A run is anything that can happen to a world and to the memory of contact, in any order:
requests, registrations, contact steps, and what the receiver of the events does. Contact
remembers which pairs overlapped when it last came to its end, and nothing else touches
that memory (`Scene.activePairs_at`). So at each of these moments it tells of exactly the
pairs that overlap now and did not at the one before (`Scene.tells_of_new_overlaps`).
-/
import SceneEngine.Proofs.Contact.Overlaps

namespace SceneEngine

/-! ## Sending -/

namespace Channel

variable {α : Type}

/-- How many more values can be sent before one is dropped. -/
def room (c : Channel α) : Nat := if c.connected then c.capacity - c.queue.length else 0

theorem send_eq (c : Channel α) (x : α) :
    c.send x = if c.room = 0 then { c with dropped := c.dropped + 1 }
      else { c with queue := c.queue ++ [x] } := by
  have hroom : c.room = 0 ↔ ¬ (c.connected = true ∧ c.queue.length < c.capacity) := by
    unfold room
    split
    · next hc => simp only [hc, true_and, Nat.not_lt, Nat.sub_eq_zero_iff_le]
    · next hc => simp [hc]
  rw [send, if_congr hroom rfl rfl, ite_not]

/-- Of a series of values the first ones are sent, as many as there is room for, and the
others are counted as dropped. -/
theorem foldl_send (c : Channel α) (l : List α) :
    l.foldl send c = { c with
      queue := c.queue ++ l.take c.room, dropped := c.dropped + (l.length - c.room) } := by
  induction l generalizing c with
  | nil => simp
  | cons x rest ih =>
    rw [List.foldl_cons, ih, send_eq]
    by_cases h : c.room = 0
    · have hroom : room { c with dropped := c.dropped + 1 } = 0 := h
      simp [h, hroom, Nat.add_assoc, Nat.add_comm 1]
    · obtain ⟨r, hr⟩ := Nat.exists_eq_succ_of_ne_zero h
      have hroom : room { c with queue := c.queue ++ [x] } = r := by
        unfold room at hr ⊢
        split at hr
        · next hc =>
          simp only [hc, if_true, List.length_append, List.length_singleton]
          omega
        · cases hr
      simp [hroom, hr]

end Channel

/-! ## Runs -/

/-- What can happen to a world, to its contact step and to the queue of its events. -/
inductive Occurrence where
  | serve (r : Request)
  | registerSystem (name : String) (required : Signature)
  | registerSystemFor (name : String) (kinds : List Kind)
  /-- A contact step. -/
  | update
  | receive
  | drain
  | disconnect

def Occurrence.isUpdate : Occurrence → Bool
  | update => true
  | _ => false

theorem Occurrence.isUpdate_iff {o : Occurrence} : o.isUpdate = true ↔ o = .update := by
  cases o <;> simp [isUpdate]

/-- A world and what contact remembers. -/
structure Scene where
  world : World
  memory : ContactMemory

namespace Scene

/-- What an occurrence leaves; contact works on the members of the system `id`. -/
def after (id : SystemId) (s : Scene) : Occurrence → Scene
  | .serve r => { s with world := s.world.after (World.serve r) }
  | .registerSystem name required =>
    { s with world := s.world.after (World.registerSystem name required) }
  | .registerSystemFor name kinds =>
    { s with world := s.world.after (World.registerSystemFor name kinds) }
  | .update =>
    match Contact.step s.memory id s.world with
    | (memory, .ok _ world) | (memory, .error _ world) => ⟨world, memory⟩
  | .receive => { s with memory := { s.memory with events := s.memory.events.receive.2 } }
  | .drain => { s with memory := { s.memory with events := s.memory.events.drain.2 } }
  | .disconnect => { s with memory := { s.memory with events := s.memory.events.disconnect } }

/-- Whether a contact step comes to its end. -/
def updates (id : SystemId) (s : Scene) : Bool :=
  match (Contact.step s.memory id s.world).2 with
  | .ok _ _ => true
  | .error _ _ => false

/-- The scenes in which a contact step of the run began and came to its end. -/
def sightings (id : SystemId) (s : Scene) : List Occurrence → List Scene
  | [] => []
  | o :: rest =>
    let later := (s.after id o).sightings id rest
    if o.isUpdate && s.updates id then s :: later else later

/-- The pairs that overlapped at the `n`th sighting, counted from one. -/
def overlapsAt (id : SystemId) (seen : List Scene) : Nat → Set (EntityId × EntityId)
  | 0 => ∅
  | n + 1 => seen[n]?.elim ∅ fun s => Contact.overlapping s.world id

/-- The events a contact step would tell of. -/
def told (id : SystemId) (s : Scene) : List ContactEvent :=
  Contact.freshEvents s.memory.activePairs (Contact.found s.world id)

variable {id : SystemId} {s : Scene}

/-- A contact step that fails leaves everything as it was. -/
theorem after_update_of_not_updates (hs : s.world.storage.Sound) (hup : s.updates id = false) :
    s.after id .update = s := by
  rcases Contact.step_cases hs s.memory id with ⟨error, _, hstep⟩ | ⟨_, _, _, _, hstep⟩
  · simp only [after, hstep]
  · simp [updates, hstep] at hup

theorem exists_after_update (hs : s.world.storage.Sound) (hup : s.updates id = true) :
    ∃ solids world, Contact.gather s.world id = .ok solids ∧ s.world.Rewritten world ∧
      s.after id .update = ⟨world, s.memory.observe (Contact.found s.world id)⟩ := by
  rcases Contact.step_cases hs s.memory id with ⟨error, _, hstep⟩ | ⟨solids, world, hg, hw, hstep⟩
  · simp [updates, hstep] at hup
  · exact ⟨solids, world, hg, hw, by simp only [after, hstep]⟩

theorem coherent_after (id : SystemId) (h : s.world.Coherent) (o : Occurrence) :
    (s.after id o).world.Coherent := by
  cases o with
  | serve r => exact h.serve r
  | registerSystem name required => exact h.registerSystem name required
  | registerSystemFor name kinds => exact h.registerSystemFor name kinds
  | update =>
    cases hup : s.updates id with
    | false => rwa [after_update_of_not_updates h.storage hup]
    | true =>
      obtain ⟨_, world, _, hw, hafter⟩ := exists_after_update h.storage hup
      rw [hafter]
      exact hw.coherent h
  | receive | drain | disconnect => exact h

/-- Nothing but a contact step that comes to its end changes what is remembered. -/
theorem activePairs_after {o : Occurrence} (h : s.world.Coherent)
    (ho : (o.isUpdate && s.updates id) = false) :
    (s.after id o).memory.activePairs = s.memory.activePairs := by
  cases o with
  | update =>
    have hup : s.updates id = false := by simpa [Occurrence.isUpdate] using ho
    rw [after_update_of_not_updates h.storage hup]
  | serve | registerSystem | registerSystemFor | receive | drain | disconnect => rfl

/-! ## One contact step -/

/-- Every event told is sent, or counted when there is no room for it. -/
theorem events_after_update (hs : s.world.storage.Sound) (hup : s.updates id = true) :
    (s.after id .update).memory.events = { s.memory.events with
      queue := s.memory.events.queue ++ (s.told id).take s.memory.events.room
      dropped := s.memory.events.dropped + ((s.told id).length - s.memory.events.room) } := by
  obtain ⟨_, _, _, _, hafter⟩ := exists_after_update hs hup
  rw [hafter]
  exact Channel.foldl_send _ _

section Step

variable (hc : s.world.Coherent) (hup : s.updates id = true)
  (hnum : Contact.NumericBodies s.world id)

include hc hup hnum

theorem told_pairwise : (s.told id).Pairwise ContactEvent.Before := by
  obtain ⟨solids, _, hg, _⟩ := exists_after_update hc.storage hup
  exact (Contact.found_pairwise hc hg hnum).filter _

theorem mem_found_iff {event : ContactEvent} : event ∈ Contact.found s.world id ↔
    Contact.Overlap s.world id event.entity event.other event.overlap := by
  obtain ⟨solids, _, hg, _⟩ := exists_after_update hc.storage hup
  exact Contact.mem_found_iff hc hg hnum

theorem mem_told_iff {event : ContactEvent} : event ∈ s.told id ↔
    Contact.Overlap s.world id event.entity event.other event.overlap ∧
      (event.entity, event.other) ∉ s.memory.activePairs := by
  simp [told, Contact.freshEvents, mem_found_iff hc hup hnum]

theorem mem_activePairs_after_update (p : EntityId × EntityId) :
    p ∈ (s.after id .update).memory.activePairs ↔ p ∈ Contact.overlapping s.world id := by
  obtain ⟨_, _, _, _, hafter⟩ := exists_after_update hc.storage hup
  rw [hafter]
  simp only [ContactMemory.observe, List.mem_map, mem_found_iff hc hup hnum]
  constructor
  · rintro ⟨event, hov, rfl⟩
    exact ⟨event.overlap, hov⟩
  · rintro ⟨v, hov⟩
    exact ⟨⟨p.1, p.2, v⟩, hov, rfl⟩

end Step

/-! ## Whole runs -/

/-- At every sighting contact remembers the pairs that overlapped at the one before; at
the first it remembers what it did in the beginning. -/
theorem activePairs_at {O P : Set (EntityId × EntityId)} {run : List Occurrence} {n : Nat} {t : Scene}
    (hc : s.world.Coherent) (hO : ∀ p, p ∈ s.memory.activePairs ↔ p ∈ O)
    (hnum : ∀ t ∈ s.sightings id run, Contact.NumericBodies t.world id)
    (hn : (s.sightings id run)[n]? = some t)
    (hP : (O :: (s.sightings id run).map fun t => Contact.overlapping t.world id)[n]? = some P) :
    t.world.Coherent ∧ t.updates id = true ∧ ∀ p, p ∈ t.memory.activePairs ↔ p ∈ P := by
  induction run generalizing s O n with
  | nil => simp [sightings] at hn
  | cons o rest ih =>
    have hc' := coherent_after id hc o
    cases ho : o.isUpdate && s.updates id with
    | false =>
      rw [sightings, ho] at hn hnum hP
      exact ih hc' (by rwa [activePairs_after hc ho]) hnum hn hP
    | true =>
      obtain ⟨hisUpdate, hup⟩ := Bool.and_eq_true_iff.mp ho
      obtain rfl := Occurrence.isUpdate_iff.mp hisUpdate
      rw [sightings, ho] at hn hnum hP
      cases n with
      | zero =>
        cases hn
        cases hP
        exact ⟨hc, hup, hO⟩
      | succ n =>
        -- What is remembered from here on are the overlaps of this sighting.
        have hO' := mem_activePairs_after_update hc hup (hnum s (by simp))
        exact ih hc' hO' (fun t ht => hnum t (by simp [ht])) hn hP

theorem getElem?_overlapsAt {seen : List Scene} {n : Nat} {t : Scene} (hn : seen[n]? = some t) :
    (∅ :: seen.map fun t => Contact.overlapping t.world id)[n]? = some (overlapsAt id seen n) := by
  cases n with
  | zero => rfl
  | succ n =>
    have hlt : n < seen.length := by
      have := (List.getElem?_eq_some_iff.mp hn).1
      omega
    simp [overlapsAt, List.getElem?_eq_getElem hlt]

/-- A run from an empty world, where nothing is remembered in the beginning. -/
theorem overlapsAt_remembered {capacity : CapacityConfig} {tolerance : Tolerance F64} {w₀ : World}
    (hnew : World.new capacity tolerance = .ok w₀) {config : PhysicsConfig}
    {run : List Occurrence}
    (hnum : ∀ t ∈ sightings id ⟨w₀, .new config⟩ run, Contact.NumericBodies t.world id)
    {n : Nat} {t : Scene} (hn : (sightings id ⟨w₀, .new config⟩ run)[n]? = some t) :
    t.world.Coherent ∧ t.updates id = true ∧ ∀ p, p ∈ t.memory.activePairs ↔
      p ∈ overlapsAt id (sightings id ⟨w₀, .new config⟩ run) n :=
  activePairs_at (s := ⟨w₀, .new config⟩) (World.coherent_new hnew) (by simp [ContactMemory.new])
    hnum hn (getElem?_overlapsAt hn)

/-- **Contact tells of overlaps that begin.** In every run from an empty world, with no
NaN in the boxes of its sightings, the contact step of the `n`th sighting tells of exactly
the pairs that overlap then and did not at the sighting before: of each once, in ascending
order and with the volume shared, sending the event or counting it as dropped. The pairs
that overlap are what it remembers. -/
theorem tells_of_new_overlaps {capacity : CapacityConfig} {tolerance : Tolerance F64} {w₀ : World}
    (hnew : World.new capacity tolerance = .ok w₀) (config : PhysicsConfig) (id : SystemId)
    {run : List Occurrence} {seen : List Scene}
    (hseen : sightings id ⟨w₀, .new config⟩ run = seen)
    (hnum : ∀ s ∈ seen, Contact.NumericBodies s.world id)
    {n : Nat} {s : Scene} (hn : seen[n]? = some s) :
    (s.told id).Pairwise ContactEvent.Before ∧
    (∀ e f, (e, f) ∈ overlapsAt id seen (n + 1) \ overlapsAt id seen n ↔
      ∃ event ∈ s.told id, event.entity = e ∧ event.other = f) ∧
    (∀ event ∈ s.told id,
      Contact.Overlap s.world id event.entity event.other event.overlap) ∧
    (s.after id .update).memory.events = { s.memory.events with
      queue := s.memory.events.queue ++ (s.told id).take s.memory.events.room
      dropped := s.memory.events.dropped + ((s.told id).length - s.memory.events.room) } ∧
    ∀ p, p ∈ (s.after id .update).memory.activePairs ↔ p ∈ overlapsAt id seen (n + 1) := by
  subst hseen
  obtain ⟨hc, hup, hactive⟩ := overlapsAt_remembered hnew hnum hn
  have hnum := hnum s (List.mem_of_getElem? hn)
  have hnow : overlapsAt id (sightings id ⟨w₀, .new config⟩ run) (n + 1) =
      Contact.overlapping s.world id := by simp [overlapsAt, hn]
  refine ⟨told_pairwise hc hup hnum, fun e f => ?_, fun event hevent => ?_,
    events_after_update hc.storage hup, fun p => ?_⟩
  · rw [hnow, Set.mem_sdiff, ← hactive]
    constructor
    · rintro ⟨⟨v, hov⟩, hold⟩
      exact ⟨⟨e, f, v⟩, (mem_told_iff hc hup hnum).mpr ⟨hov, hold⟩, rfl, rfl⟩
    · rintro ⟨event, hevent, rfl, rfl⟩
      obtain ⟨hov, hold⟩ := (mem_told_iff hc hup hnum).mp hevent
      exact ⟨⟨event.overlap, hov⟩, hold⟩
  · exact ((mem_told_iff hc hup hnum).mp hevent).1
  · rw [hnow]
    exact mem_activePairs_after_update hc hup hnum p

/-- The second entity is put somewhere else on the X axis. -/
def shift (x : Nat) : Occurrence :=
  .serve (.update .transform 1 fun t => t.setPosition (.of3 (.ofNat x) 0 0))

/-- Two bodies that meet, stay together, part and meet again. -/
theorem tells_of_new_overlaps_again :
    ∃ (w₀ : World) (run : List Occurrence) (seen : List Scene) (s : Scene),
      World.new ⟨2, 8⟩ .single = .ok w₀ ∧ sightings 0 ⟨w₀, .new .standard⟩ run = seen ∧
      (∀ s ∈ seen, Contact.NumericBodies s.world 0) ∧ seen[3]? = some s ∧
      seen.map (told 0) = [[⟨0, 1, 1⟩], [], [], [⟨0, 1, 1⟩]] ∧
      (0, 1) ∈ overlapsAt 0 seen 4 \ overlapsAt 0 seen 3 := by
  let w₀ : World := ⟨.withLimit 2, .new 8, .empty, .single⟩
  let cubes := Request.cube 0 .origin ++ Request.cube 1 .origin
  let run : List Occurrence :=
    .registerSystemFor Contact.systemName Contact.required :: cubes.map .serve ++
      [.update, .update, shift 9, .update, shift 0, .update]
  let seen := sightings 0 ⟨w₀, .new .standard⟩ run
  have hnew : World.new ⟨2, 8⟩ .single = .ok w₀ := rfl
  have hnum : ∀ s ∈ seen, Contact.NumericBodies s.world 0 := by decide +kernel
  have htold : seen.map (told 0) = [[⟨0, 1, 1⟩], [], [], [⟨0, 1, 1⟩]] := by decide +kernel
  have hlast : (seen[3]?).map (told 0) = some [⟨0, 1, 1⟩] := by
    rw [← List.getElem?_map, htold]
    rfl
  obtain ⟨s, hn, hs⟩ := Option.map_eq_some_iff.mp hlast
  have hdiff := ((tells_of_new_overlaps hnew .standard 0 rfl hnum hn).2.1 0 1).mpr
    ⟨⟨0, 1, 1⟩, by rw [hs]; simp, rfl, rfl⟩
  exact ⟨w₀, run, seen, s, hnew, rfl, hnum, hn, htold, hdiff⟩

end Scene

end SceneEngine
