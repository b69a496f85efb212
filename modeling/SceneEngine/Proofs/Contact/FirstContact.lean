/-
When the first contact of a new entity is told.

Contact remembers pairs of ids, not of entities. An id comes back when an entity is
destroyed and another created, and what was remembered of the first is then held against
the second. So the first contact of an entity is told as long as its id was free at the
last sighting (`Scene.first_contact_told`), and it can be missed when its id was carried
by an entity that overlapped the same other (`Scene.first_contact_missed`).
-/
import SceneEngine.Proofs.Contact.Events

namespace SceneEngine

theorem Contact.Stands.isAlive {w : World} {id : SystemId} {e : EntityId} {b : Box F32}
    (h : Stands w id e b) (hc : w.Coherent) : w.isAlive e = true := by
  obtain ⟨_, c, _, _, _, hcollider, _⟩ := h
  exact hc.isAlive (Option.isSome_of_eq_some hcollider)

namespace Scene

variable {id : SystemId} {s : Scene}

/-- What a run leaves. -/
def play (id : SystemId) (s : Scene) (run : List Occurrence) : Scene := run.foldl (after id) s

/-- The run creates an entity under the id `e`. -/
def Creates (id : SystemId) (s : Scene) (run : List Occurrence) (e : EntityId) : Prop :=
  ∃ before name after, run = before ++ .serve (.create name) :: after ∧
    ((s.play id before).world.perform (World.createEntity name)).1 = .ok e

theorem coherent_play (h : s.world.Coherent) (run : List Occurrence) :
    (s.play id run).world.Coherent := by
  induction run generalizing s with
  | nil => exact h
  | cons o rest ih => exact ih (coherent_after id h o)

/-- The id belonged to a live entity at the `n`th sighting, counted from one. -/
def InUseAt (seen : List Scene) : Nat → EntityId → Prop
  | 0, _ => False
  | n + 1, e => ∃ last, seen[n]? = some last ∧ last.world.isAlive e = true

theorem inUseAt_of_overlapsAt {seen : List Scene} {n : Nat} {e f : EntityId}
    (hc : ∀ t ∈ seen, t.world.Coherent) (h : (e, f) ∈ overlapsAt id seen n) :
    InUseAt seen n e ∧ InUseAt seen n f := by
  cases n with
  | zero => exact absurd h (Set.notMem_empty _)
  | succ n =>
    cases hlast : seen[n]? with
    | none => simp [overlapsAt, hlast] at h
    | some last =>
      rw [overlapsAt, hlast] at h
      obtain ⟨_, _, a, b, ha, hb, _⟩ := h
      have hcoh := hc last (List.mem_of_getElem? hlast)
      exact ⟨⟨last, hlast, ha.isAlive hcoh⟩, ⟨last, hlast, hb.isAlive hcoh⟩⟩

/-- **First contact.** Where two solid members overlap, a contact step tells of them unless
entities of the same ids overlapped at the sighting before; so it does when one of the two
ids was not in use then. What is told is sent or counted as dropped. -/
theorem first_contact_told {capacity : CapacityConfig} {tolerance : Tolerance F64} {w₀ : World}
    (hnew : World.new capacity tolerance = .ok w₀) (config : PhysicsConfig) (id : SystemId)
    {run : List Occurrence} {seen : List Scene}
    (hseen : sightings id ⟨w₀, .new config⟩ run = seen)
    (hnum : ∀ s ∈ seen, Contact.NumericBodies s.world id)
    {n : Nat} {s : Scene} (hn : seen[n]? = some s) {e f : EntityId} {v : F32}
    (hov : Contact.Overlap s.world id e f v) :
    (⟨e, f, v⟩ ∈ s.told id ↔ (e, f) ∉ overlapsAt id seen n) ∧
    (¬ (InUseAt seen n e ∧ InUseAt seen n f) → ⟨e, f, v⟩ ∈ s.told id) ∧
    (s.after id .update).memory.events = { s.memory.events with
      queue := s.memory.events.queue ++ (s.told id).take s.memory.events.room
      dropped := s.memory.events.dropped + ((s.told id).length - s.memory.events.room) } := by
  subst hseen
  obtain ⟨hc, hup, hactive⟩ := overlapsAt_remembered hnew hnum hn
  have htold : ⟨e, f, v⟩ ∈ s.told id ↔
      (e, f) ∉ overlapsAt id (sightings id ⟨w₀, .new config⟩ run) n := by
    rw [mem_told_iff hc hup (hnum s (List.mem_of_getElem? hn)), hactive]
    exact and_iff_right hov
  have hall : ∀ t ∈ sightings id ⟨w₀, .new config⟩ run, t.world.Coherent := fun t ht => by
    obtain ⟨m, hm⟩ := List.mem_iff_getElem?.mp ht
    exact (overlapsAt_remembered hnew hnum hm).1
  refine ⟨htold, fun hfree => htold.mpr fun hold => ?_, events_after_update hc.storage hup⟩
  exact hfree (inUseAt_of_overlapsAt hall hold)

/-- An entity that comes to stand where another is, under an id never used before. -/
theorem first_contact_told_newcomer :
    ∃ (w₀ : World) (run : List Occurrence) (seen : List Scene) (s : Scene),
      World.new ⟨2, 8⟩ .single = .ok w₀ ∧ sightings 0 ⟨w₀, .new .standard⟩ run = seen ∧
      (∀ s ∈ seen, Contact.NumericBodies s.world 0) ∧ seen[1]? = some s ∧
      ¬ InUseAt seen 1 1 ∧ Contact.Overlap s.world 0 0 1 1 ∧ ⟨0, 1, 1⟩ ∈ s.told 0 := by
  let w₀ : World := ⟨.withLimit 2, .new 8, .empty, .single⟩
  let run : List Occurrence := .registerSystemFor Contact.systemName Contact.required ::
    (Request.cube 0 .origin).map .serve ++ .update :: (Request.cube 1 .origin).map .serve ++ [.update]
  let seen := sightings 0 ⟨w₀, .new .standard⟩ run
  have hnew : World.new ⟨2, 8⟩ .single = .ok w₀ := rfl
  have hnum : ∀ s ∈ seen, Contact.NumericBodies s.world 0 := by decide +kernel
  have halive : seen.map (·.world.isAlive 1) = [false, true] := by decide +kernel
  have hfound : seen[1]?.map (fun s => Contact.found s.world 0) = some [⟨0, 1, 1⟩] := by decide +kernel
  obtain ⟨s, hn, hs⟩ := Option.map_eq_some_iff.mp hfound
  have hunused : ¬ InUseAt seen 1 1 := by
    rintro ⟨last, hlast, hin⟩
    have : (seen.map (·.world.isAlive 1))[0]? = some true := by simp [hlast, hin]
    simp [halive] at this
  obtain ⟨hc, hup, _⟩ := overlapsAt_remembered hnew hnum hn
  have hmem : ⟨0, 1, 1⟩ ∈ Contact.found s.world 0 := by simp [hs]
  have hov : Contact.Overlap s.world 0 0 1 1 :=
    (mem_found_iff hc hup (hnum s (List.mem_of_getElem? hn))).mp hmem
  have htold := (first_contact_told hnew .standard 0 rfl hnum hn hov).2.1 fun h => hunused h.2
  exact ⟨w₀, run, seen, s, hnew, rfl, hnum, hn, hunused, hov, htold⟩

/-- An entity whose id was freed and handed out again between two contact steps: it
overlaps what its predecessor did, and nothing is told of it, sent or dropped. -/
theorem first_contact_missed :
    ∃ (w₀ : World) (before between : List Occurrence) (s₁ s : Scene),
      World.new ⟨2, 8⟩ .single = .ok w₀ ∧
      (sightings 0 ⟨w₀, .new .standard⟩ before).map (told 0) = [[⟨0, 1, 1⟩]] ∧
      play 0 ⟨w₀, .new .standard⟩ before = s₁ ∧ s₁.sightings 0 between = [] ∧
      s₁.Creates 0 between 1 ∧ s₁.play 0 between = s ∧ s.updates 0 = true ∧
      Contact.NumericBodies s.world 0 ∧ Contact.Overlap s.world 0 0 1 1 ∧
      s.told 0 = [] ∧ (s.after 0 .update).memory.events = s.memory.events := by
  let w₀ : World := ⟨.withLimit 2, .new 8, .empty, .single⟩
  let cubes := Request.cube 0 .origin ++ Request.cube 1 .origin
  let before : List Occurrence := .registerSystemFor Contact.systemName Contact.required ::
    cubes.map .serve ++ [.update, .drain]
  let between : List Occurrence := .serve (.destroy 1) :: (Request.cube 1 .origin).map .serve
  let s₁ := play 0 ⟨w₀, .new .standard⟩ before
  let s := s₁.play 0 between
  have hnew : World.new ⟨2, 8⟩ .single = .ok w₀ := rfl
  have hc : s.world.Coherent := coherent_play (coherent_play (World.coherent_new hnew) _) _
  have hup : s.updates 0 = true := by decide +kernel
  have hnum : Contact.NumericBodies s.world 0 := by decide +kernel
  have hmem : ⟨0, 1, 1⟩ ∈ Contact.found s.world 0 := by decide +kernel
  have hov : Contact.Overlap s.world 0 0 1 1 := (mem_found_iff hc hup hnum).mp hmem
  have hcreates : s₁.Creates 0 between 1 :=
    ⟨[.serve (.destroy 1)], none, _, rfl, by decide +kernel⟩
  exact ⟨w₀, before, between, s₁, s, hnew, by decide +kernel, rfl, rfl, hcreates, rfl, hup, hnum,
    hov, by decide +kernel, by decide +kernel⟩

end Scene

end SceneEngine
