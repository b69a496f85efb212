/-
The members of a system that asks for nothing.

Every signature has what such a system asks for, so it should have every live entity. It takes
in all of them when it is registered, and an entity that gets or loses a component is looked at
again, but nobody looks at an entity when it is created. So one created afterward stays out as
long as it is left bare (`newcomer_missed`). What decides is the entity's history: a member is
an entity that has lived since the registration, or one that was given or lost a component and
has lived since (`open_members`). In particular whoever has a component is a member.
-/
import SceneEngine.Proofs.World.Lives
import SceneEngine.Proofs.World.Systems

namespace SceneEngine

/-- Asks for nothing, has live members only, and every entity that has a component. -/
structure Membership.Open (m : Membership) (t : EntityTable) : Prop where
  required : m.required = .empty
  alive : ∀ e ∈ m.members, t.isAlive e = true
  mem : ∀ e s, t.signature? e = some s → s ≠ .empty → e ∈ m.members

theorem Membership.mem_update_of_empty {m : Membership} (hm : m.required = .empty) (e x : EntityId)
    (s : Signature) : x ∈ (m.update e s).members ↔ x = e ∨ x ∈ m.members := by
  rw [update, hm, Signature.contains_empty, if_pos rfl]
  exact mem_insertId

namespace World

variable {w w' : World} {e : EntityId} {id : SystemId} {m : Membership} {op : Operation}

/-- At some point of the run the entity is given or loses a component, and from there on it is
live to the end. -/
def Noticed (w : World) : List Operation → EntityId → Prop
  | [], _ => False
  | op :: rest, e =>
    (w.Refits op e ∧ (w.advance op).LivesThrough rest e) ∨ (w.advance op).Noticed rest e

/-! ## One operation -/

/-- A signature that is not empty was there before or has just been made. -/
theorem Effect.refits_or_signature? (h : w.Effect op w') {s : Signature}
    (hs : w'.entities.signature? e = some s) (hne : s ≠ .empty) :
    w.Refits op e ∨ w.entities.signature? e = some s := by
  cases h with
  | quiet _ entities _ => exact .inr (entities ▸ hs)
  | created name id _ entities _ =>
    rw [entities.signature?] at hs
    split at hs
    · exact absurd (Option.some.inj hs).symm hne
    · exact .inr hs
  | destroyed id _ entities _ =>
    rw [entities.signature?] at hs
    split at hs
    · cases hs
    · exact .inr hs
  | refitted id s' refits entities _ =>
    rw [entities.signature?] at hs
    split at hs
    · next heq => exact .inl ((refits e).mpr heq)
    · exact .inr hs

/-- Members stay while they live, and only those whose components change come to them. -/
theorem Effect.mem_members (h : w.Effect op w') (hm : w.roster.systems[id]? = some m)
    (ho : m.Open w.entities) :
    ∃ m', w'.roster.systems[id]? = some m' ∧ m'.required = .empty ∧
      ∀ e, e ∈ m'.members ↔ w'.isAlive e = true ∧ (e ∈ m.members ∨ w.Refits op e) := by
  cases h with
  | quiet refits entities roster =>
    obtain ⟨added, hroster⟩ := roster
    refine ⟨m, ?_, ho.required, fun e => ?_⟩
    · rw [hroster, List.getElem?_append_left (List.getElem?_eq_some_iff.mp hm).1]
      exact hm
    · rw [World.isAlive, entities]
      exact ⟨fun he => ⟨ho.alive e he, .inl he⟩, fun he => he.2.resolve_right (refits e)⟩
  | created name new refits entities roster =>
    refine ⟨m, by rwa [roster], ho.required, fun e => ?_⟩
    rw [World.isAlive, entities.isAlive_iff]
    exact ⟨fun he => ⟨.inr (ho.alive e he), .inl he⟩, fun he => he.2.resolve_right (refits e)⟩
  | destroyed gone refits entities roster =>
    refine ⟨m.drop gone, by simp [roster, Roster.entityDestroyed, hm], ho.required, fun e => ?_⟩
    rw [World.isAlive, entities.isAlive_iff]
    simp only [Membership.drop, List.mem_filter, decide_eq_true_eq]
    constructor
    · rintro ⟨he, hne⟩
      exact ⟨⟨hne, ho.alive e he⟩, .inl he⟩
    · rintro ⟨⟨hne, _⟩, he⟩
      exact ⟨he.resolve_right (refits e), hne⟩
  | refitted changed s refits entities roster =>
    refine ⟨m.update changed s, by simp [roster, Roster.signatureChanged, hm],
      (m.required_update changed s).trans ho.required, fun e => ?_⟩
    rw [Membership.mem_update_of_empty ho.required, World.isAlive, entities.isAlive_iff, refits]
    constructor
    · rintro (rfl | he)
      · exact ⟨EntityTable.isAlive_iff.mpr entities.alive, .inr rfl⟩
      · exact ⟨ho.alive e he, .inl he⟩
    · rintro ⟨_, he | rfl⟩
      · exact .inr he
      · exact .inl rfl

theorem Effect.exists_open (h : w.Effect op w') (hm : w.roster.systems[id]? = some m)
    (ho : m.Open w.entities) :
    ∃ m', w'.roster.systems[id]? = some m' ∧ m'.Open w'.entities ∧
      ∀ e, e ∈ m'.members ↔ w'.isAlive e = true ∧ (e ∈ m.members ∨ w.Refits op e) := by
  obtain ⟨m', hm', hreq, hiff⟩ := h.mem_members hm ho
  refine ⟨m', hm', ⟨hreq, fun e he => ((hiff e).mp he).1, fun e s hs hne => ?_⟩, hiff⟩
  refine (hiff e).mpr ⟨EntityTable.isAlive_iff.mpr ⟨s, hs⟩, ?_⟩
  rcases h.refits_or_signature? hs hne with hr | hs
  · exact .inr hr
  · exact .inl (ho.mem e s hs hne)

/-! ## Whole runs -/

theorem exists_open_play (h : w.Coherent) (hm : w.roster.systems[id]? = some m)
    (ho : m.Open w.entities) (run : List Operation) :
    ∃ m', (w.play run).roster.systems[id]? = some m' ∧ m'.Open (w.play run).entities ∧
      ∀ e, e ∈ m'.members ↔ (e ∈ m.members ∧ w.LivesThrough run e) ∨ w.Noticed run e := by
  induction run generalizing w m with
  | nil =>
    refine ⟨m, hm, ho, fun e => ?_⟩
    simp only [LivesThrough, Noticed, or_false]
    exact ⟨fun he => ⟨he, ho.alive e he⟩, fun he => he.1⟩
  | cons op rest ih =>
    obtain ⟨m₁, hm₁, ho₁, hstep⟩ := (effect_advance h op).exists_open hm ho
    obtain ⟨m', hm', ho', hrest⟩ := ih (h.advance op) hm₁ ho₁
    refine ⟨m', hm', ho', fun e => ?_⟩
    rw [hrest, hstep, LivesThrough, Noticed, ← or_assoc]
    refine or_congr_left ⟨?_, ?_⟩
    · rintro ⟨⟨_, he | hr⟩, hlives⟩
      · exact .inl ⟨he, ho.alive e he, hlives⟩
      · exact .inr ⟨hr, hlives⟩
    · rintro (⟨he, _, hlives⟩ | ⟨hr, hlives⟩)
      · exact ⟨⟨hlives.isAlive, .inl he⟩, hlives⟩
      · exact ⟨⟨hlives.isAlive, .inr hr⟩, hlives⟩

/-- A system that asks for nothing starts with all live entities. -/
theorem exists_open_register {name : String}
    (hreg : w.perform (registerSystem name .empty) = (.ok id, w')) :
    ∃ m, w'.roster.systems[id]? = some m ∧ m.Open w'.entities ∧
      ∀ e, e ∈ m.members ↔ w'.isAlive e = true := by
  rcases registerSystem_cases w name .empty with ⟨_, hp⟩ | ⟨_, roster, hr, hp⟩ <;>
    rw [hp] at hreg <;> cases hreg
  have hmem : ∀ e, e ∈ (Membership.seed ⟨name, .empty, []⟩ w.entities.livingEntities).members ↔
      w.entities.isAlive e = true := by
    intro e
    rw [Membership.mem_seed, EntityTable.isAlive_iff]
    simp
  refine ⟨_, by rw [hr.systems, List.getElem?_concat_length],
    ⟨rfl, fun e => (hmem e).mp, fun e s hs _ => ?_⟩, hmem⟩
  exact (hmem e).mpr (EntityTable.isAlive_iff.mpr ⟨s, hs⟩)

/-- **Who is in a system that asks for nothing.** Whatever happens after its registration, its
members are the entities that have lived since then and those that got or lost a component
and have lived since. All of them are live, and every live entity that has a component is
among them. -/
theorem open_members (h : Reachable w) {name : String}
    (hreg : w.perform (registerSystem name .empty) = (.ok id, w')) (run : List Operation) :
    ∃ ids, (w'.play run).members id = .ok ids ∧ ids.Pairwise (· < ·) ∧
      (∀ e, e ∈ ids ↔ w'.LivesThrough run e ∨ w'.Noticed run e) ∧
      (∀ e ∈ ids, (w'.play run).isAlive e = true) ∧
      ∀ e s, (w'.play run).signature e = .ok s → s ≠ .empty → e ∈ ids := by
  have hc : w'.Coherent := by
    simpa [after, hreg] using h.coherent.registerSystem name .empty
  obtain ⟨m, hm, ho, hseed⟩ := exists_open_register hreg
  obtain ⟨m', hm', ho', hiff⟩ := exists_open_play hc hm ho run
  have hids : (w'.play run).members id = .ok m'.members := by
    simp [members, Roster.members, Roster.get, hm', Except.map]
  refine ⟨m'.members, hids, (hc.play run).members_ascending hids, fun e => ?_, ho'.alive,
    fun e s hs hne => ho'.mem e s (EntityTable.signature_eq.mp hs) hne⟩
  rw [hiff, hseed]
  exact or_congr_left ⟨fun he => he.2, fun he => ⟨he.isAlive, he⟩⟩

/-- Two entities created late, both bare in the end. The one that had a component for a while
is a member and the other is not. -/
theorem open_members_bare :
    ∃ (w w' : World) (run : List Operation), Reachable w ∧
      w.perform (registerSystem "all" .empty) = (.ok 0, w') ∧ w'.livingEntities = [0] ∧
      (w'.play run).signature 1 = .ok .empty ∧ (w'.play run).signature 2 = .ok .empty ∧
      (w'.play run).members 0 = .ok [0, 2] ∧ ¬ w'.Noticed run 1 ∧ w'.Noticed run 2 := by
  let w₀ : World := ⟨.withLimit 3, .new 4, .empty, .single⟩
  let w₁ := w₀.after (serve (.create none))
  let w₂ := w₁.after (registerSystem "all" .empty)
  let run : List Operation := [.serve (.create none), .serve (.create none),
    .serve (.add (.custom 0) 2 5), .serve (.remove (.custom 0) 2)]
  have hnew : World.new ⟨3, 4⟩ .single = .ok w₀ := rfl
  have hreach : Reachable w₁ := .serve _ (.new hnew)
  have hreg : w₁.perform (registerSystem "all" .empty) = (.ok 0, w₂) := rfl
  have hsystems : (w₂.play run).roster.systems = [⟨"all", .empty, [0, 2]⟩] := by decide +kernel
  have hmembers : (w₂.play run).members 0 = .ok [0, 2] := by
    simp [members, Roster.members, Roster.get, hsystems, Except.map]
  obtain ⟨ids, hids, _, hiff, _⟩ := open_members hreach hreg run
  rw [hmembers] at hids
  cases hids
  have hlate : ¬ w₂.LivesThrough run 2 := fun h => absurd h.isAlive (by decide +kernel)
  refine ⟨w₁, w₂, run, hreach, hreg, by decide +kernel,
    EntityTable.signature_eq.mpr (by decide +kernel),
    EntityTable.signature_eq.mpr (by decide +kernel), hmembers, fun h => ?_, ?_⟩
  · exact absurd ((hiff 1).mpr (.inr h)) (by decide)
  · exact ((hiff 2).mp (by decide)).resolve_left hlate

/-- An entity created after the registration and left bare is not found, and the check of
the systems fails. -/
theorem newcomer_missed :
    ∃ w w' w'' : World, Reachable w ∧ w.perform (registerSystem "all" .empty) = (.ok 0, w') ∧
      w'.perform (createEntity none) = (.ok 1, w'') ∧ w''.isAlive 1 = true ∧
      w''.signature 1 = .ok .empty ∧ w''.members 0 = .ok [0] ∧ w''.checkMembership = false := by
  let w₀ : World := ⟨.withLimit 2, .new 4, .empty, .single⟩
  let w₁ := w₀.after (serve (.create none))
  let w₂ := w₁.after (registerSystem "all" .empty)
  let w₃ := w₂.after (serve (.create none))
  have hnew : World.new ⟨2, 4⟩ .single = .ok w₀ := rfl
  have hsystems : w₃.roster.systems = [⟨"all", .empty, [0]⟩] := by decide +kernel
  have hmembers : w₃.members 0 = .ok [0] := by
    simp [members, Roster.members, Roster.get, hsystems, Except.map]
  exact ⟨w₁, w₂, w₃, .serve _ (.new hnew), rfl, rfl, by decide +kernel,
    EntityTable.signature_eq.mpr (by decide +kernel), hmembers, by decide +kernel⟩

end World

end SceneEngine
