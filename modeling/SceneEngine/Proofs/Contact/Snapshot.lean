/-
What a snapshot holds.

A snapshot reads the components of every member and fails at the first that lacks one.
When it is taken, it has the solid members in the order of all members, and every member
has a collider (`Gathered`).
-/
import Mathlib.Data.List.Basic
import SceneEngine.Contact.Solid

namespace SceneEngine

/-- A list of results is one result when none of them is an error. -/
theorem mapM_eq_ok_iff {α β ε : Type} {g : α → Except ε β} {l : List α} {found : List β} :
    l.mapM g = .ok found ↔ l.map g = found.map .ok := by
  induction l generalizing found with
  | nil => simp [pure, Except.pure, eq_comm]
  | cons x rest ih =>
    rw [List.mapM_cons, List.map_cons]
    cases hx : g x with
    | error e => cases found <;> simp [bind, Except.bind]
    | ok y =>
      cases found with
      | nil => cases rest.mapM g <;> simp [bind, Except.bind, pure, Except.pure]
      | cons z zs =>
        rw [List.map_cons, List.cons.injEq, ← ih]
        cases rest.mapM g <;> simp [bind, Except.bind, pure, Except.pure]

theorem exists_mapM_eq_ok {α β ε : Type} {g : α → Except ε β} {l : List α}
    (h : ∀ x ∈ l, ∃ y, g x = .ok y) : ∃ found, l.mapM g = .ok found := by
  induction l with
  | nil => exact ⟨[], rfl⟩
  | cons x rest ih =>
    obtain ⟨y, hy⟩ := h x (by simp)
    obtain ⟨found, hfound⟩ := ih fun z hz => h z (by simp [hz])
    exact ⟨y :: found, by simp [hy, hfound, bind, Except.bind, pure, Except.pure]⟩

theorem eq_ok_of_toOption {α ε : Type} {r : Except ε α} {x : α} (h : r.toOption = some x) :
    r = .ok x := by
  cases r with
  | error _ => cases h
  | ok y => rw [Option.some.inj h]

namespace Contact

variable {w : World} {id : SystemId} {e : EntityId}

theorem snapshot_eq_some_iff {s : Solid} :
    snapshot w e = .ok (some s) ↔ ∃ c t, w.get? .collider e = some c ∧ c.solid = true ∧
      w.get? .transform e = some t ∧ s = .ofComponents e c t (w.get? .body e) := by
  cases hc : w.get? .collider e with
  | none => simp [snapshot, World.component, hc, bind, Except.bind]
  | some c =>
    cases hsolid : c.solid with
    | false => simp [snapshot, World.component, hc, hsolid, bind, Except.bind, pure, Except.pure]
    | true =>
      cases ht : w.get? .transform e with
      | none => simp [snapshot, World.component, hc, hsolid, ht, bind, Except.bind]
      | some t =>
        simp only [snapshot, World.component, hc, hsolid, ht, bind, Except.bind, pure, Except.pure]
        simp [hsolid, eq_comm (b := s)]

theorem isSome_collider_of_snapshot {s : Option Solid} (h : snapshot w e = .ok s) :
    (w.get? .collider e).isSome = true := by
  cases hc : w.get? .collider e with
  | none => simp [snapshot, World.component, hc, bind, Except.bind] at h
  | some c => rfl

theorem exists_snapshot (hc : (w.get? .collider e).isSome = true)
    (ht : (w.get? .transform e).isSome = true) : ∃ s, snapshot w e = .ok s := by
  obtain ⟨c, hc⟩ := Option.isSome_iff_exists.mp hc
  obtain ⟨t, ht⟩ := Option.isSome_iff_exists.mp ht
  cases hsolid : c.solid <;>
    simp [snapshot, World.component, hc, ht, hsolid, bind, Except.bind, pure, Except.pure]

/-- What a snapshot holds: the solid members in the order of all members, each with a
collider. -/
structure Gathered (w : World) (id : SystemId) (ids : List EntityId) (solids : Array Solid) :
    Prop where
  members : w.members id = .ok ids
  collider : ∀ e ∈ ids, (w.get? .collider e).isSome = true
  mem_iff : ∀ s, s ∈ solids ↔ ∃ e ∈ ids, snapshot w e = .ok (some s)
  entities : (solids.toList.map Solid.entity).Sublist ids

/-- The bodies among the snapshots of some entities, in the order of the entities. -/
theorem entity_sublist {ids : List EntityId} {found : List (Option Solid)}
    (h : ids.map (snapshot w) = found.map .ok) :
    ((found.filterMap fun s => s).map Solid.entity).Sublist ids := by
  induction ids generalizing found with
  | nil =>
    obtain rfl : found = [] := by simpa using h.symm
    simp
  | cons e rest ih =>
    obtain ⟨s, found, rfl, hs, hrest⟩ := List.map_eq_cons_iff.mp h.symm
    have hsub := ih hrest.symm
    cases s with
    | none => exact hsub.cons e
    | some s =>
      obtain ⟨c, t, _, _, _, rfl⟩ := snapshot_eq_some_iff.mp hs.symm
      exact hsub.cons_cons e

/-- The snapshot is made of those of all members, none of which is an error. -/
theorem exists_of_gather {solids : Array Solid} (h : gather w id = .ok solids) :
    ∃ (ids : List EntityId) (found : List (Option Solid)), w.members id = .ok ids ∧
      ids.map (snapshot w) = found.map .ok ∧ solids = (found.filterMap fun s => s).toArray := by
  simp only [gather, bind, Except.bind] at h
  split at h
  · cases h
  next ids hids =>
  split at h
  · cases h
  next found hfound =>
  simp only [pure, Except.pure, Except.ok.injEq] at h
  exact ⟨ids, found, hids, mapM_eq_ok_iff.mp hfound, h.symm⟩

theorem exists_snapshot_of_gather {solids : Array Solid} (h : gather w id = .ok solids)
    {ids : List EntityId} (hm : w.members id = .ok ids) (he : e ∈ ids) :
    ∃ s, snapshot w e = .ok s := by
  obtain ⟨ids', found, hids, hfound, _⟩ := exists_of_gather h
  obtain rfl : ids = ids' := Except.ok.inj (hm.symm.trans hids)
  have hmem := List.mem_map_of_mem (f := snapshot w) he
  rw [hfound, List.mem_map] at hmem
  obtain ⟨s, _, hs⟩ := hmem
  exact ⟨s, hs.symm⟩

theorem exists_gathered {solids : Array Solid} (h : gather w id = .ok solids) :
    ∃ ids, Gathered w id ids solids := by
  obtain ⟨ids, found, hids, hfound, hsolids⟩ := exists_of_gather h
  have hmem : ∀ s, (∃ e ∈ ids, snapshot w e = .ok s) ↔ s ∈ found := fun s => by
    rw [← List.mem_map, hfound, List.mem_map_of_injective fun _ _ => Except.ok.inj]
  refine ⟨ids, hids, fun e he => ?_, fun s => ?_, hsolids ▸ entity_sublist hfound⟩
  · obtain ⟨_, hs⟩ := exists_snapshot_of_gather h hids he
    exact isSome_collider_of_snapshot hs
  · simp [hmem, hsolids]

/-- A solid member is a body of the snapshot. -/
theorem exists_solid_of_gather {solids : Array Solid} (h : gather w id = .ok solids)
    {ids : List EntityId} (hm : w.members id = .ok ids) (he : e ∈ ids) {c : Collider}
    (hc : w.get? .collider e = some c) (hsolid : c.solid = true) :
    ∃ t, w.get? .transform e = some t ∧ .ofComponents e c t (w.get? .body e) ∈ solids := by
  obtain ⟨ids', hg⟩ := exists_gathered h
  obtain rfl : ids = ids' := Except.ok.inj (hm.symm.trans hg.members)
  obtain ⟨s, hs⟩ := exists_snapshot_of_gather h hm he
  cases ht : w.get? .transform e with
  | none => simp [snapshot, World.component, hc, hsolid, ht, bind, Except.bind] at hs
  | some t =>
    refine ⟨t, rfl, (hg.mem_iff _).mpr ⟨e, he, ?_⟩⟩
    exact snapshot_eq_some_iff.mpr ⟨c, t, hc, hsolid, ht, rfl⟩

theorem exists_gather {ids : List EntityId} (hm : w.members id = .ok ids)
    (h : ∀ e ∈ ids, ∃ s, snapshot w e = .ok s) : ∃ solids, gather w id = .ok solids := by
  obtain ⟨found, hfound⟩ := exists_mapM_eq_ok h
  refine ⟨(found.filterMap fun s => s).toArray, ?_⟩
  simp [gather, hm, hfound, bind, Except.bind, pure, Except.pure]

end Contact

end SceneEngine
