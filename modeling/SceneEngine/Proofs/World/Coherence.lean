/-
Entities, components and systems are kept in step.

In every world that can be reached, a system that asks for something has exactly
the live entities that have it (`reachable_members`), and an entity has a component
exactly when its signature has the bit of its kind (`reachable_components`).

Three parts of a world have to agree for this, and each operation touches them one
after the other. `Roster.Exact` ties systems to entities and `Storage.Matches`
components to entities; what an operation does to the entities is all that the two
have to know of it. A system that asks for nothing is left out: a new entity is not
made known to the systems, and only such a system would have to take it.
-/
import SceneEngine.Proofs.World.Requests

namespace SceneEngine

/-! ## Lists of members -/

section Members

variable {e x : EntityId} {l : List EntityId}

theorem mem_insertId : x ∈ insertId e l ↔ x = e ∨ x ∈ l := by
  induction l with
  | nil => simp [insertId]
  | cons y rest ih =>
    unfold insertId
    split
    · simp
    · split
      · next heq => subst heq; simp
      · rw [List.mem_cons, ih, List.mem_cons]
        exact or_left_comm

theorem insertId_pairwise (h : l.Pairwise (· < ·)) : (insertId e l).Pairwise (· < ·) := by
  induction l with
  | nil => simp [insertId]
  | cons y rest ih =>
    obtain ⟨hy, hrest⟩ := List.pairwise_cons.mp h
    unfold insertId
    split
    · next hlt =>
      refine List.pairwise_cons.mpr ⟨fun z hz => ?_, h⟩
      rcases List.mem_cons.mp hz with rfl | hz
      · exact hlt
      · exact Nat.lt_trans hlt (hy z hz)
    · split
      · exact h
      · next hge hne =>
        refine List.pairwise_cons.mpr ⟨fun z hz => ?_, ih hrest⟩
        rcases mem_insertId.mp hz with rfl | hz
        · exact Nat.lt_of_le_of_ne (Nat.le_of_not_lt hge) (Ne.symm hne)
        · exact hy z hz

end Members

/-! ## Systems and entities -/

namespace Membership

/-- Members in ascending order, and for a system that asks for something exactly the
live entities that have it. -/
structure Exact (m : Membership) (t : EntityTable) : Prop where
  ascending : m.members.Pairwise (· < ·)
  mem_iff : m.required ≠ .empty →
    ∀ e, e ∈ m.members ↔ ∃ s, t.signature? e = some s ∧ s.contains m.required = true

variable {m : Membership} {t t' : EntityTable} {e : EntityId} {s : Signature}

theorem Exact.created {name : Option String} (h : m.Exact t) (hc : t.Created name e t') :
    m.Exact t' where
  ascending := h.ascending
  mem_iff := by
    intro hne x
    rw [h.mem_iff hne, hc.signature? x]
    by_cases hx : x = e
    · subst hx
      simp [hc.free, Signature.contains_empty_left hne]
    · simp [hx]

theorem Exact.drop (h : m.Exact t) (hd : t.Destroyed e t') : (m.drop e).Exact t' where
  ascending := h.ascending.filter _
  mem_iff := by
    intro hne x
    simp only [Membership.drop, List.mem_filter, decide_eq_true_eq, h.mem_iff hne, hd.signature? x]
    by_cases hx : x = e <;> simp [hx]

theorem Exact.update (h : m.Exact t) (hr : t.Resigned e s t') : (m.update e s).Exact t' := by
  unfold Membership.update
  split
  · next hc =>
    refine ⟨insertId_pairwise h.ascending, fun hne x => ?_⟩
    rw [mem_insertId, h.mem_iff hne, hr.signature? x]
    by_cases hx : x = e <;> simp [hx, hc]
  · next hc =>
    refine ⟨h.ascending.filter _, fun hne x => ?_⟩
    simp only [List.mem_filter, decide_eq_true_eq, h.mem_iff hne, hr.signature? x]
    by_cases hx : x = e <;> simp [hx, hc]

theorem mem_seed (m : Membership) (t : EntityTable) (e : EntityId) :
    e ∈ (m.seed t.livingEntities).members ↔
      ∃ s, t.signature? e = some s ∧ s.contains m.required = true := by
  simp [seed, EntityTable.mem_livingEntities]

theorem exact_seed (m : Membership) (t : EntityTable) : (m.seed t.livingEntities).Exact t where
  ascending := (EntityTable.livingEntities_pairwise t).sublist (List.filter_sublist.map _)
  mem_iff := fun _ => mem_seed m t

end Membership

/-- Every system has the members it should have. -/
def Roster.Exact (r : Roster) (t : EntityTable) : Prop := ∀ m ∈ r.systems, m.Exact t

theorem Roster.Exact.map {r : Roster} {t t' : EntityTable} {g : Membership → Membership}
    (h : r.Exact t) (hg : ∀ m, m.Exact t → (g m).Exact t') :
    Roster.Exact { r with systems := r.systems.map g } t' := by
  intro m hm
  obtain ⟨m₀, hm₀, rfl⟩ := List.mem_map.mp hm
  exact hg m₀ (h m₀ hm₀)

/-! ## Components and entities -/

namespace Storage

variable {s s' : Storage} {t t' : EntityTable} {k : Kind} {e : EntityId} {i : Nat}

/-- An entity has a component exactly when its signature has the bit of the kind, and no
signature has a bit without a kind. -/
structure Matches (s : Storage) (t : EntityTable) : Prop where
  holds_iff : ∀ k i e, s.typeId? k = some i → ((s.get? k e).isSome = true ↔
    ∃ sig, t.signature? e = some sig ∧ sig.bits.getLsbD i = true)
  lt_count : ∀ e sig i, t.signature? e = some sig → sig.bits.getLsbD i = true → i < s.count

theorem count_congr (h : s'.kinds = s.kinds) : s'.count = s.count := by
  rw [← length_kinds, h, length_kinds]

theorem Matches.created {name : Option String} (h : s.Matches t) (hc : t.Created name e t') :
    s.Matches t' where
  holds_iff := by
    intro k i x hk
    rw [h.holds_iff k i x hk, hc.signature? x]
    by_cases hx : x = e
    · simp [hx, hc.free]
    · simp [hx]
  lt_count := by
    intro x sig i hsig hbit
    rw [hc.signature? x] at hsig
    by_cases hx : x = e
    · rw [if_pos hx, Option.some.injEq] at hsig
      simp [← hsig] at hbit
    · rw [if_neg hx] at hsig
      exact h.lt_count x sig i hsig hbit

theorem Matches.discard (h : s.Matches t) (hs : s.Sound) (hd : t.Destroyed e t') :
    (s.discard e).Matches t' where
  holds_iff := by
    intro k i x hk
    rw [typeId?_discard] at hk
    rw [get?_discard hs, hd.signature? x]
    by_cases hx : x = e
    · simp [hx]
    · simpa [hx] using h.holds_iff k i x hk
  lt_count := by
    intro x sig i hsig hbit
    rw [hd.signature? x] at hsig
    rw [count_congr (kinds_discard s e)]
    by_cases hx : x = e
    · simp [hx] at hsig
    · rw [if_neg hx] at hsig
      exact h.lt_count x sig i hsig hbit

/-- A new kind takes a bit that no signature has, and nobody has a component of it. -/
theorem Matches.registered (h : s.Matches t) (hs : s.Sound) (hr : s.Registered k i s') :
    s'.Matches t := by
  by_cases hk : k ∈ s.kinds
  · obtain rfl := hr.eq_of_mem hk
    exact h
  have hkinds : s'.kinds = s.kinds ++ [k] := by rw [hr.kinds, if_neg hk]
  constructor
  · intro k' j x hk'
    rw [hr.sound.typeId?_iff, hkinds, List.getElem?_append, length_kinds] at hk'
    rw [hr.get?]
    split at hk'
    · exact h.holds_iff k' j x ((hs.typeId?_iff k' j).mpr hk')
    · next hge =>
      obtain rfl : k = k' := by
        have := List.mem_of_getElem? hk'
        simpa [eq_comm] using this
      rw [get?_eq_none_of_not_mem hk]
      simp only [Option.isSome_none, Bool.false_eq_true, false_iff, not_exists, not_and]
      exact fun sig hsig hbit => hge (h.lt_count x sig j hsig hbit)
  · intro x sig j hsig hbit
    have := h.lt_count x sig j hsig hbit
    rw [← length_kinds, hkinds, List.length_append, length_kinds]
    omega

/-- One component changes together with its bit. -/
theorem Matches.updated {x : Option k.Value} {sig sig' : Signature} (h : s.Matches t) (hs : s.Sound)
    (hi : s.typeId? k = some i) (hsig : t.signature? e = some sig) (hu : s.Updated k e x s')
    (hr : t.Resigned e sig' t')
    (hbits : ∀ j, sig'.bits.getLsbD j = if j = i then x.isSome else sig.bits.getLsbD j) :
    s'.Matches t' where
  holds_iff := by
    intro k' j e' hk'
    rw [typeId?_congr hu.typeIds] at hk'
    rw [hr.signature? e']
    by_cases hkey : k' = k ∧ e' = e
    · obtain ⟨rfl, rfl⟩ := hkey
      rw [hi, Option.some.injEq] at hk'
      subst hk'
      simp [hu.self, hbits]
    · rw [hu.other k' e' hkey, h.holds_iff k' j e' hk']
      by_cases he : e' = e
      · subst he
        have hji : j ≠ i := fun hji => hkey ⟨hs.typeId?_inj hk' (hji ▸ hi), rfl⟩
        simp [hsig, hbits, hji]
      · simp [he]
  lt_count := by
    intro e' sig₁ j hsig₁ hbit
    rw [count_congr hu.kinds]
    rw [hr.signature? e'] at hsig₁
    by_cases he : e' = e
    · rw [if_pos he, Option.some.injEq] at hsig₁
      subst hsig₁
      rw [hbits] at hbit
      by_cases hji : j = i
      · exact hji ▸ hs.typeId_lt hi
      · rw [if_neg hji] at hbit
        exact h.lt_count e sig j hsig hbit
    · rw [if_neg he] at hsig₁
      exact h.lt_count e' sig₁ j hsig₁ hbit

/-- A component is replaced by another, and no bit changes. -/
theorem Matches.replaced {x : k.Value} (h : s.Matches t) (hsome : (s.get? k e).isSome = true)
    (hu : s.Updated k e (some x) s') : s'.Matches t where
  holds_iff := by
    intro k' j e' hk'
    rw [typeId?_congr hu.typeIds] at hk'
    rw [← h.holds_iff k' j e' hk']
    by_cases hkey : k' = k ∧ e' = e
    · obtain ⟨rfl, rfl⟩ := hkey
      simp [hu.self, hsome]
    · rw [hu.other k' e' hkey]
  lt_count := by
    rw [count_congr hu.kinds]
    exact h.lt_count

end Storage

/-! ## Worlds -/

namespace World

variable {w : World}

/-- The parts of a world agree. -/
structure Coherent (w : World) : Prop where
  entities : w.entities.Sound
  storage : w.storage.Sound
  components : w.storage.Matches w.entities
  systems : w.roster.Exact w.entities

/-- Nothing is stored for an entity that is not live. -/
theorem Coherent.get?_of_dead (h : w.Coherent) {e : EntityId} (he : w.entities.signature? e = none)
    (k : Kind) : w.get? k e = none := by
  cases hk : w.storage.typeId? k with
  | none => exact Storage.get?_eq_none_of_not_mem (h.storage.typeId?_eq_none_iff.mp hk)
  | some i =>
    have := h.components.holds_iff k i e hk
    rw [← World.get?] at this
    simpa [he] using this

/-- Only what is live has components. -/
theorem Coherent.isAlive (h : w.Coherent) {k : Kind} {e : EntityId}
    (hx : (w.get? k e).isSome = true) : w.isAlive e = true := by
  cases hs : w.entities.signature? e with
  | none => simp [h.get?_of_dead hs k] at hx
  | some s => simp [World.isAlive, EntityTable.isAlive, hs]

theorem coherent_new {capacity : CapacityConfig} {tolerance : Tolerance F64}
    (h : World.new capacity tolerance = .ok w) : w.Coherent := by
  obtain rfl := eq_of_new h
  exact {
    entities := .withLimit _
    storage := .new _
    components := by
      constructor
      · intro k i e hk
        simp [Storage.new, Storage.typeId?] at hk
      · intro e sig i hsig
        simp [EntityTable.withLimit, EntityTable.signature?] at hsig
    systems := by simp [Roster.Exact, Roster.empty] }

theorem Coherent.createEntity (h : w.Coherent) (name : Option String) :
    (w.after (createEntity name)).Coherent := by
  rcases createEntity_cases h.entities name with
    ⟨_, _, _, hp⟩ | ⟨_, _, _, hp⟩ | ⟨id, entities, hc, hp⟩ <;> rw [after, hp]
  · exact h
  · exact h
  · exact ⟨hc.sound h.entities, h.storage, h.components.created hc,
      fun m hm => (h.systems m hm).created hc⟩

theorem Coherent.destroyEntity (h : w.Coherent) (e : EntityId) :
    (w.after (destroyEntity e)).Coherent := by
  rcases destroyEntity_cases w e with ⟨_, hp⟩ | ⟨entities, hd, hp⟩ <;> rw [after, hp]
  · exact h
  · exact ⟨hd.sound h.entities, h.storage.discard e, h.components.discard h.storage hd,
      h.systems.map fun m hm => hm.drop hd⟩

theorem Coherent.registerComponent (h : w.Coherent) (k : Kind) :
    (w.after (registerComponent k)).Coherent := by
  rcases registerComponent_cases h.storage k with ⟨_, _, hp⟩ | ⟨t, storage, hr, hp⟩ <;> rw [after, hp]
  · exact h
  · exact ⟨h.entities, hr.sound, h.components.registered h.storage hr, h.systems⟩

theorem Coherent.addComponent (h : w.Coherent) (k : Kind) (e : EntityId) (value : k.Value) :
    (w.after (addComponent k e value)).Coherent := by
  rcases addComponent_cases h.storage k e value with
    ⟨_, hp⟩ | ⟨s, hs, ⟨_, _, hp⟩ | ⟨_, hp⟩ |
      ⟨_, t, storage₁, storage, entities, hr, hu, hres, hp⟩⟩ <;>
    rw [after, hp]
  · exact h
  · exact h
  · exact h
  · have hbits : ∀ j, (s.insert t).bits.getLsbD j =
        if j = t then (some value).isSome else s.bits.getLsbD j := by
      intro j
      rw [Signature.getLsbD_insert (hr.sound.typeId_lt_bits hr.place)]
      by_cases hj : j = t
      · simp [hj]
      · simp [hj, Ne.symm hj]
    exact ⟨hres.sound h.entities, hu.sound,
      (h.components.registered h.storage hr).updated hr.sound hr.place hs hu hres hbits,
      h.systems.map fun m hm => hm.update hres⟩

theorem Coherent.removeComponent (h : w.Coherent) (k : Kind) (e : EntityId) :
    (w.after (removeComponent k e)).Coherent := by
  rcases removeComponent_cases h.storage k e with
    ⟨_, hp⟩ | ⟨s, hs, ⟨_, hp⟩ | ⟨_, _, hp⟩ |
      ⟨value, t, storage, entities, _, ht, hu, hres, hp⟩⟩ <;>
    rw [after, hp]
  · exact h
  · exact h
  · exact h
  · have hbits : ∀ j, (s.erase t).bits.getLsbD j =
        if j = t then (none : Option k.Value).isSome else s.bits.getLsbD j := by
      intro j
      rw [Signature.getLsbD_erase (h.storage.typeId_lt_bits ht)]
      by_cases hj : j = t
      · simp [hj]
      · simp [hj, Ne.symm hj]
    exact ⟨hres.sound h.entities, hu.sound, h.components.updated h.storage ht hs hu hres hbits,
      h.systems.map fun m hm => hm.update hres⟩

/-- A component replaced by another of its kind leaves all parts in step. -/
theorem Coherent.replaced {k : Kind} {e : EntityId} {x : k.Value} {storage : Storage}
    (h : w.Coherent) (hsome : (w.get? k e).isSome = true)
    (hu : w.storage.Updated k e (some x) storage) : Coherent { w with storage } :=
  ⟨h.entities, hu.sound, h.components.replaced hsome hu, h.systems⟩

theorem Coherent.serve (h : w.Coherent) (r : Request) : (w.after (serve r)).Coherent := by
  cases r with
  | create name => exact h.createEntity name
  | destroy e => exact h.destroyEntity e
  | register k => exact h.registerComponent k
  | add k e value => exact h.addComponent k e value
  | remove k e => exact h.removeComponent k e
  | update k e change =>
    rcases perform_update_cases h.storage k e change with ⟨_, hp⟩ | ⟨x, storage, hx, hu, hp⟩ <;>
      rw [after, hp]
    · exact h
    · exact h.replaced (by simp [hx]) hu
  | update? k e change =>
    rcases perform_update?_cases h.storage k e change with ⟨_, hp⟩ | ⟨x, storage, hx, hu, hp⟩ <;>
      rw [after, hp]
    · exact h
    · exact h.replaced (by simp [hx]) hu
  | updatePair a b e change =>
    rcases perform_updatePair_cases h.storage a b e change with
      ⟨_, _, hp⟩ | ⟨x, y, storage₁, storage, hab, hx, hy, _, hu₁, hu₂, hp⟩ <;> rw [after, hp]
    · exact h
    · have h₁ : Coherent { w with storage := storage₁ } := h.replaced (by simp [hx]) hu₁
      have hy₁ : storage₁.get? b e = some y := by rw [hu₁.other b e fun hc => hab hc.1.symm]; exact hy
      exact h₁.replaced (by simp [World.get?, hy₁]) hu₂
  | component k e => simpa [after, World.serve, perform_read] using h
  | signature e =>
    cases hs : w.signature e <;> simpa [after, World.serve, hs] using h
  | component? k e | hasComponent k e | isAlive e | byName name | nameOf e | living =>
    simpa [after, World.serve] using h

theorem Coherent.registerSystem (h : w.Coherent) (name : String) (required : Signature) :
    (w.after (registerSystem name required)).Coherent := by
  rcases registerSystem_cases w name required with ⟨_, hp⟩ | ⟨_, roster, hr, hp⟩ <;> rw [after, hp]
  · exact h
  · refine ⟨h.entities, h.storage, h.components, fun m hm => ?_⟩
    rw [hr.systems] at hm
    rcases List.mem_append.mp hm with hm | hm
    · exact h.systems m hm
    · rw [List.mem_singleton.mp hm]
      exact Membership.exact_seed _ _

theorem Coherent.signatureFor (h : w.Coherent) (kinds : List Kind) :
    (w.after (signatureFor kinds)).Coherent := by
  unfold World.signatureFor
  generalize Signature.empty = s
  induction kinds generalizing w s with
  | nil => exact h
  | cons k rest ih =>
    rw [List.foldlM_cons]
    refine after_bind w ?_ fun s' w' h' => ih h' s'
    exact after_bind w (h.registerComponent k) fun _ _ h' => h'

theorem Coherent.registerSystemFor (h : w.Coherent) (name : String) (kinds : List Kind) :
    (w.after (registerSystemFor name kinds)).Coherent :=
  after_bind w (h.signatureFor kinds) fun s _ h' => h'.registerSystem name s

theorem Coherent.members_ascending (h : w.Coherent) {id : SystemId}
    {ids : List EntityId} (hm : w.members id = .ok ids) : ids.Pairwise (· < ·) := by
  simp only [members, Roster.members, Roster.get] at hm
  split at hm
  · next m hget =>
    simp only [Except.map, Except.ok.injEq] at hm
    exact hm ▸ (h.systems m (List.mem_of_getElem? hget)).ascending
  · cases hm

/-! ## Every reachable world -/

theorem Reachable.coherent (h : Reachable w) : w.Coherent := by
  induction h with
  | new h => exact coherent_new h
  | serve r _ ih => exact ih.serve r
  | registerSystem name required _ ih => exact ih.registerSystem name required
  | registerSystemFor name kinds _ ih => exact ih.registerSystemFor name kinds

/-- **Membership is exact.** In every reachable world a system that asks for something
has exactly the live entities that have all of it, each once and in ascending order:
those a scan of all live entities would find. -/
theorem reachable_members (h : Reachable w) {id : SystemId} {m : Membership}
    (hm : w.roster.get id = .ok m) (hne : m.required ≠ .empty) :
    w.members id = .ok m.members ∧
    (∀ e, e ∈ m.members ↔ ∃ s, w.signature e = .ok s ∧ s.contains m.required = true) ∧
    m.members = (m.seed w.entities.livingEntities).members := by
  have hmem : m ∈ w.roster.systems := by
    unfold Roster.get at hm
    split at hm
    · next m' hget =>
      rw [Except.ok.injEq] at hm
      exact hm ▸ List.mem_of_getElem? hget
    · simp at hm
  have hex := h.coherent.systems m hmem
  have hseed := Membership.exact_seed m w.entities
  refine ⟨by simp [members, Roster.members, hm, Except.map], fun e => ?_, ?_⟩
  · rw [hex.mem_iff hne]
    simp only [signature, EntityTable.signature_eq]
  · -- Two strictly ascending lists with the same elements are equal.
    have hperm : m.members.Perm (m.seed w.entities.livingEntities).members := by
      refine (List.perm_ext_iff_of_nodup (hex.ascending.imp Nat.ne_of_lt)
        (hseed.ascending.imp Nat.ne_of_lt)).mpr fun e => ?_
      rw [hex.mem_iff hne, Membership.mem_seed]
    exact hperm.eq_of_pairwise (fun a b _ _ hab hba => absurd hba (Nat.lt_asymm hab))
      hex.ascending hseed.ascending

/-- A system that asks for a bit no kind has yet, and an entity that later has it. -/
theorem reachable_members_early_system :
    ∃ (w : World) (m : Membership), Reachable w ∧ w.roster.get 0 = .ok m ∧ m.required = .ofNat 2 ∧
      m.required ≠ .empty ∧ w.members 0 = .ok [0] ∧
      ∃ s, w.signature 0 = .ok s ∧ s.contains m.required = true := by
  let w₀ : World := ⟨.withLimit 1, .new 4, .empty, .single⟩
  let w := (w₀.after (registerSystem "early" (.ofNat 2))).serving
    [.create none, .add (.custom 0) 0 5, .add (.custom 1) 0 6]
  have hnew : World.new ⟨1, 4⟩ .single = .ok w₀ := rfl
  have hreach : Reachable w := .serving (.registerSystem _ _ (.new hnew)) _
  have hsystems : w.roster.systems = [⟨"early", .ofNat 2, [0]⟩] := by decide +kernel
  have hget : w.roster.get 0 = .ok ⟨"early", .ofNat 2, [0]⟩ := by simp [Roster.get, hsystems]
  obtain ⟨hmem, hiff, _⟩ := reachable_members hreach hget (by decide)
  exact ⟨w, _, hreach, hget, rfl, by decide, hmem, (hiff 0).mp (by decide)⟩

/-- A column holds as many components as there are live entities with its bit. -/
theorem Coherent.storedCount (h : w.Coherent) {k : Kind} {t : Nat} (ht : w.storage.typeId? k = some t) :
    w.storage.storedCount t = (w.entities.livingEntities.filter fun entry => entry.2.has t).length := by
  have hbit := h.storage.typeId_lt_bits ht
  rw [← List.length_map Prod.fst]
  refine Storage.storedCount_eq h.storage ht ?_ fun e => ?_
  · exact (EntityTable.livingEntities_nodup w.entities).sublist (List.filter_sublist.map _)
  · rw [h.components.holds_iff k t e ht]
    simp [EntityTable.mem_livingEntities, Signature.has_eq hbit]

theorem Coherent.stores_iff (h : w.Coherent) {k : Kind} {t : Nat} (ht : w.storage.typeId? k = some t)
    (e : EntityId) : w.storage.stores t e = true ↔ ∃ s, w.signature e = .ok s ∧ s.has t = true := by
  rw [Storage.stores_eq h.storage ht, h.components.holds_iff k t e ht]
  simp only [signature, EntityTable.signature_eq, Signature.has_eq (h.storage.typeId_lt_bits ht)]

theorem Coherent.checkStorage (h : w.Coherent) : w.checkStorage = true := by
  simp only [World.checkStorage, List.all_eq_true, List.mem_range, Bool.and_eq_true, beq_iff_eq]
  intro t ht
  obtain ⟨k, hk⟩ := h.storage.exists_typeId?_of_lt ht
  refine ⟨fun entry hentry => ?_, (h.storedCount hk).symm⟩
  have hs := EntityTable.mem_livingEntities.mp hentry
  have hiff := h.stores_iff hk entry.1
  simp only [signature, EntityTable.signature_eq, hs, Option.some.injEq, exists_eq_left'] at hiff
  exact (Bool.eq_iff_iff.mpr hiff).symm

/-- **Signatures and storage agree.** In every reachable world a registered kind is
stored for an entity exactly when the entity is live with the bit of the kind set, and
no live signature has a bit beyond the registered kinds. So nothing is stored for an
id that is not live, and the check of the storage passes. -/
theorem reachable_components (h : Reachable w) :
    (∀ k t e, w.storage.typeId? k = some t →
      w.storage.stores t e = (w.get? k e).isSome ∧
      (w.storage.stores t e = true ↔ ∃ s, w.signature e = .ok s ∧ s.has t = true)) ∧
    (∀ e s i, w.signature e = .ok s → i < signatureBits → s.has i = true → i < w.storage.count) ∧
    (∀ t e, w.isAlive e = false → w.storage.stores t e = false) ∧
    w.checkStorage = true := by
  have hc := h.coherent
  refine ⟨fun k t e ht => ⟨Storage.stores_eq hc.storage ht e, hc.stores_iff ht e⟩, ?_, ?_,
    hc.checkStorage⟩
  · intro e s i hs hi hhas
    rw [Signature.has_eq hi] at hhas
    exact hc.components.lt_count e s i (EntityTable.signature_eq.mp hs) hhas
  · intro t e hdead
    by_cases ht : t < w.storage.count
    · obtain ⟨k, hk⟩ := hc.storage.exists_typeId?_of_lt ht
      rw [Bool.eq_false_iff, Ne, hc.stores_iff hk]
      rintro ⟨s, hs, _⟩
      rw [isAlive, Bool.eq_false_iff, Ne, EntityTable.isAlive_iff] at hdead
      exact hdead ⟨s, EntityTable.signature_eq.mp hs⟩
    · have hnone : w.storage.columns[t]? = none := List.getElem?_eq_none (Nat.le_of_not_lt ht)
      simp [Storage.stores, hnone]

/-- An id used again: what it held in its first life is gone. -/
theorem reachable_components_reused_id :
    ∃ w : World, Reachable w ∧ w.isAlive 0 = true ∧ w.storage.typeId? (.custom 0) = some 0 ∧
      w.storage.stores 0 0 = false ∧ w.storage.stores 1 0 = true ∧
      (∃ s, w.signature 0 = .ok s ∧ s.has 1 = true) ∧ w.checkStorage = true := by
  let w₀ : World := ⟨.withLimit 1, .new 4, .empty, .single⟩
  let w := w₀.serving [.create none, .add (.custom 0) 0 5, .destroy 0, .create none,
    .add (.custom 1) 0 6]
  have hnew : World.new ⟨1, 4⟩ .single = .ok w₀ := rfl
  have hreach : Reachable w := .serving (.new hnew) _
  have hkind : w.storage.typeId? (.custom 1) = some 1 := by decide +kernel
  have hstored : w.storage.stores 1 0 = true := by decide +kernel
  obtain ⟨hagree, _, _, hcheck⟩ := reachable_components hreach
  exact ⟨w, hreach, by decide +kernel, by decide +kernel, by decide +kernel, hstored,
    (hagree _ 1 0 hkind).2.mp hstored, hcheck⟩

end World

end SceneEngine
