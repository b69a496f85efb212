/-
What a system asks for, its members have.

A kind keeps its bit and a system its requirements for as long as the world exists
(`Extends`): no operation takes either back, not even one that fails halfway. So a system
registered for some kinds asks for them from then on (`Asks`) and for nothing else
(`AsksExactly`). In a coherent world every member has a component of each (`Asks.members`),
and who has a component of each is a member (`AsksExactly.mem_iff`).
-/
import SceneEngine.Proofs.World.Rewriting

namespace SceneEngine

theorem Membership.required_update (m : Membership) (e : EntityId) (s : Signature) :
    (m.update e s).required = m.required := by
  unfold Membership.update
  split <;> rfl

namespace World

variable {w w' w'' : World}

/-! ## Nothing registered is taken back -/

/-- Every kind has its place and every system its requirements in the second world too. -/
structure Extends (w w' : World) : Prop where
  typeId? : ∀ k t, w.storage.typeId? k = some t → w'.storage.typeId? k = some t
  required : ∀ (id : SystemId) (m : Membership), w.roster.systems[id]? = some m →
    ∃ m', w'.roster.systems[id]? = some m' ∧ m'.required = m.required

namespace Extends

theorem refl (w : World) : w.Extends w := ⟨fun _ _ h => h, fun _ m h => ⟨m, h, rfl⟩⟩

theorem trans (h : w.Extends w') (h' : w'.Extends w'') : w.Extends w'' where
  typeId? k t ht := h'.typeId? k t (h.typeId? k t ht)
  required id m hm := by
    obtain ⟨m₁, hm₁, hreq₁⟩ := h.required id m hm
    obtain ⟨m₂, hm₂, hreq₂⟩ := h'.required id m₁ hm₁
    exact ⟨m₂, hm₂, hreq₂.trans hreq₁⟩

theorem of_typeIds (hk : w'.storage.typeIds = w.storage.typeIds) (hr : w'.roster = w.roster) :
    w.Extends w' where
  typeId? k t ht := by rwa [Storage.typeId?_congr hk]
  required id m hm := ⟨m, by rwa [hr], rfl⟩

/-- A change of members only. -/
theorem of_map {g : Membership → Membership} (hk : w'.storage.typeIds = w.storage.typeIds)
    (hr : w'.roster.systems = w.roster.systems.map g) (hg : ∀ m, (g m).required = m.required) :
    w.Extends w' where
  typeId? k t ht := by rwa [Storage.typeId?_congr hk]
  required id m hm := ⟨g m, by simp [hr, hm], hg m⟩

theorem registered {k : Kind} {t : Nat} {storage : Storage} (hs : w.storage.Sound)
    (hr : w.storage.Registered k t storage) : w.Extends { w with storage } where
  typeId? k' t' ht := by
    rw [hs.typeId?_iff] at ht
    rw [hr.sound.typeId?_iff, hr.kinds]
    split
    · exact ht
    · rw [List.getElem?_append_left (List.getElem?_eq_some_iff.mp ht).1]
      exact ht
  required id m hm := ⟨m, hm, rfl⟩

theorem rewritten (h : w.Rewritten w') : w.Extends w' := of_typeIds h.typeIds h.roster

end Extends

/-- What a request does: it fails and nothing has changed, or it takes nothing back. -/
theorem serve_cases (h : w.Coherent) (r : Request) :
    (∃ error, w.perform (serve r) = (.error error, w)) ∨
    ∃ x w', w.perform (serve r) = (.ok x, w') ∧ w.Extends w' ∧ w'.tolerance = w.tolerance := by
  have hs := h.storage
  cases r with
  | create name =>
    rcases createEntity_cases h.entities name with
      ⟨_, _, _, hp⟩ | ⟨_, _, _, hp⟩ | ⟨id, entities, _, hp⟩
    · exact .inl ⟨_, hp⟩
    · exact .inl ⟨_, hp⟩
    · exact .inr ⟨_, _, hp, .of_typeIds rfl rfl, rfl⟩
  | destroy e =>
    rcases destroyEntity_cases w e with ⟨_, hp⟩ | ⟨entities, _, hp⟩
    · exact .inl ⟨_, hp⟩
    · exact .inr ⟨_, _, hp, .of_map rfl rfl fun _ => rfl, rfl⟩
  | register k =>
    rcases registerComponent_cases hs k with ⟨_, _, hp⟩ | ⟨t, storage, hr, hp⟩
    · exact .inl ⟨_, hp⟩
    · exact .inr ⟨_, _, hp, .registered hs hr, rfl⟩
  | add k e value =>
    rcases addComponent_cases hs k e value with
      ⟨_, hp⟩ | ⟨s, _, ⟨_, _, hp⟩ | ⟨_, hp⟩ |
        ⟨_, t, storage₁, storage, entities, hr, hu, _, hp⟩⟩
    · exact .inl ⟨_, hp⟩
    · exact .inl ⟨_, hp⟩
    · exact .inl ⟨_, hp⟩
    · exact .inr ⟨_, _, hp, (Extends.registered hs hr).trans
        (.of_map hu.typeIds rfl fun m => Membership.required_update m e _), rfl⟩
  | remove k e =>
    rcases removeComponent_cases hs k e with
      ⟨_, hp⟩ | ⟨s, _, ⟨_, hp⟩ | ⟨_, _, hp⟩ | ⟨value, t, storage, entities, _, _, hu, _, hp⟩⟩
    · exact .inl ⟨_, hp⟩
    · exact .inl ⟨_, hp⟩
    · exact .inl ⟨_, hp⟩
    · exact .inr ⟨_, _, hp, .of_map hu.typeIds rfl fun m => Membership.required_update m e _, rfl⟩
  | update k e change =>
    rcases perform_update_cases hs k e change with ⟨_, hp⟩ | ⟨x, storage, _, hu, hp⟩
    · exact .inl ⟨_, hp⟩
    · exact .inr ⟨_, _, hp, .of_typeIds hu.typeIds rfl, rfl⟩
  | update? k e change =>
    rcases perform_update?_cases hs k e change with ⟨_, hp⟩ | ⟨x, storage, _, hu, hp⟩
    · exact .inr ⟨_, _, hp, .refl w, rfl⟩
    · exact .inr ⟨_, _, hp, .of_typeIds hu.typeIds rfl, rfl⟩
  | updatePair a b e change =>
    rcases perform_updatePair_cases hs a b e change with
      ⟨_, _, hp⟩ | ⟨x, y, storage₁, storage, _, _, _, _, hu₁, hu₂, hp⟩
    · exact .inl ⟨_, hp⟩
    · exact .inr ⟨_, _, hp, .of_typeIds (hu₂.typeIds.trans hu₁.typeIds) rfl, rfl⟩
  | component k e =>
    rw [serve, perform_read]
    cases w.component k e with
    | error error => exact .inl ⟨error, rfl⟩
    | ok x => exact .inr ⟨x, w, rfl, .refl w, rfl⟩
  | signature e =>
    cases hsig : w.signature e with
    | error error => exact .inl ⟨error, by simp [serve, hsig]⟩
    | ok s => exact .inr ⟨s, w, by simp [serve, hsig], .refl w, rfl⟩
  | component? k e | hasComponent k e | isAlive e | byName name | nameOf e | living =>
    exact .inr ⟨_, w, rfl, .refl w, rfl⟩

theorem extends_serve (h : w.Coherent) (r : Request) : w.Extends (w.after (serve r)) := by
  rcases serve_cases h r with ⟨_, hp⟩ | ⟨_, w', hp, hext, _⟩ <;> rw [after, hp]
  · exact .refl w
  · exact hext

theorem tolerance_new {capacity : CapacityConfig} {tolerance : Tolerance F64}
    (h : World.new capacity tolerance = .ok w) : w.tolerance = tolerance := by
  rw [eq_of_new h]

theorem tolerance_serve (h : w.Coherent) (r : Request) :
    (w.after (serve r)).tolerance = w.tolerance := by
  rcases serve_cases h r with ⟨_, hp⟩ | ⟨_, w', hp, _, ht⟩ <;> rw [after, hp]
  exact ht

theorem extends_registerSystem (w : World) (name : String) (required : Signature) :
    w.Extends (w.after (registerSystem name required)) := by
  rcases registerSystem_cases w name required with ⟨_, hp⟩ | ⟨_, roster, hr, hp⟩ <;> rw [after, hp]
  · exact .refl w
  · refine ⟨fun _ _ h => h, fun id m hm => ⟨m, ?_, rfl⟩⟩
    dsimp only
    rw [hr.systems, List.getElem?_append_left (List.getElem?_eq_some_iff.mp hm).1]
    exact hm

theorem tolerance_registerSystem (w : World) (name : String) (required : Signature) :
    (w.after (registerSystem name required)).tolerance = w.tolerance := by
  rcases registerSystem_cases w name required with ⟨_, hp⟩ | ⟨_, _, _, hp⟩ <;> rw [after, hp]

/-! ## Systems registered for kinds -/

/-- The signature has the bits of all these kinds. -/
def Marks (w : World) (s : Signature) (kinds : List Kind) : Prop :=
  ∀ k ∈ kinds, ∃ t, w.storage.typeId? k = some t ∧ s.bits.getLsbD t = true

theorem Marks.extends {s s' : Signature} {kinds : List Kind} (h : w.Marks s kinds)
    (hw : w.Extends w') (hs : ∀ t, s.bits.getLsbD t = true → s'.bits.getLsbD t = true) :
    w'.Marks s' kinds := by
  intro k hk
  obtain ⟨t, ht, hbit⟩ := h k hk
  exact ⟨t, hw.typeId? k t ht, hs t hbit⟩

/-- The signature has no bits but those of these kinds. -/
def MarksOnly (w : World) (s : Signature) (kinds : List Kind) : Prop :=
  ∀ t, s.bits.getLsbD t = true → ∃ k ∈ kinds, w.storage.typeId? k = some t

theorem MarksOnly.extends {s : Signature} {kinds : List Kind} (h : w.MarksOnly s kinds)
    (hw : w.Extends w') : w'.MarksOnly s kinds := by
  intro t ht
  obtain ⟨k, hk, hkt⟩ := h t ht
  exact ⟨k, hk, hw.typeId? k t hkt⟩

/-- What registering kinds one after another onto a signature does, when it fails and when
it does not. -/
theorem insertKinds_cases (h : w.Coherent) {s : Signature} {before : List Kind}
    (hs : w.Marks s before) (ho : w.MarksOnly s before) (kinds : List Kind) :
    ∃ r w', w.perform (kinds.foldlM (fun s k => return s.insert (← registerComponent k)) s) = (r, w') ∧
      w.Extends w' ∧ w'.tolerance = w.tolerance ∧ ∀ s', r = .ok s' →
        w'.Marks s' (before ++ kinds) ∧ w'.MarksOnly s' (before ++ kinds) := by
  -- The kinds done so far move from `kinds` to `before`, and `s` has the bits of `before`.
  induction kinds generalizing w s before with
  | nil =>
    refine ⟨.ok s, w, rfl, .refl w, rfl, fun s' hs' => ?_⟩
    rw [Except.ok.injEq] at hs'
    rw [← hs', List.append_nil]
    exact ⟨hs, ho⟩
  | cons k rest ih =>
    rw [List.foldlM_cons, perform_bind, perform_bind]
    rcases registerComponent_cases h.storage k with ⟨_, _, hp⟩ | ⟨t, storage, hr, hp⟩ <;> rw [hp]
    · exact ⟨_, w, rfl, .refl w, rfl, fun s' hs' => by cases hs'⟩
    · have hext := Extends.registered h.storage hr
      have hcoh : Coherent { w with storage } := by
        have := h.registerComponent k
        rwa [after, hp] at this
      have hbit := hr.sound.typeId_lt_bits hr.place
      have hmarks : Marks { w with storage } (s.insert t) (before ++ [k]) := by
        intro k' hk'
        rcases List.mem_append.mp hk' with hk' | hk'
        · refine hs.extends hext (fun j hj => ?_) k' hk'
          rw [Signature.getLsbD_insert hbit, hj, Bool.true_or]
        · rw [List.mem_singleton.mp hk']
          exact ⟨t, hr.place, by simp [Signature.getLsbD_insert hbit]⟩
      have honly : MarksOnly { w with storage } (s.insert t) (before ++ [k]) := by
        intro j hj
        rw [Signature.getLsbD_insert hbit, Bool.or_eq_true, decide_eq_true_eq] at hj
        rcases hj with hj | rfl
        · obtain ⟨k', hk', hkj⟩ := ho.extends hext j hj
          exact ⟨k', by simp [hk'], hkj⟩
        · exact ⟨k, by simp, hr.place⟩
      obtain ⟨r, w', hp', hext', ht', hok⟩ := ih hcoh hmarks honly
      refine ⟨r, w', hp', hext.trans hext', ht', fun s' hs' => ?_⟩
      have := hok s' hs'
      rwa [List.append_assoc, List.singleton_append] at this

/-- A system is registered that asks for components of all these kinds. -/
def Asks (w : World) (id : SystemId) (kinds : List Kind) : Prop :=
  ∃ m : Membership, w.roster.systems[id]? = some m ∧ w.Marks m.required kinds

instance (w : World) (id : SystemId) (kinds : List Kind) : Decidable (w.Asks id kinds) :=
  decidable_of_iff (w.roster.systems[id]?.any (fun m =>
      kinds.all fun k => (w.storage.typeId? k).any m.required.bits.getLsbD) = true)
    (by simp only [Asks, Marks, Option.any_eq_true, List.all_eq_true])

theorem Asks.extends {id : SystemId} {kinds : List Kind} (h : w.Asks id kinds)
    (hw : w.Extends w') : w'.Asks id kinds := by
  obtain ⟨m, hm, hmarks⟩ := h
  obtain ⟨m', hm', hreq⟩ := hw.required id m hm
  exact ⟨m', hm', hreq ▸ hmarks.extends hw fun _ ht => ht⟩

/-- A system is registered that asks for components of all these kinds and of no others. -/
def AsksExactly (w : World) (id : SystemId) (kinds : List Kind) : Prop :=
  ∃ m : Membership, w.roster.systems[id]? = some m ∧ w.Marks m.required kinds ∧
    w.MarksOnly m.required kinds

theorem AsksExactly.asks {id : SystemId} {kinds : List Kind} (h : w.AsksExactly id kinds) :
    w.Asks id kinds := by
  obtain ⟨m, hm, hmarks, _⟩ := h
  exact ⟨m, hm, hmarks⟩

theorem AsksExactly.extends {id : SystemId} {kinds : List Kind} (h : w.AsksExactly id kinds)
    (hw : w.Extends w') : w'.AsksExactly id kinds := by
  obtain ⟨m, hm, hmarks, honly⟩ := h
  obtain ⟨m', hm', hreq⟩ := hw.required id m hm
  exact ⟨m', hm', hreq ▸ hmarks.extends hw fun _ ht => ht, hreq ▸ honly.extends hw⟩

/-- What registering a system for kinds does: also when it fails, nothing registered before
is lost. -/
theorem registerSystemFor_cases (h : w.Coherent) (name : String) (kinds : List Kind) :
    ∃ r w', w.perform (registerSystemFor name kinds) = (r, w') ∧ w'.Coherent ∧ w.Extends w' ∧
      w'.tolerance = w.tolerance ∧ ∀ id, r = .ok id → w'.AsksExactly id kinds := by
  have hcoh := h.registerSystemFor name kinds
  have hempty : w.Marks .empty [] := by simp [Marks]
  have honly : w.MarksOnly .empty [] := by simp [MarksOnly]
  obtain ⟨r, w₁, hp, hext, ht, hok⟩ := insertKinds_cases h hempty honly kinds
  rw [← signatureFor] at hp
  rw [after, registerSystemFor, perform_bind, hp] at hcoh
  rw [registerSystemFor, perform_bind, hp]
  cases r with
  | error e => exact ⟨_, w₁, rfl, hcoh, hext, ht, fun id hid => by cases hid⟩
  | ok s =>
    obtain ⟨hmarks, honly⟩ := hok s rfl
    have hreg := extends_registerSystem w₁ name s
    dsimp only at hcoh
    rcases registerSystem_cases w₁ name s with ⟨_, hq⟩ | ⟨_, roster, hr, hq⟩ <;>
      rw [hq] at hcoh <;> rw [after, hq] at hreg
    · exact ⟨_, w₁, hq, hcoh, hext, ht, fun id hid => by cases hid⟩
    · refine ⟨_, _, hq, hcoh, hext.trans hreg, ht, fun id hid => ?_⟩
      rw [Except.ok.injEq] at hid
      subst hid
      have hget : roster.systems[w₁.roster.systems.length]? =
          some (Membership.seed ⟨name, s, []⟩ w₁.entities.livingEntities) := by
        rw [hr.systems]
        exact List.getElem?_concat_length
      exact ⟨_, hget, hmarks.extends hreg fun _ ht => ht, honly.extends hreg⟩

/-- The members of a system have all that it asks for. -/
theorem Asks.members {id : SystemId} {kinds : List Kind} (h : w.Asks id kinds) (hc : w.Coherent) :
    ∃ ids, w.members id = .ok ids ∧ ∀ e ∈ ids, ∀ k ∈ kinds, (w.get? k e).isSome = true := by
  obtain ⟨m, hm, hmarks⟩ := h
  refine ⟨m.members, by simp [World.members, Roster.members, Roster.get, hm, Except.map], ?_⟩
  intro e he k hk
  obtain ⟨t, ht, hbit⟩ := hmarks k hk
  have hne : m.required ≠ .empty := by
    rintro hempty
    rw [hempty, Signature.getLsbD_empty] at hbit
    cases hbit
  obtain ⟨s, hs, hcontains⟩ :=
    ((hc.systems m (List.mem_of_getElem? hm)).mem_iff hne e).mp he
  exact (hc.components.holds_iff k t e ht).mpr ⟨s, hs, Signature.contains_iff.mp hcontains t hbit⟩

/-- The members of a system are those that have all it asks for, if that is anything. -/
theorem AsksExactly.mem_iff {id : SystemId} {kinds : List Kind} {ids : List EntityId}
    (h : w.AsksExactly id kinds) (hne : kinds ≠ []) (hc : w.Coherent) (hm : w.members id = .ok ids)
    {e : EntityId} : e ∈ ids ↔ ∀ k ∈ kinds, (w.get? k e).isSome = true := by
  constructor
  · obtain ⟨ids', hm', hhave⟩ := h.asks.members hc
    rw [hm, Except.ok.injEq] at hm'
    exact fun he => hhave e (hm' ▸ he)
  · intro hhave
    obtain ⟨m, hget, hmarks, honly⟩ := h
    have hids : m.members = ids := by
      simpa [World.members, Roster.members, Roster.get, hget, Except.map] using hm
    -- What the first kind shows of the entity is that it is live, with some signature.
    obtain ⟨k₀, hk₀⟩ := List.exists_mem_of_ne_nil kinds hne
    obtain ⟨t₀, ht₀, hbit₀⟩ := hmarks k₀ hk₀
    obtain ⟨s, hs, _⟩ := (hc.components.holds_iff k₀ t₀ e ht₀).mp (hhave k₀ hk₀)
    have hrequired : m.required ≠ .empty := fun hempty => by simp [hempty] at hbit₀
    rw [← hids, (hc.systems m (List.mem_of_getElem? hget)).mem_iff hrequired]
    refine ⟨s, hs, Signature.contains_iff.mpr fun t ht => ?_⟩
    obtain ⟨k, hk, hkt⟩ := honly t ht
    obtain ⟨s', hs', hbit⟩ := (hc.components.holds_iff k t e hkt).mp (hhave k hk)
    rw [hs, Option.some.injEq] at hs'
    exact hs' ▸ hbit

end World

end SceneEngine
