/-
A world answers every request as the store it stands for.

`Store.Represents` relates the two through what can be looked up: who is alive, who
has which name and which component. Each change of a world is matched by the change
of the store that the same request makes, so the relation is kept from request to
request and the answers are the same throughout (`answers_eq`). In a coherent world
the relation also fixes what it does not mention: the bits of a signature and the
owner of a name.
-/
import SceneEngine.Proofs.World.Coherence
import SceneEngine.Proofs.World.Store

namespace SceneEngine

namespace Store

variable {s : Store} {w : World} {k : Kind} {e : EntityId} {r : Record}

/-! ## The store by lookup -/

theorem record?_put (s : Store) (e : EntityId) (r : Record) (x : EntityId) :
    (s.put e r).record? x = if x = e then some r else s.record? x := by
  by_cases hx : x = e
  · subst hx
    simp [record?, put]
  · rw [if_neg hx]
    exact Finmap.lookup_insert_of_ne _ hx

theorem record?_setComponent (hr : s.record? e = some r) (value : k.Value) (x : EntityId) :
    (s.setComponent k e value).record? x =
      if x = e then some { r with components := r.components.insert k value } else s.record? x := by
  simp only [setComponent, hr]
  exact record?_put _ _ _ x

theorem get?_eq_lookup (hr : s.record? e = some r) (k : Kind) :
    s.get? k e = r.components.lookup k := by
  simp [get?, hr]

/-! ## The relation -/

/-- A store and a world in which the same can be looked up. -/
structure Represents (s : Store) (w : World) : Prop where
  alive_iff : ∀ e, (∃ r, s.record? e = some r) ↔ ∃ sig, w.entities.signature? e = some sig
  name? : ∀ e, w.entities.name? e = (s.record? e).bind Record.name
  get? : ∀ k e, w.get? k e = s.get? k e
  kinds : w.storage.kinds = s.kinds
  nextFresh : w.entities.nextFresh = s.nextFresh
  free : w.entities.available = s.free
  maxEntities : w.entities.limit = s.maxEntities
  maxKinds : w.storage.limit = s.maxKinds

theorem represents_new {capacity : CapacityConfig} {tolerance : Tolerance F64}
    (h : World.new capacity tolerance = .ok w) : (new capacity).Represents w := by
  obtain rfl := World.eq_of_new h
  exact {
    alive_iff := by simp [record?, new, EntityTable.withLimit, EntityTable.signature?]
    name? := by simp [record?, new, EntityTable.withLimit, EntityTable.name?]
    get? k e := by
      rw [World.get?, Storage.get?_eq_none_of_not_mem (by simp [Storage.new, Storage.kinds])]
      simp [get?, record?, new]
    kinds := rfl
    nextFresh := rfl
    free := rfl
    maxEntities := rfl
    maxKinds := rfl }

theorem Represents.record?_eq_none (h : s.Represents w) :
    s.record? e = none ↔ w.entities.signature? e = none := by
  have := h.alive_iff e
  cases hs : s.record? e <;> cases hw : w.entities.signature? e <;> simp_all

theorem Represents.mem_components_iff (h : s.Represents w) (hr : s.record? e = some r) (k : Kind) :
    k ∈ r.components ↔ (w.get? k e).isSome = true := by
  rw [h.get?, get?_eq_lookup hr, Finmap.lookup_isSome]

theorem Represents.living_eq (h : s.Represents w) : w.livingEntities = s.living := by
  refine List.SortedLT.eq_of_mem_iff (EntityTable.livingEntities_pairwise w.entities).sortedLT
    (Finset.sortedLT_sort _) fun e => ?_
  rw [World.livingEntities, EntityTable.mem_livingIds, living, Finset.mem_sort, Finmap.mem_keys,
    Finmap.mem_iff, ← h.alive_iff e, record?]

/-- The owner of a name is the only live entity that has it. -/
theorem Represents.byName?_eq (h : s.Represents w) (hw : w.entities.Sound) (name : String) :
    w.entities.byName? name = s.byName? name := by
  have howner : ∀ e, (s.record? e).any (·.name = some name) = true ↔
      w.entities.byName? name = some e := by
    intro e
    rw [← hw.name_iff e name, h.name? e]
    cases s.record? e <;> simp
  unfold byName?
  cases hf : s.living.find? fun e => (s.record? e).any (·.name = some name) with
  | some e =>
    have := List.find?_some hf
    exact (howner e).mp this
  | none =>
    rw [List.find?_eq_none] at hf
    cases hb : w.entities.byName? name with
    | none => rfl
    | some e =>
      have hany := (howner e).mpr hb
      refine absurd hany (hf e ?_)
      rw [← h.living_eq, World.livingEntities, EntityTable.mem_livingIds]
      exact EntityTable.isAlive_iff.mp (hw.named_alive e name ((hw.name_iff e name).mpr hb))

/-- Bits set one after the other, each at the place of an element that is wanted. -/
theorem getLsbD_foldl_insert {α : Type} (wanted : α → Prop) [DecidablePred wanted] {j : Nat} :
    ∀ (l : List (α × Nat)) (acc : Signature), (∀ p ∈ l, p.2 < signatureBits) →
      ((l.foldl (fun sig p => if wanted p.1 then sig.insert p.2 else sig) acc).bits.getLsbD j = true ↔
        acc.bits.getLsbD j = true ∨ ∃ p ∈ l, wanted p.1 ∧ p.2 = j)
  | [], acc, _ => by simp
  | p :: l, acc, hl => by
    rw [List.foldl_cons, getLsbD_foldl_insert wanted l _ fun q hq => hl q (by simp [hq])]
    by_cases hp : wanted p.1
    · simp [hp, Signature.getLsbD_insert (hl p (by simp)), or_assoc]
    · simp [hp]

theorem Represents.signatureOf_eq (h : s.Represents w) (hw : w.Coherent) (hr : s.record? e = some r)
    {sig : Signature} (hsig : w.entities.signature? e = some sig) : s.signatureOf r = sig := by
  refine Signature.ext_bits fun j => Bool.eq_iff_iff.mpr ?_
  have hplace : ∀ p ∈ s.kinds.zipIdx, p.2 < signatureBits := by
    intro p hp
    rw [List.mem_zipIdx_iff_getElem?, ← h.kinds, ← hw.storage.typeId?_iff] at hp
    exact hw.storage.typeId_lt_bits hp
  rw [signatureOf, getLsbD_foldl_insert (· ∈ r.components) _ _ hplace, Signature.getLsbD_empty]
  simp only [Bool.false_eq_true, false_or, h.mem_components_iff hr]
  have hbit : ∀ k, w.storage.typeId? k = some j →
      ((w.get? k e).isSome = true ↔ sig.bits.getLsbD j = true) := by
    intro k hk
    have := hw.components.holds_iff k j e hk
    simpa [hsig, World.get?] using this
  constructor
  · rintro ⟨⟨k, i⟩, hmem, hk, rfl⟩
    rw [List.mem_zipIdx_iff_getElem?, ← h.kinds, ← hw.storage.typeId?_iff] at hmem
    exact (hbit k hmem).mp hk
  · intro hj
    obtain ⟨k, hk⟩ := hw.storage.exists_typeId?_of_lt (hw.components.lt_count e sig j hsig hj)
    refine ⟨(k, j), ?_, (hbit k hk).mpr hj, rfl⟩
    rw [List.mem_zipIdx_iff_getElem?, ← h.kinds]
    exact (hw.storage.typeId?_iff k j).mp hk

theorem Represents.signature_eq (h : s.Represents w) (hw : w.Coherent) (e : EntityId) :
    w.signature e = s.signature e := by
  rw [World.signature, EntityTable.signature, signature]
  cases hr : s.record? e with
  | none => simp [h.record?_eq_none.mp hr]
  | some r =>
    obtain ⟨sig, hsig⟩ := (h.alive_iff e).mp ⟨r, hr⟩
    simp [hsig, h.signatureOf_eq hw hr hsig]

/-! ## Changes side by side -/

/-- The outcome of a request in a world is that in a store, and the two still match. -/
def Agree {β : Type} (p : Except SceneError β × World) (q : Except SceneError β × Store) : Prop :=
  p.1 = q.1 ∧ q.2.Represents p.2

/-- Signatures and memberships are not part of what is compared. -/
theorem Represents.resigned (h : s.Represents w) {sig : Signature} {entities : EntityTable}
    (hr : w.entities.Resigned e sig entities) (roster : Roster) :
    s.Represents { w with entities, roster } := by
  have halive : ∀ x, (∃ sig, entities.signature? x = some sig) ↔
      ∃ sig, w.entities.signature? x = some sig := by
    intro x
    obtain ⟨sig₀, hsig₀⟩ := hr.alive
    rw [hr.signature? x]
    by_cases hx : x = e
    · simp [hx, hsig₀]
    · simp [hx]
  obtain ⟨signatures, rfl, _⟩ := hr.eq
  exact { h with alive_iff := fun x => (h.alive_iff x).trans (halive x).symm }

/-- The components of a live entity, changed in the store where the world changes its
storage. -/
theorem Represents.put (h : s.Represents w) (hr : s.record? e = some r) {x : Option k.Value}
    {storage : Storage} (hu : w.storage.Updated k e x storage) {components : Finmap Kind.Value}
    (hself : components.lookup k = x)
    (hother : ∀ k', k' ≠ k → components.lookup k' = r.components.lookup k') :
    (s.put e { r with components }).Represents { w with storage } := by
  have hrec := record?_put s e { r with components }
  constructor
  case alive_iff =>
    intro e'
    rw [hrec e', ← h.alive_iff e']
    by_cases he : e' = e
    · simp [he, hr]
    · simp [he]
  case name? =>
    intro e'
    rw [hrec e', h.name? e']
    by_cases he : e' = e
    · simp [he, hr]
    · simp [he]
  case get? =>
    intro k' e'
    rw [Store.get?, hrec e']
    by_cases he : e' = e
    · subst he
      rw [if_pos rfl, Option.bind_some]
      by_cases hk : k' = k
      · subst hk
        exact hu.self.trans hself.symm
      · rw [hother k' hk, ← get?_eq_lookup hr, ← h.get?]
        exact hu.other k' e' fun hc => hk hc.1
    · rw [if_neg he]
      exact (hu.other k' e' fun hc => he hc.2).trans (h.get? k' e')
  case kinds => exact hu.kinds.trans h.kinds
  case nextFresh => exact h.nextFresh
  case free => exact h.free
  case maxEntities => exact h.maxEntities
  case maxKinds => exact hu.limit.trans h.maxKinds

theorem Represents.setComponent (h : s.Represents w) {storage : Storage} {value : k.Value}
    (hu : w.storage.Updated k e (some value) storage) (hr : s.record? e = some r) :
    (s.setComponent k e value).Represents { w with storage } := by
  have hset : s.setComponent k e value =
      s.put e { r with components := r.components.insert k value } := by simp [Store.setComponent, hr]
  rw [hset]
  exact h.put hr hu (Finmap.lookup_insert _) fun k' hk => Finmap.lookup_insert_of_ne _ hk

/-- A new entity has its name and no components, wherever its id came from. -/
theorem Represents.created (h : s.Represents w) (hw : w.Coherent) {name : Option String}
    {entities : EntityTable} (hc : w.entities.Created name e entities) {nextFresh : Nat}
    {free : List EntityId} (hn : entities.nextFresh = nextFresh) (hf : entities.available = free) :
    Represents { s.put e ⟨name, ∅⟩ with nextFresh, free } { w with entities } := by
  have hrec : ∀ x, ({ s.put e ⟨name, ∅⟩ with nextFresh, free } : Store).record? x =
      if x = e then some ⟨name, ∅⟩ else s.record? x := record?_put s e ⟨name, ∅⟩
  constructor
  case alive_iff =>
    intro x
    have := h.alive_iff x
    rw [hrec x, hc.signature? x]
    by_cases hx : x = e
    · simp [hx]
    · simpa [hx] using this
  case name? =>
    intro x
    rw [hrec x, hc.name? x]
    by_cases hx : x = e
    · simp [hx]
    · simpa [hx] using h.name? x
  case get? =>
    intro k x
    rw [Store.get?, hrec x]
    by_cases hx : x = e
    · subst hx
      rw [if_pos rfl, Option.bind_some, Finmap.lookup_empty]
      exact hw.get?_of_dead hc.free k
    · rw [if_neg hx]
      exact h.get? k x
  case kinds => exact h.kinds
  case nextFresh => exact hn
  case free => exact hf
  case maxEntities => exact hc.limit.trans h.maxEntities
  case maxKinds => exact h.maxKinds

theorem Represents.create (h : s.Represents w) (hw : w.Coherent) (name : Option String) :
    Agree (w.perform (World.createEntity name)) (s.create name) := by
  have htaken : name.filter (fun n => (s.byName? n).isSome) =
      if w.entities.isTaken name = true then name else none := by
    cases name with
    | none => rfl
    | some n => simp [EntityTable.isTaken_some, h.byName?_eq hw.entities, Option.filter]
  rw [Store.create, htaken]
  rcases World.createEntity_cases hw.entities name with
    ⟨n, rfl, ht, hp⟩ | ⟨ht, hfull, hnone, hp⟩ | ⟨id, entities, hc, hp⟩
  · rw [hp, if_pos ht]
    exact ⟨rfl, h⟩
  · rw [h.nextFresh, h.maxEntities] at hfull
    rw [h.free] at hnone
    rw [hp, ht]
    simp only [Bool.false_eq_true, if_false, Nat.not_lt.mpr hfull, hnone]
    exact ⟨by rw [h.maxEntities], h⟩
  · rw [hp, hc.untaken]
    simp only [Bool.false_eq_true, if_false]
    rcases hc.supplies with ⟨hlt, hid, hn, hf⟩ | ⟨hfull, hf, hn⟩
    · rw [h.nextFresh, h.maxEntities] at hlt
      rw [h.nextFresh] at hid
      subst hid
      rw [if_pos hlt]
      exact ⟨rfl, h.created hw hc (hn.trans (by rw [h.nextFresh])) (hf.trans h.free)⟩
    · rw [h.nextFresh, h.maxEntities] at hfull
      rw [h.free] at hf
      rw [if_neg (Nat.not_lt.mpr hfull), hf]
      exact ⟨rfl, h.created hw hc (hn.trans h.nextFresh) rfl⟩

theorem Represents.destroy (h : s.Represents w) (hw : w.Coherent) (e : EntityId) :
    Agree (w.perform (World.destroyEntity e)) (s.destroy e) := by
  rcases World.destroyEntity_cases w e with ⟨hs, hp⟩ | ⟨entities, hd, hp⟩
  · rw [hp, Store.destroy, h.record?_eq_none.mpr hs]
    exact ⟨rfl, h⟩
  · obtain ⟨r, hr⟩ := (h.alive_iff e).mpr hd.alive
    have hrec : ∀ x, ({ s with records := s.records.erase e, free := s.free ++ [e] } : Store).record? x =
        if x = e then none else s.record? x := by
      intro x
      by_cases hx : x = e
      · subst hx
        simp [record?]
      · rw [if_neg hx]
        exact Finmap.lookup_erase_ne hx
    rw [hp, Store.destroy, hr]
    refine ⟨rfl, ?_⟩
    constructor
    case alive_iff =>
      intro x
      rw [hrec x, hd.signature? x]
      by_cases hx : x = e
      · simp [hx]
      · simpa [hx] using h.alive_iff x
    case name? =>
      intro x
      rw [hrec x, hd.name? x]
      by_cases hx : x = e
      · simp [hx]
      · simpa [hx] using h.name? x
    case get? =>
      intro k x
      rw [World.get?, Storage.get?_discard hw.storage, Store.get?, hrec x]
      by_cases hx : x = e
      · simp [hx]
      · simp only [if_neg hx]
        exact h.get? k x
    case kinds => exact (Storage.kinds_discard _ _).trans h.kinds
    case nextFresh => exact hd.nextFresh.trans h.nextFresh
    case free => exact hd.available.trans (by rw [h.free])
    case maxEntities => exact hd.limit.trans h.maxEntities
    case maxKinds => exact h.maxKinds

theorem Represents.length_kinds (h : s.Represents w) : w.storage.count = s.kinds.length := by
  rw [← Storage.length_kinds, h.kinds]

theorem Represents.register_full (h : s.Represents w) (hk : k ∉ w.storage.kinds)
    (hfull : w.storage.limit ≤ w.storage.count) :
    s.register k = (.error (.componentCapacityExceeded w.storage.limit), s) := by
  rw [h.kinds] at hk
  rw [h.maxKinds, h.length_kinds] at hfull
  rw [Store.register, if_neg hk, if_neg (Nat.not_lt.mpr hfull), h.maxKinds]

theorem Represents.registered (h : s.Represents w) {t : Nat} {storage : Storage}
    (hreg : w.storage.Registered k t storage) : Agree (.ok t, { w with storage }) (s.register k) := by
  have hplace := (hreg.sound.typeId?_iff k t).mp hreg.place
  have hnd := hreg.sound.kinds_nodup
  have hkinds := hreg.kinds
  rw [h.kinds] at hkinds
  rw [Store.register]
  by_cases hk : k ∈ s.kinds
  · rw [if_pos hk] at hkinds ⊢
    rw [hkinds] at hplace hnd
    obtain ⟨ht, hget⟩ := List.getElem?_eq_some_iff.mp hplace
    obtain rfl := hreg.eq_of_mem (h.kinds ▸ hk)
    refine ⟨?_, h⟩
    rw [← hget, hnd.idxOf_getElem]
  · rw [if_neg hk] at hkinds ⊢
    rw [hkinds] at hplace hnd
    have hroom : s.kinds.length < s.maxKinds := by
      rcases hreg.room with hmem | hroom
      · exact absurd (h.kinds ▸ hmem) hk
      · rwa [h.length_kinds, h.maxKinds] at hroom
    -- Among distinct kinds the new one stands only at the end.
    have ht : t = s.kinds.length := by
      have hself : (s.kinds ++ [k])[s.kinds.length]? = some k := by simp
      obtain ⟨ht, hget⟩ := List.getElem?_eq_some_iff.mp hplace
      obtain ⟨ht', hget'⟩ := List.getElem?_eq_some_iff.mp hself
      exact (List.Nodup.getElem_inj_iff hnd).mp (hget.trans hget'.symm)
    rw [if_pos hroom, ht]
    refine ⟨rfl, ?_⟩
    exact { h with
      get? := fun k' x => (hreg.get? k' x).trans (h.get? k' x)
      kinds := hkinds
      maxKinds := hreg.limit.trans h.maxKinds }

theorem record?_register (s : Store) (k : Kind) (e : EntityId) :
    (s.register k).2.record? e = s.record? e := by
  unfold Store.register
  split
  · rfl
  · split <;> rfl

theorem Represents.register (h : s.Represents w) (hw : w.Coherent) (k : Kind) :
    Agree (w.perform (World.registerComponent k)) (s.register k) := by
  rcases World.registerComponent_cases hw.storage k with ⟨hk, hfull, hp⟩ | ⟨t, storage, hreg, hp⟩
  · rw [hp, h.register_full hk hfull]
    exact ⟨rfl, h⟩
  · rw [hp]
    exact h.registered hreg

theorem Represents.add (h : s.Represents w) (hw : w.Coherent) (k : Kind) (e : EntityId)
    (value : k.Value) : Agree (w.perform (World.addComponent k e value)) (s.add k e value) := by
  rcases World.addComponent_cases hw.storage k e value with
    ⟨hs, hp⟩ | ⟨sig, hs, hcases⟩
  · rw [hp, Store.add, h.record?_eq_none.mpr hs]
    exact ⟨rfl, h⟩
  obtain ⟨r, hr⟩ := (h.alive_iff e).mpr ⟨sig, hs⟩
  rw [Store.add, hr]
  rcases hcases with ⟨hk, hfull, hp⟩ | ⟨hsome, hp⟩ |
    ⟨hnone, t, storage₁, storage, entities, hreg, hu, hres, hp⟩
  · rw [hp, h.register_full hk hfull]
    exact ⟨rfl, h⟩
  · have hk : k ∈ s.kinds := h.kinds ▸ Storage.mem_kinds_of_isSome hsome
    have hmem := (h.mem_components_iff hr k).mpr hsome
    rw [hp, Store.register, if_pos hk]
    simp only [if_pos hmem]
    exact ⟨rfl, h⟩
  · have hmem : k ∉ r.components := by rw [h.mem_components_iff hr k, hnone]; simp
    obtain ⟨hok, hrep⟩ := h.registered hreg
    have hr₁ := (record?_register s k e).trans hr
    rw [hp]
    rcases hreg' : s.register k with ⟨answer, s₁⟩
    rw [hreg'] at hok hrep hr₁
    obtain rfl : answer = .ok t := hok.symm
    simp only [if_neg hmem]
    exact ⟨rfl, (hrep.setComponent hu hr₁).resigned hres _⟩

theorem Represents.remove (h : s.Represents w) (hw : w.Coherent) (k : Kind) (e : EntityId) :
    Agree (w.perform (World.removeComponent k e)) (s.remove k e) := by
  rcases World.removeComponent_cases hw.storage k e with ⟨hs, hp⟩ | ⟨sig, hs, hcases⟩
  · rw [hp, Store.remove, h.record?_eq_none.mpr hs]
    exact ⟨rfl, h⟩
  obtain ⟨r, hr⟩ := (h.alive_iff e).mpr ⟨sig, hs⟩
  have hlookup : r.components.lookup k = w.get? k e := by rw [h.get?, get?_eq_lookup hr]
  rw [Store.remove, hr]
  rcases hcases with ⟨hk, hp⟩ | ⟨hk, hnone, hp⟩ | ⟨value, t, storage, entities, hv, ht, hu, hres, hp⟩
  · rw [h.kinds] at hk
    rw [hp]
    simp only [hk, not_false_eq_true, if_true]
    exact ⟨rfl, h⟩
  · rw [h.kinds] at hk
    rw [hp]
    simp only [hk, not_true_eq_false, if_false, hlookup, hnone]
    exact ⟨rfl, h⟩
  · have hk : k ∈ s.kinds := h.kinds ▸ hw.storage.mem_kinds ht
    rw [hp]
    simp only [hk, not_true_eq_false, if_false, hlookup, hv]
    refine ⟨rfl, ?_⟩
    have hrep := h.put hr hu (Finmap.lookup_erase k _) fun k' hk' => Finmap.lookup_erase_ne hk'
    exact hrep.resigned hres _

/-- What has a component is alive. -/
theorem exists_record? {x : k.Value} (h : s.get? k e = some x) : ∃ r, s.record? e = some r := by
  cases hr : s.record? e with
  | none => simp [Store.get?, hr] at h
  | some r => exact ⟨r, rfl⟩

theorem Represents.update (h : s.Represents w) (hw : w.Coherent) (k : Kind) (e : EntityId)
    (change : k.Value → k.Value) :
    Agree (w.perform (World.serve (.update k e change))) (s.update k e change) := by
  rcases World.perform_update_cases hw.storage k e change with ⟨hnone, hp⟩ | ⟨x, storage, hx, hu, hp⟩
  · rw [h.get?] at hnone
    rw [hp, Store.update, hnone]
    exact ⟨rfl, h⟩
  · rw [h.get?] at hx
    obtain ⟨r, hr⟩ := exists_record? hx
    rw [hp, Store.update, hx]
    exact ⟨rfl, h.setComponent hu hr⟩

theorem Represents.update? (h : s.Represents w) (hw : w.Coherent) (k : Kind) (e : EntityId)
    (change : k.Value → k.Value) :
    Agree (w.perform (World.serve (.update? k e change))) (s.update? k e change) := by
  rcases World.perform_update?_cases hw.storage k e change with ⟨hnone, hp⟩ | ⟨x, storage, hx, hu, hp⟩
  · rw [h.get?] at hnone
    rw [hp, Store.update?, hnone]
    exact ⟨rfl, h⟩
  · rw [h.get?] at hx
    obtain ⟨r, hr⟩ := exists_record? hx
    rw [hp, Store.update?, hx]
    exact ⟨rfl, h.setComponent hu hr⟩

theorem Represents.pair_eq (h : s.Represents w) (hw : w.Coherent) (a b : Kind) (e : EntityId) :
    w.storage.pair a b e = s.pair a b e := by
  have hget : ∀ k, w.storage.get? k e = s.get? k e := fun k => h.get? k e
  cases hx : s.get? a e <;> cases hy : s.get? b e <;>
    simp [hw.storage.pair_eq, Store.pair, h.kinds, hget, hx, hy]

theorem Represents.updatePair (h : s.Represents w) (hw : w.Coherent) (a b : Kind) (e : EntityId)
    (change : a.Value × b.Value → a.Value × b.Value) :
    Agree (w.perform (World.serve (.updatePair a b e change))) (s.updatePair a b e change) := by
  rw [Store.updatePair, ← h.pair_eq hw]
  rcases World.perform_updatePair_cases hw.storage a b e change with
    ⟨err, herr, hp⟩ | ⟨x, y, storage₁, storage, _, hx, hy, hok, hu₁, hu₂, hp⟩
  · rw [hp, herr]
    exact ⟨rfl, h⟩
  · rw [h.get?] at hx
    obtain ⟨r, hr⟩ := exists_record? hx
    have hr₁ := record?_setComponent hr (change (x, y)).1 e
    rw [if_pos rfl] at hr₁
    rw [hp, hok]
    exact ⟨rfl, (h.setComponent hu₁ hr).setComponent hu₂ hr₁⟩

/-- One request, in the world and in the store. -/
theorem Represents.serve (h : s.Represents w) (hw : w.Coherent) (r : Request) :
    Agree (w.perform (World.serve r)) (s.serve r) := by
  cases r with
  | create name => exact h.create hw name
  | destroy e => exact h.destroy hw e
  | register k => exact h.register hw k
  | add k e value => exact h.add hw k e value
  | remove k e => exact h.remove hw k e
  | update k e change => exact h.update hw k e change
  | update? k e change => exact h.update? hw k e change
  | updatePair a b e change => exact h.updatePair hw a b e change
  | component k e =>
    refine ⟨?_, by simpa [World.serve, Store.serve, World.perform_read] using h⟩
    simp only [World.serve, World.perform_read, World.component, h.get?]
    rfl
  | component? k e => exact ⟨by simp [World.serve, Store.serve, Except.map, h.get?], h⟩
  | hasComponent k e =>
    exact ⟨by simp [World.serve, Store.serve, Except.map, World.hasComponent, h.get?], h⟩
  | isAlive e =>
    refine ⟨?_, h⟩
    have hsome : w.isAlive e = (s.record? e).isSome := by
      rw [Bool.eq_iff_iff, World.isAlive, EntityTable.isAlive_iff, ← h.alive_iff,
        Option.isSome_iff_exists]
    simp [World.serve, Store.serve, Except.map, hsome]
  | signature e =>
    have hsig := h.signature_eq hw e
    cases hs : s.signature e <;> rw [hs] at hsig <;>
      exact ⟨by simp [World.serve, Store.serve, hsig, hs],
        by simpa [World.serve, Store.serve, hsig] using h⟩
  | byName name =>
    exact ⟨by simp [World.serve, Store.serve, Except.map, h.byName?_eq hw.entities], h⟩
  | nameOf e => exact ⟨by simp [World.serve, Store.serve, Except.map, h.name?], h⟩
  | living => exact ⟨by simp [World.serve, Store.serve, Except.map, h.living_eq], h⟩

theorem Represents.answers_eq (h : s.Represents w) (hw : w.Coherent) (rs : List Request) :
    w.answers rs = s.answers rs := by
  induction rs generalizing s w with
  | nil => rfl
  | cons r rest ih =>
    obtain ⟨hanswer, hrep⟩ := h.serve hw r
    rw [World.answers, Store.answers, hanswer]
    congr 1
    exact ih hrep (hw.serve r)

end Store

namespace World

variable {w : World} {k : Kind} {e : EntityId}

/-! ## One component among the others -/

/-- A request, served or refused, leaves every component it is not about. -/
theorem Coherent.get?_serve (h : w.Coherent) {r : Request} (hr : ¬ r.Touches k e) :
    (w.after (World.serve r)).get? k e = w.get? k e := by
  cases r with
  | create name =>
    rcases createEntity_cases h.entities name with
      ⟨_, _, _, hp⟩ | ⟨_, _, _, hp⟩ | ⟨_, _, _, hp⟩ <;> simp only [after, World.serve, hp, World.get?]
  | destroy e' =>
    rcases destroyEntity_cases w e' with ⟨_, hp⟩ | ⟨_, _, hp⟩ <;>
      simp only [after, World.serve, hp, World.get?]
    exact (Storage.get?_discard h.storage e' k e).trans (if_neg hr)
  | register k' =>
    rcases registerComponent_cases h.storage k' with ⟨_, _, hp⟩ | ⟨_, _, hreg, hp⟩ <;>
      simp only [after, World.serve, hp, World.get?]
    exact hreg.get? k e
  | add k' e' value =>
    rcases addComponent_cases h.storage k' e' value with
      ⟨_, hp⟩ | ⟨_, _, ⟨_, _, hp⟩ | ⟨_, hp⟩ | ⟨_, _, _, _, _, hreg, hu, _, hp⟩⟩ <;>
      simp only [after, World.serve, hp, World.get?]
    exact (hu.other k e hr).trans (hreg.get? k e)
  | remove k' e' =>
    rcases removeComponent_cases h.storage k' e' with
      ⟨_, hp⟩ | ⟨_, _, ⟨_, hp⟩ | ⟨_, _, hp⟩ | ⟨_, _, _, _, _, _, hu, _, hp⟩⟩ <;>
      simp only [after, World.serve, hp, World.get?]
    exact hu.other k e hr
  | update k' e' change =>
    rcases perform_update_cases h.storage k' e' change with ⟨_, hp⟩ | ⟨_, _, _, hu, hp⟩ <;>
      simp only [after, hp, World.get?]
    exact hu.other k e hr
  | update? k' e' change =>
    rcases perform_update?_cases h.storage k' e' change with ⟨_, hp⟩ | ⟨_, _, _, hu, hp⟩ <;>
      simp only [after, hp, World.get?]
    exact hu.other k e hr
  | updatePair a b e' change =>
    rcases perform_updatePair_cases h.storage a b e' change with
      ⟨_, _, hp⟩ | ⟨_, _, _, _, _, _, _, _, hu₁, hu₂, hp⟩ <;> simp only [after, hp, World.get?]
    have hb := hu₂.other k e fun hc => hr ⟨.inr hc.1, hc.2⟩
    exact hb.trans (hu₁.other k e fun hc => hr ⟨.inl hc.1, hc.2⟩)
  | component k' e' => simp [after, World.serve, perform_read]
  | signature e' => cases hs : w.signature e' <;> simp [after, World.serve, hs]
  | component? k' e' | hasComponent k' e' | isAlive e' | byName name | nameOf e' | living =>
    simp [after, World.serve]

/-- What was added is there. -/
theorem Coherent.get?_add (h : w.Coherent) {value : k.Value}
    (hok : (w.perform (World.serve (.add k e value))).1 = .ok ()) :
    (w.after (World.serve (.add k e value))).get? k e = some value := by
  rcases addComponent_cases h.storage k e value with
    ⟨_, hp⟩ | ⟨_, _, ⟨_, _, hp⟩ | ⟨_, hp⟩ | ⟨_, _, _, _, _, _, hu, _, hp⟩⟩ <;>
    simp only [World.serve, hp, reduceCtorEq] at hok
  simp only [after, World.serve, hp, World.get?]
  exact hu.self

/-- What is there is answered by its removal. -/
theorem Coherent.remove_ok (h : w.Coherent) {value : k.Value} (hv : w.get? k e = some value) :
    (w.perform (World.serve (.remove k e))).1 = .ok value := by
  rcases removeComponent_cases h.storage k e with
    ⟨hs, hp⟩ | ⟨_, _, ⟨hk, hp⟩ | ⟨_, hnone, hp⟩ | ⟨_, _, _, _, hv', _, _, _, hp⟩⟩
  · simp [h.get?_of_dead hs] at hv
  · simp [World.get?, Storage.get?_eq_none_of_not_mem hk] at hv
  · simp [hnone] at hv
  · rw [hv, Option.some.injEq] at hv'
    rw [World.serve, hp, hv']

/-- Of two kinds, in whatever order they were registered, each gets its own new value. -/
theorem Coherent.updatePair_ok (h : w.Coherent) {a b : Kind} (hab : a ≠ b) {x : a.Value}
    {y : b.Value} (hx : w.get? a e = some x) (hy : w.get? b e = some y)
    (change : a.Value × b.Value → a.Value × b.Value) :
    (w.perform (World.serve (.updatePair a b e change))).1 = .ok (change (x, y)) ∧
    (w.after (World.serve (.updatePair a b e change))).get? a e = some (change (x, y)).1 ∧
    (w.after (World.serve (.updatePair a b e change))).get? b e = some (change (x, y)).2 := by
  rcases perform_updatePair_cases h.storage a b e change with
    ⟨err, herr, _⟩ | ⟨x', y', storage₁, storage, _, hx', hy', _, hu₁, hu₂, hp⟩
  · rw [World.get?] at hx hy
    have ha := Storage.mem_kinds_of_isSome (Option.isSome_of_eq_some hx)
    have hb := Storage.mem_kinds_of_isSome (Option.isSome_of_eq_some hy)
    simp [h.storage.pair_eq, ha, hb, hab, hx, hy] at herr
  · rw [hx, Option.some.injEq] at hx'
    rw [hy, Option.some.injEq] at hy'
    subst hx' hy'
    rw [after, hp]
    exact ⟨rfl, (hu₂.other a e fun hc => hab hc.1).trans hu₁.self, hu₂.self⟩

theorem component_eq_ok {value : k.Value} : w.component k e = .ok value ↔ w.get? k e = some value := by
  cases hv : w.get? k e <;> simp [component, hv]

/-- **A world is the store it looks like.** Every series of requests to a new world is
answered as the plain store answers it, value by value and error by error. In every
world that can come of requests, what is added is read and removed again as it was, a
change of two components writes these two, and a request changes no component it is
not about. -/
theorem answers_as_store {capacity : CapacityConfig} {tolerance : Tolerance F64}
    (h : World.new capacity tolerance = .ok w) :
    (∀ rs : List Request, w.answers rs = (Store.new capacity).answers rs) ∧
    ∀ w' : World, Reachable w' →
      (∀ (k : Kind) (e : EntityId) (value : k.Value),
        (w'.perform (World.serve (.add k e value))).1 = .ok () →
        (w'.after (World.serve (.add k e value))).component k e = .ok value ∧
        ((w'.after (World.serve (.add k e value))).perform (World.serve (.remove k e))).1 = .ok value) ∧
      (∀ (a b : Kind) (e : EntityId) (x : a.Value) (y : b.Value)
        (change : a.Value × b.Value → a.Value × b.Value), a ≠ b →
        w'.component a e = .ok x → w'.component b e = .ok y →
        (w'.perform (World.serve (.updatePair a b e change))).1 = .ok (change (x, y)) ∧
        (w'.after (World.serve (.updatePair a b e change))).component a e = .ok (change (x, y)).1 ∧
        (w'.after (World.serve (.updatePair a b e change))).component b e = .ok (change (x, y)).2) ∧
      (∀ (r : Request) (k : Kind) (e : EntityId), ¬ r.Touches k e →
        (w'.after (World.serve r)).get? k e = w'.get? k e) := by
  refine ⟨(Store.represents_new h).answers_eq (coherent_new h), fun w' hreach => ?_⟩
  have hc := hreach.coherent
  refine ⟨fun k e value hok => ?_, fun a b e x y change hab hx hy => ?_,
    fun r k e hr => hc.get?_serve hr⟩
  · have hv := hc.get?_add hok
    exact ⟨component_eq_ok.mpr hv, (hc.serve _).remove_ok hv⟩
  · rw [component_eq_ok] at hx hy
    obtain ⟨hok, ha, hb⟩ := hc.updatePair_ok hab hx hy change
    exact ⟨hok, component_eq_ok.mpr ha, component_eq_ok.mpr hb⟩

/-- Two components swapped, the one registered last named first. -/
theorem answers_as_store_swap :
    ∃ w w' : World, World.new ⟨1, 4⟩ .single = .ok w ∧ Reachable w' ∧
      w.answers [.create none, .add (.custom 0) 0 5, .component (.custom 0) 0] =
        (Store.new ⟨1, 4⟩).answers [.create none, .add (.custom 0) 0 5, .component (.custom 0) 0] ∧
      (w'.perform (World.serve (.updatePair (.custom 1) (.custom 0) 0 fun xy => (xy.2, xy.1)))).1 =
        .ok (5, 6) := by
  let w₀ : World := ⟨.withLimit 1, .new 4, .empty, .single⟩
  let w := w₀.serving [.create none, .add (.custom 0) 0 5, .add (.custom 1) 0 6]
  have hnew : World.new ⟨1, 4⟩ .single = .ok w₀ := rfl
  have hreach : Reachable w := .serving (.new hnew) _
  obtain ⟨hanswers, hkeep⟩ := answers_as_store hnew
  obtain ⟨_, hpair, _⟩ := hkeep w hreach
  have ha : w.component (.custom 1) 0 = .ok 6 := by decide +kernel
  have hb : w.component (.custom 0) 0 = .ok 5 := by decide +kernel
  have hswap := hpair (.custom 1) (.custom 0) 0 6 5 (fun xy => (xy.2, xy.1)) (by decide) ha hb
  exact ⟨w₀, w, hnew, hreach, hanswers _, hswap.1⟩

end World

end SceneEngine
