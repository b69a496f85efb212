/-
Signatures bit by bit, and the entity table through what can be looked up in it.

A table is read by `signature?`, `name?` and `byName?`. `Created` and `Destroyed`
say what the two operations do to these lookups, and `EntityTable.Sound` what no
operation can break: the free queue holds each freed id once and nothing else, and
names and live ids are matched one to one.
-/
import SceneEngine.EntityTable

namespace SceneEngine

/-! ## Signatures -/

namespace Signature

theorem ext_bits {s t : Signature} (h : ∀ i, s.bits.getLsbD i = t.bits.getLsbD i) : s = t := by
  cases s; cases t
  congr
  exact BitVec.eq_of_getLsbD_eq fun i _ => h i

@[simp] theorem getLsbD_empty (i : Nat) : empty.bits.getLsbD i = false := by simp [empty]

theorem getLsbD_single {i : Nat} (hi : i < signatureBits) (j : Nat) :
    (single i).bits.getLsbD j = decide (i = j) := by
  simp only [single, Nat.mod_eq_of_lt hi, BitVec.getLsbD_twoPow]
  by_cases hij : i = j
  · subst hij; simp [hi]
  · simp [hij]

@[simp] theorem getLsbD_insert {s : Signature} {i : Nat} (hi : i < signatureBits) (j : Nat) :
    (s.insert i).bits.getLsbD j = (s.bits.getLsbD j || decide (i = j)) := by
  simp [insert, union, getLsbD_single hi]

@[simp] theorem getLsbD_erase {s : Signature} {i : Nat} (hi : i < signatureBits) (j : Nat) :
    (s.erase i).bits.getLsbD j = (s.bits.getLsbD j && decide (i ≠ j)) := by
  simp only [erase, BitVec.getLsbD_and, BitVec.getLsbD_not, getLsbD_single hi]
  by_cases hj : j < signatureBits
  · simp [hj]
  · have : s.bits.getLsbD j = false := BitVec.getLsbD_of_ge _ _ (Nat.le_of_not_lt hj)
    simp [this]

theorem has_eq {s : Signature} {i : Nat} (hi : i < signatureBits) : s.has i = s.bits.getLsbD i := by
  rw [has, Bool.eq_iff_iff, bne_iff_ne]
  constructor
  · intro h
    cases hs : s.bits.getLsbD i
    · refine absurd (BitVec.eq_of_getLsbD_eq fun j _ => ?_) h
      simp only [BitVec.getLsbD_and, getLsbD_single hi]
      by_cases hij : i = j
      · subst hij; simp [hs]
      · simp [hij]
    · rfl
  · intro hs h
    have := congrArg (BitVec.getLsbD · i) h
    simp [getLsbD_single hi, hs] at this

/-- A signature has all that is asked for when it has every bit asked for. -/
theorem contains_iff {s required : Signature} :
    s.contains required = true ↔
      ∀ i, required.bits.getLsbD i = true → s.bits.getLsbD i = true := by
  rw [contains, beq_iff_eq]
  constructor
  · intro h i hi
    have := congrArg (BitVec.getLsbD · i) h
    simpa [hi] using this
  · intro h
    refine BitVec.eq_of_getLsbD_eq fun i _ => ?_
    cases hr : required.bits.getLsbD i
    · simp [hr]
    · simp [hr, h i hr]

@[simp] theorem contains_empty (s : Signature) : s.contains empty = true :=
  contains_iff.mpr fun i hi => by simp at hi

theorem contains_empty_left {required : Signature} (h : required ≠ empty) :
    empty.contains required = false := by
  rw [Bool.eq_false_iff]
  intro hc
  refine h (ext_bits fun i => ?_)
  cases hr : required.bits.getLsbD i
  · simp
  · simpa using contains_iff.mp hc i hr

end Signature

/-! ## Lookups of a table -/

namespace EntityTable

variable {t t' : EntityTable} {name : Option String} {id : EntityId}

theorem isAlive_iff {e : EntityId} : t.isAlive e = true ↔ ∃ s, t.signature? e = some s := by
  rw [isAlive, Option.isSome_iff_exists]

theorem signature_eq {e : EntityId} {s : Signature} :
    t.signature e = .ok s ↔ t.signature? e = some s := by
  unfold signature
  split <;> simp_all

theorem signature?_eq_none_of_le {e : EntityId} (h : t.signatures.size ≤ e) : t.signature? e = none := by
  simp [signature?, Array.getElem?_eq_none h]

theorem lt_of_signature? {e : EntityId} {s : Signature} (h : t.signature? e = some s) :
    e < t.signatures.size := by
  rcases Nat.lt_or_ge e t.signatures.size with hlt | hge
  · exact hlt
  · simp [signature?_eq_none_of_le hge] at h

theorem mem_livingEntities {e : EntityId} {s : Signature} :
    (e, s) ∈ t.livingEntities ↔ t.signature? e = some s := by
  simp only [livingEntities, List.mem_filterMap, List.mem_range, Option.map_eq_some_iff,
    Prod.mk.injEq]
  constructor
  · rintro ⟨_, _, _, hs, rfl, rfl⟩
    exact hs
  · exact fun h => ⟨e, lt_of_signature? h, s, h, rfl, rfl⟩

/-- The live ids come in strictly ascending order. -/
theorem livingEntities_pairwise (t : EntityTable) :
    (t.livingEntities.map Prod.fst).Pairwise (· < ·) := by
  rw [List.pairwise_map, livingEntities]
  refine List.Pairwise.filterMap _ ?_ List.pairwise_lt_range
  intro a b hab x hx y hy
  obtain ⟨_, _, rfl⟩ := Option.map_eq_some_iff.mp hx
  obtain ⟨_, _, rfl⟩ := Option.map_eq_some_iff.mp hy
  exact hab

theorem livingEntities_nodup (t : EntityTable) : (t.livingEntities.map Prod.fst).Nodup :=
  (livingEntities_pairwise t).imp Nat.ne_of_lt

theorem mem_livingIds {e : EntityId} :
    e ∈ t.livingEntities.map Prod.fst ↔ ∃ s, t.signature? e = some s := by
  rw [List.mem_map]
  constructor
  · rintro ⟨⟨_, s⟩, h, rfl⟩
    exact ⟨s, mem_livingEntities.mp h⟩
  · rintro ⟨s, h⟩
    exact ⟨(e, s), mem_livingEntities.mpr h, rfl⟩

/-! ## What holds of every table -/

/-- Slots are as many as ids handed out, the free queue holds each freed id once, and
names and live ids are matched one to one. -/
structure Sound (t : EntityTable) : Prop where
  size : t.signatures.size = t.nextFresh
  fresh_le : t.nextFresh ≤ t.limit
  free_nodup : t.available.Nodup
  mem_free : ∀ e, e ∈ t.available ↔ e < t.nextFresh ∧ t.signature? e = none
  named_alive : ∀ e n, t.name? e = some n → t.isAlive e = true
  name_iff : ∀ e n, t.name? e = some n ↔ t.byName? n = some e
  living : t.living = t.livingEntities.length

theorem Sound.withLimit (limit : Nat) : (withLimit limit).Sound where
  size := rfl
  fresh_le := Nat.zero_le _
  free_nodup := List.nodup_nil
  mem_free := by simp [EntityTable.withLimit]
  named_alive := by simp [EntityTable.withLimit, name?]
  name_iff := by simp [EntityTable.withLimit, name?, byName?]
  living := by simp [EntityTable.withLimit, livingEntities]

/-! ## Creation -/

theorem join_getElem?_setIfInBounds {xs : Array (Option Signature)} (h : id < xs.size)
    (x : Option Signature) (e : EntityId) :
    (xs.setIfInBounds id x)[e]?.join = if e = id then x else xs[e]?.join := by
  rw [Array.getElem?_setIfInBounds]
  by_cases he : e = id
  · subst he; simp [h]
  · simp [he, Ne.symm he]

theorem join_getElem?_push_none (xs : Array (Option Signature)) (e : EntityId) :
    (xs.push none)[e]?.join = xs[e]?.join := by
  rw [Array.getElem?_push]
  split
  · subst e; simp
  · rfl

/-- The two places an id comes from: one never used as long as there is one, then the
id freed longest ago. -/
def Supplies (t : EntityTable) (id : EntityId) (t' : EntityTable) : Prop :=
  (t.nextFresh < t.limit ∧ id = t.nextFresh ∧ t'.nextFresh = t.nextFresh + 1 ∧
    t'.available = t.available) ∨
  (t.limit ≤ t.nextFresh ∧ t.available = id :: t'.available ∧ t'.nextFresh = t.nextFresh)

/-- What allocation does: `id` was free, and has a slot. -/
structure Allocated (t : EntityTable) (id : EntityId) (t' : EntityTable) : Prop where
  free : t.signature? id = none
  lt_size : id < t'.signatures.size
  size : t'.signatures.size = t'.nextFresh
  signature? : ∀ e, t'.signature? e = t.signature? e
  name? : ∀ e, t'.name? e = t.name? e
  byName? : ∀ n, t'.byName? n = t.byName? n
  limit : t'.limit = t.limit
  living : t'.living = t.living
  supplies : t.Supplies id t'

theorem allocate_error {error : SceneError} (h : allocate t = .error error t') :
    error = .entityCapacityExceeded t.limit ∧ t' = t := by
  by_cases hf : t.nextFresh < t.limit
  · simp [allocate, hf] at h
  · cases ha : t.available with
    | nil =>
      simp [allocate, hf, ha] at h
      exact ⟨h.1.symm, h.2.symm⟩
    | cons id rest => simp [allocate, hf, ha] at h

/-- Without an id to give, allocation leaves the table as it is. -/
theorem allocate_cases (h : t.Sound) :
    (t.limit ≤ t.nextFresh ∧ t.available = [] ∧
      allocate t = .error (.entityCapacityExceeded t.limit) t) ∨
    ∃ id t', allocate t = .ok id t' ∧ Allocated t id t' := by
  simp only [allocate, Change.bind_apply, Change.get_apply]
  split
  · -- An id never used: its slot is the one just pushed.
    next hlt =>
    refine .inr ⟨_, _, rfl, ?_⟩
    exact {
      free := signature?_eq_none_of_le (Nat.le_of_eq h.size)
      lt_size := by simp [h.size]
      size := by simp [h.size]
      signature? := join_getElem?_push_none t.signatures
      name? := fun _ => rfl
      byName? := fun _ => rfl
      limit := rfl
      living := rfl
      supplies := .inl ⟨hlt, rfl, rfl, rfl⟩ }
  · next hge =>
    cases ha : t.available with
    | nil => exact .inl ⟨Nat.le_of_not_lt hge, rfl, rfl⟩
    | cons id rest =>
      obtain ⟨hid, hfree⟩ := (h.mem_free id).mp (by simp [ha])
      refine .inr ⟨_, _, rfl, ?_⟩
      exact {
        free := hfree
        lt_size := by simpa [h.size] using hid
        size := h.size
        signature? := fun _ => rfl
        name? := fun _ => rfl
        byName? := fun _ => rfl
        limit := rfl
        living := rfl
        supplies := .inr ⟨Nat.le_of_not_lt hge, ha, rfl⟩ }

/-- What creation does: `id` was free, and is now live with no components. -/
structure Created (t : EntityTable) (name : Option String) (id : EntityId) (t' : EntityTable) :
    Prop where
  untaken : t.isTaken name = false
  free : t.signature? id = none
  signature? : ∀ e, t'.signature? e = if e = id then some .empty else t.signature? e
  name? : ∀ e, t'.name? e = if e = id then name else t.name? e
  byName? : ∀ n, t'.byName? n = if name = some n then some id else t.byName? n
  size : t'.signatures.size = t'.nextFresh
  limit : t'.limit = t.limit
  living : t'.living = t.living + 1
  supplies : t.Supplies id t'

theorem name?_eq_none_of_free (h : t.Sound) (hfree : t.signature? id = none) :
    t.name? id = none := by
  cases hx : t.name? id with
  | none => rfl
  | some n =>
    obtain ⟨_, hsome⟩ := isAlive_iff.mp (h.named_alive id n hx)
    simp [hfree] at hsome

/-- Giving `id` a name, or none, changes only the lookups by name. -/
theorem named_lookups (t : EntityTable) (name : Option String) (id : EntityId) :
    (∃ names ids, name.elim t (t.setName id) = { t with nameOfId := names, idOfName := ids }) ∧
    (∀ e, (name.elim t (t.setName id)).name? e = if e = id ∧ name ≠ none then name else t.name? e) ∧
    ∀ n, (name.elim t (t.setName id)).byName? n = if name = some n then some id else t.byName? n := by
  cases name with
  | none => exact ⟨⟨_, _, rfl⟩, by simp, by simp⟩
  | some name =>
    refine ⟨⟨_, _, rfl⟩, fun e => ?_, fun n => ?_⟩
    · simp [name?, setName, Std.TreeMap.getElem?_insert, eq_comm (a := e)]
    · simp [byName?, setName, Std.TreeMap.getElem?_insert]

theorem Allocated.created {t₁ : EntityTable} (ha : Allocated t id t₁) (h : t.Sound)
    (hn : t.isTaken name = false) :
    let t₂ := { t₁ with
      signatures := t₁.signatures.setIfInBounds id (some .empty), living := t₁.living + 1 }
    Created t name id (name.elim t₂ (t₂.setName id)) := by
  intro t₂
  obtain ⟨⟨names, ids, heq⟩, hname, hby⟩ := named_lookups t₂ name id
  rw [heq] at hname hby ⊢
  exact {
    untaken := hn
    free := ha.free
    signature? := fun e => by
      rw [EntityTable.signature?, join_getElem?_setIfInBounds ha.lt_size]
      rw [← ha.signature?, EntityTable.signature?]
    name? := fun e => by
      have := hname e
      have hold : t₂.name? e = t.name? e := ha.name? e
      rw [this, hold]
      by_cases he : e = id
      · subst he
        cases name <;> simp [name?_eq_none_of_free h ha.free]
      · simp [he]
    byName? := fun n => by
      have hold : t₂.byName? n = t.byName? n := ha.byName? n
      rw [hby n, hold]
    size := by simpa [t₂] using ha.size
    limit := ha.limit
    living := by simp [t₂, ha.living]
    supplies := ha.supplies }

/-- A creation fails for a taken name, or else for want of room, and succeeds otherwise.
One that fails leaves the table as it is. -/
theorem createEntity_cases (h : t.Sound) (name : Option String) :
    (∃ n, name = some n ∧ t.isTaken name = true ∧
      createEntity name t = .error (.duplicateEntityName n) t) ∨
    (t.isTaken name = false ∧ t.limit ≤ t.nextFresh ∧ t.available = [] ∧
      createEntity name t = .error (.entityCapacityExceeded t.limit) t) ∨
    ∃ id t', createEntity name t = .ok id t' ∧ Created t name id t' := by
  cases hn : t.isTaken name with
  | true =>
    cases name with
    | none => simp [isTaken] at hn
    | some n => exact .inl ⟨n, rfl, rfl, by simp [createEntity, hn]⟩
  | false =>
    right
    rcases allocate_cases h with ⟨hfull, hnone, ha⟩ | ⟨id, t₁, ha, hal⟩
    · refine .inl ⟨rfl, hfull, hnone, ?_⟩
      cases name <;> simp [createEntity, hn, ha]
    · refine .inr ⟨id, _, ?_, hal.created h hn⟩
      cases name <;> simp [createEntity, hn, ha, setName]

/-- A creation fails for one of two reasons, whatever the table. -/
theorem createEntity_error {error : SceneError} (h : createEntity name t = .error error t') :
    (∃ n, error = .duplicateEntityName n) ∨ error = .entityCapacityExceeded t.limit := by
  cases ht : t.isTaken name with
  | true =>
    cases name with
    | none => simp [isTaken] at ht
    | some n =>
      simp only [createEntity, Change.bind_apply, Change.get_apply, ht, if_pos] at h
      cases h
      exact .inl ⟨n, rfl⟩
  | false =>
    right
    cases ha : allocate t with
    | ok id t₁ => cases name <;> simp [createEntity, ht, ha] at h
    | error e t₁ =>
      obtain ⟨rfl, rfl⟩ := allocate_error ha
      cases name <;> simp [createEntity, ht, ha] at h <;> exact h.1.symm
theorem create_cases (h : t.Sound) (name : Option String) :
    (∃ n, name = some n ∧ t.isTaken name = true ∧
      t.create name = .error (.duplicateEntityName n)) ∨
    (t.isTaken name = false ∧ t.limit ≤ t.nextFresh ∧ t.available = [] ∧
      t.create name = .error (.entityCapacityExceeded t.limit)) ∨
    ∃ id t', t.create name = .ok (id, t') ∧ Created t name id t' := by
  unfold create Change.outcome
  rcases createEntity_cases h name with ⟨n, hn, ht, hc⟩ | ⟨ht, hf, ha, hc⟩ | ⟨id, t', hc, hcr⟩ <;>
    rw [hc]
  · exact .inl ⟨n, hn, ht, rfl⟩
  · exact .inr (.inl ⟨ht, hf, ha, rfl⟩)
  · exact .inr (.inr ⟨id, t', rfl, hcr⟩)

theorem isTaken_some {n : String} : t.isTaken (some n) = (t.byName? n).isSome := by
  simp [isTaken, byName?]

theorem length_livingIds (t : EntityTable) :
    (t.livingEntities.map Prod.fst).length = t.livingEntities.length := List.length_map _

theorem livingEntities_length_of_perm {ids : List EntityId} (hnd : ids.Nodup)
    (h : ∀ e, (∃ s, t.signature? e = some s) ↔ e ∈ ids) : t.livingEntities.length = ids.length := by
  rw [← length_livingIds t]
  refine ((List.perm_ext_iff_of_nodup (livingEntities_nodup t) hnd).mpr fun e => ?_).length_eq
  rw [mem_livingIds, h]

theorem Created.sound (hc : Created t name id t') (h : t.Sound) : t'.Sound where
  size := hc.size
  fresh_le := by
    have := h.fresh_le
    rcases hc.supplies with ⟨hlt, _, hf, _⟩ | ⟨_, _, hf⟩ <;> rw [hf, hc.limit] <;> omega
  free_nodup := by
    have hnd := h.free_nodup
    rcases hc.supplies with ⟨_, _, _, ha⟩ | ⟨_, ha, _⟩
    · rwa [ha]
    · rw [ha] at hnd
      exact (List.nodup_cons.mp hnd).2
  mem_free := by
    intro e
    have hold := h.mem_free e
    rw [hc.signature? e]
    rcases hc.supplies with ⟨_, rfl, hf, ha⟩ | ⟨_, ha, hf⟩
    · rw [ha, hf, hold, Nat.lt_succ_iff_lt_or_eq]
      by_cases he : e = t.nextFresh <;> simp [he]
    · have hnd := h.free_nodup
      rw [ha] at hold hnd
      rw [hf]
      by_cases he : e = id
      · subst he
        simp [(List.nodup_cons.mp hnd).1]
      · simpa [he] using hold
  named_alive := by
    intro e n hn
    rw [isAlive_iff, hc.signature? e]
    by_cases he : e = id
    · simp [he]
    · rw [hc.name? e, if_neg he] at hn
      simpa [he] using isAlive_iff.mp (h.named_alive e n hn)
  name_iff := by
    intro e n
    rw [hc.name? e, hc.byName? n]
    by_cases he : e = id
    · subst he
      by_cases hn : name = some n
      · simp [hn]
      · -- A name the new entity does not have cannot be that of an id not in use before.
        have := h.name_iff e n
        rw [name?_eq_none_of_free h hc.free] at this
        simpa [hn] using this
    · by_cases hn : name = some n
      · have hu := hc.untaken
        rw [hn, isTaken_some, Option.isSome_eq_false_iff, Option.isNone_iff_eq_none] at hu
        have hne : t.name? e ≠ some n := fun hx => by simp [(h.name_iff e n).mp hx] at hu
        simpa [he, hn, Ne.symm he] using hne
      · simpa [he, hn] using h.name_iff e n
  living := by
    have hnd : (id :: t.livingEntities.map Prod.fst).Nodup := by
      refine List.nodup_cons.mpr ⟨fun hm => ?_, livingEntities_nodup t⟩
      obtain ⟨_, hs⟩ := mem_livingIds.mp hm
      simp [hc.free] at hs
    rw [hc.living, h.living, ← length_livingIds t]
    symm
    refine livingEntities_length_of_perm hnd fun e => ?_
    rw [hc.signature? e, List.mem_cons, mem_livingIds]
    by_cases he : e = id <;> simp [he]

/-! ## Destruction -/

/-- What destruction does: a live `id` becomes the last of the free queue and loses its
name. -/
structure Destroyed (t : EntityTable) (id : EntityId) (t' : EntityTable) : Prop where
  alive : ∃ s, t.signature? id = some s
  signature? : ∀ e, t'.signature? e = if e = id then none else t.signature? e
  name? : ∀ e, t'.name? e = if e = id then none else t.name? e
  byName? : ∀ n, t'.byName? n = if t.name? id = some n then none else t.byName? n
  size : t'.signatures.size = t.signatures.size
  nextFresh : t'.nextFresh = t.nextFresh
  available : t'.available = t.available ++ [id]
  limit : t'.limit = t.limit
  living : t'.living = t.living - 1

/-- Taking the name of `id` away changes only the lookups by name. -/
theorem clearName_lookups (t : EntityTable) (id : EntityId) :
    (∃ names ids, t.clearName id = { t with nameOfId := names, idOfName := ids }) ∧
    (∀ e, (t.clearName id).name? e = if e = id then none else t.name? e) ∧
    ∀ n, (t.clearName id).byName? n = if t.name? id = some n then none else t.byName? n := by
  unfold clearName
  split
  · next hn =>
    refine ⟨⟨_, _, rfl⟩, fun e => ?_, fun n => by simp [name?, hn]⟩
    by_cases he : e = id
    · subst he; simpa [name?] using hn
    · simp [he]
  · next name hn =>
    refine ⟨⟨_, _, rfl⟩, fun e => ?_, fun n => ?_⟩
    · simp [name?, Std.TreeMap.getElem?_erase, eq_comm (a := e)]
    · simp [name?, byName?, Std.TreeMap.getElem?_erase, hn]

/-- A destruction fails only for an id that is not live, and then leaves the table as it
is. -/
theorem destroyEntity_cases (t : EntityTable) (id : EntityId) :
    (t.signature? id = none ∧ destroyEntity id t = .error (.entityNotAlive id) t) ∨
    ∃ t', destroyEntity id t = .ok () t' ∧ Destroyed t id t' := by
  cases hs : t.signature? id with
  | none => exact .inl ⟨rfl, by simp [destroyEntity, isAlive, hs]⟩
  | some s =>
    have hlt := lt_of_signature? hs
    let t₁ := { t with signatures := t.signatures.setIfInBounds id none }
    obtain ⟨⟨names, ids, heq⟩, hname, hby⟩ := clearName_lookups t₁ id
    refine .inr ⟨{ t₁.clearName id with
      available := (t₁.clearName id).available ++ [id], living := (t₁.clearName id).living - 1 },
      by simp [destroyEntity, isAlive, hs, t₁], ?_⟩
    rw [heq] at hname hby ⊢
    exact {
      alive := ⟨s, hs⟩
      signature? := join_getElem?_setIfInBounds hlt none
      name? := hname
      byName? := hby
      size := Array.size_setIfInBounds
      nextFresh := rfl
      available := rfl
      limit := rfl
      living := rfl }

theorem destroy_cases (t : EntityTable) (id : EntityId) :
    (t.signature? id = none ∧ t.destroy id = .error (.entityNotAlive id)) ∨
    ∃ t', t.destroy id = .ok t' ∧ Destroyed t id t' := by
  unfold destroy Change.outcome
  rcases destroyEntity_cases t id with ⟨hs, hd⟩ | ⟨t', hd, hds⟩ <;> rw [hd]
  · exact .inl ⟨hs, rfl⟩
  · exact .inr ⟨t', rfl, hds⟩

theorem Destroyed.sound (hd : Destroyed t id t') (h : t.Sound) : t'.Sound where
  size := by rw [hd.size, hd.nextFresh, h.size]
  fresh_le := by rw [hd.nextFresh, hd.limit]; exact h.fresh_le
  free_nodup := by
    obtain ⟨s, hs⟩ := hd.alive
    have hid : id ∉ t.available := fun hm => by simp [((h.mem_free id).mp hm).2] at hs
    rw [hd.available, List.nodup_append]
    refine ⟨h.free_nodup, by simp, ?_⟩
    intro a ha b hb hab
    rw [List.mem_singleton] at hb
    exact hid (hb ▸ hab ▸ ha)
  mem_free := by
    intro e
    obtain ⟨s, hs⟩ := hd.alive
    have hlt : id < t.nextFresh := h.size ▸ lt_of_signature? hs
    rw [hd.available, List.mem_append, List.mem_singleton, hd.nextFresh, hd.signature? e, h.mem_free e]
    by_cases he : e = id
    · simp [he, hlt]
    · simp [he]
  named_alive := by
    intro e n hn
    rw [hd.name? e] at hn
    by_cases he : e = id
    · simp [he] at hn
    · rw [if_neg he] at hn
      rw [isAlive_iff, hd.signature? e, if_neg he]
      exact isAlive_iff.mp (h.named_alive e n hn)
  name_iff := by
    intro e n
    rw [hd.name? e, hd.byName? n]
    by_cases he : e = id
    · subst he
      by_cases hn : t.name? e = some n
      · simp [hn]
      · simpa [hn] using fun hb => hn ((h.name_iff e n).mpr hb)
    · by_cases hn : t.name? id = some n
      · have hb := (h.name_iff id n).mp hn
        have hne : t.name? e ≠ some n := fun hx => by
          have := (h.name_iff e n).mp hx
          rw [hb, Option.some.injEq] at this
          exact he this.symm
        simpa [he, hn] using hne
      · simpa [he, hn] using h.name_iff e n
  living := by
    have hmem : id ∈ t.livingEntities.map Prod.fst := mem_livingIds.mpr hd.alive
    rw [hd.living, h.living, ← length_livingIds t,
      ← List.length_erase_of_mem hmem]
    symm
    refine livingEntities_length_of_perm ((livingEntities_nodup t).erase id) fun e => ?_
    rw [hd.signature? e, (livingEntities_nodup t).mem_erase_iff, mem_livingIds]
    by_cases he : e = id <;> simp [he]

/-! ## Replacing a signature -/

/-- What the replacement of a signature does: nothing but that. -/
structure Resigned (t : EntityTable) (id : EntityId) (s : Signature) (t' : EntityTable) : Prop where
  alive : ∃ s, t.signature? id = some s
  signature? : ∀ e, t'.signature? e = if e = id then some s else t.signature? e
  eq : ∃ signatures, t' = { t with signatures } ∧ signatures.size = t.signatures.size

theorem changeSignature_cases (t : EntityTable) (id : EntityId) (s : Signature) :
    (t.signature? id = none ∧ changeSignature id s t = .error (.entityNotAlive id) t) ∨
    ∃ t', changeSignature id s t = .ok () t' ∧ Resigned t id s t' := by
  cases hs : t.signature? id with
  | none => exact .inl ⟨rfl, by simp [changeSignature, isAlive, hs]⟩
  | some s₀ =>
    refine .inr ⟨{ t with signatures := t.signatures.setIfInBounds id (some s) },
      by simp [changeSignature, isAlive, hs], ⟨s₀, hs⟩, ?_, _, rfl, ?_⟩
    · exact join_getElem?_setIfInBounds (lt_of_signature? hs) (some s)
    · exact Array.size_setIfInBounds

theorem setSignature_cases (t : EntityTable) (id : EntityId) (s : Signature) :
    (t.signature? id = none ∧ t.setSignature id s = .error (.entityNotAlive id)) ∨
    ∃ t', t.setSignature id s = .ok t' ∧ Resigned t id s t' := by
  unfold setSignature Change.outcome
  rcases changeSignature_cases t id s with ⟨hs, hc⟩ | ⟨t', hc, hr⟩ <;> rw [hc]
  · exact .inl ⟨hs, rfl⟩
  · exact .inr ⟨t', rfl, hr⟩

theorem Resigned.sound {s : Signature} (hr : Resigned t id s t') (h : t.Sound) : t'.Sound := by
  obtain ⟨s₀, hs₀⟩ := hr.alive
  have hsome : ∀ e, (∃ s, t'.signature? e = some s) ↔ ∃ s, t.signature? e = some s := by
    intro e
    rw [hr.signature? e]
    by_cases he : e = id
    · simp [he, hs₀]
    · simp [he]
  have hnone : ∀ e, t'.signature? e = none ↔ t.signature? e = none := by
    intro e
    have := hsome e
    cases h₁ : t'.signature? e <;> cases h₂ : t.signature? e <;> simp_all
  have hliving : t'.livingEntities.length = t.livingEntities.length := by
    rw [← length_livingIds t]
    refine livingEntities_length_of_perm (livingEntities_nodup t) fun e => ?_
    rw [hsome, mem_livingIds]
  obtain ⟨signatures, rfl, hsize⟩ := hr.eq
  exact {
    size := by rw [hsize]; exact h.size
    fresh_le := h.fresh_le
    free_nodup := h.free_nodup
    mem_free := fun e => by rw [hnone]; exact h.mem_free e
    named_alive := fun e n hn => by
      rw [isAlive_iff, hsome]
      exact isAlive_iff.mp (h.named_alive e n hn)
    name_iff := h.name_iff
    living := by rw [hliving]; exact h.living }

end EntityTable

end SceneEngine
