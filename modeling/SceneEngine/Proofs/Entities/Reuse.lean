/-
Handing out ids over whole runs.

A run is any series of creations, destructions and changes of signatures. Each of them
may fail, and one that fails leaves the table as it was. In every table a run can lead to,
the free queue, the slots and the two counters tell the same story (`reachable_allocation`).

A freed id waits behind the ids never used and those freed before it, and nothing is ever
put ahead of it. So how many ids are handed out before it comes back is settled the moment
it is freed, whatever happens afterward (`reuse_distance`).
-/
import Mathlib.Data.List.Nodup
import SceneEngine.Proofs.Entities

namespace SceneEngine.EntityTable

variable {t t' : EntityTable} {e id : EntityId} {capacity n : Nat}

/-! ## Runs -/

/-- An operation that can change a table. -/
inductive Operation where
  | create (name : Option String)
  | destroy (id : EntityId)
  | setSignature (id : EntityId) (s : Signature)

/-- The table an operation leaves. -/
def after (t : EntityTable) : Operation → EntityTable
  | .create name => (t.create name).toOption.elim t Prod.snd
  | .destroy id => (t.destroy id).toOption.getD t
  | .setSignature id s => (t.setSignature id s).toOption.getD t

/-- The id an operation hands out: that of a creation that succeeds. -/
def handsOut? (t : EntityTable) : Operation → Option EntityId
  | .create name => (t.create name).toOption.map Prod.fst
  | _ => none

/-- The table a series of operations leaves. -/
def play (t : EntityTable) (run : List Operation) : EntityTable := run.foldl after t

/-- The ids a series of operations hands out, in their order. -/
def handedOut (t : EntityTable) : List Operation → List EntityId
  | [] => []
  | op :: rest => (t.handsOut? op).toList ++ (t.after op).handedOut rest

/-- The tables that come of a new one for `capacity` entities. -/
inductive Reachable (capacity : Nat) : EntityTable → Prop
  | new {t : EntityTable} : EntityTable.new capacity = .ok t → Reachable capacity t
  | after {t : EntityTable} (op : Operation) : Reachable capacity t → Reachable capacity (t.after op)

/-- What an operation can do to a table. -/
theorem after_cases (h : t.Sound) (op : Operation) :
    (∃ name id, t.handsOut? op = some id ∧ Created t name id (t.after op)) ∨
    (t.handsOut? op = none ∧
      (t.after op = t ∨ (∃ id, Destroyed t id (t.after op)) ∨
        ∃ id s, Resigned t id s (t.after op))) := by
  cases op with
  | create name =>
    rcases create_cases h name with ⟨_, _, _, hc⟩ | ⟨_, _, _, hc⟩ | ⟨id, t', hc, hcr⟩
    · exact .inr ⟨by simp [handsOut?, hc, Except.toOption], .inl (by simp [after, hc, Except.toOption])⟩
    · exact .inr ⟨by simp [handsOut?, hc, Except.toOption], .inl (by simp [after, hc, Except.toOption])⟩
    · refine .inl ⟨name, id, by simp [handsOut?, hc, Except.toOption], ?_⟩
      simpa [after, hc, Except.toOption] using hcr
  | destroy id =>
    refine .inr ⟨rfl, ?_⟩
    rcases destroy_cases t id with ⟨_, hd⟩ | ⟨t', hd, hds⟩
    · exact .inl (by simp [after, hd, Except.toOption])
    · exact .inr (.inl ⟨id, by simpa [after, hd, Except.toOption] using hds⟩)
  | setSignature id s =>
    refine .inr ⟨rfl, ?_⟩
    rcases setSignature_cases t id s with ⟨_, hr⟩ | ⟨t', hr, hrs⟩
    · exact .inl (by simp [after, hr, Except.toOption])
    · exact .inr (.inr ⟨id, s, by simpa [after, hr, Except.toOption] using hrs⟩)

theorem Sound.after (h : t.Sound) (op : Operation) : (t.after op).Sound := by
  rcases after_cases h op with ⟨_, _, _, hc⟩ | ⟨_, heq | ⟨_, hd⟩ | ⟨_, _, hr⟩⟩
  · exact hc.sound h
  · rwa [heq]
  · exact hd.sound h
  · exact hr.sound h

theorem Sound.play (h : t.Sound) (run : List Operation) : (t.play run).Sound := by
  induction run generalizing t with
  | nil => exact h
  | cons op rest ih => exact ih (h.after op)

theorem Resigned.limit {s : Signature} (hr : Resigned t id s t') : t'.limit = t.limit := by
  obtain ⟨_, rfl, _⟩ := hr.eq
  rfl

theorem limit_after (h : t.Sound) (op : Operation) : (t.after op).limit = t.limit := by
  rcases after_cases h op with ⟨_, _, _, hc⟩ | ⟨_, heq | ⟨_, hd⟩ | ⟨_, _, hr⟩⟩
  · exact hc.limit
  · rw [heq]
  · exact hd.limit
  · exact hr.limit

theorem Reachable.sound (h : Reachable capacity t) :
    t.Sound ∧ t.limit = capacity ∧ capacity ≤ maxEntityId := by
  induction h with
  | new hnew =>
    unfold EntityTable.new at hnew
    split at hnew
    · cases hnew
    · next hmax =>
      cases hnew
      exact ⟨.withLimit capacity, rfl, by omega⟩
  | after op _ ih =>
    obtain ⟨hs, hlimit, hmax⟩ := ih
    exact ⟨hs.after op, (limit_after hs op).trans hlimit, hmax⟩

/-! ## Counting -/

/-- Ids handed out so far are free or live, and no id is both. -/
theorem Sound.ids_perm (h : t.Sound) :
    (t.available ++ t.livingEntities.map Prod.fst).Perm (List.range t.nextFresh) := by
  have hdisjoint : t.available.Disjoint (t.livingEntities.map Prod.fst) := by
    intro x hfree hlive
    obtain ⟨_, hs⟩ := mem_livingIds.mp hlive
    simp [((h.mem_free x).mp hfree).2] at hs
  refine (List.perm_ext_iff_of_nodup (List.Nodup.append h.free_nodup (livingEntities_nodup t) hdisjoint)
    List.nodup_range).mpr fun x => ?_
  rw [List.mem_append, h.mem_free, mem_livingIds, List.mem_range]
  cases hs : t.signature? x with
  | none => simp
  | some s => simpa [h.size] using lt_of_signature? hs

theorem Sound.length_available (h : t.Sound) : t.available.length + t.living = t.nextFresh := by
  have hlen := h.ids_perm.length_eq
  rwa [List.length_append, List.length_map, List.length_range, ← h.living] at hlen

/-- The slots in use are as many as there are live entities. -/
theorem length_livingEntities (t : EntityTable) :
    t.livingEntities.length = t.signatures.toList.countP Option.isSome := by
  have hslots : t.signatures.toList = (List.range t.signatures.size).map t.signature? := by
    refine List.ext_getElem (by simp) fun i hi _ => ?_
    simp only [Array.length_toList] at hi
    simp [signature?, hi]
  rw [livingEntities, hslots, List.length_filterMap_eq_countP, List.countP_map]
  exact List.countP_congr fun i _ => by simp

/-! ## Waiting -/

/-- `n` ids will be handed out before `e`, which is free: those never used, and those
ahead of it in the queue. -/
def Waits (t : EntityTable) (e : EntityId) (n : Nat) : Prop :=
  ∃ ahead behind, t.available = ahead ++ e :: behind ∧ n = t.limit - t.nextFresh + ahead.length

theorem Waits.mem_available (hw : t.Waits e n) : e ∈ t.available := by
  obtain ⟨ahead, behind, ha, _⟩ := hw
  simp [ha]

/-- A freed id waits for all that is free besides it. -/
theorem Destroyed.waits (hd : Destroyed t e t') (h : t.Sound) :
    t'.Waits e (t.limit - t.living) := by
  refine ⟨t.available, [], hd.available, ?_⟩
  rw [hd.limit, hd.nextFresh]
  have hlen := h.length_available
  have hle := h.fresh_le
  omega

/-- One creation: an id that waits for none is handed out, any other is not and waits for
one less. -/
theorem Waits.created {name : Option String} (hw : t.Waits e n) (h : t.Sound)
    (hc : Created t name id t') :
    (n = 0 ∧ id = e) ∨ ∃ m, n = m + 1 ∧ id ≠ e ∧ t'.Waits e m := by
  obtain ⟨ahead, behind, ha, rfl⟩ := hw
  rcases hc.supplies with ⟨hlt, rfl, hfresh, hsame⟩ | ⟨hge, hpop, hfresh⟩
  · -- An id never used: the queue stays, and there is one fewer of these.
    have hused : e < t.nextFresh := ((h.mem_free e).mp (by simp [ha])).1
    refine .inr ⟨t.limit - t'.nextFresh + ahead.length, by omega, Nat.ne_of_gt hused, ahead, behind,
      ?_, ?_⟩
    · rw [hsame, ha]
    · rw [hc.limit]
  · rw [hpop] at ha
    cases ahead with
    | nil =>
      cases ha
      exact .inl ⟨by simp; omega, rfl⟩
    | cons first rest =>
      obtain ⟨rfl, hrest⟩ := List.cons_eq_cons.mp ha
      -- The queue holds `e` once, so the id taken from its front is another.
      have hne : id ≠ e := by
        rintro rfl
        have hnd := h.free_nodup
        rw [hpop, hrest] at hnd
        simp at hnd
      refine .inr ⟨t.limit - t'.nextFresh + rest.length, ?_, hne, rest, behind, hrest, by rw [hc.limit]⟩
      simp only [List.length_cons]
      omega

/-- An operation that hands out nothing changes no waiting. -/
theorem Waits.of_handsOut?_eq_none (hw : t.Waits e n) (h : t.Sound) {op : Operation}
    (hop : t.handsOut? op = none) : (t.after op).Waits e n := by
  obtain ⟨ahead, behind, ha, hn⟩ := hw
  rcases after_cases h op with ⟨_, _, hsome, _⟩ | ⟨_, heq | ⟨x, hd⟩ | ⟨_, _, hr⟩⟩
  · simp [hop] at hsome
  · rw [heq]
    exact ⟨ahead, behind, ha, hn⟩
  · refine ⟨ahead, behind ++ [x], ?_, ?_⟩
    · rw [hd.available, ha, List.append_assoc, List.cons_append]
    · rw [hd.limit, hd.nextFresh]
      exact hn
  · obtain ⟨_, heq, _⟩ := hr.eq
    rw [heq]
    exact ⟨ahead, behind, ha, hn⟩

/-- Over a whole run `e` is not among the first `n` ids handed out and is the next after
them. -/
theorem Waits.handedOut (hw : t.Waits e n) (h : t.Sound) (run : List Operation) {i : Nat}
    (hi : (t.handedOut run)[i]? = some id) (hle : i ≤ n) : id = e ↔ i = n := by
  induction run generalizing t n i with
  | nil => simp [EntityTable.handedOut] at hi
  | cons op rest ih =>
    rw [EntityTable.handedOut] at hi
    rcases after_cases h op with ⟨name, first, hfirst, hc⟩ | ⟨hnone, _⟩
    · rw [hfirst, Option.toList_some, List.singleton_append] at hi
      rcases hw.created h hc with ⟨rfl, rfl⟩ | ⟨m, rfl, hne, hm⟩
      · obtain rfl : i = 0 := by omega
        simp_all
      · cases i with
        | zero =>
          obtain rfl : first = id := by simpa using hi
          simpa using hne
        | succ j =>
          rw [List.getElem?_cons_succ] at hi
          rw [ih hm (h.after op) hi (by omega), Nat.succ_inj]
    · rw [hnone, Option.toList_none, List.nil_append] at hi
      exact ih (hw.of_handsOut?_eq_none h hnone) (h.after op) hi hle

/-- After a run that handed out no more than `n` ids, `e` waits for the others. -/
theorem Waits.play (hw : t.Waits e n) (h : t.Sound) (run : List Operation)
    (hlen : (t.handedOut run).length ≤ n) : (t.play run).Waits e (n - (t.handedOut run).length) := by
  induction run generalizing t n with
  | nil => simpa [EntityTable.handedOut, EntityTable.play] using hw
  | cons op rest ih =>
    rw [EntityTable.handedOut] at hlen ⊢
    rcases after_cases h op with ⟨name, first, hfirst, hc⟩ | ⟨hnone, _⟩
    · simp only [hfirst, Option.toList_some, List.singleton_append, List.length_cons] at hlen ⊢
      rcases hw.created h hc with ⟨rfl, rfl⟩ | ⟨m, rfl, _, hm⟩
      · omega
      · have := ih hm (h.after op) (by omega)
        rwa [Nat.add_sub_add_right]
    · simp only [hnone, Option.toList_none, List.nil_append] at hlen ⊢
      exact ih (hw.of_handsOut?_eq_none h hnone) (h.after op) hlen

/-- An id that waits for none is what the next creation hands out, unless its name is
taken. -/
theorem Waits.create (hw : t.Waits e 0) (h : t.Sound) {name : Option String}
    (hname : t.isTaken name = false) : ∃ t', t.create name = .ok (e, t') := by
  rcases create_cases h name with ⟨_, _, htaken, _⟩ | ⟨_, _, hempty, _⟩ | ⟨id, t', hok, hc⟩
  · simp [hname] at htaken
  · simpa [hempty] using hw.mem_available
  · rcases hw.created h hc with ⟨_, rfl⟩ | ⟨m, hm, _⟩
    · exact ⟨t', hok⟩
    · omega

/-! ## Every reachable table -/

/-- There is no id left when every entity there is room for is live. -/
theorem Sound.living_eq_limit_iff (h : t.Sound) :
    t.living = t.limit ↔ t.limit ≤ t.nextFresh ∧ t.available = [] := by
  have hlen := h.length_available
  have hle := h.fresh_le
  rw [← List.length_eq_zero_iff]
  omega

theorem Sound.create_full_iff (h : t.Sound) {name : Option String} :
    t.create name = .error (.entityCapacityExceeded n) ↔
      n = t.limit ∧ t.isTaken name = false ∧ t.living = t.limit := by
  rw [h.living_eq_limit_iff]
  rcases create_cases h name with
    ⟨_, _, htaken, hc⟩ | ⟨htaken, hfull, hempty, hc⟩ | ⟨id, t', hc, hcr⟩
  · simp [hc, htaken]
  · simp [hc, htaken, hfull, hempty, eq_comm]
  · simp only [hc, reduceCtorEq, false_iff, not_and]
    rintro - - hfull hempty
    -- A creation took its id from one of the two places.
    rcases hcr.supplies with ⟨hlt, _⟩ | ⟨_, hpop, _⟩
    · omega
    · simp [hempty] at hpop

theorem Sound.mem_available_iff (h : t.Sound) :
    e ∈ t.available ↔ e < t.nextFresh ∧ t.signatures[e]? = some none := by
  rw [h.mem_free, signature?]
  refine and_congr_right fun hlt => ?_
  rw [← h.size] at hlt
  simp [hlt]

theorem Sound.lt_size_of_allocate (h : t.Sound) (ha : allocate t = .ok id t') :
    id < t'.signatures.size := by
  rcases allocate_cases h with ⟨_, _, hnone⟩ | ⟨id', t'', hsome, hal⟩
  · simp [hnone] at ha
  · rw [hsome] at ha
    cases ha
    exact hal.lt_size

theorem Sound.create_fresh (h : t.Sound) {name : Option String} (hok : t.create name = .ok (id, t')) :
    t.isAlive id = false ∧ t'.isAlive id = true := by
  rcases create_cases h name with ⟨_, _, _, hc⟩ | ⟨_, _, _, hc⟩ | ⟨id', t'', hc, hcr⟩ <;>
    rw [hc] at hok <;> cases hok
  exact ⟨by simp [isAlive, hcr.free], by simp [isAlive, hcr.signature?]⟩

/-- **The records of a table agree.** In every table that comes of a new one for `capacity`
entities there are as many slots as ids handed out, no more than `capacity` and so no more than
there are ids. The queue has each free slot once; the counter of live entities counts the
slots in use, which are what is listed as live. No slot outside of the table is written: a
creation writes that of an id with a slot, a destruction that of a live one. A creation
fails for want of room exactly when its name is not taken and `capacity` entities are live, and
an id it hands out is not live before. -/
theorem reachable_allocation (h : Reachable capacity t) :
    t.signatures.size = t.nextFresh ∧ t.nextFresh ≤ capacity ∧ capacity ≤ maxEntityId ∧
    t.available.Nodup ∧
    (∀ e, e ∈ t.available ↔ e < t.nextFresh ∧ t.signatures[e]? = some none) ∧
    t.living = t.signatures.toList.countP Option.isSome ∧ t.living = t.livingEntities.length ∧
    (∀ id t', allocate t = .ok id t' → id < t'.signatures.size) ∧
    (∀ id, t.isAlive id = true → id < t.signatures.size) ∧
    (∀ name n, t.create name = .error (.entityCapacityExceeded n) ↔
      n = capacity ∧ t.isTaken name = false ∧ t.living = capacity) ∧
    ∀ name id t', t.create name = .ok (id, t') → t.isAlive id = false ∧ t'.isAlive id = true := by
  obtain ⟨hs, rfl, hmax⟩ := h.sound
  refine ⟨hs.size, hs.fresh_le, hmax, hs.free_nodup, fun e => hs.mem_available_iff,
    hs.living.trans (length_livingEntities t), hs.living, fun id t' => hs.lt_size_of_allocate,
    fun id halive => ?_, fun name n => hs.create_full_iff, fun name id t' => hs.create_fresh⟩
  obtain ⟨_, hsig⟩ := isAlive_iff.mp halive
  exact lt_of_signature? hsig

/-- A full table one entity of which is destroyed, and destroyed again. -/
theorem reachable_allocation_double_destroy :
    ∃ t : EntityTable, Reachable 2 t ∧ t.nextFresh = 2 ∧ t.available = [0] ∧ t.living = 1 ∧
      t.signatures.toList.countP Option.isSome = 1 ∧ t.isTaken (some "a") = true ∧
      t.create none ≠ .error (.entityCapacityExceeded 2) := by
  let t₀ := withLimit 2
  let t₁ := t₀.after (.create none)
  let t₂ := t₁.after (.create (some "a"))
  let t₃ := t₂.after (.destroy 0)
  let t₄ := t₃.after (.destroy 0)
  have hnew : EntityTable.new 2 = .ok t₀ := rfl
  have hreach : Reachable 2 t₄ := .after _ (.after _ (.after _ (.after _ (.new hnew))))
  have hliving : t₄.living = 1 := by decide +kernel
  obtain ⟨_, _, _, _, _, hslots, _, _, _, hfull, _⟩ := reachable_allocation hreach
  refine ⟨t₄, hreach, by decide +kernel, by decide +kernel, hliving, hslots ▸ hliving,
    by decide +kernel, fun hc => ?_⟩
  have := ((hfull none 2).mp hc).2.2
  omega

/-- **How far off reuse is.** When an id is freed while `t.livingEntities.length` entities are
live, itself among them, the ids handed out afterward come in a fixed order around it: as
many as there was room for then are others, and the next is this one, whatever else is
created, fails to be created or is destroyed in between. It can be had, too: once the
others are handed out, any creation whose name is not taken hands it out. -/
theorem reuse_distance (h : Reachable capacity t) (hd : t.destroy e = .ok t') (run : List Operation) :
    (∀ i id, (t'.handedOut run)[i]? = some id → i ≤ capacity - t.livingEntities.length →
      (id = e ↔ i = capacity - t.livingEntities.length)) ∧
    ((t'.handedOut run).length = capacity - t.livingEntities.length →
      ∀ name, (t'.play run).isTaken name = false →
        ∃ t'', (t'.play run).create name = .ok (e, t'')) := by
  obtain ⟨hs, rfl, _⟩ := h.sound
  rcases destroy_cases t e with ⟨_, hfail⟩ | ⟨t₁, hok, hds⟩
  · simp [hfail] at hd
  · rw [hok] at hd
    cases hd
    rw [← hs.living]
    have hw := hds.waits hs
    have hs' := hds.sound hs
    refine ⟨fun i id hi hle => hw.handedOut hs' run hi hle, fun hlen name hname => ?_⟩
    have hnext := hw.play hs' run (Nat.le_of_eq hlen)
    rw [hlen, Nat.sub_self] at hnext
    exact hnext.create (hs'.play run) hname

/-- Room for three, two of them live when the first is destroyed: one other id comes before
it, although a creation fails and another entity is destroyed meanwhile. -/
theorem reuse_distance_two_live :
    ∃ (t t' : EntityTable) (run : List Operation), Reachable 3 t ∧ t.livingEntities.length = 2 ∧
      t.destroy 0 = .ok t' ∧ t'.handedOut run = [2, 0, 1] ∧
      (∀ i id, [2, 0, 1][i]? = some id → i ≤ 1 → (id = 0 ↔ i = 1)) := by
  let t₀ := withLimit 3
  let t₁ := t₀.after (.create (some "a"))
  let t₂ := t₁.after (.create (some "b"))
  let t₃ := t₂.after (.destroy 0)
  let run : List Operation :=
    [.create (some "b"), .create none, .destroy 1, .create (some "b"), .create none]
  have hnew : EntityTable.new 3 = .ok t₀ := rfl
  have hreach : Reachable 3 t₂ := .after _ (.after _ (.new hnew))
  have hlive : t₂.livingEntities.length = 2 := by decide +kernel
  have hids : t₃.handedOut run = [2, 0, 1] := by decide +kernel
  rcases destroy_cases t₂ 0 with ⟨hdead, _⟩ | ⟨t', hd, _⟩
  · have halive : t₂.isAlive 0 = true := by decide +kernel
    simp [isAlive, hdead] at halive
  · have ht' : t₃ = t' := by simp [t₃, after, hd, Except.toOption]
    have hdist := (reuse_distance hreach hd run).1
    rw [hlive, ← ht', hids] at hdist
    exact ⟨t₂, t', run, hreach, hlive, hd, ht' ▸ hids, hdist⟩

end SceneEngine.EntityTable
