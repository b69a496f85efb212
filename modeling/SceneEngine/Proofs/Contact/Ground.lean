/-
What it takes to be on the ground.

A body is on the ground when it was blocked on the Y axis by something that begins below it.
Several bodies may be in the way on one axis, and what is known of the axis is then whether any
of them blocks it, but not whether any of them begins below: each overwrites what was said of
the one before (`fromBelow_meet`), so that the last of them decides, which has the highest id.

Where all that are in the way agree, it makes no difference which of them is the last, and a
renumbering of the members changes nothing (`onGround_as_specified`). Where they do not agree,
ids decide (`onGround_told_by_ids`).
-/
import SceneEngine.Proofs.Contact.Report

namespace SceneEngine.Contact

/-! ## The last in the way -/

section Bodies

variable {n : Nat} {bodies : Vector Solid n} {i : Fin n}

/-- Whether `other` begins below `mover`, moved along axis `k` only. -/
def beginsBelow (mover other : Solid) (k : Fin 3) : Bool :=
  decide (other.current.lower[k] < (mover.alongAxis k).lower[k])

theorem fromBelow_meet (mover other : Solid) (c : AxisContacts) (k : Fin 3) :
    (meet mover other c).fromBelow[k] =
      if blocks mover other k then beginsBelow mover other k else c.fromBelow[k] := by
  simp [meet, beginsBelow]

/-- Of bodies in ascending order the last that blocks an axis decides. -/
theorem fromBelow_foldl (bodies : Vector Solid n) (mover : Solid) {l : List (Fin n)}
    (hl : l.Pairwise (· < ·)) (k : Fin 3) :
    (l.foldl (fun c j => meet mover (bodies.get j) c) .none).fromBelow[k] = true ↔
      ∃ j ∈ l, blocks mover (bodies.get j) k = true ∧ beginsBelow mover (bodies.get j) k = true ∧
        ∀ j' ∈ l, blocks mover (bodies.get j') k = true → j' ≤ j := by
  -- From the end of the list, since it is the last body that counts.
  induction l using List.reverseRecOn with
  | nil => simp [AxisContacts.none, Vec.splat]
  | append_singleton rest last ih =>
    obtain ⟨hrest, _, hlt⟩ := List.pairwise_append.mp hl
    have hbefore : ∀ j ∈ rest, j < last := fun j hj => hlt j hj last (by simp)
    rw [List.foldl_append, List.foldl_cons, List.foldl_nil, fromBelow_meet]
    split
    · next hblocks =>
      constructor
      · intro hbelow
        refine ⟨last, by simp, hblocks, hbelow, fun j hj _ => ?_⟩
        rcases List.mem_append.mp hj with hj | hj
        · exact (hbefore j hj).le
        · exact (List.mem_singleton.mp hj).le
      · intro h
        obtain ⟨j, hj, _, hbelow, hmax⟩ := h
        have hle : last ≤ j := hmax last (by simp) hblocks
        rcases List.mem_append.mp hj with hj | hj
        · exact absurd (hbefore j hj) (by omega)
        · rwa [List.mem_singleton.mp hj] at hbelow
    · next hblocks =>
      rw [ih hrest]
      simp only [List.mem_append, List.mem_singleton]
      grind

/-- A body is on the ground when the last that blocks it on the Y axis begins below it. -/
theorem onGround_contactsOf (h : ∀ i, (bodies.get i).Placed) (hdyn : (bodies.get i).dynamic = true) :
    (contactsOf bodies (candidatePairs bodies) i).onGround = true ↔
      ∃ j, j ≠ i ∧ blocks (bodies.get i) (bodies.get j) 1 = true ∧
        beginsBelow (bodies.get i) (bodies.get j) 1 = true ∧
        ∀ j', j' ≠ i → blocks (bodies.get i) (bodies.get j') 1 = true → j' ≤ j := by
  have hblocked : (contactsOf bodies (candidatePairs bodies) i).blocked[(1 : Fin 3)] = true ↔ _ :=
    blocked_iff h hdyn
  have hpartners : ((allPairs bodies).filterMap (partner i)).Pairwise (· < ·) := partners_pairwise
  have hbelow := fromBelow_foldl bodies (bodies.get i) hpartners 1
  simp only [mem_partners] at hbelow
  rw [← contactsOf_eq_foldl hdyn, ← contactsOf_filter h,
    ← candidatePairs_eq_filter fun i => (h i).forward] at hbelow
  rw [AxisContacts.onGround, Bool.and_eq_true]
  constructor
  · intro hon
    exact hbelow.mp hon.2
  · intro hlast
    refine ⟨hblocked.mpr ?_, hbelow.mpr hlast⟩
    obtain ⟨j, hj, hblocks, _⟩ := hlast
    exact ⟨j, hj, hblocks⟩

end Bodies

/-! ## In terms of the world -/

variable {w w' v : World} {id jd : SystemId} {e f : EntityId} {c : Collider} {t : Transform F32}
  {b : Body} {k : Fin 3} {bounds : Box F32} {q p : Vec F32 3}

/-- The member `f` begins below a body, if that is moved from `q` along axis `k` alone to where
it is at `p`. -/
def BeginsBelow (w : World) (id : SystemId) (bounds : Box F32) (q p : Vec F32 3) (k : Fin 3)
    (f : EntityId) : Prop :=
  ∃ box, Stands w id f box ∧ box.lower[k] < (bounds.translate (q.set k p[k])).lower[k]

/-- Of the members in the way on axis `k`, `f` is the one with the highest id. -/
def LastInTheWay (w : World) (id : SystemId) (e : EntityId) (bounds : Box F32) (q p : Vec F32 3)
    (k : Fin 3) (f : EntityId) : Prop :=
  InTheWay w id e bounds q p k f ∧ ∀ g, InTheWay w id e bounds q p k g → g ≤ f

/-- The members in the way on axis `k` all begin below, or none of them does. -/
def Agree (w : World) (id : SystemId) (e : EntityId) (bounds : Box F32) (q p : Vec F32 3)
    (k : Fin 3) : Prop :=
  ∀ f g, InTheWay w id e bounds q p k f → InTheWay w id e bounds q p k g →
    BeginsBelow w id bounds q p k f → BeginsBelow w id bounds q p k g

/-- The members of `w` stand in `v` where they stand in `w`, under the ids that `σ` gives. -/
def Renumbered (σ : Equiv.Perm EntityId) (w : World) (id : SystemId) (v : World) (jd : SystemId) :
    Prop :=
  ∀ f box, Stands v jd (σ f) box ↔ Stands w id f box

section Renumbered

variable {σ : Equiv.Perm EntityId}

theorem Renumbered.inTheWay_iff (h : Renumbered σ w id v jd) :
    InTheWay v jd (σ e) bounds q p k (σ f) ↔ InTheWay w id e bounds q p k f := by
  simp only [InTheWay, h f, ne_eq, EmbeddingLike.apply_eq_iff_eq]

theorem Renumbered.beginsBelow_iff (h : Renumbered σ w id v jd) :
    BeginsBelow v jd bounds q p k (σ f) ↔ BeginsBelow w id bounds q p k f := by
  simp only [BeginsBelow, h f]

theorem Renumbered.agree (h : Renumbered σ w id v jd) (ha : Agree w id e bounds q p k) :
    Agree v jd (σ e) bounds q p k := by
  intro f g hf hg hbelow
  obtain ⟨f, rfl⟩ := σ.surjective f
  obtain ⟨g, rfl⟩ := σ.surjective g
  rw [h.inTheWay_iff] at hf hg
  rw [h.beginsBelow_iff] at hbelow ⊢
  exact ha f g hf hg hbelow

end Renumbered

/-- Where those in the way agree, the last of them stands for any. -/
theorem exists_lastInTheWay_iff (ha : Agree w id e bounds q p k)
    (hlast : ∀ f, InTheWay w id e bounds q p k f → ∃ g, LastInTheWay w id e bounds q p k g) :
    (∃ f, LastInTheWay w id e bounds q p k f ∧ BeginsBelow w id bounds q p k f) ↔
      ∃ f, InTheWay w id e bounds q p k f ∧ BeginsBelow w id bounds q p k f := by
  constructor
  · intro h
    obtain ⟨f, hf, hbelow⟩ := h
    exact ⟨f, hf.1, hbelow⟩
  · intro h
    obtain ⟨f, hf, hbelow⟩ := h
    obtain ⟨g, hg⟩ := hlast f hf
    exact ⟨g, hg, ha f g hf hg.1 hbelow⟩

section Snapshot

variable {ids : List EntityId} {solids : Array Solid} {i : Fin solids.size}

theorem Mover.beginsBelow_iff (h : Mover w id e c t b) (hg : Gathered w id ids solids)
    (hasc : StrictMono fun i => (solids.toVector.get i).entity)
    (hi : solids.toVector.get i = .ofComponents e c t (some b)) (j : Fin solids.size) :
    BeginsBelow w id c.bounds b.previousPosition t.position k (solids.toVector.get j).entity ↔
      beginsBelow (solids.toVector.get i) (solids.toVector.get j) k = true := by
  have hbelow : ∀ o, beginsBelow (solids.toVector.get i) o k = true ↔
      o.current.lower[k] < (c.bounds.translate (b.previousPosition.set k t.position[k])).lower[k] := by
    intro o
    simp [hi, beginsBelow, Solid.alongAxis, Solid.ofComponents, h.loose]
  simp only [BeginsBelow, hg.stands_iff, hbelow]
  constructor
  · intro h
    obtain ⟨box, ⟨s, hs, hentity, rfl⟩, hlt⟩ := h
    obtain ⟨j', rfl⟩ := exists_get_of_mem hs
    rwa [hasc.injective hentity] at hlt
  · intro h
    exact ⟨_, ⟨_, Array.getElem_mem j.isLt, rfl, rfl⟩, h⟩

/-- Bodies come in the order of ids, so the last body in the way is the last member. -/
theorem Mover.lastInTheWay_iff (h : Mover w id e c t b) (hg : Gathered w id ids solids)
    (hasc : StrictMono fun i => (solids.toVector.get i).entity)
    (hi : solids.toVector.get i = .ofComponents e c t (some b)) :
    LastInTheWay w id e c.bounds b.previousPosition t.position k f ↔
      ∃ j, j ≠ i ∧ (solids.toVector.get j).entity = f ∧
        blocks (solids.toVector.get i) (solids.toVector.get j) k = true ∧
        ∀ j', j' ≠ i → blocks (solids.toVector.get i) (solids.toVector.get j') k = true → j' ≤ j := by
  simp only [LastInTheWay, h.inTheWay_iff hg hasc hi]
  constructor
  · intro hlast
    obtain ⟨⟨j, hj, rfl, hblocks⟩, hmax⟩ := hlast
    exact ⟨j, hj, rfl, hblocks, fun j' hj' hblocks' =>
      hasc.le_iff_le.mp (hmax _ ⟨j', hj', rfl, hblocks'⟩)⟩
  · intro hlast
    obtain ⟨j, hj, rfl, hblocks, hmax⟩ := hlast
    refine ⟨⟨j, hj, rfl, hblocks⟩, fun g hg => ?_⟩
    obtain ⟨j', hj', rfl, hblocks'⟩ := hg
    exact hasc.monotone (hmax j' hj' hblocks')

theorem Mover.exists_lastInTheWay (h : Mover w id e c t b) (hg : Gathered w id ids solids)
    (hasc : StrictMono fun i => (solids.toVector.get i).entity)
    (hi : solids.toVector.get i = .ofComponents e c t (some b))
    (hf : InTheWay w id e c.bounds b.previousPosition t.position k f) :
    ∃ g, LastInTheWay w id e c.bounds b.previousPosition t.position k g := by
  simp only [h.lastInTheWay_iff hg hasc hi]
  obtain ⟨j, hj, _, hblocks⟩ := (h.inTheWay_iff hg hasc hi).mp hf
  let inTheWay := Finset.univ.filter fun j => j ≠ i ∧
    blocks (solids.toVector.get i) (solids.toVector.get j) k = true
  have hmem : ∀ j, j ∈ inTheWay ↔ j ≠ i ∧
      blocks (solids.toVector.get i) (solids.toVector.get j) k = true := fun j =>
    Finset.mem_filter.trans (and_iff_right (Finset.mem_univ j))
  obtain ⟨last, hlast, hmax⟩ := inTheWay.exists_max_image (fun j => j) ⟨j, (hmem j).mpr ⟨hj, hblocks⟩⟩
  obtain ⟨hne, hblocks⟩ := (hmem last).mp hlast
  exact ⟨_, last, hne, rfl, hblocks, fun j' hj' hb => hmax j' ((hmem j').mpr ⟨hj', hb⟩)⟩

/-- To be on the ground, in terms of the world. -/
theorem Mover.onGround_iff (h : Mover w id e c t b) (hg : Gathered w id ids solids)
    (hplaced : ∀ i, (solids.toVector.get i).Placed)
    (hasc : StrictMono fun i => (solids.toVector.get i).entity)
    (hi : solids.toVector.get i = .ofComponents e c t (some b)) :
    (contactsOf solids.toVector (candidatePairs solids.toVector) i).onGround = true ↔
      ∃ f, LastInTheWay w id e c.bounds b.previousPosition t.position 1 f ∧
        BeginsBelow w id c.bounds b.previousPosition t.position 1 f := by
  rw [onGround_contactsOf hplaced (h.dynamic hi)]
  simp only [h.lastInTheWay_iff hg hasc hi, ← h.beginsBelow_iff hg hasc hi]
  constructor
  · intro hlast
    obtain ⟨j, hj, hblocks, hbelow, hmax⟩ := hlast
    exact ⟨_, ⟨j, hj, rfl, hblocks, hmax⟩, hbelow⟩
  · intro hlast
    obtain ⟨_, ⟨j, hj, rfl, hblocks, hmax⟩, hbelow⟩ := hlast
    exact ⟨j, hj, hblocks, hbelow, hmax⟩

end Snapshot

/-! ## A step -/

/-- A step puts a mover on the ground when the last in its way on the Y axis begins below it. -/
theorem exists_step_onGround (hc : w.Coherent) (ha : w.Asks id required)
    (hnum : NumericBoxes w id) (m : ContactMemory) :
    ∃ w', step m id w = (m.observe (found w id), .ok () w') ∧ ∀ e c t b, Mover w id e c t b →
      (∀ f, InTheWay w id e c.bounds b.previousPosition t.position 1 f →
        ∃ g, LastInTheWay w id e c.bounds b.previousPosition t.position 1 g) ∧
      ∃ c', w'.get? .collider e = some c' ∧ (c'.report.onGround = true ↔
        ∃ f, LastInTheWay w id e c.bounds b.previousPosition t.position 1 f ∧
          BeginsBelow w id c.bounds b.previousPosition t.position 1 f) := by
  obtain ⟨solids, ids, hg, h, hplaced, hasc⟩ := exists_bodies hc ha hnum
  obtain ⟨w', hstep, _, hin, _⟩ := exists_step_reports hc hg m
  refine ⟨w', hstep, fun e c t b hmover => ?_⟩
  obtain ⟨i, hi⟩ := hmover.exists_solid h
  have hentity : (solids.toVector.get i).entity = e := by
    rw [hi]
    rfl
  have hget := hin i c (hentity ▸ hmover.collider)
  obtain ⟨_, hground, _, _⟩ := reportOn_of_dynamic (hmover.dynamic hi)
    (candidatePairs solids.toVector) c.report
  refine ⟨fun f hf => hmover.exists_lastInTheWay h hasc hi hf, _, hentity ▸ hget, ?_⟩
  rw [hground]
  exact hmover.onGround_iff h hplaced hasc hi

/-- **What is on the ground.** In a coherent world, as every world is that can be reached, and
as long as no box has a NaN, a step comes to its end, and a mover is on the ground if the last
of those in its way on the Y axis begins below it. Where those in the way agree on this, it is on
the ground if any of them begins below, and from a world where the members have other ids a step
finds the same. -/
theorem onGround_as_specified (hc : w.Coherent) (ha : w.Asks id required)
    (hnum : NumericBoxes w id) (m : ContactMemory) :
    ∃ w', step m id w = (m.observe (found w id), .ok () w') ∧
      ∀ e c t b, Mover w id e c t b → ∃ c', w'.get? .collider e = some c' ∧
        (c'.report.onGround = true ↔
          ∃ f, LastInTheWay w id e c.bounds b.previousPosition t.position 1 f ∧
            BeginsBelow w id c.bounds b.previousPosition t.position 1 f) ∧
        (Agree w id e c.bounds b.previousPosition t.position 1 →
          (c'.report.onGround = true ↔
            ∃ f, InTheWay w id e c.bounds b.previousPosition t.position 1 f ∧
              BeginsBelow w id c.bounds b.previousPosition t.position 1 f) ∧
          ∀ v jd σ d m₂, v.Coherent → v.Asks jd required → NumericBoxes v jd →
            Renumbered σ w id v jd → Mover v jd (σ e) d t b → d.bounds = c.bounds →
            ∃ v' d', step m₂ jd v = (m₂.observe (found v jd), .ok () v') ∧
              v'.get? .collider (σ e) = some d' ∧ d'.report.onGround = c'.report.onGround) := by
  obtain ⟨w', hstep, hw'⟩ := exists_step_onGround hc ha hnum m
  refine ⟨w', hstep, fun e c t b hmover => ?_⟩
  obtain ⟨hlast, c', hget, hground⟩ := hw' e c t b hmover
  refine ⟨c', hget, hground, fun hagree => ?_⟩
  have hany := hground.trans (exists_lastInTheWay_iff hagree hlast)
  refine ⟨hany, fun v jd σ d m₂ hcv hav hnumv hσ hmoverv hbounds => ?_⟩
  obtain ⟨v', hstepv, hv'⟩ := exists_step_onGround hcv hav hnumv m₂
  obtain ⟨hlastv, d', hgetv, hgroundv⟩ := hv' (σ e) d t b hmoverv
  refine ⟨v', d', hstepv, hgetv, ?_⟩
  rw [hbounds] at hlastv hgroundv
  have hanyv := hgroundv.trans (exists_lastInTheWay_iff (hσ.agree hagree) hlastv)
  have hsame : d'.report.onGround = true ↔ c'.report.onGround = true := by
    rw [hanyv, hany, ← σ.exists_congr_right]
    simp only [hσ.inTheWay_iff, hσ.beginsBelow_iff]
  exact Bool.eq_iff_iff.mpr hsame

/-! ## Cubes to fall on -/

theorem renumbered_of_gather {σ : Equiv.Perm EntityId} {solids others : Array Solid}
    (hw : gather w id = .ok solids) (hv : gather v jd = .ok others)
    (h : (others.toList.map fun s => (s.entity, s.current)).Perm
      (solids.toList.map fun s => (σ s.entity, s.current))) : Renumbered σ w id v jd := by
  obtain ⟨_, hgw⟩ := exists_gathered hw
  obtain ⟨_, hgv⟩ := exists_gathered hv
  intro f box
  rw [hgv.stands_iff, hgw.stands_iff]
  have hmem := h.mem_iff (a := (σ f, box))
  simpa using hmem

/-- At this height above the origin. -/
def atHeight (y : F32) : Transform F32 := .ofPosition (.of3 0 y 0)

/-- A body that was above two cubes, one on the other. -/
def faller : Body := { Body.immovable with fixed := false, previousPosition := .of3 0 (.ofNat 2) 0 }

/-- A cube that has come down to half its height. -/
def landed (e : EntityId) : Solid := .ofComponents e unitCube (atHeight Scalar.half) (some faller)

/-- A falling cube lands on one that stands still, whichever of them has the lower id. -/
theorem onGround_as_specified_landing :
    ∃ (w v w' v' : World) (m m' m₂ : ContactMemory) (c' d' : Collider),
      World.Reachable w ∧ World.Reachable v ∧ NumericBoxes w 0 ∧
      Renumbered (Equiv.swap 0 1) w 0 v 0 ∧ Mover w 0 0 unitCube (atHeight Scalar.half) faller ∧
      step m 0 w = (m', .ok () w') ∧ step m 0 v = (m₂, .ok () v') ∧
      w'.get? .collider 0 = some c' ∧ c'.report.onGround = true ∧
      v'.get? .collider 1 = some d' ∧ d'.report.onGround = true := by
  let w := twoCubes (atHeight Scalar.half) (atHeight 0) faller
  let v := (twoCubes (atHeight 0) (atHeight Scalar.half) .immovable).after
    (World.serve (.add .body 1 faller))
  let floor : Solid := .ofComponents 1 unitCube (atHeight 0) none
  let still : Solid := .ofComponents 0 unitCube (atHeight 0) (some .immovable)
  have hreach : World.Reachable w := reachable_twoCubes _ _ _
  have hreachv : World.Reachable v := .serve _ (reachable_twoCubes _ _ _)
  have hnum : NumericBoxes w 0 := by decide +kernel
  have hg : gather w 0 = .ok #[landed 0, floor] := eq_ok_of_toOption (by decide +kernel)
  have hgv : gather v 0 = .ok #[still, landed 1] := eq_ok_of_toOption (by decide +kernel)
  have hσ : Renumbered (Equiv.swap 0 1) w 0 v 0 := renumbered_of_gather hg hgv (by decide +kernel)
  have hmover : Mover w 0 0 unitCube (atHeight Scalar.half) faller :=
    ⟨⟨[0, 1], eq_ok_of_toOption (by decide +kernel), by simp⟩, by decide +kernel, rfl,
      by decide +kernel, by decide +kernel, rfl⟩
  have hmoverv : Mover v 0 1 unitCube (atHeight Scalar.half) faller :=
    ⟨⟨[0, 1], eq_ok_of_toOption (by decide +kernel), by simp⟩, by decide +kernel, rfl,
      by decide +kernel, by decide +kernel, rfl⟩
  obtain ⟨_, hgathered⟩ := exists_gathered hg
  -- Only the floor can be in the way, so there is no one it could disagree with.
  have hone : ∀ f, InTheWay w 0 0 unitCube.bounds faller.previousPosition
      (atHeight Scalar.half).position 1 f → f = 1 := by
    intro f hf
    obtain ⟨_, hne, _, hstands, _⟩ := hf
    obtain ⟨s, hs, rfl, _⟩ := hgathered.stands_iff.mp hstands
    have hs : s = landed 0 ∨ s = floor := by simpa using hs
    rcases hs with rfl | rfl
    · exact absurd rfl hne
    · rfl
  obtain ⟨w', hstep, hall⟩ :=
    onGround_as_specified hreach.coherent (by decide +kernel) hnum (.new .standard)
  obtain ⟨c', hget, _, hagreed⟩ := hall 0 _ _ _ hmover
  obtain ⟨hany, hrenumbered⟩ := hagreed fun f g hf hg hbelow => by rwa [hone g hg, ← hone f hf]
  have hground : c'.report.onGround = true := by
    have hstands : Stands w 0 1 floor.current := hgathered.stands_iff.mpr ⟨floor, by simp, rfl, rfl⟩
    refine hany.mpr ⟨1, ⟨by decide +kernel, by decide, _, hstands, by decide +kernel⟩, _, hstands, ?_⟩
    decide +kernel
  obtain ⟨v', d', hstepv, hgetv, hsame⟩ := hrenumbered v 0 (Equiv.swap 0 1) unitCube (.new .standard)
    hreachv.coherent (by decide +kernel) (by decide +kernel) hσ hmoverv rfl
  exact ⟨w, v, w', v', _, _, _, c', d', hreach, hreachv, hnum, hσ, hmover, hstep, hstepv, hget, hground,
    hgetv, hsame.trans hground⟩

/-- The body `0` that falls, and two cubes one on the other, with ids `1` and `2`. The lower of
them is the first, unless `upsideDown`. -/
def stack (upsideDown : Bool) : World :=
  addCube (twoCubes (atHeight Scalar.half) (atHeight (if upsideDown then 1 else 0)) faller) 2
    (atHeight (if upsideDown then 0 else 1))

theorem reachable_stack (upsideDown : Bool) : World.Reachable (stack upsideDown) :=
  reachable_addCube (reachable_twoCubes _ _ _) _ _

theorem numericBoxes_stack : ∀ upsideDown, NumericBoxes (stack upsideDown) 0 := by decide +kernel

theorem mover_stack (upsideDown : Bool) :
    Mover (stack upsideDown) 0 0 unitCube (atHeight Scalar.half) faller := by
  have hmembers : ((stack upsideDown).members 0).toOption = some [0, 1, 2] := by
    cases upsideDown <;> decide +kernel
  have hparts : (stack upsideDown).get? .collider 0 = some unitCube ∧
      (stack upsideDown).get? .transform 0 = some (atHeight Scalar.half) ∧
      (stack upsideDown).get? .body 0 = some faller := by
    cases upsideDown <;> decide +kernel
  obtain ⟨hcollider, htransform, hbody⟩ := hparts
  exact ⟨⟨_, eq_ok_of_toOption hmembers, by simp⟩, hcollider, rfl, htransform, hbody, rfl⟩

theorem gather_stack (upsideDown : Bool) : gather (stack upsideDown) 0 = .ok
    #[.ofComponents 0 unitCube (atHeight Scalar.half) (some faller),
      .ofComponents 1 unitCube (atHeight (if upsideDown then 1 else 0)) none,
      .ofComponents 2 unitCube (atHeight (if upsideDown then 0 else 1)) none] := by
  refine eq_ok_of_toOption ?_
  cases upsideDown <;> decide +kernel

theorem exists_step_stack (upsideDown : Bool) : ∃ (m' : ContactMemory) (w' : World) (c' : Collider),
    step (.new .standard) 0 (stack upsideDown) = (m', .ok () w') ∧
      w'.get? .collider 0 = some c' ∧ c'.report.onGround = upsideDown := by
  have hasks : (stack upsideDown).Asks 0 required := by cases upsideDown <;> decide +kernel
  have htold : ((worldAfter (.new .standard) 0 (stack upsideDown)).get? .collider 0).map
      (·.report.onGround) = some upsideDown := by
    cases upsideDown <;> decide +kernel
  obtain ⟨w', hstep, hall⟩ := exists_step_onGround (reachable_stack upsideDown).coherent hasks
    (numericBoxes_stack upsideDown) (.new .standard)
  obtain ⟨_, c', hget, _⟩ := hall 0 _ _ _ (mover_stack upsideDown)
  rw [worldAfter_eq hstep, hget] at htold
  exact ⟨_, w', c', hstep, hget, Option.some.inj htold⟩

/-- A body that falls on a stack of two cubes has both of them in its way, and the lower one
begins below it. It is on the ground if that is the one with the higher id, and not otherwise. -/
theorem onGround_told_by_ids :
    ∃ (w v w' v' : World) (m m' m₂ : ContactMemory) (t : Transform F32) (c' d' : Collider),
      World.Reachable w ∧ World.Reachable v ∧ NumericBoxes w 0 ∧ NumericBoxes v 0 ∧
      Renumbered (Equiv.swap 1 2) w 0 v 0 ∧ Mover w 0 0 unitCube t faller ∧
      Mover v 0 0 unitCube t faller ∧
      InTheWay w 0 0 unitCube.bounds faller.previousPosition t.position 1 1 ∧
      BeginsBelow w 0 unitCube.bounds faller.previousPosition t.position 1 1 ∧
      step m 0 w = (m', .ok () w') ∧ step m 0 v = (m₂, .ok () v') ∧
      w'.get? .collider 0 = some c' ∧ c'.report.onGround = false ∧
      v'.get? .collider 0 = some d' ∧ d'.report.onGround = true := by
  have hσ : Renumbered (Equiv.swap 1 2) (stack false) 0 (stack true) 0 :=
    renumbered_of_gather (gather_stack false) (gather_stack true) (by decide +kernel)
  obtain ⟨_, hgathered⟩ := exists_gathered (gather_stack false)
  have hlower : Stands (stack false) 0 1 (unitCube.worldBounds (atHeight 0).position) :=
    hgathered.stands_iff.mpr ⟨.ofComponents 1 unitCube (atHeight 0) none, by simp, rfl, rfl⟩
  obtain ⟨_, w', c', hstepw, hget, hground⟩ := exists_step_stack false
  obtain ⟨_, v', d', hstepv, hgetv, hgroundv⟩ := exists_step_stack true
  exact ⟨_, _, w', v', _, _, _, _, c', d', reachable_stack false, reachable_stack true,
    numericBoxes_stack false, numericBoxes_stack true, hσ, mover_stack false, mover_stack true,
    ⟨by decide +kernel, by decide, _, hlower, by decide +kernel⟩, ⟨_, hlower, by decide +kernel⟩,
    hstepw, hstepv, hget, hground, hgetv, hgroundv⟩

end SceneEngine.Contact
