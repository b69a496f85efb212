/-
How a step keeps bodies clear of obstacles.

A movement is tried along each axis alone, and undone on every axis on which the trial runs
into another body. An obstacle that was apart from the mover on one axis only is met by the
trial along that axis, so a body ends inside an obstacle it was clear of only when it has
moved on two axes on which they were apart (`clear_of_obstacles`). A movement into a corner
is of that kind: neither trial meets the obstacle and both axes are kept
(`step_enters_corner`).
-/
import SceneEngine.Proofs.Contact.Outcome
import SceneEngine.World.Motion

namespace SceneEngine

/-! ## Boxes apart on an axis -/

namespace Box

variable {a b : Box F32} {k : Fin 3}

/-- The boxes do not reach each other along axis `k`. -/
def ApartOn (a b : Box F32) (k : Fin 3) : Prop :=
  ¬ (a.lower[k] < b.upper[k] ∧ b.lower[k] < a.upper[k])

instance : Decidable (a.ApartOn b k) :=
  inferInstanceAs (Decidable (¬ (a.lower[k] < b.upper[k] ∧ b.lower[k] < a.upper[k])))

theorem intersects_iff_not_apartOn : a.intersects b = true ↔ ∀ k, ¬ a.ApartOn b k := by
  simp [intersects_iff, ApartOn]

theorem exists_apartOn (h : a.intersects b = false) : ∃ k, a.ApartOn b k := by
  by_contra hnone
  rw [not_exists] at hnone
  simp [intersects_iff_not_apartOn.mpr hnone] at h

theorem apartOn_translate_congr {p q : Vec F32 3} (h : p[k] = q[k]) :
    (a.translate p).ApartOn b k ↔ (a.translate q).ApartOn b k := by
  simp only [ApartOn, lower_translate, upper_translate, h]

/-- Only the number counts, not the sign of a zero. -/
theorem apartOn_translate_iff {p q : Vec F32 3} (h : Scalar.same p[k] q[k] = true) :
    (a.translate p).ApartOn b k ↔ (a.translate q).ApartOn b k := by
  have hinf : 0 < Format.single.infinity := by decide
  have hlower : (a.lower[k].add p[k]).SamePlace (a.lower[k].add q[k]) := Binary.samePlace_add hinf _ h
  have hupper : (a.upper[k].add p[k]).SamePlace (a.upper[k].add q[k]) := Binary.samePlace_add hinf _ h
  simp only [ApartOn, lower_translate, upper_translate]
  show ¬ ((a.lower[k].add p[k]).lt b.upper[k] = true ∧ b.lower[k].lt (a.upper[k].add p[k]) = true) ↔
    ¬ ((a.lower[k].add q[k]).lt b.upper[k] = true ∧ b.lower[k].lt (a.upper[k].add q[k]) = true)
  rw [hlower.lt_left, hupper.lt_right]

end Box

namespace Contact

/-! ## What blocks a body -/

section Blocked

variable {n : Nat} {bodies : Vector Solid n} {i : Fin n} {k : Fin 3}

@[simp] theorem blocked_meet (mover other : Solid) (c : AxisContacts) (k : Fin 3) :
    (meet mover other c).blocked[k] = (c.blocked[k] || blocks mover other k) := by
  simp [meet]

@[simp] theorem blocked_none (k : Fin 3) : AxisContacts.none.blocked[k] = false := by
  simp [AxisContacts.none, Vec.splat]

/-- One pair adds what its other body does, if the body is in it. -/
theorem blocked_pair (p : Pair n) (c : AxisContacts) :
    (if p.1 = i then meet (bodies.get i) (bodies.get p.2) c
      else if p.2 = i then meet (bodies.get i) (bodies.get p.1) c
      else c).blocked[k] = true ↔
      c.blocked[k] = true ∨
        ∃ j, ((i, j) = p ∨ (j, i) = p) ∧ blocks (bodies.get i) (bodies.get j) k = true := by
  obtain ⟨a, b⟩ := p
  dsimp only
  split
  · next ha =>
    subst ha
    simp only [blocked_meet, Bool.or_eq_true, Prod.mk.injEq]
    grind
  split
  · next ha hb =>
    subst hb
    simp only [blocked_meet, Bool.or_eq_true, Prod.mk.injEq]
    grind
  · next ha hb =>
    simp only [Prod.mk.injEq]
    grind

theorem blocked_foldl (pairs : List (Pair n)) (c : AxisContacts) :
    (pairs.foldl (fun c p =>
        if p.1 = i then meet (bodies.get i) (bodies.get p.2) c
        else if p.2 = i then meet (bodies.get i) (bodies.get p.1) c
        else c) c).blocked[k] = true ↔
      c.blocked[k] = true ∨
        ∃ j, ((i, j) ∈ pairs ∨ (j, i) ∈ pairs) ∧ blocks (bodies.get i) (bodies.get j) k = true := by
  induction pairs generalizing c with
  | nil => simp
  | cons p rest ih =>
    rw [List.foldl_cons, ih, blocked_pair]
    simp only [List.mem_cons]
    grind

theorem blocked_contactsOf (hdyn : (bodies.get i).dynamic = true) (pairs : List (Pair n)) :
    (contactsOf bodies pairs i).blocked[k] = true ↔
      ∃ j, ((i, j) ∈ pairs ∨ (j, i) ∈ pairs) ∧ blocks (bodies.get i) (bodies.get j) k = true := by
  rw [contactsOf, if_pos hdyn, blocked_foldl]
  simp

/-- A step blocks a moving body on an axis when some other body is in the way there. -/
theorem blocked_iff (h : ∀ i, (bodies.get i).Placed) (hdyn : (bodies.get i).dynamic = true) :
    (contactsOf bodies (candidatePairs bodies) i).blocked[k] = true ↔
      ∃ j, j ≠ i ∧ blocks (bodies.get i) (bodies.get j) k = true := by
  rw [candidatePairs_eq_filter fun i => (h i).forward, contactsOf_filter h, blocked_contactsOf hdyn]
  refine exists_congr fun j => and_congr_left fun _ => ?_
  simp only [mem_allPairs]
  omega

end Blocked

/-! ## Movement across -/

/-- At `p` the body has moved along an axis on which it was apart from `o`. -/
def Solid.Crosses (s o : Solid) (p : Vec F32 3) (k : Fin 3) : Prop :=
  (s.bounds.translate s.previous).ApartOn o.current k ∧ Scalar.same p[k] s.previous[k] = false

/-- A trial takes one axis from where the movement ends and the others from where it began. -/
theorem Solid.intersects_alongAxis_iff (s : Solid) {b : Box F32} {k : Fin 3} :
    (s.alongAxis k).intersects b = true ↔ ¬ (s.bounds.translate s.position).ApartOn b k ∧
      ∀ j, j ≠ k → ¬ (s.bounds.translate s.previous).ApartOn b j := by
  have hself : (s.previous.set k s.position[k])[k] = s.position[k] := by simp [Vec.set]
  have hother : ∀ j, j ≠ k → (s.previous.set k s.position[k])[j] = s.previous[j] := fun j hj => by
    simp [Vec.set, hj]
  rw [alongAxis, Box.intersects_iff_not_apartOn, ← Box.apartOn_translate_congr hself]
  constructor
  · intro h
    refine ⟨h k, fun j hj => ?_⟩
    rw [← Box.apartOn_translate_congr (hother j hj)]
    exact h j
  · rintro ⟨hk, h⟩ j
    by_cases hj : j = k
    · rw [hj]
      exact hk
    · rw [Box.apartOn_translate_congr (hother j hj)]
      exact h j hj

/-- A body that enters an obstacle where it comes to rest has crossed on two axes: across
one alone the obstacle would have blocked it. -/
theorem Solid.exists_crosses {s o : Solid} {c : AxisContacts}
    (hblocked : ∀ k, blocks s o k = true → c.blocked[k] = true)
    (hclear : (s.bounds.translate s.previous).intersects o.current = false)
    (hin : (s.bounds.translate (s.restingPosition c)).intersects o.current = true) :
    ∃ j k, j ≠ k ∧ s.Crosses o (s.restingPosition c) j ∧ s.Crosses o (s.restingPosition c) k := by
  have hmeets := Box.intersects_iff_not_apartOn.mp hin
  have hcross : ∀ k, (s.bounds.translate s.previous).ApartOn o.current k →
      s.Crosses o (s.restingPosition c) k := by
    intro k hk
    refine ⟨hk, ?_⟩
    rw [← Bool.not_eq_true]
    exact fun hsame => hmeets k ((Box.apartOn_translate_iff hsame).mpr hk)
  obtain ⟨k, hk⟩ := Box.exists_apartOn hclear
  by_contra hnone
  have hother : ∀ j, j ≠ k → ¬ (s.bounds.translate s.previous).ApartOn o.current j :=
    fun j hjk hj => hnone ⟨j, k, hjk, hcross j hj, hcross k hk⟩
  -- On an axis that is kept the body is where its movement ends.
  have hkept : c.blocked[k] = false := by
    rw [← Bool.not_eq_true]
    intro hb
    have hrest : (s.restingPosition c)[k] = s.previous[k] := by simp [restingPosition, hb]
    exact hmeets k ((Box.apartOn_translate_congr hrest).mpr hk)
  have hrest : (s.restingPosition c)[k] = s.position[k] := by simp [restingPosition, hkept]
  -- So the trial along this axis alone meets the obstacle on all three.
  have htrial : (s.alongAxis k).intersects o.current = true :=
    s.intersects_alongAxis_iff.mpr ⟨mt (Box.apartOn_translate_congr hrest).mpr (hmeets k), hother⟩
  have hmoved := (hcross k hk).2
  rw [hrest] at hmoved
  have := hblocked k (by simp [blocks, hmoved, htrial])
  rw [hkept] at this
  cases this

/-! ## Two cubes -/

/-- A solid cube of unit size. -/
def unitCube : Collider := .new (.ofExtents 1 1 1)

/-- The world with a new cube, whose id will be `e`. -/
def addCube (w : World) (e : EntityId) (t : Transform F32) : World :=
  ((w.after (World.serve (.create none))).after (World.serve (.add .transform e t))).after
    (World.serve (.add .collider e unitCube))

/-- A world with two cubes, the first of which has a body, and the contact system `0`. -/
def twoCubes (first second : Transform F32) (body : Body) : World :=
  let empty : World := ⟨.withLimit 4, .new 16, .empty, .single⟩
  let w := empty.after (World.registerSystemFor systemName required)
  (addCube (addCube w 0 first) 1 second).after (World.serve (.add .body 0 body))

theorem reachable_addCube {w : World} (h : World.Reachable w) (e : EntityId) (t : Transform F32) :
    World.Reachable (addCube w e t) :=
  .serve _ (.serve _ (.serve _ h))

theorem reachable_twoCubes (first second : Transform F32) (body : Body) :
    World.Reachable (twoCubes first second body) := by
  have hnew : World.new ⟨4, 16⟩ .single = .ok ⟨.withLimit 4, .new 16, .empty, .single⟩ := rfl
  have hempty := World.Reachable.registerSystemFor systemName required (.new hnew)
  have hcubes := reachable_addCube (reachable_addCube hempty 0 first) 1 second
  exact hcubes.serve (.add .body 0 body)

/-! ## A step -/

section Step

variable {w w' : World} {id : SystemId} {solids : Array Solid} {s : Solid}

theorem Settled.stands {ids : List EntityId} {c : AxisContacts} (h : Settled w w' s c)
    (hm : w'.members id = .ok ids) (he : s.entity ∈ ids) :
    Stands w' id s.entity (s.bounds.translate (s.restingPosition c)) := by
  obtain ⟨t, ht, hposition⟩ := h.transform
  obtain ⟨collider, hc, hbounds, hsolid, _⟩ := h.collider
  exact ⟨ids, collider, t, hm, he, hc, hsolid, ht, by rw [Collider.worldBounds, hbounds, hposition]⟩

theorem blocked_iff_mem {i : Fin solids.size} {k : Fin 3}
    (hplaced : ∀ i, (solids.toVector.get i).Placed)
    (hinj : Function.Injective fun i => (solids.toVector.get i).entity)
    (hdyn : (solids.toVector.get i).dynamic = true) :
    (contactsOf solids.toVector (candidatePairs solids.toVector) i).blocked[k] = true ↔
      ∃ o ∈ solids, o ≠ solids.toVector.get i ∧ blocks (solids.toVector.get i) o k = true := by
  rw [blocked_iff hplaced hdyn]
  constructor
  · rintro ⟨j, hj, hb⟩
    exact ⟨_, Array.getElem_mem j.isLt, fun heq => hj (hinj (congrArg Solid.entity heq)), hb⟩
  · rintro ⟨o, ho, hne, hb⟩
    obtain ⟨j, rfl⟩ := exists_get_of_mem ho
    exact ⟨j, fun heq => hne (heq ▸ rfl), hb⟩

/-- **Bodies stay clear of obstacles they do not cut the corner of.** As long as no box has
a NaN, a step comes to its end and leaves a moving body, on each axis, at its previous
coordinate if another body is in the way there and where its movement ends if none is. What
does not move stays. And a body that was clear of such an obstacle is inside it now only if
it has moved on two axes on which they were apart. -/
theorem clear_of_obstacles (hc : w.Coherent) (hnum : NumericBoxes w id)
    (hg : gather w id = .ok solids) (m : ContactMemory) :
    ∃ m' w', step m id w = (m', .ok () w') ∧
      ∀ s ∈ solids, s.dynamic = true → ∃ t, w'.get? .transform s.entity = some t ∧
        (∀ k : Fin 3,
          ((∃ o ∈ solids, o ≠ s ∧ blocks s o k = true) ∧ t.position[k] = s.previous[k]) ∨
          ((∀ o ∈ solids, o ≠ s → blocks s o k = false) ∧ t.position[k] = s.position[k])) ∧
        ∀ o ∈ solids, o.dynamic = false → Stands w' id o.entity o.current ∧
          ((s.bounds.translate s.previous).intersects o.current = false →
            (s.bounds.translate t.position).intersects o.current = true →
            ∃ j k, j ≠ k ∧ s.Crosses o t.position j ∧ s.Crosses o t.position k) := by
  have hplaced : ∀ i, (solids.toVector.get i).Placed := fun i =>
    hnum.placed hg (Array.getElem_mem i.isLt)
  obtain ⟨ids, h⟩ := exists_gathered hg
  have hasc := h.strictMono (hc.members_ascending h.members)
  obtain ⟨m', w', hstep, hw', hsettled⟩ := exists_step_settled hc hg m
  refine ⟨m', w', hstep, fun s hs hdyn => ?_⟩
  obtain ⟨i, rfl⟩ := exists_get_of_mem hs
  obtain ⟨t, ht, hposition⟩ := (hsettled i).transform
  have hblocked : ∀ k : Fin 3, _ ↔ _ := fun k => blocked_iff_mem hplaced hasc.injective hdyn (k := k)
  refine ⟨t, ht, fun k => ?_, fun o ho hfixed => ⟨?_, fun hclear hin => ?_⟩⟩
  · rw [hposition, Solid.restingPosition, Vec.getElem_ofFn]
    split
    · next hb => exact .inl ⟨(hblocked k).mp hb, rfl⟩
    · next hb => exact .inr ⟨by simpa using mt (hblocked k).mpr hb, rfl⟩
  · obtain ⟨j, rfl⟩ := exists_get_of_mem ho
    have hentity : (solids.toVector.get j).entity ∈ ids :=
      h.entities.subset (List.mem_map_of_mem (Array.mem_toList_iff.mpr ho))
    have := (hsettled j).stands ((hw'.members id).trans h.members) hentity
    rwa [contactsOf_of_fixed hfixed, Solid.restingPosition_of_free _ (by decide),
      ← (hplaced j).current] at this
  · rw [hposition] at hin ⊢
    have hne : o ≠ solids.toVector.get i := fun heq => by
      rw [heq, hdyn] at hfixed
      cases hfixed
    exact Solid.exists_crosses (fun k hk => (hblocked k).mpr ⟨o, ho, hne, hk⟩) hclear hin

/-- A body that moves straight at an obstacle stops short of it. -/
theorem clear_of_obstacles_head_on :
    ∃ (w w' : World) (m m' : ContactMemory) (s o : Solid) (t : Transform F32),
      World.Reachable w ∧ NumericBoxes w 0 ∧ gather w 0 = .ok #[s, o] ∧ s.dynamic = true ∧
      o.dynamic = false ∧ s.current.intersects o.current = true ∧
      step m 0 w = (m', .ok () w') ∧ w'.get? .transform s.entity = some t ∧
      (s.bounds.translate t.position).intersects o.current = false := by
  let mover : Body := { Body.immovable with fixed := false }
  let ahead : Transform F32 := .ofPosition (.of3 1 0 0)
  let wall : Transform F32 := .ofPosition (.of3 (1 + Scalar.half) 0 0)
  let w := twoCubes ahead wall mover
  let s : Solid := .ofComponents 0 unitCube ahead (some mover)
  let o : Solid := .ofComponents 1 unitCube wall none
  have hreach : World.Reachable w := reachable_twoCubes ahead wall mover
  have hnum : NumericBoxes w 0 := by decide +kernel
  have hg : gather w 0 = .ok #[s, o] := eq_ok_of_toOption (by decide +kernel)
  obtain ⟨m', w', hstep, hall⟩ := clear_of_obstacles hreach.coherent hnum hg (.new .standard)
  obtain ⟨t, ht, _, hclear⟩ := hall s (by simp) (by decide)
  have hone : ∀ k, (s.bounds.translate s.previous).ApartOn o.current k → k = 0 := by decide +kernel
  refine ⟨w, w', _, m', s, o, t, hreach, hnum, hg, by decide, by decide, by decide +kernel, hstep,
    ht, ?_⟩
  rw [← Bool.not_eq_true]
  intro hin
  obtain ⟨j, k, hjk, hj, hk⟩ := (hclear o (by simp) (by decide)).2 (by decide +kernel) hin
  exact hjk ((hone j hj.1).trans (hone k hk.1).symm)

/-- A body that moves diagonally into a corner: clear of the obstacle before, inside it
afterward. -/
theorem step_enters_corner :
    ∃ (w w' : World) (m m' : ContactMemory) (s o : Solid) (t : Transform F32),
      World.Reachable w ∧ NumericBoxes w 0 ∧ gather w 0 = .ok #[s, o] ∧ s.dynamic = true ∧
      o.dynamic = false ∧ (s.bounds.translate s.previous).intersects o.current = false ∧
      step m 0 w = (m', .ok () w') ∧ w'.get? .transform s.entity = some t ∧
      (s.bounds.translate t.position).intersects o.current = true := by
  let config : PhysicsConfig := { PhysicsConfig.standard with airFriction := 0 }
  let mover : Body := { Body.immovable with fixed := false, velocity := .of3 1 1 0 }
  let corner : Transform F32 := .ofPosition (.of3 (1 + Scalar.half) (1 + Scalar.half) 0)
  -- A second of motion from the origin.
  let w := (twoCubes .origin corner mover).after (World.serve (.updatePair .transform .body 0 fun p =>
    Motion.moveBody config 1 p.1 p.2))
  let moved := Motion.moveBody config 1 .origin mover
  let s : Solid := .ofComponents 0 unitCube moved.1 (some moved.2)
  let o : Solid := .ofComponents 1 unitCube corner none
  have hreach : World.Reachable w := .serve _ (reachable_twoCubes .origin corner mover)
  have hg : gather w 0 = .ok #[s, o] := eq_ok_of_toOption (by decide +kernel)
  obtain ⟨m', w', hstep, _, hsettled⟩ := exists_step_settled hreach.coherent hg (.new config)
  obtain ⟨t, ht, hposition⟩ := (hsettled 0).transform
  refine ⟨w, w', _, m', s, o, t, hreach, by decide +kernel, hg, by decide, by decide,
    by decide +kernel, hstep, ht, ?_⟩
  rw [hposition]
  decide +kernel

end Step

end Contact

end SceneEngine
