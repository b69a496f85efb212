/-
Reports on contact, and what of them outlives a step.

Three loops of a step write reports: a body that moves is told on which axes it was blocked
and whether it rests on something, every solid collider is told who it touches, and a collider
that is not solid has its report cleared. Between two steps a collider may go from any of the
three classes to any other.

The report on a body that moves is made anew by the first two loops, and its parts agree. The
second alone does not make that of a solid collider which stands still: what a step said of its
axes and of the ground while it moved is still there (`reportOn_of_fixed`). So a report is
consistent after a step unless it is of such a collider and was hindered before, and this is
the only way in which it is not (`Scene.reports_after_update`).
-/
import SceneEngine.Proofs.Contact.FirstContact
import SceneEngine.Proofs.Contact.Resolution
import SceneEngine.Proofs.World.Values

namespace SceneEngine

/-! ## Consistent reports -/

namespace ContactReport

/-- No axis is blocked and nothing is below. -/
def Unhindered (r : ContactReport) : Prop :=
  (∀ k : Fin 3, r.blockedAxes[k] = false) ∧ r.onGround = false

/-- What rests on something is blocked on the Y axis. -/
def Grounded (r : ContactReport) : Prop := r.onGround = true → r.blockedAxes[(1 : Fin 3)] = true

/-- The parts of a report agree with each other and with whether the collider moves. -/
structure Consistent (r : ContactReport) (moves : Bool) : Prop where
  blocked_iff : r.isBlocked = true ↔ r.blockedBy ≠ []
  grounded : r.Grounded
  still : moves = false → r.Unhindered
  colliding_iff : r.colliding = true ↔ r.collidingWith ≠ [] ∨ r.blockedBy ≠ []

theorem isBlocked_iff {r : ContactReport} :
    r.isBlocked = true ↔ ∃ k : Fin 3, r.blockedAxes[k] = true := Vec.any_toList_iff

end ContactReport

namespace Contact

/-! ## Blocked axes and blockers -/

section Contacts

variable {n : Nat} {bodies : Vector Solid n}

/-- There are blockers when some axis is blocked, and only then. -/
def AxisContacts.Tallied (c : AxisContacts) : Prop :=
  (∃ k : Fin 3, c.blocked[k] = true) ↔ c.blockedBy ≠ []

theorem AxisContacts.Tallied.meet {c : AxisContacts} (h : c.Tallied) (mover other : Solid) :
    (Contact.meet mover other c).Tallied := by
  have hby : (Contact.meet mover other c).blockedBy =
      if touches mover other then c.blockedBy ++ [other.entity] else c.blockedBy := rfl
  unfold Tallied at h ⊢
  simp only [blocked_meet, Bool.or_eq_true, exists_or, hby]
  cases ht : touches mover other with
  | true =>
    have hsome := touches_iff.mp ht
    simp [hsome]
  | false =>
    have hnone : ¬ ∃ k, blocks mover other k = true := fun hk => by simp [touches_iff.mpr hk] at ht
    simp [hnone, h]

theorem tallied_foldl (mover : Solid) (l : List (Fin n)) {c : AxisContacts} (h : c.Tallied) :
    (l.foldl (fun c j => meet mover (bodies.get j) c) c).Tallied := by
  induction l generalizing c with
  | nil => exact h
  | cons j rest ih => exact ih (h.meet mover (bodies.get j))

/-- Whatever pairs are gone through. -/
theorem tallied_contactsOf (pairs : List (Pair n)) (i : Fin n) :
    (contactsOf bodies pairs i).Tallied := by
  have hnone : AxisContacts.none.Tallied := by
    simp [AxisContacts.Tallied, AxisContacts.none, Vec.splat]
  cases hdyn : (bodies.get i).dynamic with
  | true =>
    rw [contactsOf_eq_foldl hdyn]
    exact tallied_foldl _ _ hnone
  | false =>
    rw [contactsOf_of_fixed hdyn]
    exact hnone

end Contacts

/-! ## The report on a body -/

section Body

variable {n : Nat} (bodies : Vector Solid n) (pairs : List (Pair n)) (i : Fin n)

/-- The boxes of all bodies where they come to rest. -/
def restingBoxes : Vector (Box F32) n :=
  Vector.ofFn fun i => (bodies.get i).restingBox (contactsOf bodies pairs i)

/-- The report on a body after a step, made from the one before it. -/
def reportOn (r : ContactReport) : ContactReport :=
  let c := contactsOf bodies pairs i
  let collidingWith := restingOverlaps bodies pairs (restingBoxes bodies pairs) i
  let blockedBy := sortBy (fun e f => decide (e ≤ f)) c.blockedBy
  let r := if (bodies.get i).dynamic then
      { r with blockedAxes := c.blocked, wasOnGround := r.onGround, onGround := c.onGround }
    else r
  { r with colliding := !collidingWith.isEmpty || !blockedBy.isEmpty, collidingWith, blockedBy }

theorem settled_report (config : PhysicsConfig) (p : Parts) :
    settled config bodies pairs i p .collider =
      (p .collider).map fun c => { c with report := reportOn bodies pairs i c.report } := by
  cases hdyn : (bodies.get i).dynamic <;> cases hc : p .collider <;>
    simp [settled, reported, relieved, resolved, reportOn, restingBoxes, hdyn, hc]

variable {bodies pairs i} {r : ContactReport}

theorem reportOn_colliding_iff : (reportOn bodies pairs i r).colliding = true ↔
    (reportOn bodies pairs i r).collidingWith ≠ [] ∨ (reportOn bodies pairs i r).blockedBy ≠ [] := by
  simp [reportOn]

/-- A body that stands still keeps what its report said of axes and of the ground. -/
theorem reportOn_of_fixed (h : (bodies.get i).dynamic = false) (pairs : List (Pair n))
    (r : ContactReport) :
    (reportOn bodies pairs i r).blockedAxes = r.blockedAxes ∧
      (reportOn bodies pairs i r).onGround = r.onGround ∧
      (reportOn bodies pairs i r).blockedBy = [] := by
  simp [reportOn, h, contactsOf_of_fixed h, AxisContacts.none, sortBy]

theorem reportOn_of_dynamic (h : (bodies.get i).dynamic = true) (pairs : List (Pair n))
    (r : ContactReport) :
    (reportOn bodies pairs i r).blockedAxes = (contactsOf bodies pairs i).blocked ∧
      (reportOn bodies pairs i r).onGround = (contactsOf bodies pairs i).onGround ∧
      (reportOn bodies pairs i r).wasOnGround = r.onGround ∧
      (reportOn bodies pairs i r).blockedBy =
        sortBy (fun e f => decide (e ≤ f)) (contactsOf bodies pairs i).blockedBy := by
  simp [reportOn, h]

/-- To be on the ground is to be blocked on the Y axis, with something below. -/
theorem grounded_reportOn_of_dynamic (h : (bodies.get i).dynamic = true) :
    (reportOn bodies pairs i r).Grounded := by
  obtain ⟨haxes, hground, _, _⟩ := reportOn_of_dynamic h pairs r
  intro hon
  rw [hground, AxisContacts.onGround, Bool.and_eq_true] at hon
  rw [haxes]
  exact hon.1

theorem grounded_reportOn (h : r.Grounded) : (reportOn bodies pairs i r).Grounded := by
  cases hdyn : (bodies.get i).dynamic with
  | true => exact grounded_reportOn_of_dynamic hdyn
  | false =>
    obtain ⟨haxes, hground, _⟩ := reportOn_of_fixed hdyn pairs r
    intro hon
    rw [hground] at hon
    rw [haxes]
    exact h hon

/-- The report on a body is consistent if the body moves, or had nothing to leave behind. -/
theorem consistent_reportOn_iff :
    (reportOn bodies pairs i r).Consistent (bodies.get i).dynamic ↔
      (bodies.get i).dynamic = true ∨ r.Unhindered := by
  cases hdyn : (bodies.get i).dynamic with
  | true =>
    obtain ⟨haxes, _, _, hby⟩ := reportOn_of_dynamic hdyn pairs r
    refine iff_of_true ?_ (.inl rfl)
    refine ⟨?_, grounded_reportOn_of_dynamic hdyn, nofun, reportOn_colliding_iff⟩
    have hsorted := sortBy_perm (fun e f => decide (e ≤ f)) (contactsOf bodies pairs i).blockedBy
    rw [ContactReport.isBlocked_iff, haxes, hby, ne_eq, ← List.length_eq_zero_iff, hsorted.length_eq,
      List.length_eq_zero_iff]
    exact tallied_contactsOf pairs i
  | false =>
    obtain ⟨haxes, hground, hby⟩ := reportOn_of_fixed hdyn pairs r
    have hsame : (reportOn bodies pairs i r).Unhindered ↔ r.Unhindered := by
      rw [ContactReport.Unhindered, ContactReport.Unhindered, haxes, hground]
    rw [← hsame]
    constructor
    · intro h
      exact .inr (h.still rfl)
    · intro h
      have h := h.resolve_left Bool.false_ne_true
      refine ⟨?_, fun hon => ?_, fun _ => h, reportOn_colliding_iff⟩
      · simp [ContactReport.isBlocked_iff, h.1, hby]
      · simp [h.2] at hon

end Body

/-! ## The reports after a step -/

/-- Whether an entity has a body that is not fixed. -/
def moves (w : World) (e : EntityId) : Bool := (w.get? .body e).any fun b => !b.fixed

/-- What a step has made of the collider of a member: `c` in the world `w` it began in, and
`c'` afterward. -/
structure Reported (w : World) (e : EntityId) (c c' : Collider) : Prop where
  bounds : c'.bounds = c.bounds
  solid : c'.solid = c.solid
  cleared : c.solid = false → c'.report = .clear
  consistent_iff : c.solid = true →
    (c'.report.Consistent (moves w e) ↔ moves w e = true ∨ c.report.Unhindered)
  /-- What the report of a collider that stands still says of axes and of the ground is old. -/
  stale : c.solid = true → moves w e = false → c'.report.blockedAxes = c.report.blockedAxes ∧
    c'.report.onGround = c.report.onGround ∧ c'.report.blockedBy = []
  colliding_iff : c'.report.colliding = true ↔ c'.report.collidingWith ≠ [] ∨ c'.report.blockedBy ≠ []
  grounded : c.report.Grounded → c'.report.Grounded

section Step

variable {w : World} {id : SystemId} {solids : Array Solid}

theorem reported_of_solid {n : Nat} {bodies : Vector Solid n} {pairs : List (Pair n)} {i : Fin n}
    {e : EntityId} {c : Collider} (hsolid : c.solid = true)
    (hmoves : (bodies.get i).dynamic = moves w e) :
    Reported w e c { c with report := reportOn bodies pairs i c.report } where
  bounds := rfl
  solid := rfl
  cleared h := by simp [hsolid] at h
  consistent_iff _ := by
    rw [← hmoves]
    exact consistent_reportOn_iff
  stale _ hstill := reportOn_of_fixed (hmoves.trans hstill) pairs c.report
  colliding_iff := reportOn_colliding_iff
  grounded := grounded_reportOn

theorem reported_of_not_solid {e : EntityId} {c : Collider} (hsolid : c.solid = false) :
    Reported w e c { c with report := .clear } where
  bounds := rfl
  solid := rfl
  cleared _ := rfl
  consistent_iff h := by simp [hsolid] at h
  stale h := by simp [hsolid] at h
  colliding_iff := by simp [ContactReport.clear]
  grounded _ := nofun

/-- The snapshot a step of the contact system takes: bodies without a NaN, in the order of
their entities. -/
theorem exists_bodies (hc : w.Coherent) (ha : w.Asks id required) (hnum : NumericBoxes w id) :
    ∃ (solids : Array Solid) (ids : List EntityId), gather w id = .ok solids ∧
      Gathered w id ids solids ∧ (∀ i, (solids.toVector.get i).Placed) ∧
      StrictMono fun i => (solids.toVector.get i).entity := by
  obtain ⟨solids, hg⟩ := exists_gather_of_asks hc ha
  obtain ⟨ids, h⟩ := exists_gathered hg
  refine ⟨solids, ids, hg, h, fun i => ?_, h.strictMono (hc.members_ascending h.members)⟩
  exact hnum.placed hg (Array.getElem_mem i.isLt)

/-- A step that has a snapshot reports on every body of it, and clears the report of every
other member. Colliders of entities that are no members stay as they are. -/
theorem exists_step_reports (hc : w.Coherent) (hg : gather w id = .ok solids) (m : ContactMemory) :
    ∃ w', step m id w = (m.observe (found w id), .ok () w') ∧ w.Revalued w' ∧
      (∀ i c, w.get? .collider (solids.toVector.get i).entity = some c →
        w'.get? .collider (solids.toVector.get i).entity = some { c with
          report := reportOn solids.toVector (candidatePairs solids.toVector) i c.report }) ∧
      ∀ ids e c, w.members id = .ok ids → (∀ i, (solids.toVector.get i).entity ≠ e) →
        w.get? .collider e = some c → (e ∈ ids → c.solid = false) ∧
          w'.get? .collider e = some (if e ∈ ids then { c with report := .clear } else c) := by
  obtain ⟨w', hstep, hw', hin, hout⟩ := exists_step_parts hc hg m
  refine ⟨w', hstep, hw', fun i c hget => ?_, fun ids e c hm hno hget => ?_⟩
  · have hparts := congrFun (hin i) .collider
    rw [settled_report] at hparts
    exact hparts.trans (congrArg (Option.map _) hget)
  · have hsolid : e ∈ ids → c.solid = false := by
      intro he
      rw [← Bool.not_eq_true]
      intro hsolid
      obtain ⟨t, _, hmem⟩ := exists_solid_of_gather hg hm he hget hsolid
      obtain ⟨i, hi⟩ := exists_get_of_mem hmem
      exact hno i (congrArg Solid.entity hi.symm)
    refine ⟨hsolid, ?_⟩
    have hparts := congrFun (hout e ids hm hno) .collider
    have hcollider : w.parts e .collider = some c := hget
    refine hparts.trans ?_
    split
    · next he => simp [Contact.cleared, hcollider, hsolid he]
    · exact hcollider

theorem Gathered.body {ids : List EntityId} (h : Gathered w id ids solids) (i : Fin solids.size)
    {c : Collider} (hc : w.get? .collider (solids.toVector.get i).entity = some c) :
    (solids.toVector.get i).entity ∈ ids ∧ c.solid = true ∧
      (solids.toVector.get i).dynamic = moves w (solids.toVector.get i).entity := by
  obtain ⟨e, he, hsnap⟩ := (h.mem_iff _).mp (Array.getElem_mem i.isLt)
  have hsolid := solid_of_snapshot hsnap hc
  obtain ⟨_, _, _, _, _, hs⟩ := snapshot_eq_some_iff.mp hsnap
  have hget : solids.toVector.get i = .ofComponents e _ _ (w.get? .body e) := hs
  rw [hget]
  exact ⟨he, hsolid, rfl⟩

/-- A step reports on every member, and leaves the colliders of all other entities. -/
theorem exists_step_reported (hc : w.Coherent) (hg : gather w id = .ok solids) (m : ContactMemory) :
    ∃ w', step m id w = (m.observe (found w id), .ok () w') ∧ w.Revalued w' ∧
      ∀ ids e c, w.members id = .ok ids → w.get? .collider e = some c →
        ∃ c', w'.get? .collider e = some c' ∧ (e ∈ ids → Reported w e c c') ∧
          (e ∉ ids → c' = c) := by
  obtain ⟨ids', h⟩ := exists_gathered hg
  obtain ⟨w', hstep, hw', hin, hout⟩ := exists_step_reports hc hg m
  refine ⟨w', hstep, hw', fun ids e c hm hget => ?_⟩
  obtain rfl : ids = ids' := Except.ok.inj (hm.symm.trans h.members)
  by_cases hbody : ∃ i, (solids.toVector.get i).entity = e
  · obtain ⟨i, rfl⟩ := hbody
    obtain ⟨he, hsolid, hmoves⟩ := h.body i hget
    exact ⟨_, hin i c hget, fun _ => reported_of_solid hsolid hmoves, fun hno => absurd he hno⟩
  · rw [not_exists] at hbody
    obtain ⟨hsolid, hget'⟩ := hout ids e c hm hbody hget
    refine ⟨_, hget', fun he => ?_, fun he => if_neg he⟩
    rw [if_pos he]
    exact reported_of_not_solid (hsolid he)

end Step

end Contact

/-! ## Whole runs -/

/-- What an occurrence hands in has the property, and what it changes keeps it. -/
def Occurrence.Keeps (Q : (k : Kind) → k.Value → Prop) : Occurrence → Prop
  | serve r => r.Keeps Q
  | _ => True

/-- Colliders whose reports put nothing on the ground that is not blocked. -/
def GroundedColliders : (k : Kind) → k.Value → Prop
  | .collider, c => c.report.Grounded
  | _, _ => True

namespace Scene

variable {id : SystemId} {s t : Scene}

/-- What holds in the beginning and is kept by everything that can happen holds at every
sighting. -/
theorem sightings_induction {I : Scene → Prop} {run : List Occurrence} (hs : I s)
    (hafter : ∀ t, I t → ∀ o ∈ run, I (t.after id o)) (ht : t ∈ s.sightings id run) :
    I t ∧ t.updates id = true := by
  induction run generalizing s with
  | nil => simp [sightings] at ht
  | cons o rest ih =>
    have hrest := ih (hafter s hs o (by simp)) fun t h o ho => hafter t h o (by simp [ho])
    rw [sightings] at ht
    split at ht
    · next ho =>
      rcases List.mem_cons.mp ht with rfl | ht
      · exact ⟨hs, (Bool.and_eq_true_iff.mp ho).2⟩
      · exact hrest ht
    · exact hrest ht

/-- What a contact step that comes to its end makes of colliders: of those of its members,
which all have one, and of all others. -/
theorem exists_reported_after_update (hc : s.world.Coherent) (hup : s.updates id = true) :
    ∃ ids, s.world.members id = .ok ids ∧
      (∀ e ∈ ids, (s.world.get? .collider e).isSome = true) ∧
      ∀ e c, s.world.get? .collider e = some c →
        ∃ c', (s.after id .update).world.get? .collider e = some c' ∧
          (e ∈ ids → Contact.Reported s.world e c c') ∧ (e ∉ ids → c' = c) := by
  obtain ⟨solids, _, hg, _⟩ := exists_after_update hc.storage hup
  obtain ⟨ids, h⟩ := Contact.exists_gathered hg
  obtain ⟨w', hstep, _, hreported⟩ := Contact.exists_step_reported hc hg s.memory
  refine ⟨ids, h.members, h.collider, fun e c hget => ?_⟩
  have hafter : (s.after id .update).world = w' := by simp only [after, hstep]
  rw [hafter]
  exact hreported ids e c h.members hget

theorem grounded_after_update (hc : s.world.Coherent) (h : s.world.Every GroundedColliders) :
    (s.after id .update).world.Every GroundedColliders := by
  cases hup : s.updates id with
  | false => rwa [after_update_of_not_updates hc.storage hup]
  | true =>
    intro k e x hx
    cases k with
    | collider =>
      obtain ⟨_, world, _, hw, hafter⟩ := exists_after_update hc.storage hup
      obtain ⟨ids, _, _, hreported⟩ := exists_reported_after_update hc hup
      rw [hafter] at hx hreported
      -- No step gives a collider to an entity that has none.
      have hsome := (hw.isSome_get? .collider e).symm.trans (Option.isSome_of_eq_some hx)
      obtain ⟨c, hget⟩ := Option.isSome_iff_exists.mp hsome
      obtain ⟨c', hget', hin, hout⟩ := hreported e c hget
      obtain rfl : c' = x := Option.some.inj (hget'.symm.trans hx)
      have hgrounded : c.report.Grounded := h .collider e c hget
      by_cases he : e ∈ ids
      · exact (hin he).grounded hgrounded
      · exact hout he ▸ hgrounded
    | _ => trivial

theorem grounded_after (hc : s.world.Coherent) (h : s.world.Every GroundedColliders) {o : Occurrence}
    (ho : o.Keeps GroundedColliders) : (s.after id o).world.Every GroundedColliders := by
  cases o with
  | serve r => exact h.serve hc ho
  | registerSystem name required => exact h.registerSystem name required
  | registerSystemFor name kinds => exact h.registerSystemFor hc name kinds
  | update => exact grounded_after_update hc h
  | receive | drain | disconnect => exact h

/-- **What a report says after a step.** In every run from an empty world, whatever is edited
between the steps, a step that comes to its end reports on all members. That of a collider
which is not solid is clear. That of a solid one is consistent if the collider moves or was
unhindered before; otherwise it still says of axes and of the ground what it said then. In all
reports `colliding` says whether anyone is named, and no collider that is not blocked on the Y
axis is on the ground, unless such a report was handed in. -/
theorem reports_after_update {capacity : CapacityConfig} {tolerance : Tolerance F64} {w₀ : World}
    (hnew : World.new capacity tolerance = .ok w₀) (config : PhysicsConfig) (id : SystemId)
    {run : List Occurrence} {s : Scene} (hs : s ∈ sightings id ⟨w₀, .new config⟩ run)
    {ids : List EntityId} (hm : s.world.members id = .ok ids) {e : EntityId} (he : e ∈ ids) :
    ∃ c c', s.world.get? .collider e = some c ∧
      (s.after id .update).world.get? .collider e = some c' ∧ Contact.Reported s.world e c c' ∧
      ((∀ o ∈ run, o.Keeps GroundedColliders) → c'.report.Grounded) := by
  have hc₀ := World.coherent_new hnew
  obtain ⟨hc, hup⟩ := sightings_induction (I := fun s => s.world.Coherent) hc₀
    (fun t ht o _ => coherent_after id ht o) hs
  obtain ⟨ids', hm', hhave, hreported⟩ := exists_reported_after_update hc hup
  obtain rfl : ids = ids' := Except.ok.inj (hm.symm.trans hm')
  obtain ⟨c, hget⟩ := Option.isSome_iff_exists.mp (hhave e he)
  obtain ⟨c', hget', hin, _⟩ := hreported e c hget
  refine ⟨c, c', hget, hget', hin he, fun hkeeps => ?_⟩
  obtain ⟨⟨_, hgrounded⟩, _⟩ := sightings_induction
    (I := fun s => s.world.Coherent ∧ s.world.Every GroundedColliders) ⟨hc₀, World.every_new hnew⟩
    (fun t ht o ho => ⟨coherent_after id ht.1 o, grounded_after ht.1 ht.2 (hkeeps o ho)⟩) hs
  exact (hin he).grounded (hgrounded .collider e c hget)

/-- A cube comes down on another from where it touched it, and a step puts it back there. -/
def landing : List Occurrence :=
  let place (e : EntityId) (y : F32) : List Occurrence :=
    [.serve (.create none), .serve (.add .transform e (.ofPosition (.of3 0 y 0))),
      .serve (.add .collider e Contact.unitCube)]
  let faller : Body := { Body.immovable with fixed := false, previousPosition := .of3 0 1 0 }
  .registerSystemFor Contact.systemName Contact.required :: place 0 Scalar.half ++ place 1 0 ++
    [.serve (.add .body 0 faller), .update]

/-- The body of the first entity is fixed, or freed. -/
def fix (fixed : Bool) : Occurrence := .serve (.update .body 0 fun b => { b with fixed })

/-- A body that landed, was fixed for a step and is free again: its report, which said that it
was on the ground when the step began, is consistent once more. -/
theorem reports_after_update_freed :
    ∃ (w₀ : World) (s : Scene) (c c' : Collider), World.new ⟨2, 8⟩ .single = .ok w₀ ∧
      s ∈ sightings 0 ⟨w₀, .new .standard⟩ (landing ++ [fix true, .update, fix false, .update]) ∧
      s.world.members 0 = .ok [0, 1] ∧ Contact.moves s.world 0 = true ∧
      s.world.get? .collider 0 = some c ∧ c.report.onGround = true ∧
      (s.after 0 .update).world.get? .collider 0 = some c' ∧ c'.report.Consistent true := by
  let w₀ : World := ⟨.withLimit 2, .new 8, .empty, .single⟩
  let seen := sightings 0 ⟨w₀, .new .standard⟩ (landing ++ [fix true, .update, fix false, .update])
  have hnew : World.new ⟨2, 8⟩ .single = .ok w₀ := rfl
  have hlast : seen[2]?.any (fun s => (s.world.members 0).toOption = some [0, 1] ∧
      Contact.moves s.world 0 = true ∧
      (s.world.get? .collider 0).any fun c => c.solid ∧ c.report.onGround) = true := by
    decide +kernel
  obtain ⟨s, hn, hfacts⟩ := (Option.any_eq_true _ _).mp hlast
  obtain ⟨hm, hmoves, hfacts⟩ := of_decide_eq_true hfacts
  obtain ⟨c₀, hget₀, hfacts⟩ := (Option.any_eq_true _ _).mp hfacts
  obtain ⟨hsolid, hground⟩ := of_decide_eq_true hfacts
  have hs : s ∈ seen := List.mem_of_getElem? hn
  have hm : s.world.members 0 = .ok [0, 1] := eq_ok_of_toOption hm
  obtain ⟨c, c', hget, hget', hreported, _⟩ :=
    reports_after_update hnew .standard 0 hs hm (e := 0) (by simp)
  obtain rfl : c₀ = c := Option.some.inj (hget₀.symm.trans hget)
  have hconsistent := (hreported.consistent_iff hsolid).mpr (.inl hmoves)
  exact ⟨w₀, s, c₀, c', hnew, hs, hm, hmoves, hget, hground, hget', hmoves ▸ hconsistent⟩

/-- A body that is fixed after it has landed: a step later its report still has an axis
blocked and something below, though it does not move and no one blocks it. -/
theorem report_outlives_movement :
    ∃ (w₀ : World) (s : Scene) (c' : Collider), World.new ⟨2, 8⟩ .single = .ok w₀ ∧
      s ∈ sightings 0 ⟨w₀, .new .standard⟩ (landing ++ [fix true, .update]) ∧
      s.world.members 0 = .ok [0, 1] ∧ Contact.moves s.world 0 = false ∧
      (s.after 0 .update).world.get? .collider 0 = some c' ∧ c'.solid = true ∧
      c'.report.isBlocked = true ∧ c'.report.onGround = true ∧ c'.report.blockedBy = [] ∧
      ¬ c'.report.Consistent (Contact.moves s.world 0) := by
  let w₀ : World := ⟨.withLimit 2, .new 8, .empty, .single⟩
  let seen := sightings 0 ⟨w₀, .new .standard⟩ (landing ++ [fix true, .update])
  have hnew : World.new ⟨2, 8⟩ .single = .ok w₀ := rfl
  have hlast : seen[1]?.any (fun s => (s.world.members 0).toOption = some [0, 1] ∧
      Contact.moves s.world 0 = false ∧
      ((s.after 0 .update).world.get? .collider 0).any fun c => c.solid ∧ c.report.isBlocked ∧
        c.report.onGround ∧ c.report.blockedBy = []) = true := by
    decide +kernel
  obtain ⟨s, hn, hfacts⟩ := (Option.any_eq_true _ _).mp hlast
  obtain ⟨hm, hmoves, hfacts⟩ := of_decide_eq_true hfacts
  obtain ⟨c', hget', hfacts⟩ := (Option.any_eq_true _ _).mp hfacts
  obtain ⟨hsolid, hblocked, hground, hby⟩ := of_decide_eq_true hfacts
  have hinconsistent : ¬ c'.report.Consistent (Contact.moves s.world 0) := fun h =>
    h.blocked_iff.mp hblocked hby
  exact ⟨w₀, s, c', hnew, List.mem_of_getElem? hn, eq_ok_of_toOption hm, hmoves, hget', hsolid,
    hblocked, hground, hby, hinconsistent⟩

end Scene

end SceneEngine
