/-
Who a collider is said to overlap after a step.

Overlaps are looked for once more when all bodies have come to rest, among the pairs that were
candidates before anything was resolved. This loses none: a body comes to rest within the box
it has swept, whichever of its axes are put back (`restingOverlaps_filter`). What is left of a
body's pairs are its partners, in ascending order and each of them once, and two boxes share
the same volume whichever is named first. So a report names exactly those members whose boxes
share some volume with that of its collider, where all of them stand after the step, and of two
members either names the other or neither does (`collidingWith_as_specified`).
-/
import SceneEngine.Proofs.Contact.Report

namespace SceneEngine.Contact

/-! ## Partners that overlap at rest -/

section Bodies

variable {n : Nat} {bodies : Vector Solid n} {resting : Vector (Box F32) n} {i : Fin n}

/-- The overlaps of one body, partner by partner. -/
theorem restingOverlaps_eq (hnum : ∀ i, (resting.get i).Numeric) (pairs : List (Pair n)) :
    restingOverlaps bodies pairs resting i = sortBy (fun e f => decide (e ≤ f))
      (((pairs.filterMap (partner i)).filter fun j =>
        0 < (resting.get i).intersectionVolume (resting.get j)).map fun j => (bodies.get j).entity) := by
  rw [restingOverlaps, List.filter_filterMap, List.map_filterMap]
  congr 2
  funext p
  obtain ⟨a, b⟩ := p
  by_cases ha : a = i
  · simp [partner, Option.filter, ha]
  · by_cases hb : b = i
    · -- Here the pair has the body second, and its partner first.
      simp [partner, Option.filter, ha, hb, Box.intersectionVolume_comm (hnum a) (hnum i)]
    · simp [partner, ha, hb]

theorem get_restingBoxes (pairs : List (Pair n)) (i : Fin n) :
    (restingBoxes bodies pairs).get i = (bodies.get i).restingBox (contactsOf bodies pairs i) :=
  Vector.getElem_ofFn i.isLt

theorem numeric_restingBoxes (h : ∀ i, (bodies.get i).Placed) (pairs : List (Pair n)) (i : Fin n) :
    ((restingBoxes bodies pairs).get i).Numeric := by
  rw [get_restingBoxes]
  exact ((h i).covers_restingBox _).numeric

/-- The other bodies that overlap a body at rest, in ascending order. -/
theorem restingOverlaps_candidatePairs (h : ∀ i, (bodies.get i).Placed)
    (hasc : StrictMono fun i => (bodies.get i).entity) (pairs : List (Pair n)) (i : Fin n) :
    (restingOverlaps bodies (candidatePairs bodies) (restingBoxes bodies pairs) i).Pairwise (· < ·) ∧
      ∀ f, f ∈ restingOverlaps bodies (candidatePairs bodies) (restingBoxes bodies pairs) i ↔
        ∃ j, j ≠ i ∧ (bodies.get j).entity = f ∧
          0 < ((restingBoxes bodies pairs).get i).intersectionVolume
            ((restingBoxes bodies pairs).get j) := by
  have hresting : ∀ i, ∃ c, (restingBoxes bodies pairs).get i = (bodies.get i).restingBox c :=
    fun i => ⟨_, get_restingBoxes pairs i⟩
  rw [candidatePairs_eq_filter fun i => (h i).forward, restingOverlaps_filter h _ _ hresting,
    restingOverlaps_eq (numeric_restingBoxes h pairs)]
  have hpartners : ((allPairs bodies).filterMap (partner i)).Pairwise (· < ·) := partners_pairwise
  have hascending := hpartners.filter fun j =>
    0 < ((restingBoxes bodies pairs).get i).intersectionVolume ((restingBoxes bodies pairs).get j)
  have hascending := hascending.map (fun j => (bodies.get j).entity) fun _ _ hlt => hasc hlt
  rw [sortBy_of_ascending hascending]
  refine ⟨hascending, fun f => ?_⟩
  simp only [List.mem_map, List.mem_filter, mem_partners, decide_eq_true_eq]
  constructor
  · intro hf
    obtain ⟨j, ⟨hj, hpos⟩, rfl⟩ := hf
    exact ⟨j, hj, rfl, hpos⟩
  · intro hf
    obtain ⟨j, hj, rfl, hpos⟩ := hf
    exact ⟨j, ⟨hj, hpos⟩, rfl⟩

end Bodies

/-! ## Where members stand after a step -/

variable {w w' : World} {id : SystemId} {e f : EntityId} {a b : Box F32} {solids : Array Solid}

theorem Stands.unique (ha : Stands w id e a) (hb : Stands w id e b) : a = b := by
  obtain ⟨_, c, t, _, _, hc, _, ht, rfl⟩ := ha
  obtain ⟨_, c', t', _, _, hc', _, ht', rfl⟩ := hb
  obtain rfl : c = c' := Option.some.inj (hc.symm.trans hc')
  obtain rfl : t = t' := Option.some.inj (ht.symm.trans ht')
  rfl

/-- A body that does not move comes to rest where it is. -/
theorem Solid.Placed.restingBox_eq {n : Nat} {bodies : Vector Solid n} {i : Fin n}
    (h : (bodies.get i).Placed) (pairs : List (Pair n)) :
    (bodies.get i).restingBox (contactsOf bodies pairs i) =
      (bodies.get i).bounds.translate ((bodies.get i).restingPosition (contactsOf bodies pairs i)) := by
  unfold Solid.restingBox
  split
  · rfl
  · next hfixed =>
    rw [contactsOf_of_fixed (by simpa using hfixed), Solid.restingPosition_of_free _ (by decide),
      h.current]

section Step

variable {ids : List EntityId}

/-- After a step a body stands where it came to rest. -/
theorem Gathered.stands_restingBox (h : Gathered w id ids solids) (hw' : w.Revalued w')
    {i : Fin solids.size} (hplaced : (solids.toVector.get i).Placed) {pairs : List (Pair solids.size)}
    (hsettled : Settled w w' (solids.toVector.get i) (contactsOf solids.toVector pairs i)) :
    Stands w' id (solids.toVector.get i).entity ((restingBoxes solids.toVector pairs).get i) := by
  obtain ⟨c, hget⟩ := Option.isSome_iff_exists.mp (h.supplied i).collider
  rw [get_restingBoxes, hplaced.restingBox_eq]
  exact hsettled.stands ((hw'.members id).trans h.members) (h.body i hget).1

/-- The collider of a member says which bodies it overlaps if the member is a body itself, and
is not solid and names no one otherwise. -/
def NamesOverlaps (solids : Array Solid) (e : EntityId) (c : Collider) : Prop :=
  (∃ i, (solids.toVector.get i).entity = e ∧ c.solid = true ∧
    c.report.collidingWith = restingOverlaps solids.toVector (candidatePairs solids.toVector)
      (restingBoxes solids.toVector (candidatePairs solids.toVector)) i) ∨
  (∀ i, (solids.toVector.get i).entity ≠ e) ∧ c.solid = false ∧ c.report.collidingWith = []

theorem exists_step_namesOverlaps (hc : w.Coherent) (hg : gather w id = .ok solids)
    (hm : w.members id = .ok ids) (m : ContactMemory) :
    ∃ w', step m id w = (m.observe (found w id), .ok () w') ∧ w.Revalued w' ∧
      ∀ e ∈ ids, ∃ c, w'.get? .collider e = some c ∧ NamesOverlaps solids e c := by
  obtain ⟨ids', h⟩ := exists_gathered hg
  obtain rfl : ids = ids' := Except.ok.inj (hm.symm.trans h.members)
  obtain ⟨w', hstep, hw', hin, hout⟩ := exists_step_reports hc hg m
  refine ⟨w', hstep, hw', fun e he => ?_⟩
  obtain ⟨c, hget⟩ := Option.isSome_iff_exists.mp (h.collider e he)
  by_cases hbody : ∃ i, (solids.toVector.get i).entity = e
  · obtain ⟨i, rfl⟩ := hbody
    exact ⟨_, hin i c hget, .inl ⟨i, rfl, (h.body i hget).2.1, rfl⟩⟩
  · rw [not_exists] at hbody
    obtain ⟨hsolid, hget'⟩ := hout ids e c h.members hbody hget
    rw [if_pos he] at hget'
    exact ⟨_, hget', .inr ⟨hbody, hsolid he, rfl⟩⟩

/-- After a step the solid members are the bodies, and each stands where it came to rest. -/
theorem exists_step_stands (hc : w.Coherent) (hg : gather w id = .ok solids)
    (hplaced : ∀ i, (solids.toVector.get i).Placed) (hm : w.members id = .ok ids)
    (m : ContactMemory) :
    ∃ w', step m id w = (m.observe (found w id), .ok () w') ∧ w.Revalued w' ∧
      (∀ e a, Stands w' id e a ↔ ∃ i, (solids.toVector.get i).entity = e ∧
        (restingBoxes solids.toVector (candidatePairs solids.toVector)).get i = a) ∧
      ∀ e ∈ ids, ∃ c, w'.get? .collider e = some c ∧ NamesOverlaps solids e c := by
  obtain ⟨_, h⟩ := exists_gathered hg
  obtain ⟨w', hstep, hw', hnames⟩ := exists_step_namesOverlaps hc hg hm m
  obtain ⟨_, w₁, hstep₁, _, hsettled⟩ := exists_step_settled hc hg m
  obtain rfl : w' = w₁ := by
    rw [hstep] at hstep₁
    simpa using (Prod.mk.inj hstep₁).2
  refine ⟨w', hstep, hw', fun e a => ⟨fun hstands => ?_, fun hbody => ?_⟩, hnames⟩
  · have ⟨ids', c', _, hm', he, hget', hsolid, _⟩ := hstands
    obtain rfl : ids = ids' := Except.ok.inj (hm.symm.trans ((hw'.members id).symm.trans hm'))
    obtain ⟨c, hget, hcases⟩ := hnames e he
    obtain rfl : c = c' := Option.some.inj (hget.symm.trans hget')
    rcases hcases with hbody | hno
    · obtain ⟨i, rfl, _⟩ := hbody
      exact ⟨i, rfl, (h.stands_restingBox hw' (hplaced i) (hsettled i)).unique hstands⟩
    · simp [hsolid] at hno
  · obtain ⟨i, rfl, rfl⟩ := hbody
    exact h.stands_restingBox hw' (hplaced i) (hsettled i)

end Step

/-! ## Overlaps after a step -/

/-- Two solid members share some volume where they stand. -/
def Meets (w : World) (id : SystemId) (e f : EntityId) : Prop :=
  f ≠ e ∧ ∃ a b, Stands w id e a ∧ Stands w id f b ∧ 0 < a.intersectionVolume b

theorem Meets.symm (hnum : ∀ e a, Stands w id e a → a.Numeric) (h : Meets w id e f) :
    Meets w id f e := by
  obtain ⟨hne, a, b, ha, hb, hpos⟩ := h
  refine ⟨hne.symm, b, a, hb, ha, ?_⟩
  rwa [Box.intersectionVolume_comm (hnum f b hb) (hnum e a ha)]

/-- The collider of a member is solid if the member stands anywhere, and says which others it
meets there. -/
structure NamesExactly (w : World) (id : SystemId) (e : EntityId) (c : Collider) : Prop where
  solid_iff : c.solid = true ↔ ∃ a, Stands w id e a
  ascending : c.report.collidingWith.Pairwise (· < ·)
  mem_iff : ∀ f, f ∈ c.report.collidingWith ↔ Meets w id e f

/-- Overlaps of bodies at rest are those of the members they stand for. -/
theorem NamesOverlaps.namesExactly {c : Collider} (h : NamesOverlaps solids e c)
    (hplaced : ∀ i, (solids.toVector.get i).Placed)
    (hasc : StrictMono fun i => (solids.toVector.get i).entity)
    (hstands : ∀ e a, Stands w id e a ↔ ∃ i, (solids.toVector.get i).entity = e ∧
      (restingBoxes solids.toVector (candidatePairs solids.toVector)).get i = a) :
    NamesExactly w id e c := by
  rcases h with hbody | hno
  · obtain ⟨i, rfl, hsolid, hlist⟩ := hbody
    obtain ⟨hascending, hmem⟩ := restingOverlaps_candidatePairs hplaced hasc
      (candidatePairs solids.toVector) i
    refine ⟨iff_of_true hsolid ⟨_, (hstands _ _).mpr ⟨i, rfl, rfl⟩⟩, hlist ▸ hascending, fun f => ?_⟩
    simp only [hlist, hmem, Meets, hstands]
    constructor
    · intro hf
      obtain ⟨j, hj, rfl, hpos⟩ := hf
      exact ⟨fun heq => hj (hasc.injective heq), _, _, ⟨i, rfl, rfl⟩, ⟨j, rfl, rfl⟩, hpos⟩
    · intro hf
      obtain ⟨hne, _, _, ⟨i', hi', rfl⟩, ⟨j, rfl, rfl⟩, hpos⟩ := hf
      obtain rfl : i' = i := hasc.injective hi'
      exact ⟨j, fun heq => hne (by rw [heq]), rfl, hpos⟩
  · obtain ⟨hnobody, hsolid, hlist⟩ := hno
    have hnowhere : ∀ a, ¬ Stands w id e a := by
      intro a hea
      obtain ⟨i, hi, _⟩ := (hstands e a).mp hea
      exact hnobody i hi
    constructor <;> simp [hsolid, hlist, hnowhere, Meets]

theorem exists_step_namesExactly (hc : w.Coherent) (ha : w.Asks id required)
    (hnum : NumericBoxes w id) (m : ContactMemory) :
    ∃ w' ids, step m id w = (m.observe (found w id), .ok () w') ∧ w.Revalued w' ∧
      w.members id = .ok ids ∧ (∀ e a, Stands w' id e a → a.Numeric) ∧
      ∀ e ∈ ids, ∃ c, w'.get? .collider e = some c ∧ NamesExactly w' id e c := by
  obtain ⟨solids, ids, hg, h, hplaced, hasc⟩ := exists_bodies hc ha hnum
  obtain ⟨w', hstep, hw', hstands, hnames⟩ := exists_step_stands hc hg hplaced h.members m
  refine ⟨w', ids, hstep, hw', h.members, fun e a hea => ?_, fun e he => ?_⟩
  · obtain ⟨i, _, rfl⟩ := (hstands e a).mp hea
    exact numeric_restingBoxes hplaced _ i
  · obtain ⟨c, hget, hcollider⟩ := hnames e he
    exact ⟨c, hget, hcollider.namesExactly hplaced hasc hstands⟩

/-- **Who a report names.** In a coherent world, as every world is that can be reached, and as
long as no box has a NaN, a step comes to its end and says of every member, in ascending order,
which others it shares some volume with where they stand now. So of two members either names
the other or neither does, and whoever is named is alive and solid. -/
theorem collidingWith_as_specified (hc : w.Coherent) (ha : w.Asks id required)
    (hnum : NumericBoxes w id) (m : ContactMemory) :
    ∃ w' ids, step m id w = (m.observe (found w id), .ok () w') ∧
      w.members id = .ok ids ∧ w'.members id = .ok ids ∧
      ∀ e ∈ ids, ∃ c, w'.get? .collider e = some c ∧ NamesExactly w' id e c ∧
        e ∉ c.report.collidingWith ∧
        (∀ f ∈ ids, ∀ d, w'.get? .collider f = some d →
          (f ∈ c.report.collidingWith ↔ e ∈ d.report.collidingWith)) ∧
        ∀ f ∈ c.report.collidingWith, w'.isAlive f = true ∧ f ∈ ids ∧
          ∃ d, w'.get? .collider f = some d ∧ d.solid = true := by
  obtain ⟨w', ids, hstep, hw', hm, hnumeric, hexact⟩ := exists_step_namesExactly hc ha hnum m
  have hm' : w'.members id = .ok ids := (hw'.members id).trans hm
  refine ⟨w', ids, hstep, hm, hm', fun e he => ?_⟩
  obtain ⟨c, hget, hnames⟩ := hexact e he
  refine ⟨c, hget, hnames, fun hself => ?_, fun f hf d hgetf => ?_, fun f hf => ?_⟩
  · exact ((hnames.mem_iff e).mp hself).1 rfl
  · obtain ⟨d', hgetf', hnamesf⟩ := hexact f hf
    obtain rfl : d' = d := Option.some.inj (hgetf'.symm.trans hgetf)
    rw [hnames.mem_iff, hnamesf.mem_iff]
    exact ⟨fun hef => hef.symm hnumeric, fun hfe => hfe.symm hnumeric⟩
  · obtain ⟨_, _, b, _, hb, _⟩ := (hnames.mem_iff f).mp hf
    have ⟨ids', d, _, hids', hfids, hgetf, hsolidf, _⟩ := hb
    obtain rfl : ids' = ids := Except.ok.inj (hids'.symm.trans hm')
    exact ⟨hb.isAlive (hw'.toRewritten.coherent hc), hfids, d, hgetf, hsolidf⟩

/-- A body that has moved into a corner, where neither axis blocks it: the two name each other. -/
theorem collidingWith_as_specified_corner :
    ∃ (w w' : World) (m m' : ContactMemory) (c d : Collider), World.Reachable w ∧
      w.Asks 0 required ∧ NumericBoxes w 0 ∧ step m 0 w = (m', .ok () w') ∧
      w'.get? .collider 0 = some c ∧ w'.get? .collider 1 = some d ∧
      c.report.collidingWith = [1] ∧ 0 ∈ d.report.collidingWith ∧ Meets w' 0 0 1 := by
  let mover : Body := { Body.immovable with fixed := false }
  let corner : Transform F32 := .ofPosition (.of3 (1 + Scalar.half) (1 + Scalar.half) 0)
  let w := twoCubes (.ofPosition (.of3 1 1 0)) corner mover
  have hreach : World.Reachable w := reachable_twoCubes _ corner mover
  have hasks : w.Asks 0 required := by decide +kernel
  have hnum : NumericBoxes w 0 := by decide +kernel
  have hmembers : w.members 0 = .ok [0, 1] := eq_ok_of_toOption (by decide +kernel)
  have htold : ((worldAfter (.new .standard) 0 w).get? .collider 0).map (·.report.collidingWith) =
      some [1] := by
    decide +kernel
  obtain ⟨w', ids, hstep, hm, _, hall⟩ :=
    collidingWith_as_specified hreach.coherent hasks hnum (.new .standard)
  obtain rfl : ids = [0, 1] := Except.ok.inj (hm.symm.trans hmembers)
  obtain ⟨c, hget, hnames, _, hsymm, _⟩ := hall 0 (by simp)
  obtain ⟨d, hgetd, _⟩ := hall 1 (by simp)
  have hlist : c.report.collidingWith = [1] := by
    rw [worldAfter_eq hstep, hget] at htold
    exact Option.some.inj htold
  have hone : 1 ∈ c.report.collidingWith := by simp [hlist]
  exact ⟨w, w', _, _, c, d, hreach, hasks, hnum, hstep, hget, hgetd, hlist,
    (hsymm 1 (by simp) d hgetd).mp hone, (hnames.mem_iff 1).mp hone⟩

end SceneEngine.Contact
