/-
What becomes of a moving body in a contact step, in terms of the world alone.

Pairs of the snapshot are gone through once, and each adds to what is known of both its
bodies. Of one body this is a pass over its partners (`contactsOf_eq_foldl`), and the
partners are all other bodies in ascending order. So the axes on which it is blocked and
those who block it can be told from the boxes of the other members where they stand when
the step begins. The bodies are resolved one after the other, but none is looked at again,
so their order does not matter either (`resolution_as_specified`).
-/
import SceneEngine.Proofs.Contact.Clearance
import SceneEngine.Proofs.Engine.Progress

namespace SceneEngine.Contact

/-! ## Partners -/

section Partners

variable {n : Nat} {bodies : Vector Solid n} {i : Fin n}

/-- The other body of a pair that body `i` is in. -/
def partner (i : Fin n) (p : Pair n) : Option (Fin n) :=
  if p.1 = i then some p.2 else if p.2 = i then some p.1 else none

/-- What a body ran into, partner by partner. -/
theorem contactsOf_eq_foldl (hdyn : (bodies.get i).dynamic = true) (pairs : List (Pair n)) :
    contactsOf bodies pairs i = (pairs.filterMap (partner i)).foldl
      (fun c j => meet (bodies.get i) (bodies.get j) c) .none := by
  rw [contactsOf, if_pos hdyn, List.foldl_filterMap]
  congr 1
  funext c p
  obtain ⟨a, b⟩ := p
  by_cases ha : a = i
  · simp [partner, ha]
  · by_cases hb : b = i <;> simp [partner, ha, hb]

theorem partner_eq_some_iff {p : Pair n} (hp : p.1 < p.2) {j : Fin n} :
    partner i p = some j ↔ p.1 = i ∧ p.2 = j ∨ p.1 = j ∧ p.2 = i := by
  unfold partner
  split
  · rw [Option.some.injEq]
    omega
  · split
    · rw [Option.some.injEq]
      omega
    · simp only [reduceCtorEq, false_iff]
      omega

theorem mem_partners {j : Fin n} : j ∈ (allPairs bodies).filterMap (partner i) ↔ j ≠ i := by
  rw [List.mem_filterMap]
  constructor
  · intro h
    obtain ⟨p, hp, hj⟩ := h
    rw [mem_allPairs] at hp
    have := (partner_eq_some_iff hp).mp hj
    omega
  · intro hj
    by_cases hlt : i < j
    · exact ⟨(i, j), mem_allPairs.mpr hlt, (partner_eq_some_iff hlt).mpr (.inl ⟨rfl, rfl⟩)⟩
    · have hgt : j < i := by omega
      exact ⟨(j, i), mem_allPairs.mpr hgt, (partner_eq_some_iff hgt).mpr (.inr ⟨rfl, rfl⟩)⟩

/-- Partners come in ascending order: those before the body are first in their pairs, and
those after it second. -/
theorem partners_pairwise : ((allPairs bodies).filterMap (partner i)).Pairwise (· < ·) := by
  rw [List.pairwise_filterMap]
  refine (allPairs_pairwise bodies).imp_of_mem fun {p q} hp hq hpq j hj k hk => ?_
  rw [mem_allPairs] at hp hq
  have hj := (partner_eq_some_iff hp).mp hj
  have hk := (partner_eq_some_iff hq).mp hk
  obtain ⟨hle, hne⟩ := hpq
  simp only [Pair.le, decide_eq_true_eq] at hle
  have hne : ¬ (p.1 = q.1 ∧ p.2 = q.2) := fun h => hne (Prod.ext h.1 h.2)
  omega

/-! ## Those who block -/

/-- Whether `other` is in the way of `mover` on some axis. -/
def touches (mover other : Solid) : Bool := (List.finRange 3).any (blocks mover other)

theorem touches_iff {mover other : Solid} :
    touches mover other = true ↔ ∃ k, blocks mover other k = true := by
  simp [touches]

theorem blockedBy_foldl (mover : Solid) (l : List (Fin n)) (c : AxisContacts) :
    (l.foldl (fun c j => meet mover (bodies.get j) c) c).blockedBy = c.blockedBy ++
      (l.filter fun j => touches mover (bodies.get j)).map fun j => (bodies.get j).entity := by
  induction l generalizing c with
  | nil => simp
  | cons j rest ih =>
    rw [List.foldl_cons, ih]
    have hmeet : (meet mover (bodies.get j) c).blockedBy =
        if touches mover (bodies.get j) then c.blockedBy ++ [(bodies.get j).entity] else c.blockedBy :=
      rfl
    cases ht : touches mover (bodies.get j) <;> simp [hmeet, ht]

/-- The blockers of a body are the other bodies that are in its way on some axis, in
ascending order. -/
theorem blockedBy_contactsOf (h : ∀ i, (bodies.get i).Placed)
    (hasc : StrictMono fun i => (bodies.get i).entity) (hdyn : (bodies.get i).dynamic = true) :
    (contactsOf bodies (candidatePairs bodies) i).blockedBy.Pairwise (· < ·) ∧
      ∀ f, f ∈ (contactsOf bodies (candidatePairs bodies) i).blockedBy ↔
        ∃ j, j ≠ i ∧ (bodies.get j).entity = f ∧ ∃ k, blocks (bodies.get i) (bodies.get j) k = true := by
  rw [candidatePairs_eq_filter fun i => (h i).forward, contactsOf_filter h,
    contactsOf_eq_foldl hdyn, blockedBy_foldl]
  have hnone : AxisContacts.none.blockedBy = [] := rfl
  rw [hnone, List.nil_append]
  constructor
  · exact (partners_pairwise.filter _).map _ fun _ _ hlt => hasc hlt
  · intro f
    simp only [List.mem_map, List.mem_filter, mem_partners, touches_iff]
    constructor
    · intro hf
      obtain ⟨j, ⟨hj, hk⟩, rfl⟩ := hf
      exact ⟨j, hj, rfl, hk⟩
    · intro hf
      obtain ⟨j, hj, rfl, hk⟩ := hf
      exact ⟨j, ⟨hj, hk⟩, rfl⟩

end Partners

theorem sortBy_of_ascending {l : List EntityId} (h : l.Pairwise (· < ·)) :
    sortBy (fun e f => decide (e ≤ f)) l = l := by
  rw [sortBy_eq_insertionSort]
  exact (h.imp fun hlt => decide_eq_true (Nat.le_of_lt hlt)).insertionSort_eq

/-! ## The components of a body that was resolved -/

section Settled

variable {n : Nat} {bodies : Vector Solid n} {i : Fin n} {p : Parts}

theorem settled_collider (hdyn : (bodies.get i).dynamic = true) {c : Collider}
    (hc : p .collider = some c) (config : PhysicsConfig) (pairs : List (Pair n)) :
    ∃ c', settled config bodies pairs i p .collider = some c' ∧
      c'.report.blockedAxes = (contactsOf bodies pairs i).blocked ∧
      c'.report.blockedBy =
        sortBy (fun e f => decide (e ≤ f)) (contactsOf bodies pairs i).blockedBy ∧
      c'.report.wasOnGround = c.report.onGround := by
  simp [settled, reported, relieved, resolved, hdyn, hc]

theorem settled_transform (hdyn : (bodies.get i).dynamic = true) {t : Transform F32}
    (ht : p .transform = some t) (hposition : (bodies.get i).position = t.position)
    (config : PhysicsConfig) (pairs : List (Pair n)) :
    ∃ t', settled config bodies pairs i p .transform = some t' ∧
      t'.position = (bodies.get i).restingPosition (contactsOf bodies pairs i) := by
  cases hb : (contactsOf bodies pairs i).isBlocked with
  | true =>
    refine ⟨t.setPosition ((bodies.get i).restingPosition (contactsOf bodies pairs i)), ?_, rfl⟩
    simp [settled, reported, relieved, resolved, hdyn, ht, hb]
  | false =>
    refine ⟨t, by simp [settled, reported, relieved, resolved, hdyn, ht, hb], ?_⟩
    rw [Solid.restingPosition_of_free _ (by simp [hb]), hposition]

theorem settled_body (hdyn : (bodies.get i).dynamic = true) {b : Body} (hb : p .body = some b)
    (config : PhysicsConfig) (pairs : List (Pair n)) :
    ∃ b', settled config bodies pairs i p .body = some b' ∧
      b' = { b with velocity := b'.velocity } ∧
      (b'.velocity ≠ b.velocity → (contactsOf bodies pairs i).isBlocked = true) := by
  cases hblocked : (contactsOf bodies pairs i).isBlocked <;>
    simp [settled, reported, relieved, resolved, hdyn, hb, hblocked]

end Settled

/-! ## Movers -/

variable {w w' : World} {id : SystemId} {e f : EntityId} {c : Collider} {t : Transform F32} {b : Body}
  {k : Fin 3}

/-- The member `f` is in the way of a body on axis `k`: the body has moved on that axis from
`q` to `p`, and its box, moved from `q` along this axis alone, meets that of `f` where it
stands. -/
def InTheWay (w : World) (id : SystemId) (e : EntityId) (bounds : Box F32) (q p : Vec F32 3)
    (k : Fin 3) (f : EntityId) : Prop :=
  Scalar.same p[k] q[k] = false ∧ f ≠ e ∧
    ∃ box, Stands w id f box ∧ (bounds.translate (q.set k p[k])).intersects box = true

/-- The components of a solid member with a body that is not fixed. -/
structure Mover (w : World) (id : SystemId) (e : EntityId) (c : Collider) (t : Transform F32)
    (b : Body) : Prop where
  member : ∃ ids, w.members id = .ok ids ∧ e ∈ ids
  collider : w.get? .collider e = some c
  solid : c.solid = true
  transform : w.get? .transform e = some t
  body : w.get? .body e = some b
  loose : b.fixed = false

/-- What a step from `w` to `w'` has made of a mover. -/
structure Resolution (w w' : World) (id : SystemId) (e : EntityId) (c : Collider) (t : Transform F32)
    (b : Body) (c' : Collider) (t' : Transform F32) (b' : Body) : Prop where
  collider : w'.get? .collider e = some c'
  transform : w'.get? .transform e = some t'
  body : w'.get? .body e = some b'
  blockedAxes : ∀ k : Fin 3, c'.report.blockedAxes[k] = true ↔
    ∃ f, InTheWay w id e c.bounds b.previousPosition t.position k f
  position : ∀ k : Fin 3, t'.position[k] =
    if c'.report.blockedAxes[k] then b.previousPosition[k] else t.position[k]
  ascending : c'.report.blockedBy.Pairwise (· < ·)
  blockedBy : ∀ f, f ∈ c'.report.blockedBy ↔
    ∃ k, InTheWay w id e c.bounds b.previousPosition t.position k f
  /-- Nothing of a body but its velocity changes, and that only if an axis is blocked. -/
  velocity : b' = { b with velocity := b'.velocity } ∧
    (b'.velocity ≠ b.velocity → ∃ k : Fin 3, c'.report.blockedAxes[k] = true)
  wasOnGround : c'.report.wasOnGround = c.report.onGround

section Snapshot

variable {ids : List EntityId} {solids : Array Solid} {i : Fin solids.size}

/-- A mover is a body of the snapshot. -/
theorem Mover.exists_solid (h : Mover w id e c t b) (hg : Gathered w id ids solids) :
    ∃ i, solids.toVector.get i = .ofComponents e c t (some b) := by
  obtain ⟨ids', hm, he⟩ := h.member
  obtain rfl : ids = ids' := Except.ok.inj (hg.members.symm.trans hm)
  have hmem : Solid.ofComponents e c t (some b) ∈ solids := by
    refine (hg.mem_iff _).mpr ⟨e, he,
      snapshot_eq_some_iff.mpr ⟨c, t, h.collider, h.solid, h.transform, ?_⟩⟩
    rw [h.body]
  obtain ⟨i, hi⟩ := exists_get_of_mem hmem
  exact ⟨i, hi.symm⟩

theorem Mover.dynamic (h : Mover w id e c t b)
    (hi : solids.toVector.get i = .ofComponents e c t (some b)) :
    (solids.toVector.get i).dynamic = true := by
  simp [hi, Solid.ofComponents, h.loose]

/-- Another body of the snapshot is in the way of a mover when the member it stands for is. -/
theorem Mover.inTheWay_iff (h : Mover w id e c t b) (hg : Gathered w id ids solids)
    (hasc : StrictMono fun i => (solids.toVector.get i).entity)
    (hi : solids.toVector.get i = .ofComponents e c t (some b)) :
    InTheWay w id e c.bounds b.previousPosition t.position k f ↔ ∃ j, j ≠ i ∧
      (solids.toVector.get j).entity = f ∧
      blocks (solids.toVector.get i) (solids.toVector.get j) k = true := by
  have hblocks : ∀ o, blocks (solids.toVector.get i) o k = true ↔
      Scalar.same t.position[k] b.previousPosition[k] = false ∧
        (c.bounds.translate (b.previousPosition.set k t.position[k])).intersects o.current = true := by
    intro o
    simp [hi, blocks, Solid.alongAxis, Solid.ofComponents, h.loose]
  have hentity : (solids.toVector.get i).entity = e := by
    rw [hi]
    rfl
  simp only [InTheWay, hg.stands_iff, hblocks]
  constructor
  · intro hway
    obtain ⟨hmoved, hne, box, ⟨s, hs, hf, hbox⟩, hmeets⟩ := hway
    obtain ⟨j, rfl⟩ := exists_get_of_mem hs
    refine ⟨j, fun hj => hne ?_, hf, hmoved, hbox ▸ hmeets⟩
    rw [← hf, hj, hentity]
  · intro hway
    obtain ⟨j, hj, hf, hmoved, hmeets⟩ := hway
    refine ⟨hmoved, fun hfe => hj (hasc.injective ?_), _,
      ⟨_, Array.getElem_mem j.isLt, hf, rfl⟩, hmeets⟩
    exact hf.trans (hfe.trans hentity.symm)

/-- What a step has made of the components of a mover, read off them. -/
theorem Mover.exists_resolution {config : PhysicsConfig} (h : Mover w id e c t b)
    (hg : Gathered w id ids solids) (hplaced : ∀ i, (solids.toVector.get i).Placed)
    (hasc : StrictMono fun i => (solids.toVector.get i).entity)
    (hi : solids.toVector.get i = .ofComponents e c t (some b))
    (hparts : w'.parts e = settled config solids.toVector (candidatePairs solids.toVector) i
      (w.parts e)) : ∃ c' t' b', Resolution w w' id e c t b c' t' b' := by
  have hdyn := h.dynamic hi
  obtain ⟨hascending, hblockedBy⟩ := blockedBy_contactsOf hplaced hasc hdyn
  have hblocked : ∀ k : Fin 3, _ ↔ _ := fun k => blocked_iff hplaced hdyn (k := k)
  have hget : ∀ k, w'.get? k e = settled config solids.toVector (candidatePairs solids.toVector) i
      (w.parts e) k := congrFun hparts
  have hposition : (solids.toVector.get i).position = t.position := by
    rw [hi]
    rfl
  have hprevious : (solids.toVector.get i).previous = b.previousPosition := by
    simp [hi, Solid.ofComponents, h.loose]
  obtain ⟨c', hc', haxes, hby, hground⟩ := settled_collider hdyn (p := w.parts e) h.collider config
    (candidatePairs solids.toVector)
  obtain ⟨t', ht', hrest⟩ := settled_transform hdyn (p := w.parts e) h.transform hposition config
    (candidatePairs solids.toVector)
  obtain ⟨b', hb', hsame, hstruck⟩ := settled_body hdyn (p := w.parts e) h.body config
    (candidatePairs solids.toVector)
  rw [sortBy_of_ascending hascending] at hby
  refine ⟨c', t', b', (hget _).trans hc', (hget _).trans ht', (hget _).trans hb', fun k => ?_,
    fun k => ?_, hby ▸ hascending, fun f => ?_, ⟨hsame, fun hne => ?_⟩, hground⟩
  · rw [haxes, hblocked]
    simp only [h.inTheWay_iff hg hasc hi]
    constructor
    · intro hj
      obtain ⟨j, hj, hk⟩ := hj
      exact ⟨_, j, hj, rfl, hk⟩
    · intro hf
      obtain ⟨_, j, hj, _, hk⟩ := hf
      exact ⟨j, hj, hk⟩
  · rw [haxes, hrest, Solid.restingPosition, Vec.getElem_ofFn, hposition, hprevious]
  · rw [hby, hblockedBy]
    simp only [h.inTheWay_iff hg hasc hi]
    constructor
    · intro hj
      obtain ⟨j, hj, hf, k, hk⟩ := hj
      exact ⟨k, j, hj, hf, hk⟩
    · intro hk
      obtain ⟨k, j, hj, hf, hk⟩ := hk
      exact ⟨j, hj, hf, k, hk⟩
  · rw [haxes]
    exact AxisContacts.isBlocked_iff.mp (hstruck hne)

end Snapshot

/-! ## A step -/

variable {solids : Array Solid} {m m' : ContactMemory}

/-- The order in which bodies are resolved makes no difference to any entity. -/
theorem exists_stepIn_same {order : (n : Nat) → List (Fin n)}
    (horder : ∀ n, (order n).Perm (List.finRange n)) (hc : w.Coherent)
    (hg : gather w id = .ok solids) (hstep : step m id w = (m', .ok () w')) :
    ∃ w'', stepIn order m id w = (m', .ok () w'') ∧ ∀ x, w''.parts x = w'.parts x := by
  obtain ⟨ids, h⟩ := exists_gathered hg
  obtain ⟨w₁, hstep₁, _, hin₁, hout₁⟩ := exists_step_parts hc hg m
  obtain ⟨w₂, hstep₂, _, hin₂, hout₂⟩ := exists_stepIn_parts horder hc hg m
  rw [hstep] at hstep₁
  simp only [Prod.mk.injEq, EStateM.Result.ok.injEq, true_and] at hstep₁
  obtain ⟨rfl, rfl⟩ := hstep₁
  refine ⟨w₂, hstep₂, fun x => ?_⟩
  by_cases hx : ∃ i, (solids.toVector.get i).entity = x
  · obtain ⟨i, rfl⟩ := hx
    rw [hin₁, hin₂]
  · rw [not_exists] at hx
    rw [hout₁ x ids h.members hx, hout₂ x ids h.members hx]

/-- What becomes of a body is told by the snapshot and its own components. -/
theorem exists_step_alike {v : World} {jd : SystemId} {m₂ : ContactMemory}
    (hc : w.Coherent) (hg : gather w id = .ok solids) (hstep : step m id w = (m', .ok () w'))
    (hv : v.Coherent) (hgv : gather v jd = .ok solids) (hconfig : m₂.config = m.config) :
    ∃ v', step m₂ jd v = (m₂.observe (found v jd), .ok () v') ∧
      ∀ i, v.parts (solids.toVector.get i).entity = w.parts (solids.toVector.get i).entity →
        v'.parts (solids.toVector.get i).entity = w'.parts (solids.toVector.get i).entity := by
  obtain ⟨w₁, hstep₁, _, hin₁, _⟩ := exists_step_parts hc hg m
  obtain ⟨v', hstep₂, _, hin₂, _⟩ := exists_step_parts hv hgv m₂
  rw [hstep] at hstep₁
  simp only [Prod.mk.injEq, EStateM.Result.ok.injEq, true_and] at hstep₁
  obtain ⟨-, rfl⟩ := hstep₁
  refine ⟨v', hstep₂, fun i hparts => ?_⟩
  rw [hin₁, hin₂, hconfig, hparts]

/-- **Resolution follows its specification.** In a coherent world, as every world is that can
be reached, and as long as no box has a NaN, a step comes to its end and resolves every mover
as `Resolution` says, which is in terms of where the members stand when it begins. Bodies may
be resolved in any order. And from any world with the same snapshot a step makes the same of
a mover with the same components, whatever the others have. -/
theorem resolution_as_specified (hc : w.Coherent) (ha : w.Asks id required)
    (hnum : NumericBoxes w id) (m : ContactMemory) :
    ∃ w', step m id w = (m.observe (found w id), .ok () w') ∧
      (∀ e c t b, Mover w id e c t b → ∃ c' t' b', Resolution w w' id e c t b c' t' b') ∧
      (∀ order : (n : Nat) → List (Fin n), (∀ n, (order n).Perm (List.finRange n)) →
        ∃ w'', stepIn order m id w = (m.observe (found w id), .ok () w'') ∧
          ∀ x, w''.parts x = w'.parts x) ∧
      ∀ v jd m₂, v.Coherent → gather v jd = gather w id → m₂.config = m.config →
        ∃ v', step m₂ jd v = (m₂.observe (found v jd), .ok () v') ∧
          ∀ e c t b, Mover w id e c t b → v.parts e = w.parts e → v'.parts e = w'.parts e := by
  obtain ⟨solids, hg⟩ := exists_gather_of_asks hc ha
  obtain ⟨ids, h⟩ := exists_gathered hg
  have hplaced : ∀ i, (solids.toVector.get i).Placed := fun i =>
    hnum.placed hg (Array.getElem_mem i.isLt)
  have hasc := h.strictMono (hc.members_ascending h.members)
  obtain ⟨w', hstep, _, hin, _⟩ := exists_step_parts hc hg m
  refine ⟨w', hstep, fun e c t b hmover => ?_, fun order horder => ?_, ?_⟩
  · obtain ⟨i, hi⟩ := hmover.exists_solid h
    have hparts := hin i
    rw [hi] at hparts
    exact hmover.exists_resolution h hplaced hasc hi hparts
  · exact exists_stepIn_same horder hc hg hstep
  · intro v jd m₂ hv hgv hconfig
    obtain ⟨v', hstepv, hsame⟩ := exists_step_alike hc hg hstep hv (hgv.trans hg) hconfig
    refine ⟨v', hstepv, fun e c t b hmover hparts => ?_⟩
    obtain ⟨i, hi⟩ := hmover.exists_solid h
    have hentity : (solids.toVector.get i).entity = e := by
      rw [hi]
      rfl
    subst hentity
    exact hsame i hparts

/-- Two places half a unit apart. -/
def nested (e : EntityId) : Transform F32 :=
  .ofPosition (.of3 (if e = 0 then 1 else 1 + Scalar.half) 0 0)

/-- Two bodies that were three units apart before. -/
def approaching (e : EntityId) : Body :=
  { Body.immovable with fixed := false, previousPosition := .of3 (.ofNat (3 * e)) 0 0 }

/-- Two bodies that have moved into each other: each blocks the other and both are put back,
also when the second is resolved first. -/
theorem resolution_as_specified_both_back :
    ∃ (w w' w'' : World) (m m' : ContactMemory), World.Reachable w ∧ w.Asks 0 required ∧
      NumericBoxes w 0 ∧ step m 0 w = (m', .ok () w') ∧
      (∀ e f : EntityId, (e, f) ∈ [(0, 1), (1, 0)] → ∃ c t b c' t' b',
        Mover w 0 e c t b ∧ t.position ≠ b.previousPosition ∧
        Resolution w w' 0 e c t b c' t' b' ∧ c'.report.blockedBy = [f] ∧
        t'.position = b.previousPosition) ∧
      stepIn (fun n => (List.finRange n).reverse) m 0 w = (m', .ok () w'') ∧
      ∀ x, w''.parts x = w'.parts x := by
  let w := (twoCubes (nested 0) (nested 1) (approaching 0)).after
    (World.serve (.add .body 1 (approaching 1)))
  have hreach : World.Reachable w := .serve _ (reachable_twoCubes _ _ _)
  have hasks : w.Asks 0 required := by decide +kernel
  have hnum : NumericBoxes w 0 := by decide +kernel
  have hmembers : w.members 0 = .ok [0, 1] := eq_ok_of_toOption (by decide +kernel)
  have hmovers : ∀ e ∈ [0, 1], w.get? .collider e = some unitCube ∧
      w.get? .transform e = some (nested e) ∧ w.get? .body e = some (approaching e) ∧
      (nested e).position ≠ (approaching e).previousPosition := by
    decide +kernel
  have htold : ∀ p ∈ [(0, 1), (1, 0)],
      ((worldAfter (.new .standard) 0 w).get? .collider p.1).map (·.report.blockedBy) = some [p.2] ∧
      ((worldAfter (.new .standard) 0 w).get? .transform p.1).map (·.position) =
        some (approaching p.1).previousPosition := by
    decide +kernel
  obtain ⟨w', hstep, hresolved, horder, _⟩ :=
    resolution_as_specified hreach.coherent hasks hnum (.new .standard)
  obtain ⟨w'', hstepIn, hsame⟩ := horder (fun n => (List.finRange n).reverse) fun n =>
    List.reverse_perm _
  refine ⟨w, w', w'', _, _, hreach, hasks, hnum, hstep, fun e f hef => ?_, hstepIn, hsame⟩
  have he : e ∈ [0, 1] := List.mem_map_of_mem (f := Prod.fst) hef
  obtain ⟨hc, ht, hb, hmoved⟩ := hmovers e he
  have hmover : Mover w 0 e unitCube (nested e) (approaching e) :=
    ⟨⟨_, hmembers, he⟩, hc, rfl, ht, hb, rfl⟩
  obtain ⟨c', t', b', hr⟩ := hresolved _ _ _ _ hmover
  obtain ⟨hby, hposition⟩ := htold _ hef
  rw [worldAfter_eq hstep, hr.collider] at hby
  rw [worldAfter_eq hstep, hr.transform] at hposition
  exact ⟨_, _, _, c', t', b', hmover, hmoved, hr, Option.some.inj hby, Option.some.inj hposition⟩

end SceneEngine.Contact
