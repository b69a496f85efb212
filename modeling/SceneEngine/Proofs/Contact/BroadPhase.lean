/-
The broad phase cannot be seen.

A pair has an effect on a step in three ways only: one body blocks the other on an
axis, the two overlap where they stand, or they overlap where they come to rest. Every
box these tests look at has each coordinate from the start of a movement or from its
end, so the swept box covers it, and boxes that overlap have covers that meet along the
X axis. A pair that is not near therefore changes nothing, and leaving such pairs out
leaves a step as it is.
-/
import SceneEngine.Contact.Step
import SceneEngine.Proofs.Contact.Pairs
import SceneEngine.Proofs.Contact.Snapshot
import SceneEngine.Proofs.World.Requests

namespace SceneEngine.Contact

/-! ## Boxes of a body -/

/-- A body without a NaN in its box, which its swept box takes in. -/
structure Solid.Standing (s : Solid) : Prop where
  swept : ∃ b : Box F32, s.swept = b.union s.current
  numeric_current : s.current.Numeric

theorem Solid.Standing.forward {s : Solid} (h : s.Standing) :
    s.swept.lower.x ≤ s.swept.upper.x := by
  obtain ⟨b, hb⟩ := h.swept
  rw [hb]
  exact Box.lower_union_le_upper b h.numeric_current 0

theorem Solid.Standing.covers_current {s : Solid} (h : s.Standing) :
    s.swept.Covers s.current := by
  obtain ⟨b, hb⟩ := h.swept
  rw [hb]
  exact Box.covers_union_right b h.numeric_current

/-- A body whose boxes are where it says, at both ends of its movement without a NaN. -/
structure Solid.Placed (s : Solid) : Prop where
  current : s.current = s.bounds.translate s.position
  swept : s.swept = (s.bounds.translate s.previous).union s.current
  numeric_previous : (s.bounds.translate s.previous).Numeric
  numeric_current : s.current.Numeric

namespace Solid.Placed

variable {s t : Solid}

theorem standing (h : s.Placed) : s.Standing := ⟨⟨_, h.swept⟩, h.numeric_current⟩

theorem forward (h : s.Placed) : s.swept.lower.x ≤ s.swept.upper.x := h.standing.forward

theorem covers_translate (h : s.Placed) {p : Vec F32 3}
    (hp : ∀ k : Fin 3, p[k] = s.previous[k] ∨ p[k] = s.position[k]) :
    s.swept.Covers (s.bounds.translate p) := by
  rw [h.swept, h.current]
  exact Box.covers_translate h.numeric_previous (h.current ▸ h.numeric_current) hp

theorem covers_current (h : s.Placed) : s.swept.Covers s.current := h.standing.covers_current

theorem covers_alongAxis (h : s.Placed) (k : Fin 3) : s.swept.Covers (s.alongAxis k) := by
  refine h.covers_translate fun j => ?_
  rw [Vec.set, Vec.getElem_ofFn]
  split
  · next hj => exact .inr (by rw [hj])
  · exact .inl rfl

theorem covers_restingBox (h : s.Placed) (c : AxisContacts) : s.swept.Covers (s.restingBox c) := by
  unfold Solid.restingBox
  split
  · refine h.covers_translate fun k => ?_
    rw [Solid.restingPosition, Vec.getElem_ofFn]
    split
    · exact .inl rfl
    · exact .inr rfl
  · exact h.covers_current

end Solid.Placed

/-- Bodies reach each other when boxes on their ways intersect. -/
theorem reaches_of_intersects {s t : Solid} {a b : Box F32} (ha : s.swept.Covers a)
    (hb : t.swept.Covers b) (h : a.intersects b = true) : reaches s t = true := by
  have hst := ha.meets hb h 0
  have hts := hb.meets ha (Box.intersects_comm a b ▸ h) 0
  simp only [reaches, Bool.and_eq_true, decide_eq_true_eq]
  exact ⟨hst, hts⟩

/-! ## Pairs that are not near -/

section Pairs

variable {n : Nat} {bodies : Vector Solid n}

theorem near_of_blocks (h : ∀ i, (bodies.get i).Placed) {i j : Fin n} {k : Fin 3}
    (hi : (bodies.get i).dynamic = true) (hb : blocks (bodies.get i) (bodies.get j) k = true) :
    near bodies (i, j) = true := by
  rw [blocks, Bool.and_eq_true] at hb
  have hreach := reaches_of_intersects ((h i).covers_alongAxis k) (h j).covers_current hb.2
  simp [near, matters, hreach, hi]

theorem meet_eq_self {mover other : Solid} (h : ∀ k, blocks mover other k = false)
    (c : AxisContacts) : meet mover other c = c := by
  have hblocked : (Vec.ofFn fun k : Fin 3 => c.blocked[k]) = c.blocked := Vec.ext fun k => by simp
  have hbelow : (Vec.ofFn fun k : Fin 3 => c.fromBelow[k]) = c.fromBelow := Vec.ext fun k => by simp
  simp [meet, h, hblocked, hbelow]

/-- A body that moves is touched by no body it is not near to. -/
theorem meet_of_not_near (h : ∀ i, (bodies.get i).Placed) {i j : Fin n}
    (hi : (bodies.get i).dynamic = true) (hn : near bodies (i, j) = false) (c : AxisContacts) :
    meet (bodies.get i) (bodies.get j) c = c := by
  refine meet_eq_self (fun k => ?_) c
  rw [← Bool.not_eq_true]
  exact fun hb => by simp [near_of_blocks h hi hb] at hn

theorem contactsOf_filter (h : ∀ i, (bodies.get i).Placed) (pairs : List (Pair n)) (i : Fin n) :
    contactsOf bodies (pairs.filter (near bodies)) i = contactsOf bodies pairs i := by
  unfold contactsOf
  split
  · next hi =>
    rw [List.foldl_filter]
    congr 1
    funext c (a, b)
    cases hn : near bodies (a, b) with
    | true => rfl
    | false =>
      simp only [Bool.false_eq_true, if_false]
      split
      · next ha =>
        subst ha
        rw [meet_of_not_near h hi hn]
      split
      · next hb =>
        subst hb
        rw [near_swap] at hn
        rw [meet_of_not_near h hi hn]
      · rfl
  · rfl

theorem near_of_overlap (h : ∀ i, (bodies.get i).Standing) {i j : Fin n}
    (hpos : 0 < (bodies.get i).current.intersectionVolume (bodies.get j).current) :
    near bodies (i, j) = true := by
  have hint := Box.intersects_of_volume_pos (h i).numeric_current (h j).numeric_current hpos
  have hreach := reaches_of_intersects (h i).covers_current (h j).covers_current hint
  simp [near, matters, hreach, hint]

/-- For overlaps it does not matter where the bodies were before. -/
theorem overlaps_filter_of_standing (h : ∀ i, (bodies.get i).Standing) (pairs : List (Pair n)) :
    overlaps bodies (pairs.filter (near bodies)) = overlaps bodies pairs := by
  unfold overlaps
  rw [List.filterMap_filter]
  congr 1
  funext (i, j)
  cases hn : near bodies (i, j) with
  | true => rfl
  | false =>
    have hpos : ¬ 0 < (bodies.get i).current.intersectionVolume (bodies.get j).current := fun hpos => by
      simp [near_of_overlap h hpos] at hn
    simp [hpos]

theorem overlaps_filter (h : ∀ i, (bodies.get i).Placed) (pairs : List (Pair n)) :
    overlaps bodies (pairs.filter (near bodies)) = overlaps bodies pairs :=
  overlaps_filter_of_standing (fun i => (h i).standing) pairs

/-- Bodies that overlap at rest are near: where neither moves, they rest where they stand. -/
theorem near_of_restingOverlap (h : ∀ i, (bodies.get i).Placed) {i j : Fin n} {c d : AxisContacts}
    (hpos : 0 < ((bodies.get i).restingBox c).intersectionVolume ((bodies.get j).restingBox d)) :
    near bodies (i, j) = true := by
  have hci := (h i).covers_restingBox c
  have hcj := (h j).covers_restingBox d
  have hint := Box.intersects_of_volume_pos hci.numeric hcj.numeric hpos
  rw [near, reaches_of_intersects hci hcj hint, Bool.true_and, matters]
  cases hi : (bodies.get i).dynamic with
  | true => rfl
  | false =>
    cases hj : (bodies.get j).dynamic with
    | true => rfl
    | false => simpa [Solid.restingBox, hi, hj] using hint

theorem restingOverlaps_filter (h : ∀ i, (bodies.get i).Placed) (pairs : List (Pair n))
    (resting : Vector (Box F32) n) (hr : ∀ i, ∃ c, resting.get i = (bodies.get i).restingBox c)
    (i : Fin n) :
    restingOverlaps bodies (pairs.filter (near bodies)) resting i =
      restingOverlaps bodies pairs resting i := by
  unfold restingOverlaps
  rw [List.filterMap_filter]
  congr 2
  funext (a, b)
  cases hn : near bodies (a, b) with
  | true => rfl
  | false =>
    have hpos : ¬ 0 < (resting.get a).intersectionVolume (resting.get b) := by
      obtain ⟨c, hc⟩ := hr a
      obtain ⟨d, hd⟩ := hr b
      rw [hc, hd]
      exact fun hpos => by simp [near_of_restingOverlap h hpos] at hn
    simp [hpos]

/-- Pairs that are not near leave no trace in what is resolved and reported. -/
theorem settle_filter (h : ∀ i, (bodies.get i).Placed) (config : PhysicsConfig)
    (pairs : List (Pair n)) (id : SystemId) :
    settle config bodies (pairs.filter (near bodies)) id = settle config bodies pairs id := by
  have hcontacts : contactsOf bodies (pairs.filter (near bodies)) = contactsOf bodies pairs :=
    funext (contactsOf_filter h pairs)
  have hresting := restingOverlaps_filter h pairs
    (Vector.ofFn fun i : Fin n =>
      (bodies.get i).restingBox ((Vector.ofFn (contactsOf bodies pairs)).get i))
    fun i => ⟨_, Vector.getElem_ofFn i.isLt⟩
  simp only [settle, hcontacts, hresting]

end Pairs

/-! ## The snapshot -/

/-- No body of the snapshot has a NaN in its box, where it stands or where it was. -/
def NumericBoxes (w : World) (id : SystemId) : Prop :=
  ∀ solids, gather w id = .ok solids → ∀ s ∈ solids,
    (s.bounds.translate s.position).Numeric ∧ (s.bounds.translate s.previous).Numeric

instance (w : World) (id : SystemId) : Decidable (NumericBoxes w id) :=
  match hg : gather w id with
  | .error _ => .isTrue fun _ h => by simp [hg] at h
  | .ok solids =>
    decidable_of_iff (∀ s ∈ solids.toList,
      (s.bounds.translate s.position).Numeric ∧ (s.bounds.translate s.previous).Numeric)
      (by simp [NumericBoxes, hg])

theorem NumericBoxes.placed {w : World} {id : SystemId} (h : NumericBoxes w id)
    {solids : Array Solid} (hg : gather w id = .ok solids) {s : Solid} (hs : s ∈ solids) :
    s.Placed := by
  obtain ⟨hpos, hprev⟩ := h solids hg s hs
  obtain ⟨ids, hgathered⟩ := exists_gathered hg
  obtain ⟨e, _, hsnap⟩ := (hgathered.mem_iff s).mp hs
  obtain ⟨c, t, _, _, _, rfl⟩ := snapshot_eq_some_iff.mp hsnap
  exact ⟨rfl, rfl, hprev, hpos⟩

/-- **The broad phase cannot be seen.** As long as no box has a NaN, a step over the
candidate pairs is the step over all pairs: the same world or error, the same events
told and dropped, the same pairs remembered. -/
theorem step_eq_stepOver_allPairs (m : ContactMemory) {id : SystemId} {w : World}
    (h : NumericBoxes w id) : step m id w = stepOver allPairs m id w := by
  unfold step stepOver
  split
  · rfl
  · next solids hg =>
    have hplaced : ∀ i, (solids.toVector.get i).Placed := fun i =>
      h.placed hg (Array.getElem_mem i.isLt)
    have hcand := candidatePairs_eq_filter fun i => (hplaced i).forward
    simp only [hcand, overlaps_filter hplaced, settle_filter hplaced]

/-- A body that fell on another, and a third far from both. -/
theorem step_eq_stepOver_allPairs_fall :
    ∃ (w : World) (m : ContactMemory), World.Reachable w ∧ NumericBoxes w 0 ∧
      step m 0 w = stepOver allPairs m 0 w ∧ (step m 0 w).1.activePairs = [(0, 1)] := by
  let w₀ : World := ⟨.withLimit 3, .new 8, .empty, .single⟩
  let cubes := Request.cube 0 .origin ++ Request.cube 1 .origin ++
    Request.cube 2 (.ofPosition (.of3 (.ofNat 9) 0 0))
  let faller : Body := { Body.immovable with fixed := false, previousPosition := .of3 0 (.ofNat 4) 0 }
  let w := (w₀.after (World.registerSystemFor systemName required)).serving
    (cubes ++ [.add .body 0 faller])
  have hnew : World.new ⟨3, 8⟩ .single = .ok w₀ := rfl
  have hreach : World.Reachable w := .serving (.registerSystemFor _ _ (.new hnew)) _
  have hnum : NumericBoxes w 0 := by decide +kernel
  have hactive : (step (.new .standard) 0 w).1.activePairs = [(0, 1)] := by decide +kernel
  exact ⟨w, .new .standard, hreach, hnum, step_eq_stepOver_allPairs _ hnum, hactive⟩

end SceneEngine.Contact
