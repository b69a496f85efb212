/-
What a contact step leaves of the bodies it takes in.

Once its snapshot is taken, a step goes over the bodies to undo movement, over them again
to report, and over all members to clear reports. No body comes up twice in a loop and the
last one passes over solid colliders, so what becomes of a body follows from its own
components and from what it ran into (`exists_step_settled`): it stands where it comes to
rest, its collider says on which axes it was blocked, and where it was before is still
known.
-/
import SceneEngine.Proofs.Contact.Overlaps

namespace SceneEngine

theorem Vec.any_toList_iff {n : Nat} {v : Vec Bool n} :
    v.toList.any id = true ↔ ∃ k : Fin n, v[k] = true := by
  rw [List.any_eq_true]
  constructor
  · intro h
    obtain ⟨x, hx, rfl⟩ := h
    rw [Vec.toList, Vector.mem_toList_iff] at hx
    obtain ⟨k, hk, heq⟩ := Vector.getElem_of_mem hx
    exact ⟨⟨k, hk⟩, heq⟩
  · intro h
    obtain ⟨k, hk⟩ := h
    refine ⟨_, ?_, hk⟩
    rw [Vec.toList, Vector.mem_toList_iff]
    exact Vector.getElem_mem k.isLt

namespace Contact

variable {w : World} {id : SystemId}

/-! ## The loops of a step -/

/-- A body that moves is resolved, any other is left. -/
def relieved (config : PhysicsConfig) (s : Solid) (c : AxisContacts) (p : Parts) : Parts :=
  if s.dynamic then resolved config s c p else p

theorem turns_relieve {s : Solid} (hs : w.storage.Sound) (h : Supplied w s)
    (config : PhysicsConfig) (c : AxisContacts) :
    w.Turns (do if s.dynamic then resolve config s c) s.entity
      (relieved config s c (w.parts s.entity)) := by
  unfold relieved
  split
  · next hdyn => exact turns_resolve hs h hdyn config c
  · exact .pure hs _

theorem cleared_eq_self {p : Parts} (h : ∀ c, p .collider = some c → c.solid = true) :
    cleared p = p := by
  funext k
  cases k with
  | collider =>
    cases hc : p .collider with
    | none => simp [cleared, hc]
    | some c => simp [cleared, hc, h c hc]
  | _ => rfl

/-- Neither resolving nor reporting makes a collider less solid. -/
theorem solid_reported {config : PhysicsConfig} {s : Solid} {c : AxisContacts} {p : Parts}
    {collidingWith blockedBy : List EntityId} (h : ∀ c, p .collider = some c → c.solid = true) :
    ∀ collider, reported collidingWith blockedBy (relieved config s c p) .collider = some collider →
      collider.solid = true := by
  intro collider hc
  simp only [reported, Option.map_eq_some_iff] at hc
  obtain ⟨c₁, hc₁, rfl⟩ := hc
  unfold relieved at hc₁
  split at hc₁
  · simp only [resolved, Option.map_eq_some_iff] at hc₁
    obtain ⟨c₀, hc₀, rfl⟩ := hc₁
    exact h c₀ hc₀
  · exact h c₁ hc₁

section Settle

variable {n : Nat} {bodies : Vector Solid n}

/-- The components of a body once it is resolved and reported on, over any pairs. -/
def settled (config : PhysicsConfig) (bodies : Vector Solid n) (pairs : List (Pair n)) (i : Fin n)
    (p : Parts) : Parts :=
  let resting := Vector.ofFn fun i => (bodies.get i).restingBox (contactsOf bodies pairs i)
  reported (restingOverlaps bodies pairs resting i)
    (sortBy (fun e f => decide (e ≤ f)) (contactsOf bodies pairs i).blockedBy)
    (relieved config (bodies.get i) (contactsOf bodies pairs i) p)

/-- What `settle` does, with the bodies resolved in any order. -/
def settleIn (order : List (Fin n)) (config : PhysicsConfig) (bodies : Vector Solid n)
    (pairs : List (Pair n)) (id : SystemId) : Action Unit := do
  let contacts := Vector.ofFn (contactsOf bodies pairs)
  let resting := Vector.ofFn fun i : Fin n => (bodies.get i).restingBox (contacts.get i)
  order.forM fun i => do
    if (bodies.get i).dynamic then resolve config (bodies.get i) (contacts.get i)
  (List.finRange n).forM fun i =>
    report (bodies.get i).entity (restingOverlaps bodies pairs resting i)
      (sortBy (fun e f => decide (e ≤ f)) (contacts.get i).blockedBy)
  (← World.readMembers id).forM clearReport

/-- What becomes of the components of each body and of any other entity, over any pairs and
with the bodies resolved in any order. -/
theorem settleIn_parts {ids : List EntityId} {order : List (Fin n)} (hs : w.storage.Sound)
    (horder : order.Perm (List.finRange n))
    (hinj : Function.Injective fun i => (bodies.get i).entity)
    (hbodies : ∀ i, Supplied w (bodies.get i))
    (hsolid : ∀ i c, w.get? .collider (bodies.get i).entity = some c → c.solid = true)
    (hm : w.members id = .ok ids) (hnd : ids.Nodup)
    (hids : ∀ e ∈ ids, (w.get? .collider e).isSome = true) (config : PhysicsConfig)
    (pairs : List (Pair n)) :
    ∃ w', w.perform (settleIn order config bodies pairs id) = (.ok (), w') ∧ w.Revalued w' ∧
      (∀ i, w'.parts (bodies.get i).entity =
        settled config bodies pairs i (w.parts (bodies.get i).entity)) ∧
      ∀ e, (∀ i, (bodies.get i).entity ≠ e) →
        w'.parts e = if e ∈ ids then cleared (w.parts e) else w.parts e := by
  have hkeys : ((List.finRange n).map fun i => (bodies.get i).entity).Nodup :=
    (List.nodup_finRange n).map hinj
  have hkeys' : (order.map fun i => (bodies.get i).entity).Nodup :=
    (horder.map _).nodup_iff.mpr hkeys
  have hget : ∀ {α : Type} (f : Fin n → α) i, (Vector.ofFn f).get i = f i := fun f i =>
    Vector.getElem_ofFn i.isLt
  -- Three loops: bodies are resolved, then reported on; at last the other reports are cleared.
  obtain ⟨w₁, hp₁, h₁, hin₁, hout₁⟩ := World.turns_forM hs hkeys' fun i _ w' hw' hparts => by
    have := turns_relieve hw'.sound ((hbodies i).rewritten hw'.toRewritten) config
      (contactsOf bodies pairs i)
    rwa [hparts] at this
  obtain ⟨w₂, hp₂, h₂, hin₂, hout₂⟩ := World.turns_forM h₁.sound hkeys fun i _ w' hw' hparts => by
    have hcollider := ((hbodies i).rewritten (h₁.trans hw').toRewritten).collider
    have := turns_report hw'.sound hcollider
      (restingOverlaps bodies pairs (Vector.ofFn fun i : Fin n => (bodies.get i).restingBox
        (contactsOf bodies pairs i)) i)
      (sortBy (fun e f => decide (e ≤ f)) (contactsOf bodies pairs i).blockedBy)
    rwa [hparts] at this
  obtain ⟨w₃, hp₃, h₃, hall₃⟩ := World.turns_perMember h₂.sound
    (((h₁.trans h₂).members id).trans hm) hnd fun e he w' hw' hparts => by
    have hcollider := (((h₁.trans h₂).trans hw').isSome_get? _ _).trans (hids e he)
    have := turns_clearReport hw'.sound hcollider
    rwa [hparts] at this
  refine ⟨w₃, ?_, (h₁.trans h₂).trans h₃, fun i => ?_, fun e he => ?_⟩
  · simp only [settleIn, hget]
    rw [World.perform_bind, hp₁]
    dsimp only
    rw [World.perform_bind, hp₂]
    exact hp₃
  · have hw₂ := hin₂ i (List.mem_finRange i)
    rw [hin₁ i (horder.mem_iff.mpr (List.mem_finRange i))] at hw₂
    rw [hall₃, hw₂]
    split
    · exact cleared_eq_self (solid_reported (hsolid i))
    · rfl
  · have hnot : e ∉ (List.finRange n).map fun i => (bodies.get i).entity := by simpa using he
    rw [hall₃, hout₂ e hnot, hout₁ e fun he => hnot ((horder.map _).mem_iff.mp he)]

end Settle

/-! ## A body after a step -/

theorem contactsOf_of_fixed {n : Nat} {bodies : Vector Solid n} {pairs : List (Pair n)} {i : Fin n}
    (h : (bodies.get i).dynamic = false) : contactsOf bodies pairs i = .none := by
  rw [contactsOf, if_neg]
  rw [h]
  exact Bool.false_ne_true

theorem AxisContacts.isBlocked_iff {c : AxisContacts} :
    c.isBlocked = true ↔ ∃ k : Fin 3, c.blocked[k] = true := Vec.any_toList_iff

theorem AxisContacts.blocked_of_free {c : AxisContacts} (h : ¬ c.isBlocked = true) (k : Fin 3) :
    c.blocked[k] = false := by
  rw [isBlocked_iff, not_exists] at h
  simpa using h k

/-- A body that nothing blocks comes to rest where its movement ends. -/
theorem Solid.restingPosition_of_free (s : Solid) {c : AxisContacts} (h : ¬ c.isBlocked = true) :
    s.restingPosition c = s.position := by
  refine Vec.ext fun k => ?_
  simp [restingPosition, AxisContacts.blocked_of_free h k]

/-- What a step that has found the contacts `c` for a body leaves of it. -/
structure Settled (w w' : World) (s : Solid) (c : AxisContacts) : Prop where
  transform : ∃ t, w'.get? .transform s.entity = some t ∧ t.position = s.restingPosition c
  collider : ∃ collider, w'.get? .collider s.entity = some collider ∧
    collider.bounds = s.bounds ∧ collider.solid = true ∧
    (s.dynamic = true → collider.report.blockedAxes = c.blocked)
  body : ∀ b, w.get? .body s.entity = some b →
    ∃ b', w'.get? .body s.entity = some b' ∧ b'.previousPosition = b.previousPosition

theorem settled_of_parts {w' : World} {e : EntityId} {s : Solid} {c : AxisContacts}
    {config : PhysicsConfig} {collidingWith blockedBy : List EntityId}
    (hsnap : snapshot w e = .ok (some s)) (hfixed : s.dynamic = false → c = .none)
    (hparts : w'.parts s.entity =
      reported collidingWith blockedBy (relieved config s c (w.parts s.entity))) :
    Settled w w' s c := by
  obtain ⟨collider, t, hc, hsolid, ht, hs⟩ := snapshot_eq_some_iff.mp hsnap
  have hentity : s.entity = e := by rw [hs]; rfl
  have hposition : s.position = t.position := by rw [hs]; rfl
  have hbounds : s.bounds = collider.bounds := by rw [hs]; rfl
  have hw' : ∀ k, w'.get? k s.entity =
      reported collidingWith blockedBy (relieved config s c (w.parts s.entity)) k := congrFun hparts
  have hpt : w.parts s.entity .transform = some t := hentity ▸ ht
  have hpc : w.parts s.entity .collider = some collider := hentity ▸ hc
  constructor
  case transform =>
    rw [hw' .transform]
    cases hdyn : s.dynamic with
    | false =>
      refine ⟨t, by simp [reported, relieved, hdyn, hpt], ?_⟩
      rw [hfixed hdyn, s.restingPosition_of_free (by decide), hposition]
    | true =>
      cases hb : c.isBlocked with
      | false =>
        refine ⟨t, by simp [reported, relieved, resolved, hdyn, hpt, hb], ?_⟩
        rw [s.restingPosition_of_free (by simp [hb]), hposition]
      | true =>
        exact ⟨t.setPosition (s.restingPosition c),
          by simp [reported, relieved, resolved, hdyn, hpt, hb], rfl⟩
  case collider =>
    rw [hw' .collider]
    cases hdyn : s.dynamic <;>
      simp [reported, relieved, resolved, hdyn, hpc, hsolid, hbounds]
  case body =>
    intro b hb
    have hpb : w.parts s.entity .body = some b := hb
    rw [hw' .body]
    cases hdyn : s.dynamic with
    | false => exact ⟨b, by simp [reported, relieved, hdyn, hpb], rfl⟩
    | true =>
      cases hblocked : c.isBlocked <;>
        simp [reported, relieved, resolved, hdyn, hpb, hblocked]

theorem exists_get_of_mem {solids : Array Solid} {s : Solid} (hs : s ∈ solids) :
    ∃ i, s = solids.toVector.get i := by
  obtain ⟨i, hi, rfl⟩ := Array.getElem_of_mem hs
  exact ⟨⟨i, hi⟩, rfl⟩

theorem solid_of_snapshot {e : EntityId} {s : Solid} {c : Collider}
    (h : snapshot w e = .ok (some s)) (hget : w.get? .collider s.entity = some c) :
    c.solid = true := by
  obtain ⟨c', t, hc', hsolid, _, rfl⟩ := snapshot_eq_some_iff.mp h
  obtain rfl : c' = c := Option.some.inj (hc'.symm.trans hget)
  exact hsolid

/-- What `step` does, with the bodies of its snapshot resolved in any order. -/
def stepIn (order : (n : Nat) → List (Fin n)) (m : ContactMemory) (id : SystemId) (w : World) :
    ContactMemory × EStateM.Result SceneError World Unit :=
  match gather w id with
  | .error e => (m, .error e w)
  | .ok solids =>
    let bodies := solids.toVector
    let pairs := candidatePairs bodies
    (m.observe (overlaps bodies pairs), settleIn (order solids.size) m.config bodies pairs id w)

theorem step_eq_stepIn (m : ContactMemory) (id : SystemId) (w : World) :
    step m id w = stepIn List.finRange m id w := rfl

/-- What a step over a snapshot makes of the components of each entity. -/
structure Stepped (w w' : World) (id : SystemId) (config : PhysicsConfig) (solids : Array Solid) :
    Prop where
  revalued : w.Revalued w'
  bodies : ∀ i, w'.parts (solids.toVector.get i).entity =
    settled config solids.toVector (candidatePairs solids.toVector) i
      (w.parts (solids.toVector.get i).entity)
  others : ∀ e ids, w.members id = .ok ids → (∀ i, (solids.toVector.get i).entity ≠ e) →
    w'.parts e = if e ∈ ids then cleared (w.parts e) else w.parts e

/-- A step that has a snapshot comes to its end, in whatever order bodies are resolved. -/
theorem exists_stepIn_parts {order : (n : Nat) → List (Fin n)}
    (horder : ∀ n, (order n).Perm (List.finRange n)) (hc : w.Coherent) {solids : Array Solid}
    (hg : gather w id = .ok solids) (m : ContactMemory) :
    ∃ w', stepIn order m id w = (m.observe (found w id), .ok () w') ∧
      Stepped w w' id m.config solids := by
  obtain ⟨ids, h⟩ := exists_gathered hg
  have hasc := hc.members_ascending h.members
  have hsolid : ∀ i c, w.get? .collider (solids.toVector.get i).entity = some c → c.solid = true := by
    intro i c hget
    obtain ⟨e, _, he⟩ := (h.mem_iff _).mp (Array.getElem_mem i.isLt)
    exact solid_of_snapshot he hget
  obtain ⟨w', hp, hw', hin, hout⟩ := settleIn_parts hc.storage (horder solids.size)
    (h.strictMono hasc).injective h.supplied hsolid h.members (hasc.imp Nat.ne_of_lt) h.collider
    m.config (candidatePairs solids.toVector)
  have hrun := World.eq_ok_of_perform hp
  refine ⟨w', by simp only [stepIn, found, hg, hrun], ⟨hw', hin, fun e ids' hids' he => ?_⟩⟩
  obtain rfl : ids = ids' := Except.ok.inj (h.members.symm.trans hids')
  exact hout e he

theorem exists_step_parts (hc : w.Coherent) {solids : Array Solid} (hg : gather w id = .ok solids)
    (m : ContactMemory) :
    ∃ w', step m id w = (m.observe (found w id), .ok () w') ∧ Stepped w w' id m.config solids := by
  rw [step_eq_stepIn]
  exact exists_stepIn_parts (fun n => .refl _) hc hg m

/-- The world a contact step leaves. -/
def worldAfter (m : ContactMemory) (id : SystemId) (w : World) : World :=
  w.after fun w => (step m id w).2

theorem worldAfter_eq {m m' : ContactMemory} {w' : World} (h : step m id w = (m', .ok () w')) :
    worldAfter m id w = w' := by
  simp only [worldAfter, World.after, World.perform, Change.perform, h]

/-- A step that has a snapshot comes to its end and settles every body of it. -/
theorem exists_step_settled (hc : w.Coherent) {solids : Array Solid} (hg : gather w id = .ok solids)
    (m : ContactMemory) :
    ∃ m' w', step m id w = (m', .ok () w') ∧ w.Revalued w' ∧
      ∀ i, Settled w w' (solids.toVector.get i)
        (contactsOf solids.toVector (candidatePairs solids.toVector) i) := by
  obtain ⟨ids, h⟩ := exists_gathered hg
  obtain ⟨w', hstep, hw', hin, _⟩ := exists_step_parts hc hg m
  refine ⟨_, w', hstep, hw', fun i => ?_⟩
  obtain ⟨e, _, he⟩ := (h.mem_iff _).mp (Array.getElem_mem i.isLt)
  exact settled_of_parts he contactsOf_of_fixed (hin i)

end Contact

end SceneEngine
