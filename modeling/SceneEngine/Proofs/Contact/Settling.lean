/-
A contact step fails before it has done anything, or not at all.

The snapshot reads every component the rest of the step relies on: the colliders of all
members, and for a solid one its transform and, where it moves, its body. What follows
only rewrites such components. So once the snapshot is taken the step comes to its end,
and a step that fails has changed neither the world nor what contact remembers
(`step_cases`).
-/
import SceneEngine.Contact.Step
import SceneEngine.Proofs.Contact.Snapshot
import SceneEngine.Proofs.World.Parts

namespace SceneEngine.Contact

variable {w : World} {id : SystemId} {e : EntityId}

/-- Has what the rest of a step reads and writes of a body. -/
structure Supplied (w : World) (s : Solid) : Prop where
  collider : (w.get? .collider s.entity).isSome = true
  transform : (w.get? .transform s.entity).isSome = true
  body : s.dynamic = true → (w.get? .body s.entity).isSome = true

theorem supplied_of_snapshot {s : Solid} (h : snapshot w e = .ok (some s)) : Supplied w s := by
  obtain ⟨c, t, hc, _, ht, rfl⟩ := snapshot_eq_some_iff.mp h
  refine ⟨by simp [Solid.ofComponents, hc], by simp [Solid.ofComponents, ht], fun hdyn => ?_⟩
  -- Only an entity with a body counts as moving.
  simp only [Solid.ofComponents, Option.any_eq_true] at hdyn ⊢
  obtain ⟨b, hb, _⟩ := hdyn
  simp [hb]

theorem Gathered.supplied {ids : List EntityId} {solids : Array Solid}
    (h : Gathered w id ids solids) (i : Fin solids.size) : Supplied w (solids.toVector.get i) := by
  obtain ⟨e, _, he⟩ := (h.mem_iff _).mp (Array.getElem_mem i.isLt)
  exact supplied_of_snapshot he

theorem Supplied.rewritten {w' : World} {s : Solid} (h : Supplied w s) (hw : w.Rewritten w') :
    Supplied w' s where
  collider := (hw.isSome_get? _ _).trans h.collider
  transform := (hw.isSome_get? _ _).trans h.transform
  body hdyn := (hw.isSome_get? _ _).trans (h.body hdyn)

/-! ## What is done to one entity -/

/-- A body with its movement undone on the axes it is blocked on. -/
def resolved (config : PhysicsConfig) (s : Solid) (c : AxisContacts) (p : Parts) : Parts
  | .transform => (p .transform).map fun t =>
    if c.isBlocked then t.setPosition (s.restingPosition c) else t
  | .body => (p .body).map fun b =>
    let wasOnGround := (p .collider).any fun collider => collider.report.onGround
    let velocity := respond config.bounciness config.bouncinessThreshold b.velocity c.blocked
      wasOnGround b.friction c.friction
    if c.isBlocked then { b with velocity } else b
  | .collider => (p .collider).map fun collider =>
    { collider with
      report := { collider.report with
        blockedAxes := c.blocked, wasOnGround := collider.report.onGround, onGround := c.onGround } }
  | k => p k

/-- A collider told who it overlaps and who blocked it. -/
def reported (collidingWith blockedBy : List EntityId) (p : Parts) : Parts
  | .collider => (p .collider).map fun collider =>
    { collider with
      report := { collider.report with
        colliding := !collidingWith.isEmpty || !blockedBy.isEmpty, collidingWith, blockedBy } }
  | k => p k

/-- A collider without a report, unless it is solid. -/
def cleared (p : Parts) : Parts
  | .collider => (p .collider).map fun collider =>
    if collider.solid then collider else { collider with report := .clear }
  | k => p k

theorem turns_report (hs : w.storage.Sound) (hc : (w.get? .collider e).isSome = true)
    (collidingWith blockedBy : List EntityId) : w.Turns (report e collidingWith blockedBy) e
      (reported collidingWith blockedBy (w.parts e)) := by
  obtain ⟨c, hc⟩ := Option.isSome_iff_exists.mp hc
  refine (World.turns_rewrite hs hc _).of_eq ?_
  funext k
  cases k <;> simp [reported, World.parts, hc]

theorem turns_clearReport (hs : w.storage.Sound) (hc : (w.get? .collider e).isSome = true) :
    w.Turns (clearReport e) e (cleared (w.parts e)) := by
  obtain ⟨c, hc⟩ := Option.isSome_iff_exists.mp hc
  refine .of_read (World.perform_read_of hc) ?_
  cases hsolid : c.solid with
  | true =>
    refine (World.Turns.pure hs ()).of_eq ?_
    funext k
    cases k <;> simp [cleared, World.parts, hc, hsolid]
  | false =>
    refine (World.turns_write hs (Option.isSome_of_eq_some hc) _).of_eq ?_
    funext k
    cases k <;> simp [cleared, World.parts, hc, hsolid]

theorem turns_resolve {s : Solid} (hs : w.storage.Sound) (h : Supplied w s) (hdyn : s.dynamic = true)
    (config : PhysicsConfig) (c : AxisContacts) :
    w.Turns (resolve config s c) s.entity (resolved config s c (w.parts s.entity)) := by
  obtain ⟨collider, hc⟩ := Option.isSome_iff_exists.mp h.collider
  obtain ⟨t, ht⟩ := Option.isSome_iff_exists.mp h.transform
  obtain ⟨b, hb⟩ := Option.isSome_iff_exists.mp (h.body hdyn)
  refine .of_read (World.perform_read_of hc) ?_
  dsimp only
  split
  · next hblocked =>
    refine .of_read (World.perform_readPair_of hs (by decide) ht hb) ?_
    refine .bind (World.turns_writePair hs (by decide) h.transform (h.body hdyn) _ _) fun _ w₁ h₁ => ?_
    -- The two writes leave the collider, which is written last.
    have hc₁ : w₁.get? .collider s.entity = some collider := by
      have := congrFun h₁.self .collider
      simpa [World.parts, hc] using this
    refine (World.turns_rewrite h₁.sound hc₁ _).of_eq ?_
    rw [h₁.self]
    funext k
    cases k <;> simp [resolved, World.parts, hc, ht, hb, hblocked]
  · next hfree =>
    refine (World.turns_rewrite hs hc _).of_eq ?_
    funext k
    cases k <;> simp [resolved, World.parts, hc, ht, hb, hfree]

/-! ## What is done to a world -/

/-- The part of a step after its snapshot, over any pairs. -/
theorem runs_settle {n : Nat} {bodies : Vector Solid n} {ids : List EntityId}
    (hs : w.storage.Sound) (hbodies : ∀ i, Supplied w (bodies.get i)) (hm : w.members id = .ok ids)
    (hids : ∀ e ∈ ids, (w.get? .collider e).isSome = true) (config : PhysicsConfig)
    (pairs : List (Pair n)) : w.Runs (settle config bodies pairs id) := by
  -- Three loops, each in a world the ones before have rewritten: resolve, report, clear.
  refine (World.Runs.forM hs fun i _ w₁ h₁ => ?_).bind fun _ w₁ h₁ =>
    (World.Runs.forM h₁.sound fun i _ w₂ h₂ => ?_).bind fun _ w₂ h₂ =>
      World.runs_perMember h₂.sound (((h₁.trans h₂).members id).trans hm) fun e he w₃ h₃ => ?_
  · split
    · next hdyn => exact (turns_resolve h₁.sound ((hbodies i).rewritten h₁) hdyn config _).runs
    · exact .pure h₁.sound _
  · exact (turns_report h₂.sound ((hbodies i).rewritten (h₁.trans h₂)).collider _ _).runs
  · have hc := (((h₁.trans h₂).trans h₃).isSome_get? _ _).trans (hids e he)
    exact (turns_clearReport h₃.sound hc).runs

/-- The overlaps a step finds, as events. -/
def found (w : World) (id : SystemId) : List ContactEvent :=
  match gather w id with
  | .error _ => []
  | .ok solids => overlaps solids.toVector (candidatePairs solids.toVector)

/-- What a contact step does. Without a snapshot it fails and nothing has happened; with
one it observes the overlaps it finds and rewrites components. -/
theorem step_cases (hs : w.storage.Sound) (m : ContactMemory) (id : SystemId) :
    (∃ error, gather w id = .error error ∧ step m id w = (m, .error error w)) ∨
    ∃ solids w', gather w id = .ok solids ∧ w.Rewritten w' ∧
      step m id w = (m.observe (found w id), .ok () w') := by
  cases hg : gather w id with
  | error error => exact .inl ⟨error, rfl, by simp [step, stepOver, hg]⟩
  | ok solids =>
    obtain ⟨ids, hgathered⟩ := exists_gathered hg
    obtain ⟨_, w', hrun, hw'⟩ := (runs_settle hs hgathered.supplied hgathered.members
      hgathered.collider m.config (candidatePairs solids.toVector)).exists_ok
    exact .inr ⟨solids, w', rfl, hw', by simp only [step, stepOver, found, hg, hrun]⟩

end SceneEngine.Contact
