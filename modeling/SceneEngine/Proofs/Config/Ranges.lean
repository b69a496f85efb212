/-
Which settings are let through.

Validation tries the settings one after the other and names the first that does not pass
(`fault?_eq_find?`). Each test asks either whether a setting is in its range or whether it
is out of it. Over numbers the two are the same, so what passes is in range; a NaN is in no range,
and a test that asks whether it is in one refuses it. Only the two settings of a bounce are
asked whether they are out of range: below zero. A NaN is not below zero and passes, and a
document can hold one.
-/
import SceneEngine.Config.Document
import SceneEngine.Proofs.Camera.Projection

namespace SceneEngine.EngineConfig

variable {c : EngineConfig} {fault : ConfigFault}

/-- The settings a fault is about have values the engine can run with. -/
def InRange (c : EngineConfig) : ConfigFault → Prop
  | .maxEntities => 1 ≤ c.capacity.maxEntities ∧ c.capacity.maxEntities ≤ 4294967295
  | .maxComponents => 1 ≤ c.capacity.maxComponents ∧ c.capacity.maxComponents ≤ 64
  | .epsilons => 0 < c.tolerance.absoluteEpsilon ∧ 0 ≤ c.tolerance.relativeEpsilon
  | .gravity => ∀ k : Fin 3, c.physics.gravity[k].isFinite = true
  | .airFriction => 0 ≤ c.physics.airFriction ∧ c.physics.airFriction ≤ 1
  | .bounciness => 0 ≤ c.physics.bounciness ∧ 0 ≤ c.physics.bouncinessThreshold
  | .eventCapacity => 1 ≤ c.physics.eventCapacity
  | .fixedTimestep => ∀ step, c.physics.fixedTimestep = some step → 0 < step ∧ step.isFinite = true
  | _ => True

/-- A setting of a bounce is not a number. -/
def HasNaN (c : EngineConfig) : Prop :=
  c.physics.bounciness.isNaN = true ∨ c.physics.bouncinessThreshold.isNaN = true

/-- The settings a fault is about pass their test. -/
def Passes (c : EngineConfig) : ConfigFault → Prop
  | .bounciness =>
    (c.physics.bounciness.isNaN = true ∨ 0 ≤ c.physics.bounciness) ∧
      (c.physics.bouncinessThreshold.isNaN = true ∨ 0 ≤ c.physics.bouncinessThreshold)
  | fault => c.InRange fault

theorem inRange_iff : c.InRange fault ↔ c.Passes fault ∧ (fault = .bounciness → ¬ c.HasNaN) := by
  have hnan : ∀ x : F32, 0 ≤ x → ¬ x.isNaN = true := fun x h => by
    rw [(Binary.le_iff.mp (Binary.Standard.le_iff.mp h)).2.1]
    exact Bool.false_ne_true
  cases fault
  case bounciness =>
    constructor
    · exact fun ⟨hb, ht⟩ => ⟨⟨.inr hb, .inr ht⟩, fun _ h => h.elim (hnan _ hb) (hnan _ ht)⟩
    · intro ⟨⟨hb, ht⟩, hnumbers⟩
      exact ⟨hb.resolve_left fun h => hnumbers rfl (.inl h),
        ht.resolve_left fun h => hnumbers rfl (.inr h)⟩
  all_goals exact (and_iff_left nofun).symm

/-! ## The first fault -/

/-- The faults of settings, in the order the settings are tried. -/
def faults : List ConfigFault :=
  [.maxEntities, .maxComponents, .epsilons, .gravity, .airFriction, .bounciness, .eventCapacity,
    .fixedTimestep]

theorem passes_of_notMem (h : fault ∉ faults) : c.Passes fault := by
  cases fault
  case entityLimit | unreadable | malformed | unrepresentable => exact trivial
  all_goals exact absurd (by decide) h

open Classical in
/-- A test before the others finds the first fault when they find the first of theirs. -/
theorem ite_eq_find? {p : Prop} [Decidable p] {rest : List ConfigFault} {found : Option ConfigFault}
    (htest : p ↔ ¬ c.Passes fault) (hrest : found = rest.find? fun later => ¬ c.Passes later) :
    (if p then some fault else found) = (fault :: rest).find? fun later => ¬ c.Passes later := by
  rw [List.find?_cons]
  by_cases h : p
  · rw [if_pos h, decide_eq_true (htest.mp h)]
  · rw [if_neg h, decide_eq_false (htest.not.mp h), hrest]

theorem not_negative_iff {x : F32} : ¬ x < 0 ↔ x.isNaN = true ∨ 0 ≤ x := by
  rw [Binary.Standard.lt_iff, Binary.Standard.le_iff]
  cases hx : x.isNaN with
  | true => simp [Binary.lt_iff, hx]
  | false =>
    rw [or_iff_right Bool.false_ne_true]
    exact ⟨Binary.le_of_not_lt rfl hx, Binary.not_lt_of_le⟩

open Classical in
theorem fault?_eq_find? (c : EngineConfig) : c.fault? = faults.find? fun fault => ¬ c.Passes fault := by
  refine ite_eq_find? ?_ <| ite_eq_find? ?_ <| ite_eq_find? ?_ <| ite_eq_find? ?_ <|
    ite_eq_find? ?_ <| ite_eq_find? ?_ <| ite_eq_find? ?_ ?_
  · have hmost : maxEntityId = 4294967295 := rfl
    simp only [Passes, InRange]
    omega
  · have hmost : signatureBits = 64 := rfl
    simp only [Passes, InRange]
    omega
  · exact not_and_or.symm
  · rw [Vec.toList, Vector.any_toList, Vector.any_eq_true]
    simp only [Passes, InRange, Bool.not_eq_true', not_forall, Bool.not_eq_true]
    exact ⟨fun ⟨k, hk, hinfinite⟩ => ⟨⟨k, hk⟩, hinfinite⟩,
      fun ⟨k, hinfinite⟩ => ⟨k, k.isLt, hinfinite⟩⟩
  · exact Iff.rfl
  · exact (not_or.trans (and_congr not_negative_iff not_negative_iff)).not_right
  · simp only [Passes, InRange]
    omega
  · cases hstep : c.physics.fixedTimestep with
    | none => simp [Passes, InRange, hstep]
    | some step => simp [Passes, InRange, hstep]

theorem validate_eq_ok_iff : c.validate = .ok () ↔ ∀ fault, c.Passes fault := by
  have hvalid : c.validate = .ok () ↔ c.fault? = none := by
    unfold validate
    cases c.fault? <;> simp
  rw [hvalid, fault?_eq_find?, List.find?_eq_none]
  constructor
  · intro h fault
    by_cases hmem : fault ∈ faults
    · simpa using h fault hmem
    · exact passes_of_notMem hmem
  · intro h fault _
    simpa using h fault

theorem validate_eq_error_iff {error : SceneError} : c.validate = .error error ↔
    ∃ before fault after, faults = before ++ fault :: after ∧ error = .config fault ∧
      ¬ c.Passes fault ∧ ∀ earlier ∈ before, c.Passes earlier := by
  have hrefused : c.validate = .error error ↔
      ∃ fault, c.fault? = some fault ∧ error = .config fault := by
    unfold validate
    cases c.fault? <;> simp [eq_comm]
  rw [hrefused]
  constructor
  · rintro ⟨fault, hfault, rfl⟩
    rw [fault?_eq_find?, List.find?_eq_some_iff_append] at hfault
    obtain ⟨hfails, before, after, hsplit, hpass⟩ := hfault
    exact ⟨before, fault, after, hsplit, rfl, by simpa using hfails,
      fun earlier h => by simpa using hpass earlier h⟩
  · rintro ⟨before, fault, after, hsplit, rfl, hfails, hpass⟩
    refine ⟨fault, ?_, rfl⟩
    rw [fault?_eq_find?, List.find?_eq_some_iff_append]
    exact ⟨by simpa using hfails, before, after, hsplit, fun earlier h => by simpa using hpass earlier h⟩

/-! ## Documents -/

theorem validate_of_parseBy {codec : Toml.Codec} {text : String} (h : parseBy codec text = .ok c) :
    c.validate = .ok () := by
  unfold parseBy at h
  split at h
  · cases h
  · next config _ =>
    cases hvalid : config.validate with
    | error error =>
      rw [hvalid] at h
      cases h
    | ok =>
      rw [hvalid] at h
      obtain rfl := Except.ok.inj h
      exact hvalid

/-- **What validation lets through.** A configuration is accepted exactly when every setting is in
its range, except that a setting of a bounce may also be a NaN; without one there, every
setting is in range. A refusal names the first fault. What is read from a document,
or from a file, has been validated. -/
theorem validate_ranges (c : EngineConfig) :
    (c.validate = .ok () ↔ ∀ fault, c.Passes fault) ∧
    ((∀ fault, c.InRange fault) ↔ c.validate = .ok () ∧ ¬ c.HasNaN) ∧
    (∀ error, c.validate = .error error ↔
      ∃ before fault after, faults = before ++ fault :: after ∧ error = .config fault ∧
        ¬ c.Passes fault ∧ ∀ earlier ∈ before, c.Passes earlier) ∧
    (∀ text, parse text = .ok c → ∀ fault, c.Passes fault) ∧
    ∀ path read, load path read = .ok c → ∀ fault, c.Passes fault := by
  refine ⟨validate_eq_ok_iff, ?_, fun _ => validate_eq_error_iff,
    fun text h => validate_eq_ok_iff.mp (validate_of_parseBy h), fun path read h => ?_⟩
  · rw [validate_eq_ok_iff]
    simp only [inRange_iff, forall_and]
    exact and_congr_right fun _ => ⟨fun h => h _ rfl, fun h _ _ => h⟩
  · cases read with
    | error reason => cases h
    | ok text => exact validate_eq_ok_iff.mp (validate_of_parseBy h)

/-- A document whose bounciness is a NaN is read and let through. -/
theorem nan_bounciness_accepted :
    let text := "[physics]\nbounciness = nan\n"
    let c : EngineConfig :=
      { EngineConfig.standard with
        physics := { PhysicsConfig.standard with bounciness := .signedNaN false } }
    parse text = .ok c ∧ c.validate = .ok () ∧ ¬ c.InRange .bounciness := by
  intro text c
  have hread : parse text = .ok c := by decide +kernel
  refine ⟨hread, validate_of_parseBy hread, fun h => ?_⟩
  exact (inRange_iff.mp h).2 rfl (.inl rfl)

end SceneEngine.EngineConfig
