/-
Settings survive their document.

Nothing is known of how a document looks but what a library keeps of what it writes. A
configuration that is let through makes plain tables (`plain_tables`), and from tables the settings
are read as they were, with the floats as the library has them (`ofEntries?_tables`). A single is written
as a double and comes back from it. What is read back passes the same tests, so a configuration that
is let through is there again after it was written and read: `parse_render`.
-/
import SceneEngine.Proofs.Config.Ranges
import SceneEngine.Proofs.Toml.Codec
import SceneEngine.Proofs.Vec

namespace SceneEngine.EngineConfig

open Binary Toml

variable {c d : EngineConfig} {fault : ConfigFault} {codec : Codec} {back : F64 → F64}

/-! ## The same settings -/

/-- Setting by setting the same, a NaN being the same as any other. -/
structure Matches (c d : EngineConfig) : Prop where
  capacity : d.capacity = c.capacity
  absoluteEpsilon : Same c.tolerance.absoluteEpsilon d.tolerance.absoluteEpsilon
  relativeEpsilon : Same c.tolerance.relativeEpsilon d.tolerance.relativeEpsilon
  gravity : ∀ k : Fin 3, Same c.physics.gravity[k] d.physics.gravity[k]
  gravityScale : Same c.physics.gravityScale d.physics.gravityScale
  forceScale : Same c.physics.forceScale d.physics.forceScale
  airFriction : Same c.physics.airFriction d.physics.airFriction
  bounciness : Same c.physics.bounciness d.physics.bounciness
  bouncinessThreshold : Same c.physics.bouncinessThreshold d.physics.bouncinessThreshold
  fixedTimestep : Option.Rel Same c.physics.fixedTimestep d.physics.fixedTimestep
  eventCapacity : d.physics.eventCapacity = c.physics.eventCapacity
  logging : d.logging = c.logging

theorem Matches.passes (h : c.Matches d) (hpasses : c.Passes fault) : d.Passes fault := by
  have hnonneg : ∀ x : F32, 0 ≤ x → x.isNaN = false :=
    fun _ hx => (le_iff.mp (Standard.le_iff.mp hx)).2.1
  have hbounce : ∀ {x y : F32}, Same x y → x.isNaN = true ∨ 0 ≤ x → y.isNaN = true ∨ 0 ≤ y := by
    intro x y hsame hx
    rcases hsame with rfl | ⟨-, hnan⟩
    · exact hx
    · exact .inl hnan
  cases fault with
  | maxEntities => simpa only [Passes, InRange, h.capacity] using hpasses
  | maxComponents => simpa only [Passes, InRange, h.capacity] using hpasses
  | epsilons =>
    obtain ⟨habsolute, hrelative⟩ := hpasses
    exact ⟨h.absoluteEpsilon.imp habsolute (Standard.of_pos habsolute).1,
      h.relativeEpsilon.imp hrelative (le_iff.mp (Standard.le_iff.mp hrelative)).2.1⟩
  | gravity =>
    intro k
    exact (h.gravity k).imp (p := fun g => g.isFinite = true) (hpasses k) (isNaN_of_isFinite (hpasses k))
  | airFriction =>
    exact h.airFriction.imp (p := fun x => 0 ≤ x ∧ x ≤ 1) hpasses (hnonneg _ hpasses.1)
  | bounciness => exact ⟨hbounce h.bounciness hpasses.1, hbounce h.bouncinessThreshold hpasses.2⟩
  | eventCapacity => simpa only [Passes, InRange, h.eventCapacity] using hpasses
  | fixedTimestep =>
    intro step hstep
    have hsame := h.fixedTimestep
    rw [hstep] at hsame
    cases hc : c.physics.fixedTimestep with
    | none =>
      rw [hc] at hsame
      cases hsame
    | some old =>
      rw [hc] at hsame
      cases hsame with
      | some hsame =>
        have hold := hpasses old hc
        exact hsame.imp (p := fun x => 0 < x ∧ x.isFinite = true) hold (isNaN_of_isFinite hold.2)
  | entityLimit => exact trivial
  | unreadable => exact trivial
  | malformed => exact trivial
  | unrepresentable => exact trivial

theorem Matches.validate (h : c.Matches d) (hvalid : c.validate = .ok ()) : d.validate = .ok () :=
  validate_eq_ok_iff.mpr fun fault => h.passes (validate_eq_ok_iff.mp hvalid fault)

/-! ## Reading settings -/

/-- A single that was written as a double. -/
def viaDouble (back : F64 → F64) (x : F32) : F32 := (back x.convert).convert

/-- The settings as they come back when every float comes back as `back` has it. -/
def restored (back : F64 → F64) (c : EngineConfig) : EngineConfig :=
  { c with
    tolerance := ⟨(back c.tolerance.absoluteEpsilon).convert, (back c.tolerance.relativeEpsilon).convert⟩
    physics :=
      { gravity := .of3 (viaDouble back c.physics.gravity.x) (viaDouble back c.physics.gravity.y)
          (viaDouble back c.physics.gravity.z)
        gravityScale := viaDouble back c.physics.gravityScale
        forceScale := viaDouble back c.physics.forceScale
        airFriction := viaDouble back c.physics.airFriction
        bounciness := viaDouble back c.physics.bounciness
        bouncinessThreshold := viaDouble back c.physics.bouncinessThreshold
        fixedTimestep := c.physics.fixedTimestep.map (viaDouble back)
        eventCapacity := c.physics.eventCapacity } }

theorem number?_float (x : F64) :
    ((Value.float x).mapFloats back).number? = some ((back x).convert : F64) := rfl

theorem number?_single (x : F32) :
    ((Value.single x).mapFloats back).number? = some (viaDouble back x) := rfl

theorem vector?_single (g : Vec F32 3) : ((Value.array (g.toList.map .single)).mapFloats back).vector? =
    some (.of3 (viaDouble back g.x) (viaDouble back g.y) (viaDouble back g.z)) := by
  rw [Vec.toList_three]
  rfl

theorem ofSection?_capacity (c : CapacityConfig) :
    CapacityConfig.ofSection? (fun name _ => (c.entries.mapFloats back).lookup name) = some c := by
  simp [CapacityConfig.ofSection?, Section.setting, CapacityConfig.entries, Entries.mapFloats,
    List.lookup_cons, Value.mapFloats, Value.mapScalar, Value.count?]

theorem ofSection?_tolerance (c : ToleranceConfig) :
    ToleranceConfig.ofSection? (fun name _ => (c.entries.mapFloats back).lookup name) =
      some ⟨(back c.absoluteEpsilon).convert, (back c.relativeEpsilon).convert⟩ := by
  simp [ToleranceConfig.ofSection?, Section.setting, ToleranceConfig.entries, Entries.mapFloats,
    List.lookup_cons, number?_float]

theorem ofSection?_logging (c : LoggingConfig) :
    LoggingConfig.ofSection? (fun name _ => (c.entries.mapFloats back).lookup name) = some c := by
  simp [LoggingConfig.ofSection?, Section.setting, LoggingConfig.entries, Entries.mapFloats,
    List.lookup_cons, Value.mapFloats, Value.mapScalar, Value.text?, Value.boolean?]

theorem ofSection?_physics (c : EngineConfig) :
    PhysicsConfig.ofSection? (fun name _ => (c.physics.entries.mapFloats back).lookup name) =
      some (c.restored back).physics := by
  have hcount : ∀ n : Nat, ((Value.integer n).mapFloats back).count? = some n := fun n => by
    simp [Value.mapFloats, Value.mapScalar, Value.count?]
  cases hstep : c.physics.fixedTimestep with
  | none =>
    simp [PhysicsConfig.ofSection?, Section.setting, PhysicsConfig.entries, Entries.mapFloats, hstep,
      List.lookup_cons, number?_single, vector?_single, hcount, restored, PhysicsConfig.standard]
  | some step =>
    simp [PhysicsConfig.ofSection?, Section.setting, PhysicsConfig.entries, Entries.mapFloats, hstep,
      List.lookup_cons, number?_single, vector?_single, hcount, restored]

theorem ofEntries?_tables (c : EngineConfig) :
    ofEntries? ((c.tables.mapFloats back).map tableEntry) = some (c.restored back) := by
  simp [ofEntries?, Section.find?, tables, Tables.mapFloats, tableEntry, List.lookup_cons,
    Section.ofValue?, ofSection?_capacity, ofSection?_tolerance, ofSection?_physics, ofSection?_logging,
    restored]

theorem matches_restored (hback : ∀ x, Same x (back x)) (c : EngineConfig) :
    c.Matches (c.restored back) where
  capacity := rfl
  absoluteEpsilon := (hback _).double
  relativeEpsilon := (hback _).double
  gravity := by
    intro k
    match k with
    | 0 => exact (hback _).single
    | 1 => exact (hback _).single
    | 2 => exact (hback _).single
  gravityScale := (hback _).single
  forceScale := (hback _).single
  airFriction := (hback _).single
  bounciness := (hback _).single
  bouncinessThreshold := (hback _).single
  fixedTimestep := by
    show Option.Rel Same c.physics.fixedTimestep (c.physics.fixedTimestep.map (viaDouble back))
    cases c.physics.fixedTimestep with
    | none => exact .none
    | some step => exact .some (hback _).single
  eventCapacity := rfl
  logging := rfl

/-! ## Writing settings -/

/-- A table whose keys need no quotes, none of them twice, with a line for every value. -/
def PlainEntries (entries : Entries) : Prop :=
  (entries.map Prod.fst).Nodup ∧ ∀ entry ∈ entries, IsBare entry.1 ∧ entry.2.isFlat = true

theorem isFlat_count {n : Nat} (h : n ≤ maxInteger) : (Value.integer n).isFlat = true := by
  simp only [Value.isFlat, Value.isScalar, Bool.and_eq_true, decide_eq_true_eq]
  omega

theorem plain_capacity {c : CapacityConfig} (hentities : c.maxEntities ≤ maxInteger)
    (hcomponents : c.maxComponents ≤ maxInteger) : PlainEntries c.entries := by
  refine ⟨by simp [CapacityConfig.entries], ?_⟩
  simp only [CapacityConfig.entries, List.forall_mem_cons]
  exact ⟨⟨by decide, isFlat_count hentities⟩, ⟨by decide, isFlat_count hcomponents⟩, by simp⟩

theorem plain_tolerance (c : ToleranceConfig) : PlainEntries c.entries := by
  refine ⟨by simp [ToleranceConfig.entries], ?_⟩
  simp only [ToleranceConfig.entries, List.forall_mem_cons]
  exact ⟨⟨by decide, rfl⟩, ⟨by decide, rfl⟩, by simp⟩

theorem plain_physics {c : PhysicsConfig} (hcount : c.eventCapacity ≤ maxInteger) :
    PlainEntries c.entries := by
  have hgravity : (Value.array (c.gravity.toList.map .single)).isFlat = true := by
    simp [Value.isFlat, Value.isScalar, Value.single]
  have hsteps : ∀ entry ∈ c.fixedTimestep.elim [] (fun step => [("fixed_timestep", Value.single step)]),
      IsBare entry.1 ∧ entry.2.isFlat = true := by
    cases c.fixedTimestep with
    | none => simp
    | some step => simpa using ⟨by decide, rfl⟩
  constructor
  · cases hstep : c.fixedTimestep <;> simp [PhysicsConfig.entries, hstep]
  · simp only [PhysicsConfig.entries, List.forall_mem_append, List.forall_mem_cons]
    refine ⟨⟨⟨⟨by decide, hgravity⟩, ⟨by decide, rfl⟩, ⟨by decide, rfl⟩,
      ⟨by decide, rfl⟩, ⟨by decide, rfl⟩, ⟨by decide, rfl⟩, by simp⟩, hsteps⟩,
      ⟨by decide, isFlat_count hcount⟩, by simp⟩

theorem plain_logging (c : LoggingConfig) : PlainEntries c.entries := by
  refine ⟨by simp [LoggingConfig.entries], ?_⟩
  simp only [LoggingConfig.entries, List.forall_mem_cons]
  exact ⟨⟨by decide, rfl⟩, ⟨by decide, rfl⟩, by simp⟩

/-- What is let through has few enough entities and components for a document. -/
theorem plain_tables (hvalid : c.validate = .ok ()) (hcount : c.physics.eventCapacity ≤ maxInteger) :
    c.tables.Plain := by
  have hpasses := validate_eq_ok_iff.mp hvalid
  have hentities : c.capacity.maxEntities ≤ 4294967295 := (hpasses .maxEntities).2
  have hcomponents : c.capacity.maxComponents ≤ 64 := (hpasses .maxComponents).2
  have hmost : maxInteger = 9223372036854775807 := by decide
  have hplain : ∀ table ∈ c.tables, IsBare table.1 ∧ PlainEntries table.2 := by
    simp only [tables, List.forall_mem_cons]
    exact ⟨⟨by decide, plain_capacity (by omega) (by omega)⟩, ⟨by decide, plain_tolerance _⟩,
      ⟨by decide, plain_physics hcount⟩, ⟨by decide, plain_logging _⟩, by simp⟩
  exact {
    names := by simp [tables]
    keys := fun table htable => (hplain table htable).2.1
    bareNames := fun table htable => (hplain table htable).1
    bareKeys := fun table htable entry hentry => ((hplain table htable).2.2 entry hentry).1
    flat := by simpa [Tables.areFlat] using fun name entries htable => fun key v hentry =>
      ((hplain (name, entries) htable).2.2 (key, v) hentry).2 }

/-! ## Both -/

/-- **Writing and reading settings.** By a library that keeps floats, texts and documents, a
configuration that is let through, and that keeps no more events than a document can count, is
written as a document, and what is read from the document is the same configuration setting by
setting. -/
theorem parse_render (hfloats : codec.KeepsFloats) (htexts : codec.KeepsTexts)
    (hdocuments : codec.KeepsDocuments) (hvalid : c.validate = .ok ())
    (hcount : c.physics.eventCapacity ≤ 9223372036854775807) :
    ∃ text d, c.renderBy codec = .ok text ∧ parseBy codec text = .ok d ∧ c.Matches d := by
  choose back hsame hreturns using hfloats
  obtain ⟨text, hwrite, hread⟩ := hdocuments back hreturns htexts c.tables (plain_tables hvalid hcount)
  have hmatches := matches_restored hsame c
  refine ⟨text, c.restored back, by rw [renderBy, hwrite], ?_, hmatches⟩
  rw [parseBy, hread, Option.bind_some, ofEntries?_tables]
  dsimp only
  rw [hmatches.validate hvalid]
  rfl

/-- The standard library, a bounce that is a NaN, a step of a sixtieth, and a level that needs every
kind of escape. -/
theorem parse_render_nan :
    let c : EngineConfig :=
      { EngineConfig.standard with
        physics :=
          { PhysicsConfig.standard with
            bounciness := .signedNaN true
            fixedTimestep := some (.ofDecimal false 16666667 (-9)) }
        logging := ⟨"a \"b\"\n'''\t\\ \x00", true⟩ }
    Codec.standard.KeepsFloats ∧ Codec.standard.KeepsTexts ∧ Codec.standard.KeepsDocuments ∧
      c.validate = .ok () ∧ ∃ text d, c.render = .ok text ∧ parse text = .ok d ∧ c.Matches d := by
  intro c
  have hvalid : c.validate = .ok () := by decide +kernel
  have hfloats := Codec.standard_keepsFloats
  have htexts := Codec.standard_keepsTexts
  have hdocuments := Codec.standard_keepsDocuments
  exact ⟨hfloats, htexts, hdocuments, hvalid,
    parse_render hfloats htexts hdocuments hvalid (by decide)⟩

end SceneEngine.EngineConfig
