/-
Which configurations make an engine.

Two parts of the engine decide, one after the other. `EngineConfig.validate` looks at one
setting at a time. Then the built-in systems are installed in an empty world, and each
needs room for the kinds it asks for. Validation asks for room for one kind, while the
systems ask for three between them, so a configuration with room for one or two passes the
first and fails the second (`new_accepts_iff`).
-/
import SceneEngine.Proofs.Engine.Progress
import SceneEngine.Proofs.World.Failure

namespace SceneEngine

/-! ## Room for the kinds of a system -/

namespace World

variable {w : World} {registered : List Kind} {names : List String} {limit : Nat}

/-- A world with these kinds, systems of no other names, and room for `limit` kinds in all. -/
structure Hosts (w : World) (registered : List Kind) (names : List String) (limit : Nat) :
    Prop where
  coherent : w.Coherent
  kinds : w.storage.kinds = registered
  names : ∀ name, (w.roster.find? name).isSome = true → name ∈ names
  limit : w.storage.limit = limit

theorem hosts_new {capacity : CapacityConfig} {tolerance : Tolerance F64}
    (h : World.new capacity tolerance = .ok w) :
    w.Hosts [] [] (min capacity.maxComponents signatureBits) := by
  have hc := coherent_new h
  obtain rfl := eq_of_new h
  exact ⟨hc, rfl, by simp [Roster.find?, Roster.empty], rfl⟩

/-- The kinds of a list that a world with the kinds `registered` has to make room for. -/
def lacking (registered kinds : List Kind) : List Kind :=
  (kinds.filter (· ∉ registered)).eraseDups

/-- A system of a new name is registered when there is room for the kinds it asks for that
the world lacks, and else fails for want of it. -/
theorem Hosts.registerSystemFor (h : w.Hosts registered names limit) (name : String)
    (kinds : List Kind) (hname : name ∉ names) :
    ((registered ++ lacking registered kinds).length ≤ limit ∧
      ∃ id w', w.perform (registerSystemFor name kinds) = (.ok id, w') ∧
        w'.Hosts (registered ++ lacking registered kinds) (names ++ [name]) limit) ∨
    (limit < (registered ++ lacking registered kinds).length ∧
      ∃ w', w.perform (registerSystemFor name kinds) =
        (.error (.componentCapacityExceeded limit), w')) := by
  obtain ⟨hc, rfl, hnames, rfl⟩ := h
  have hlacking : lacking w.storage.kinds kinds = w.storage.newKinds kinds := rfl
  have hcount : ∀ added, (w.storage.extend added).count = (w.storage.kinds ++ added).length := by
    intro added
    rw [← Storage.length_kinds, Storage.kinds_extend]
  have hafter := hc.registerSystemFor name kinds
  rw [hlacking]
  rw [World.registerSystemFor, after, perform_bind] at hafter
  rw [World.registerSystemFor, perform_bind, signatureFor]
  rcases insertKinds_added hc.storage.toAligned .empty kinds with ⟨s, hp⟩ |
    ⟨added, hadded, hne, hfull, hp⟩
  · rcases registerSystem_cases { w with storage := w.storage.extend (w.storage.newKinds kinds) }
      name s with ⟨htaken, _⟩ | ⟨_, roster, hentered, hq⟩
    · exact absurd (hnames name htaken) hname
    · rw [signatureFor, hp] at hafter
      dsimp only at hafter
      rw [hq] at hafter
      -- What was registered fits, since the world is coherent afterwards.
      have hfits := hafter.storage.count_le
      dsimp only at hfits
      rw [hcount, Storage.limit_extend] at hfits
      rw [hp]
      refine .inl ⟨hfits, _, _, hq, hafter, Storage.kinds_extend _ _, fun name' hname' => ?_, ?_⟩
      · rw [hentered.find?] at hname'
        split at hname'
        · next heq => simp [heq]
        · exact List.mem_append_left _ (hnames name' hname')
      · exact Storage.limit_extend _ _
  · rw [hcount, List.length_append] at hfull
    rw [hp]
    refine .inr ⟨?_, _, rfl⟩
    have hlt : added.length < (w.storage.newKinds kinds).length := by
      have hle := hadded.length_le
      have : added.length ≠ (w.storage.newKinds kinds).length :=
        fun heq => hne (hadded.eq_of_length heq)
      omega
    rw [List.length_append]
    omega

end World

/-! ## Installing the built-in systems -/

namespace Engine

variable {config : EngineConfig}

/-- The kinds the built-in systems ask for, in the order they are registered. -/
def builtinKinds : List Kind := (Motion.required ++ Contact.required ++ Upkeep.required).eraseDups

theorem builtinKinds_eq : builtinKinds = [.transform, .body, .collider] := by decide

/-- The systems are installed when there is room for all kinds they ask for between them. -/
theorem perform_install {w : World} {limit : Nat} (h : w.Hosts [] [] limit) :
    (builtinKinds.length ≤ limit ∧ ∃ ids w', w.perform install = (.ok ids, w')) ∨
    (limit < builtinKinds.length ∧
      ∃ w', w.perform install = (.error (.componentCapacityExceeded limit), w')) := by
  simp only [install, World.perform_bind]
  -- Each system finds the kinds of those before it registered.
  rcases h.registerSystemFor Motion.systemName Motion.required (by decide) with
    ⟨_, _, w₁, hp₁, h₁⟩ | ⟨hfull, w', hp₁⟩ <;> rw [hp₁] <;> dsimp only
  · rcases h₁.registerSystemFor Contact.systemName Contact.required (by decide) with
      ⟨hroom, _, w₂, hp₂, h₂⟩ | ⟨hfull, w', hp₂⟩ <;> rw [hp₂] <;> dsimp only
    · rcases h₂.registerSystemFor Upkeep.systemName Upkeep.required (by decide) with
        ⟨_, _, w₃, hp₃, _⟩ | ⟨hfull, _⟩
      · rw [hp₃]
        exact .inl ⟨hroom, _, w₃, rfl⟩
      · -- Upkeep asks for nothing new.
        exact absurd hfull (Nat.not_lt.mpr hroom)
    · exact .inr ⟨hfull, w', rfl⟩
  · have : (World.lacking [] Motion.required).length < builtinKinds.length := by decide
    rw [List.nil_append] at hfull
    exact .inr ⟨by omega, w', rfl⟩

/-! ## New engines -/

theorem new_of_invalid {error : SceneError} (h : config.validate = .error error) :
    Engine.new config = .error error := by
  simp [Engine.new, h, bind, Except.bind]

/-- A test that finds nothing at fault leaves it to the tests after it. -/
theorem eq_none_of_ite {p : Prop} [Decidable p] {fault : ConfigFault} {rest : Option ConfigFault}
    (h : (if p then some fault else rest) = none) : ¬ p ∧ rest = none := by
  split at h
  · cases h
  · next hp => exact ⟨hp, h⟩

theorem fault?_of_valid (h : config.validate = .ok ()) : config.fault? = none := by
  unfold EngineConfig.validate at h
  split at h
  · next hfault => exact hfault
  · cases h

/-- A valid configuration leaves room for some entities, and for no more kinds than a
signature has bits. -/
theorem capacity_of_valid (h : config.validate = .ok ()) :
    (∃ w, World.new config.capacity config.tolerance.tolerance = .ok w) ∧
      min config.capacity.maxComponents signatureBits = config.capacity.maxComponents := by
  have hfault := fault?_of_valid h
  unfold EngineConfig.fault? at hfault
  obtain ⟨hentities, hfault⟩ := eq_none_of_ite hfault
  obtain ⟨hkinds, -⟩ := eq_none_of_ite hfault
  refine ⟨⟨_, by simp only [World.new, EntityTable.new, if_neg hentities]; rfl⟩, ?_⟩
  omega

theorem new_of_valid (h : config.validate = .ok ()) :
    (builtinKinds.length ≤ config.capacity.maxComponents ∧ ∃ e, Engine.new config = .ok e) ∨
    (config.capacity.maxComponents < builtinKinds.length ∧ Engine.new config =
      .error (.componentCapacityExceeded config.capacity.maxComponents)) := by
  obtain ⟨⟨w, hw⟩, hlimit⟩ := capacity_of_valid h
  have hhosts := World.hosts_new hw
  rw [hlimit] at hhosts
  have hnew : Engine.new config = match (w.perform install).1 with
      | .error error => .error error
      | .ok (motionId, contactId, upkeepId) =>
        .ok ⟨config, (w.perform install).2, motionId, contactId, .new config.physics, upkeepId, [],
          none, 0, 0⟩ := by
    unfold Engine.new World.perform Change.perform
    simp only [h, hw, bind, Except.bind]
    cases install w <;> rfl
  rw [hnew]
  rcases perform_install hhosts with ⟨hroom, _, _, hp⟩ | ⟨hfull, _, hp⟩ <;> rw [hp]
  · exact .inl ⟨hroom, _, rfl⟩
  · exact .inr ⟨hfull, rfl⟩

/-- **An engine needs room for the kinds of its systems.** A configuration makes an engine
exactly when it is valid and leaves room for the three kinds the built-in systems ask for
between them. What validation refuses is refused for the same reason; a valid
configuration without that room fails as its systems are installed. -/
theorem new_accepts_iff (config : EngineConfig) :
    ((∃ e, Engine.new config = .ok e) ↔
      config.validate = .ok () ∧ 3 ≤ config.capacity.maxComponents) ∧
    (∀ error, config.validate = .error error → Engine.new config = .error error) ∧
    (config.validate = .ok () → config.capacity.maxComponents < 3 → Engine.new config =
      .error (.componentCapacityExceeded config.capacity.maxComponents)) := by
  have hthree : builtinKinds.length = 3 := by rw [builtinKinds_eq]; rfl
  cases hvalid : config.validate with
  | error error => simp [new_of_invalid hvalid]
  | ok _ =>
    rcases new_of_valid hvalid with ⟨hroom, e, hnew⟩ | ⟨hfull, hnew⟩
    · rw [hthree] at hroom
      rw [hnew]
      refine ⟨⟨fun _ => ⟨rfl, hroom⟩, fun _ => ⟨e, rfl⟩⟩, fun _ => nofun, ?_⟩
      intro _ hfull
      omega
    · rw [hthree] at hfull
      rw [hnew]
      refine ⟨⟨fun hok => ?_, fun hroom => ?_⟩, fun _ => nofun, fun _ _ => rfl⟩
      · obtain ⟨_, hok⟩ := hok
        cases hok
      · omega

/-- The standard configuration with room for two kinds is valid and makes no engine. -/
theorem valid_without_engine :
    let config : EngineConfig := { EngineConfig.standard with capacity := ⟨5000, 2⟩ }
    config.validate = .ok () ∧ ¬ ∃ e, Engine.new config = .ok e := by
  intro config
  have hvalid : config.validate = .ok () := by decide +kernel
  refine ⟨hvalid, fun hok => ?_⟩
  obtain ⟨e, hnew⟩ := hok
  rcases new_of_valid hvalid with ⟨hroom, _⟩ | ⟨_, hrefused⟩
  · exact absurd hroom (by decide)
  · rw [hnew] at hrefused
    cases hrefused

end Engine

end SceneEngine
