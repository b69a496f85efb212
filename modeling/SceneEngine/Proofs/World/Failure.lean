/-
What a failed operation leaves behind.

An operation on entities or components, or the registration of a system for a signature,
writes in several steps, some of which come before others that can fail. In a world whose
parts agree none of those fails once something was written: a kind just registered is found,
and so is a system just entered, and who has a component of a kind shows that the kind was
registered before. So where an operation fails the world is as it was. A system registered
for kinds is the one exception. Its kinds are registered one by one, before its name is
looked at, and stay registered when a later kind finds no room or the name turns out to be
taken (`Begins`).
-/
import SceneEngine.Engine
import SceneEngine.Proofs.World.Systems

namespace SceneEngine

/-! ## Registering kinds -/

namespace Storage

variable {s : Storage} {k : Kind}

/-- With empty columns for further kinds. -/
def extend (s : Storage) (kinds : List Kind) : Storage := kinds.foldl enlist s

/-- The kinds of a list that are not registered, each where it first comes up. -/
def newKinds (s : Storage) (kinds : List Kind) : List Kind :=
  (kinds.filter (· ∉ s.kinds)).eraseDups

@[simp] theorem extend_nil (s : Storage) : s.extend [] = s := rfl

theorem extend_cons (s : Storage) (k : Kind) (rest : List Kind) :
    s.extend (k :: rest) = (s.enlist k).extend rest := rfl

@[simp] theorem kinds_extend (s : Storage) (kinds : List Kind) :
    (s.extend kinds).kinds = s.kinds ++ kinds := by
  induction kinds generalizing s with
  | nil => simp
  | cons k rest ih => rw [extend_cons, ih, kinds_enlist, List.append_assoc, List.singleton_append]

@[simp] theorem limit_extend (s : Storage) (kinds : List Kind) :
    (s.extend kinds).limit = s.limit := by
  induction kinds generalizing s with
  | nil => rfl
  | cons k rest ih => exact ih (s.enlist k)

theorem newKinds_cons_of_mem (hk : k ∈ s.kinds) (rest : List Kind) :
    s.newKinds (k :: rest) = s.newKinds rest := by
  simp [newKinds, hk]

theorem newKinds_cons_of_not_mem (hk : k ∉ s.kinds) (rest : List Kind) :
    s.newKinds (k :: rest) = k :: (s.enlist k).newKinds rest := by
  have hfilter : (rest.filter (· ∉ s.kinds)).filter (fun k' => !k' == k) =
      rest.filter (· ∉ s.kinds ++ [k]) := by
    rw [List.filter_filter]
    refine List.filter_congr fun k' _ => ?_
    by_cases hk' : k' = k <;> simp [hk']
  rw [newKinds, List.filter_cons_of_pos (by simpa using hk), List.eraseDups_cons, hfilter, newKinds,
    kinds_enlist]

end Storage

namespace World

variable {w w' : World} {error : SceneError}

/-- How a system registered for kinds fails. The first of the kinds that were not registered
are registered now, without components, and nothing else has changed: all of them when the
name is taken, or as many as there was room for. -/
def Begins (w : World) (name : String) (kinds : List Kind) (error : SceneError) (w' : World) :
    Prop :=
  ∃ added, added <+: w.storage.newKinds kinds ∧
    w' = { w with storage := w.storage.extend added } ∧
    ((error = .componentCapacityExceeded w.storage.limit ∧ added ≠ w.storage.newKinds kinds ∧
        w.storage.limit ≤ w'.storage.count) ∨
      (error = .systemAlreadyRegistered name ∧ added = w.storage.newKinds kinds ∧
        (w.roster.find? name).isSome = true))

theorem perform_registerComponent (h : w.storage.Aligned) (k : Kind) :
    w.perform (registerComponent k) = match w.storage.typeId? k with
      | some t => (.ok t, w)
      | none =>
        if w.storage.limit ≤ w.storage.count then
          (.error (.componentCapacityExceeded w.storage.limit), w)
        else (.ok w.storage.count, { w with storage := w.storage.enlist k }) := by
  rw [registerComponent, perform_onStorage, Storage.registerComponent_apply]
  cases w.storage.typeId? k with
  | some t => rfl
  | none =>
    by_cases hfull : w.storage.limit ≤ w.storage.count
    · simp only [if_pos hfull]
    · simp only [if_neg hfull, h.toNat_ofNat_count (Nat.lt_of_not_le hfull)]

/-- Kinds are registered one after the other until there is no more room. -/
theorem insertKinds_added (h : w.storage.Aligned) (s : Signature) (kinds : List Kind) :
    (∃ s', w.perform (kinds.foldlM (fun s k => return s.insert (← registerComponent k)) s) =
      (.ok s', { w with storage := w.storage.extend (w.storage.newKinds kinds) })) ∨
    ∃ added, added <+: w.storage.newKinds kinds ∧ added ≠ w.storage.newKinds kinds ∧
      w.storage.limit ≤ (w.storage.extend added).count ∧
      w.perform (kinds.foldlM (fun s k => return s.insert (← registerComponent k)) s) =
        (.error (.componentCapacityExceeded w.storage.limit),
          { w with storage := w.storage.extend added }) := by
  induction kinds generalizing w s with
  | nil => exact .inl ⟨s, by simp [Storage.newKinds]⟩
  | cons k rest ih =>
    rw [List.foldlM_cons, perform_bind, perform_bind, perform_registerComponent h]
    cases ht : w.storage.typeId? k with
    | some t =>
      rw [Storage.newKinds_cons_of_mem (h.mem_kinds ht)]
      exact ih h (s.insert t)
    | none =>
      have hk := h.typeId?_eq_none_iff.mp ht
      rw [Storage.newKinds_cons_of_not_mem hk]
      by_cases hfull : w.storage.limit ≤ w.storage.count
      · simp only [if_pos hfull]
        exact .inr ⟨[], List.nil_prefix, (List.cons_ne_nil _ _).symm, hfull, rfl⟩
      · -- The rest is added to a storage that has this kind already.
        simp only [if_neg hfull]
        have henlisted := h.enlist hk (Nat.lt_of_not_le hfull)
        rcases ih (w := { w with storage := w.storage.enlist k }) henlisted
          (s.insert w.storage.count) with ⟨s', hrest⟩ | ⟨added, hadded, hne, hfull', hrest⟩
        · exact .inl ⟨s', hrest⟩
        · refine .inr ⟨k :: added, (List.prefix_cons_inj k).mpr hadded, ?_, hfull', hrest⟩
          exact fun heq => hne (List.cons.inj heq).2

theorem begins_of_registerSystemFor (hs : w.storage.Aligned) {name : String} {kinds : List Kind}
    (h : w.perform (registerSystemFor name kinds) = (.error error, w')) :
    w.Begins name kinds error w' := by
  rw [registerSystemFor, perform_bind, signatureFor] at h
  rcases insertKinds_added hs .empty kinds with ⟨s, hp⟩ | ⟨added, hadded, hne, hfull, hp⟩ <;>
    rw [hp] at h <;> dsimp only at h
  · rcases registerSystem_cases { w with storage := w.storage.extend (w.storage.newKinds kinds) }
      name s with ⟨htaken, hq⟩ | ⟨_, _, _, hq⟩ <;> rw [hq] at h <;> cases h
    exact ⟨_, List.prefix_rfl, rfl, .inr ⟨rfl, rfl, htaken⟩⟩
  · cases h
    exact ⟨added, hadded, rfl, .inl ⟨rfl, hne, hfull⟩⟩

/-! ## Every operation -/

theorem eq_of_serve_error (hc : w.Coherent) {r : Request}
    (h : w.perform (serve r) = (.error error, w')) : w' = w := by
  rcases serve_cases hc r with ⟨_, hp⟩ | ⟨_, _, hp, _⟩ <;> rw [hp] at h <;> cases h
  rfl

theorem eq_of_registerSystem_error {name : String} {required : Signature}
    (h : w.perform (registerSystem name required) = (.error error, w')) : w' = w := by
  rcases registerSystem_cases w name required with ⟨_, hp⟩ | ⟨_, _, _, hp⟩ <;>
    rw [hp] at h <;> cases h
  rfl

end World

/-! ## Schedules -/

/-- A behavior is appended once it is registered. -/
theorem Schedule.perform_addBehavior (w : World) (s : Schedule) (b : Behavior) :
    (addBehavior b).perform (w, s) = match w.perform (World.registerSystemFor b.name b.required) with
      | (.ok id, w') => (.ok id, w', s ++ [(id, b)])
      | (.error error, w') => (.error error, w', s) := by
  simp only [Change.perform, World.perform, addBehavior, Change.bind_apply, Change.within]
  cases World.registerSystemFor b.name b.required w <;> rfl

theorem World.begins_of_addBehavior {w w' : World} {error : SceneError} (hs : w.storage.Aligned)
    {s s' : Schedule} {b : Behavior}
    (h : (Schedule.addBehavior b).perform (w, s) = (.error error, w', s')) :
    w.Begins b.name b.required error w' ∧ s' = s := by
  rw [Schedule.perform_addBehavior] at h
  rcases hp : w.perform (World.registerSystemFor b.name b.required) with ⟨_ | id, w₁⟩ <;>
    rw [hp] at h <;> cases h
  exact ⟨begins_of_registerSystemFor hs hp, rfl⟩

/-! ## Engines -/

namespace Engine

variable {e e' : Engine} {error : SceneError}

/-- What fails in the world of an engine has changed at most that world. -/
theorem perform_of_onWorld_error {β : Type} {action : Action β}
    (h : onWorld action e = .error error e') :
    e.world.perform action = (.error error, e'.world) ∧ e' = { e with world := e'.world } := by
  unfold onWorld at h
  unfold World.perform Change.perform
  cases ha : action e.world with
  | ok x world =>
    rw [ha] at h
    cases h
  | error error world =>
    rw [ha] at h
    cases h
    exact ⟨rfl, rfl⟩

theorem onWorld_error_of_bind {β γ : Type} {action : Action β} {f : β → EngineAction γ}
    (hf : ∀ x e₁, ∃ y e₂, f x e₁ = .ok y e₂) (h : (onWorld action >>= f) e = .error error e') :
    onWorld action e = .error error e' := by
  cases ha : onWorld action e with
  | ok x e₁ =>
    obtain ⟨y, e₂, hok⟩ := hf x e₁
    have hrest : (onWorld action >>= f) e = f x e₁ := by simp [bind, EStateM.bind, ha]
    cases hok.symm.trans (hrest.symm.trans h)
  | error error e₁ =>
    have hstop : (onWorld action >>= f) e = .error error e₁ := by simp [bind, EStateM.bind, ha]
    cases hstop.symm.trans h
    rfl

/-- Adding a behavior to an engine is adding it to its schedule, in its world. -/
theorem addBehavior_apply (b : Behavior) (e : Engine) :
    addBehavior b e = match e.world.perform (World.registerSystemFor b.name b.required) with
      | (.ok id, world) => .ok id { e with world, behaviors := e.behaviors ++ [(id, b)] }
      | (.error error, world) => .error error { e with world } := by
  simp only [addBehavior, Schedule.addBehavior, Change.within, Change.bind_apply, World.perform,
    Change.perform]
  cases World.registerSystemFor b.name b.required e.world <;> rfl

theorem addBehavior_error (hs : e.world.storage.Aligned) {b : Behavior}
    (h : addBehavior b e = .error error e') :
    e.world.Begins b.name b.required error e'.world ∧ e' = { e with world := e'.world } := by
  rw [addBehavior_apply] at h
  rcases hp : e.world.perform (World.registerSystemFor b.name b.required) with ⟨_ | id, world⟩ <;>
    rw [hp] at h <;> cases h
  exact ⟨World.begins_of_registerSystemFor hs hp, rfl⟩

theorem attachRenderer_error (hs : e.world.storage.Aligned) {capacity : Nat}
    (h : attachRenderer capacity e = .error error e') :
    e.world.Begins Rendering.systemName Rendering.required error e'.world ∧
      e' = { e with world := e'.world } := by
  obtain ⟨hp, he'⟩ := perform_of_onWorld_error (onWorld_error_of_bind (fun _ _ => ⟨_, _, rfl⟩) h)
  exact ⟨World.begins_of_registerSystemFor hs hp, he'⟩

end Engine

namespace World

variable {w : World}

/-- **Failure changes nothing.** In every reachable world an operation on entities or
components that fails leaves the world as it was, and so does a failed registration of a
system for a signature. A system registered for kinds that fails, added to a schedule or
not, leaves the first of its new kinds registered without components and all else as it
was; the schedule it was to be added to stays as it is, and an engine keeps its behaviors
and its renderer. -/
theorem failure_changes_nothing (h : Reachable w) :
    (∀ (r : Request) error w', w.perform (serve r) = (.error error, w') → w' = w) ∧
    (∀ name required error w',
      w.perform (registerSystem name required) = (.error error, w') → w' = w) ∧
    (∀ name kinds error w', w.perform (registerSystemFor name kinds) = (.error error, w') →
      w.Begins name kinds error w') ∧
    (∀ (schedule schedule' : Schedule) (b : Behavior) error w',
      (Schedule.addBehavior b).perform (w, schedule) = (.error error, w', schedule') →
        w.Begins b.name b.required error w' ∧ schedule' = schedule) ∧
    ∀ (e e' : Engine) error, e.world = w →
      (∀ b, Engine.addBehavior b e = .error error e' →
        w.Begins b.name b.required error e'.world ∧ e' = { e with world := e'.world }) ∧
      ∀ capacity, Engine.attachRenderer capacity e = .error error e' →
        w.Begins Rendering.systemName Rendering.required error e'.world ∧
          e' = { e with world := e'.world } := by
  have hs := h.coherent.storage.toAligned
  refine ⟨fun r error w' => eq_of_serve_error h.coherent,
    fun name required error w' => eq_of_registerSystem_error,
    fun name kinds error w' => begins_of_registerSystemFor hs,
    fun schedule schedule' b error w' => begins_of_addBehavior hs, ?_⟩
  rintro e e' error rfl
  exact ⟨fun b => Engine.addBehavior_error hs, fun capacity => Engine.attachRenderer_error hs⟩

/-- What a result fails with. -/
def fault? {β : Type} : Except SceneError β → Option SceneError
  | .ok _ => none
  | .error error => some error

theorem eq_error_of_fault {β : Type} {x : Except SceneError β} {error : SceneError}
    (h : fault? x = some error) : x = .error error := by
  cases x <;> simp_all [fault?]

/-- Room for two kinds and one of them in use: a component given twice leaves everything, and
a system for four kinds leaves one more of them registered. -/
theorem failure_changes_nothing_no_room :
    ∃ w w' : World, Reachable w ∧ w.storage.kinds = [.custom 0] ∧
      w.perform (serve (.add (.custom 0) 0 6)) = (.error (.componentAlreadyPresent 0 (.custom 0)), w) ∧
      w.perform (registerSystemFor "greedy" [.custom 0, .custom 1, .custom 1, .custom 2]) =
        (.error (.componentCapacityExceeded 2), w') ∧
      w'.storage.kinds = [.custom 0, .custom 1] ∧
      w.Begins "greedy" [.custom 0, .custom 1, .custom 1, .custom 2]
        (.componentCapacityExceeded 2) w' := by
  let w₀ : World := ⟨.withLimit 1, .new 2, .empty, .single⟩
  let w := (w₀.after (serve (.create none))).after (serve (.add (.custom 0) 0 5))
  let w' := w.after (registerSystemFor "greedy" [.custom 0, .custom 1, .custom 1, .custom 2])
  have hnew : World.new ⟨1, 2⟩ .single = .ok w₀ := rfl
  have hreach : Reachable w := .serve _ (.serve _ (.new hnew))
  have hadd : (w.perform (serve (.add (.custom 0) 0 6))).1 =
      .error (.componentAlreadyPresent 0 (.custom 0)) := by
    apply eq_error_of_fault
    decide +kernel
  have hsystem : (w.perform
      (registerSystemFor "greedy" [.custom 0, .custom 1, .custom 1, .custom 2])).1 =
      .error (.componentCapacityExceeded 2) := by
    apply eq_error_of_fault
    decide +kernel
  have hkinds : w.storage.kinds = [.custom 0] ∧ w'.storage.kinds = [.custom 0, .custom 1] := by
    decide +kernel
  clear_value w
  obtain ⟨hserve, _, hfor, _⟩ := failure_changes_nothing hreach
  have hadd : w.perform (serve (.add (.custom 0) 0 6)) =
      (.error (.componentAlreadyPresent 0 (.custom 0)), w) :=
    Prod.ext hadd (hserve _ _ _ (Prod.ext hadd rfl))
  have hsystem : w.perform (registerSystemFor "greedy" [.custom 0, .custom 1, .custom 1, .custom 2]) =
      (.error (.componentCapacityExceeded 2), w') := Prod.ext hsystem rfl
  exact ⟨w, w', hreach, hkinds.1, hadd, hsystem, hkinds.2, hfor _ _ _ _ hsystem⟩

end World

end SceneEngine
