/-
Actions that change component values and nothing else.

The built-in systems work this way: what they write is there before, and they read
nothing that an earlier write could have taken away. `Rewritten` says what such work
leaves alone, and `Runs` that an action does only such work and comes to its end. Both
pass through sequences and loops, so a system comes to its end as soon as its rule does
on every member, however the values have changed by then.
-/
import SceneEngine.Proofs.World.Coherence

namespace SceneEngine.World

variable {w w' w'' : World}

/-- The second world has the first one's entities, systems and kinds, and components in
the same places. -/
structure Rewritten (w w' : World) : Prop where
  entities : w'.entities = w.entities
  roster : w'.roster = w.roster
  sound : w'.storage.Sound
  kinds : w'.storage.kinds = w.storage.kinds
  typeIds : w'.storage.typeIds = w.storage.typeIds
  isSome_get? : ∀ k e, (w'.get? k e).isSome = (w.get? k e).isSome

namespace Rewritten

theorem refl (h : w.storage.Sound) : w.Rewritten w := ⟨rfl, rfl, h, rfl, rfl, fun _ _ => rfl⟩

theorem trans (h : w.Rewritten w') (h' : w'.Rewritten w'') : w.Rewritten w'' where
  entities := h'.entities.trans h.entities
  roster := h'.roster.trans h.roster
  sound := h'.sound
  kinds := h'.kinds.trans h.kinds
  typeIds := h'.typeIds.trans h.typeIds
  isSome_get? k e := (h'.isSome_get? k e).trans (h.isSome_get? k e)

theorem members (h : w.Rewritten w') (id : SystemId) : w'.members id = w.members id := by
  rw [World.members, h.roster, World.members]

theorem replaced {k : Kind} {e : EntityId} {x : k.Value} {storage : Storage}
    (hsome : (w.get? k e).isSome = true) (hu : w.storage.Updated k e (some x) storage) :
    w.Rewritten { w with storage } where
  entities := rfl
  roster := rfl
  sound := hu.sound
  kinds := hu.kinds
  typeIds := hu.typeIds
  isSome_get? k' e' := by
    by_cases hkey : k' = k ∧ e' = e
    · obtain ⟨rfl, rfl⟩ := hkey
      rw [hsome, World.get?, hu.self]
      rfl
    · rw [World.get?, hu.other k' e' hkey, World.get?]

/-- The parts of a world stay in step: none of them looks at a value. -/
theorem coherent (h : w.Rewritten w') (hc : w.Coherent) : w'.Coherent where
  entities := h.entities ▸ hc.entities
  storage := h.sound
  components := by
    constructor
    · intro k i e hk
      have hsome := h.isSome_get? k e
      rw [World.get?, World.get?] at hsome
      rw [Storage.typeId?_congr h.typeIds] at hk
      rw [hsome, h.entities]
      exact hc.components.holds_iff k i e hk
    · rw [h.entities, Storage.count_congr h.kinds]
      exact hc.components.lt_count
  systems := by
    rw [h.roster, h.entities]
    exact hc.systems

end Rewritten

/-! ## Running to the end -/

/-- The action does not fail and changes nothing but values. -/
def Runs {β : Type} (w : World) (action : Action β) : Prop :=
  ∃ x w', w.perform action = (.ok x, w') ∧ w.Rewritten w'

section Runs

variable {β γ : Type}

theorem eq_ok_of_perform {action : Action β} {x : β} (h : w.perform action = (.ok x, w')) :
    action w = .ok x w' := by
  unfold perform Change.perform at h
  split at h <;> cases h
  next ha => exact ha

theorem Runs.exists_ok {action : Action β} (h : w.Runs action) :
    ∃ x w', action w = .ok x w' ∧ w.Rewritten w' := by
  obtain ⟨x, w', hp, hw'⟩ := h
  exact ⟨x, w', eq_ok_of_perform hp, hw'⟩

theorem Runs.of_unchanged {action : Action β} {x : β} (h : w.storage.Sound)
    (hp : w.perform action = (.ok x, w)) : w.Runs action :=
  ⟨x, w, hp, .refl h⟩

theorem Runs.pure (h : w.storage.Sound) (x : β) : w.Runs (pure x) := .of_unchanged h rfl

theorem Runs.bind {a : Action β} {f : β → Action γ} (ha : w.Runs a)
    (hf : ∀ x w', w.Rewritten w' → w'.Runs (f x)) : w.Runs (a >>= f) := by
  obtain ⟨x, w₁, hp, h₁⟩ := ha
  obtain ⟨y, w₂, hq, h₂⟩ := hf x w₁ h₁
  exact ⟨y, w₂, by rw [perform_bind, hp]; exact hq, h₁.trans h₂⟩

/-- A loop runs when its body does on every element, after whatever was rewritten
before. -/
theorem Runs.forM {α : Type} {f : α → Action Unit} {l : List α} (hs : w.storage.Sound)
    (hf : ∀ x ∈ l, ∀ w', w.Rewritten w' → w'.Runs (f x)) : w.Runs (l.forM f) := by
  induction l generalizing w with
  | nil => exact .pure hs _
  | cons x rest ih =>
    -- The rest begins in a rewritten world; its body was assumed to run in any such.
    refine Runs.bind (hf x (by simp) w (.refl hs)) fun _ w₁ h₁ => ih h₁.sound fun y hy w₂ h₂ => ?_
    exact hf y (by simp [hy]) w₂ (h₁.trans h₂)

theorem perform_readMembers {id : SystemId} {ids : List EntityId} (h : w.members id = .ok ids) :
    w.perform (readMembers id) = (.ok ids, w) := by
  simp [readMembers, h]

/-- A rule for each member of a system runs when it does on all that are members now. -/
theorem runs_perMember {id : SystemId} {ids : List EntityId} {rule : EntityId → Action Unit}
    (hs : w.storage.Sound) (hm : w.members id = .ok ids)
    (hrule : ∀ e ∈ ids, ∀ w', w.Rewritten w' → w'.Runs (rule e)) :
    w.Runs (do (← readMembers id).forM rule) := by
  obtain ⟨x, w', hp, hw'⟩ := Runs.forM hs hrule
  exact ⟨x, w', by rw [perform_bind, perform_readMembers hm]; exact hp, hw'⟩

end Runs

end SceneEngine.World
