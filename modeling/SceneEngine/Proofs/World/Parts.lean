/-
What an action does to the components of one entity.

The built-in systems take entities one after the other, and what they do to one depends on
its own components only. `World.parts` are the components of an entity by kind. An action
`Turns` those of `e` into others when it comes to its end and nothing else has changed. A
loop over distinct entities then does to each of them what its body does to that one alone,
since each is found as it was in the beginning (`turns_forM`).
-/
import Mathlib.Data.List.Nodup
import Mathlib.Logic.Function.Basic
import SceneEngine.Proofs.World.Rewriting

namespace SceneEngine

/-- Components of all kinds, as one entity has them. -/
abbrev Parts := (k : Kind) → Option k.Value

namespace World

variable {w w' w'' : World} {e : EntityId} {p q : Parts}

/-- The components of an entity. -/
def parts (w : World) (e : EntityId) : Parts := fun k => w.get? k e

/-- Nothing but values of components differs. -/
structure Revalued (w w' : World) : Prop extends w.Rewritten w' where
  tolerance : w'.tolerance = w.tolerance

theorem Revalued.refl (h : w.storage.Sound) : w.Revalued w := ⟨.refl h, rfl⟩

theorem Revalued.trans (h : w.Revalued w') (h' : w'.Revalued w'') : w.Revalued w'' :=
  ⟨h.toRewritten.trans h'.toRewritten, h'.tolerance.trans h.tolerance⟩

/-- The second world has `p` for the components of `e`, and all else from the first. -/
structure Alters (w : World) (e : EntityId) (p : Parts) (w' : World) : Prop extends
    w.Revalued w' where
  self : w'.parts e = p
  other : ∀ e', e' ≠ e → w'.parts e' = w.parts e'

theorem Alters.trans (h : w.Alters e p w') (h' : w'.Alters e q w'') : w.Alters e q w'' where
  toRevalued := h.toRevalued.trans h'.toRevalued
  self := h'.self
  other e' he := (h'.other e' he).trans (h.other e' he)

theorem Alters.replaced {k : Kind} {x : k.Value} {storage : Storage}
    (hsome : (w.get? k e).isSome = true) (hu : w.storage.Updated k e (some x) storage) :
    w.Alters e (Function.update (w.parts e) k (some x)) { w with storage } where
  toRewritten := .replaced hsome hu
  tolerance := rfl
  self := by
    funext k'
    by_cases hk : k' = k
    · subst hk
      rw [Function.update_self]
      exact hu.self
    · rw [Function.update_of_ne hk]
      exact hu.other k' e fun h => hk h.1
  other e' he := by
    funext k'
    exact hu.other k' e' fun h => he h.2

/-! ## Actions on one entity -/

/-- The action comes to its end and turns the components of `e` into `p`. -/
def Turns {β : Type} (w : World) (action : Action β) (e : EntityId) (p : Parts) : Prop :=
  ∃ x w', w.perform action = (.ok x, w') ∧ w.Alters e p w'

section Turns

variable {β γ : Type} {k a b : Kind}

theorem Turns.runs {action : Action β} (h : w.Turns action e p) : w.Runs action := by
  obtain ⟨x, w', hp, hw'⟩ := h
  exact ⟨x, w', hp, hw'.toRewritten⟩

theorem Turns.of_eq {action : Action β} (h : w.Turns action e q) (heq : q = p) :
    w.Turns action e p := heq ▸ h

theorem Turns.pure (h : w.storage.Sound) (x : β) : w.Turns (pure x) e (w.parts e) :=
  ⟨x, w, rfl, .refl h, rfl, fun _ _ => rfl⟩

theorem Turns.bind {action : Action β} {f : β → Action γ} (ha : w.Turns action e q)
    (hf : ∀ x w', w.Alters e q w' → w'.Turns (f x) e p) : w.Turns (action >>= f) e p := by
  obtain ⟨x, w₁, hp, h₁⟩ := ha
  obtain ⟨y, w₂, hq, h₂⟩ := hf x w₁ h₁
  exact ⟨y, w₂, by rw [perform_bind, hp]; exact hq, h₁.trans h₂⟩

/-- What is read first does not count. -/
theorem Turns.of_read {action : Action β} {f : β → Action γ} {x : β}
    (hp : w.perform action = (.ok x, w)) (hf : w.Turns (f x) e p) : w.Turns (action >>= f) e p := by
  obtain ⟨y, w', hq, hw'⟩ := hf
  exact ⟨y, w', by rw [perform_bind, hp]; exact hq, hw'⟩

theorem perform_read_of {x : k.Value} (h : w.get? k e = some x) :
    w.perform (read k e) = (.ok x, w) := by
  rw [perform_read, component, h]

theorem perform_readPair_of (hs : w.storage.Sound) (hab : a ≠ b) {x : a.Value} {y : b.Value}
    (ha : w.get? a e = some x) (hb : w.get? b e = some y) :
    w.perform (readPair a b e) = (.ok (x, y), w) := by
  have hka := Storage.mem_kinds_of_isSome (s := w.storage) (Option.isSome_of_eq_some ha)
  have hkb := Storage.mem_kinds_of_isSome (s := w.storage) (Option.isSome_of_eq_some hb)
  rw [get?] at ha hb
  rw [perform_readPair, hs.pair_eq]
  simp [hka, hkb, hab, ha, hb]

theorem turns_write (hs : w.storage.Sound) (h : (w.get? k e).isSome = true) (x : k.Value) :
    w.Turns (write k e x) e (Function.update (w.parts e) k (some x)) := by
  rcases write_cases hs k e x with ⟨hnone, _⟩ | ⟨_, storage, hu, hp⟩
  · simp [hnone] at h
  · exact ⟨(), _, hp, .replaced h hu⟩

theorem turns_writePair (hs : w.storage.Sound) (hab : a ≠ b) (ha : (w.get? a e).isSome = true)
    (hb : (w.get? b e).isSome = true) (x : a.Value) (y : b.Value) :
    w.Turns (writePair a b e x y) e
      (Function.update (Function.update (w.parts e) a (some x)) b (some y)) := by
  obtain ⟨x₀, hx₀⟩ := Option.isSome_iff_exists.mp ha
  obtain ⟨y₀, hy₀⟩ := Option.isSome_iff_exists.mp hb
  obtain ⟨storage₁, hu₁, hu₂⟩ := Storage.setPair_updated hs hab hx₀ hy₀ x y
  have h₁ : w.Alters e _ { w with storage := storage₁ } := .replaced ha hu₁
  have h₂ := Alters.replaced ((h₁.isSome_get? b e).trans hb) hu₂
  rw [h₁.self] at h₂
  exact ⟨(), _, rfl, h₁.trans h₂⟩

/-- A component is replaced by what is made from it. -/
theorem turns_rewrite (hs : w.storage.Sound) {x : k.Value} (h : w.get? k e = some x)
    (g : k.Value → k.Value) : w.Turns (do let x ← read k e; write k e (g x)) e
      (Function.update (w.parts e) k (some (g x))) :=
  .of_read (perform_read_of h) (turns_write hs (Option.isSome_of_eq_some h) (g x))

/-! ## Loops -/

/-- A loop over distinct entities turns the components of each as its body does: the body
may take them to be as they were before the loop. -/
theorem turns_forM {α : Type} {f : α → Action Unit} {key : α → EntityId} {g : α → Parts}
    {l : List α} (hs : w.storage.Sound) (hnd : (l.map key).Nodup)
    (hf : ∀ x ∈ l, ∀ w', w.Revalued w' → w'.parts (key x) = w.parts (key x) →
      w'.Turns (f x) (key x) (g x)) :
    ∃ w', w.perform (l.forM f) = (.ok (), w') ∧ w.Revalued w' ∧
      (∀ x ∈ l, w'.parts (key x) = g x) ∧ ∀ e, e ∉ l.map key → w'.parts e = w.parts e := by
  induction l generalizing w with
  | nil => exact ⟨w, rfl, .refl hs, by simp, fun _ _ => rfl⟩
  | cons x rest ih =>
    obtain ⟨hx, hnd⟩ := List.nodup_cons.mp hnd
    obtain ⟨_, w₁, hp, h₁⟩ := hf x (by simp) w (.refl hs) rfl
    have hrest : ∀ y ∈ rest, key y ≠ key x := fun y hy heq => hx (heq ▸ List.mem_map_of_mem hy)
    obtain ⟨w₂, hq, h₂, hin, hout⟩ := ih h₁.sound hnd fun y hy w' hw' hparts =>
      hf y (by simp [hy]) w' (h₁.toRevalued.trans hw') (hparts.trans (h₁.other _ (hrest y hy)))
    refine ⟨w₂, ?_, h₁.toRevalued.trans h₂, fun y hy => ?_, fun e he => ?_⟩
    · have hcons : (x :: rest).forM f = (f x >>= fun _ => rest.forM f) := rfl
      rw [hcons, perform_bind, hp]
      exact hq
    · rcases List.mem_cons.mp hy with rfl | hy
      · -- The rest of the loop does not come back to this entity.
        exact (hout _ hx).trans h₁.self
      · exact hin y hy
    · rw [List.map_cons, List.mem_cons, not_or] at he
      exact (hout e he.2).trans (h₁.other e he.1)

/-- A rule for each member of a system. -/
theorem turns_perMember {id : SystemId} {ids : List EntityId} {rule : EntityId → Action Unit}
    {g : EntityId → Parts} (hs : w.storage.Sound) (hm : w.members id = .ok ids) (hnd : ids.Nodup)
    (hrule : ∀ e ∈ ids, ∀ w', w.Revalued w' → w'.parts e = w.parts e → w'.Turns (rule e) e (g e)) :
    ∃ w', w.perform (do (← readMembers id).forM rule) = (.ok (), w') ∧ w.Revalued w' ∧
      ∀ e, w'.parts e = if e ∈ ids then g e else w.parts e := by
  have hkeys : (ids.map fun e => e).Nodup := by simpa using hnd
  obtain ⟨w', hp, hw', hin, hout⟩ := turns_forM hs hkeys hrule
  refine ⟨w', by rw [perform_bind, perform_readMembers hm]; exact hp, hw', fun e => ?_⟩
  split
  · next he => exact hin e he
  · next he => exact hout e (by simpa using he)

end Turns

end World

end SceneEngine
