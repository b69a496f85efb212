/-
What all components of a world have in common.

A component comes from outside, with the request that adds it, or is made from the one that
stood in its place. So a property that every request gives to what it hands in, and leaves to
what it changes, is one that all components have (`Every.serve`). Registrations write no
component at all.
-/
import SceneEngine.Proofs.World.Refinement

namespace SceneEngine

variable {Q : (k : Kind) → k.Value → Prop}

/-- What the request hands in has the property, and what it changes keeps it. -/
def Request.Keeps (Q : (k : Kind) → k.Value → Prop) : Request → Prop
  | add k _ value => Q k value
  | update k _ change | update? k _ change => ∀ x, Q k x → Q k (change x)
  | updatePair a b _ change =>
    ∀ x y, Q a x → Q b y → Q a (change (x, y)).1 ∧ Q b (change (x, y)).2
  | _ => True

namespace World

variable {w w' : World}

/-- Every component has the property. -/
def Every (Q : (k : Kind) → k.Value → Prop) (w : World) : Prop :=
  ∀ k e x, w.get? k e = some x → Q k x

theorem every_new {capacity : CapacityConfig} {tolerance : Tolerance F64}
    (h : World.new capacity tolerance = .ok w) : w.Every Q := by
  intro k e x hx
  rw [(Store.represents_new h).get?] at hx
  simp [Store.get?, Store.record?, Store.new] at hx

theorem Every.of_get?_eq (h : w.Every Q) (hw' : ∀ k e, w'.get? k e = w.get? k e) : w'.Every Q := by
  intro k e x hx
  exact h k e x ((hw' k e).symm.trans hx)

/-- The property at the one place that is written, and from the world before at all others. -/
theorem Every.updated {storage : Storage} {k : Kind} {e : EntityId} {x : Option k.Value}
    (h : w.Every Q) (hu : w.storage.Updated k e x storage) (hx : ∀ y, x = some y → Q k y)
    (hw' : w'.storage = storage) : w'.Every Q := by
  intro k' e' y hy
  rw [get?, hw'] at hy
  by_cases hplace : k' = k ∧ e' = e
  · obtain ⟨rfl, rfl⟩ := hplace
    exact hx y (hu.self.symm.trans hy)
  · exact h k' e' y ((hu.other k' e' hplace).symm.trans hy)

theorem Every.updated_some {storage : Storage} {k : Kind} {e : EntityId} {x : k.Value}
    (h : w.Every Q) (hu : w.storage.Updated k e (some x) storage) (hx : Q k x)
    (hw' : w'.storage = storage) : w'.Every Q :=
  h.updated hu (fun _ hy => Option.some.inj hy ▸ hx) hw'

/-- What one request keeps, whether it is served or refused. -/
theorem Every.serve (h : w.Every Q) (hc : w.Coherent) {r : Request} (hr : r.Keeps Q) :
    (w.after (World.serve r)).Every Q := by
  have hs := hc.storage
  cases r with
  | destroy e =>
    rcases destroyEntity_cases w e with ⟨_, hp⟩ | ⟨_, _, hp⟩ <;> rw [after, World.serve, hp]
    · exact h
    · intro k e' x hx
      rw [get?, Storage.get?_discard hs] at hx
      split at hx
      · cases hx
      · exact h k e' x hx
  | add k e value =>
    rcases addComponent_cases hs k e value with
      ⟨_, hp⟩ | ⟨_, _, ⟨_, _, hp⟩ | ⟨_, hp⟩ | ⟨_, _, storage₁, _, _, hreg, hu, _, hp⟩⟩ <;>
      rw [after, World.serve, hp]
    · exact h
    · exact h
    · exact h
    · have h₁ : Every Q { w with storage := storage₁ } := h.of_get?_eq hreg.get?
      exact h₁.updated_some hu hr rfl
  | remove k e =>
    rcases removeComponent_cases hs k e with
      ⟨_, hp⟩ | ⟨_, _, ⟨_, hp⟩ | ⟨_, _, hp⟩ | ⟨_, _, _, _, _, _, hu, _, hp⟩⟩ <;>
      rw [after, World.serve, hp]
    · exact h
    · exact h
    · exact h
    · exact h.updated hu (fun y hy => by cases hy) rfl
  | update k e change =>
    rcases perform_update_cases hs k e change with ⟨_, hp⟩ | ⟨x, _, hx, hu, hp⟩ <;> rw [after, hp]
    · exact h
    · exact h.updated_some hu (hr x (h k e x hx)) rfl
  | update? k e change =>
    rcases perform_update?_cases hs k e change with ⟨_, hp⟩ | ⟨x, _, hx, hu, hp⟩ <;> rw [after, hp]
    · exact h
    · exact h.updated_some hu (hr x (h k e x hx)) rfl
  | updatePair a b e change =>
    rcases perform_updatePair_cases hs a b e change with
      ⟨_, _, hp⟩ | ⟨x, y, storage₁, _, _, hx, hy, _, hu₁, hu₂, hp⟩ <;> rw [after, hp]
    · exact h
    · obtain ⟨ha, hb⟩ := hr x y (h a e x hx) (h b e y hy)
      have h₁ : Every Q { w with storage := storage₁ } := h.updated_some hu₁ ha rfl
      exact h₁.updated_some hu₂ hb rfl
  | create | register | component | component? | hasComponent | isAlive | signature | byName
  | nameOf | living =>
    exact h.of_get?_eq fun k e => hc.get?_serve (k := k) (e := e) not_false

/-! ## Registrations -/

theorem Every.registerSystem (h : w.Every Q) (name : String) (required : Signature) :
    (w.after (registerSystem name required)).Every Q := by
  rcases registerSystem_cases w name required with ⟨_, hp⟩ | ⟨_, _, _, hp⟩ <;> rw [after, hp]
  · exact h
  · exact h.of_get?_eq fun _ _ => rfl

/-- Each kind is registered in a coherent world. -/
theorem Every.insertKinds (h : w.Coherent ∧ w.Every Q) (kinds : List Kind) (s : Signature) :
    let w' := w.after (kinds.foldlM (fun s k => return s.insert (← registerComponent k)) s)
    w'.Coherent ∧ w'.Every Q := by
  induction kinds generalizing w s with
  | nil => exact h
  | cons k rest ih =>
    rw [List.foldlM_cons]
    have hreg : (w.after (registerComponent k)).Every Q := h.2.serve h.1 (r := .register k) trivial
    refine after_bind (I := fun w => w.Coherent ∧ w.Every Q) w ?_ fun s' w' h' => ih h' s'
    exact after_bind (I := fun w => w.Coherent ∧ w.Every Q) w ⟨h.1.registerComponent k, hreg⟩
      fun _ _ h' => h'

theorem Every.registerSystemFor (h : w.Every Q) (hc : w.Coherent) (name : String)
    (kinds : List Kind) : (w.after (registerSystemFor name kinds)).Every Q :=
  after_bind w (Every.insertKinds ⟨hc, h⟩ kinds .empty).2 fun s _ h' => h'.registerSystem name s

end World

end SceneEngine
