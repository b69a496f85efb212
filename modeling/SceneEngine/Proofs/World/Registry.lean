/-
How kinds of components are numbered, over whole runs.

Kinds are asked for in many ways: by registering them, by giving an entity a component, by
a system or a behavior that needs them, and some of these fail half way. What a world has
registered follows from the order in which kinds were asked for and from nothing else: it
is the first ones, each once, as many as there is room for (`enrolls_enactAll`). So a kind
keeps its number, the numbers have no gaps, and all are bits of a signature.
-/
import SceneEngine.Proofs.World.Lives
import SceneEngine.Schedule
import Mathlib.Data.List.Induction

namespace SceneEngine

/-! ## Asking for kinds -/

/-- The kinds with one more, if it is new and there is room. -/
def enroll (limit : Nat) (kinds : List Kind) (k : Kind) : List Kind :=
  if k ∈ kinds ∨ limit ≤ kinds.length then kinds else kinds ++ [k]

theorem enroll_of_mem {limit : Nat} {kinds : List Kind} {k : Kind} (h : k ∈ kinds) :
    enroll limit kinds k = kinds := if_pos (.inl h)

/-- In the end the kinds are those asked for first. -/
theorem foldl_enroll_nil (limit : Nat) (asked : List Kind) :
    asked.foldl (enroll limit) [] = asked.eraseDups.take limit := by
  induction asked using List.reverseRecOn with
  | nil => simp
  | append_singleton asked k ih =>
    rw [List.foldl_append, List.foldl_cons, List.foldl_nil, ih, List.eraseDups_append, enroll]
    by_cases hk : k ∈ asked
    · have hsame : (List.removeAll [k] asked).eraseDups = [] := by simp [List.removeAll, hk]
      rw [hsame, List.append_nil, if_pos]
      by_cases hfull : limit ≤ asked.eraseDups.length
      · exact .inr (by rw [List.length_take]; omega)
      · refine .inl ?_
        rw [List.take_of_length_le (by omega)]
        exact List.mem_eraseDups.mpr hk
    · have hnew : (List.removeAll [k] asked).eraseDups = [k] := by
        simp [List.removeAll, hk, List.eraseDups_cons]
      rw [hnew]
      by_cases hfull : limit ≤ asked.eraseDups.length
      · rw [if_pos (.inr (by rw [List.length_take]; omega)), List.take_append_of_le_length hfull]
      · rw [List.take_of_length_le (by omega), List.take_of_length_le (by simp; omega), if_neg]
        intro hor
        rcases hor with hmem | hle
        · exact hk (List.mem_eraseDups.mp hmem)
        · exact hfull hle

theorem prefix_foldl_enroll (limit : Nat) (kinds asked : List Kind) :
    kinds <+: asked.foldl (enroll limit) kinds := by
  induction asked generalizing kinds with
  | nil => exact List.prefix_rfl
  | cons k rest ih =>
    refine List.IsPrefix.trans ?_ (ih (enroll limit kinds k))
    unfold enroll
    split
    · exact List.prefix_rfl
    · exact List.prefix_append _ _

namespace Storage

variable {s s' s'' : Storage} {k : Kind} {asked more : List Kind}

/-- `s'` has the kinds of `s` and, as far as there was room, those asked for since. -/
structure Enrolls (s : Storage) (asked : List Kind) (s' : Storage) : Prop where
  aligned : s'.Aligned
  limit : s'.limit = s.limit
  kinds : s'.kinds = asked.foldl (enroll s.limit) s.kinds

theorem Enrolls.refl (h : s.Aligned) : s.Enrolls [] s := ⟨h, rfl, rfl⟩

theorem Enrolls.trans (h : s.Enrolls asked s') (h' : s'.Enrolls more s'') :
    s.Enrolls (asked ++ more) s'' where
  aligned := h'.aligned
  limit := h'.limit.trans h.limit
  kinds := by rw [h'.kinds, h.limit, h.kinds, List.foldl_append]

theorem Aligned.enrolls_setColumn (h : s.Aligned) (c : Column k) : s.Enrolls [] (s.setColumn c) :=
  ⟨h.setColumn c, limit_setColumn s c, h.kinds_setColumn c⟩

theorem Aligned.enrolls_discard (h : s.Aligned) (e : EntityId) : s.Enrolls [] (s.discard e) :=
  ⟨h.discard e, rfl, kinds_discard s e⟩

/-- Without room nothing comes of asking. -/
theorem Enrolls.of_full (h : s.Aligned) (hfull : s.limit ≤ s.count) (asked : List Kind) :
    s.Enrolls asked s where
  aligned := h
  limit := rfl
  kinds := by
    induction asked with
    | nil => rfl
    | cons k rest ih =>
      have hsame : enroll s.limit s.kinds k = s.kinds :=
        if_pos (.inr (by rw [length_kinds]; exact hfull))
      rw [List.foldl_cons, hsame]
      exact ih

theorem Aligned.enrolls_enlist (h : s.Aligned) (hk : k ∉ s.kinds) (hroom : s.count < s.limit) :
    s.Enrolls [k] (s.enlist k) where
  aligned := h.enlist hk hroom
  limit := rfl
  kinds := by
    have hnew : ¬ (k ∈ s.kinds ∨ s.limit ≤ s.kinds.length) := by
      rw [length_kinds]
      simp only [hk, false_or]
      omega
    rw [kinds_enlist, List.foldl_cons, List.foldl_nil, enroll, if_neg hnew]

/-- The number answered for a kind is its place among the registered ones. -/
theorem Aligned.registerComponent_cases (h : s.Aligned) (k : Kind) :
    (∃ t s', registerComponent k s = .ok t s' ∧ s'.typeId? k = some t ∧ s.Enrolls [k] s') ∨
    (s.limit ≤ s.count ∧ registerComponent k s = .error (.componentCapacityExceeded s.limit) s) := by
  rw [registerComponent_apply]
  cases ht : s.typeId? k with
  | some t => exact .inl ⟨t, s, rfl, ht, h, rfl, (enroll_of_mem (h.mem_kinds ht)).symm⟩
  | none =>
    have hk := h.typeId?_eq_none_iff.mp ht
    by_cases hfull : s.limit ≤ s.count
    · exact .inr ⟨hfull, if_pos hfull⟩
    · refine .inl ⟨_, _, if_neg hfull, ?_, h.enrolls_enlist hk (Nat.lt_of_not_le hfull)⟩
      rw [typeId?_enlist, if_pos rfl]

/-! ## Numbers -/

/-- A number once given stays. -/
theorem Enrolls.typeId? (h : s.Enrolls asked s') (hs : s.Aligned) {t : Nat}
    (ht : s.typeId? k = some t) : s'.typeId? k = some t := by
  obtain ⟨added, hadded⟩ := prefix_foldl_enroll s.limit s.kinds asked
  rw [hs.typeId?_iff] at ht
  rw [h.aligned.typeId?_iff, h.kinds, ← hadded,
    List.getElem?_append_left (List.getElem?_eq_some_iff.mp ht).1]
  exact ht

theorem Enrolls.mem_kinds (h : s.Enrolls asked s') (hk : k ∈ s.kinds) : k ∈ s'.kinds := by
  rw [h.kinds]
  exact (prefix_foldl_enroll s.limit s.kinds asked).subset hk

/-- How kinds are numbered when `asked` is what was asked for. -/
structure Numbered (s : Storage) (asked : List Kind) (limit : Nat) : Prop where
  /-- In the order they were first asked for. -/
  order : ∀ k t, s.typeId? k = some t ↔ (asked.eraseDups.take limit)[t]? = some k
  dense : ∀ t, t < s.count ↔ ∃ k, s.typeId? k = some t
  injective : ∀ k k' t, s.typeId? k = some t → s.typeId? k' = some t → k = k'
  bounded : s.count ≤ limit
  /-- The entry under the number of a kind is a column of that kind, and is what is found. -/
  typed : ∀ k t, s.typeId? k = some t →
    ∃ c, (s.columns[t]?).bind (Column.downcast? k) = some c ∧ s.column k = .ok c
  /-- Nothing is found only under a kind that has no number. -/
  unknown : ∀ k error, s.column k = .error error →
    error = .componentNotRegistered k ∧ s.typeId? k = none

theorem Enrolls.numbered (h : s.Enrolls asked s') (hs : s.kinds = []) :
    s'.Numbered asked s.limit := by
  have hkinds := h.kinds
  rw [hs, foldl_enroll_nil] at hkinds
  refine ⟨fun k t => ?_, fun t => ⟨h.aligned.exists_typeId?_of_lt, ?_⟩,
    fun k k' t => h.aligned.typeId?_inj, ?_, fun k t ht => ?_, fun k error herror => ?_⟩
  · rw [h.aligned.typeId?_iff, hkinds]
  · rintro ⟨k, ht⟩
    exact h.aligned.typeId_lt ht
  · rw [← length_kinds, hkinds, List.length_take]
    omega
  · obtain ⟨c, hentry, hc⟩ := h.aligned.getElem?_columns ht
    exact ⟨c, by simp [hentry], column?_eq_some_iff_column.mp hc⟩
  · obtain rfl := column_eq_error herror
    refine ⟨rfl, h.aligned.typeId?_eq_none_iff.mpr ?_⟩
    exact h.aligned.column?_eq_none_iff.mp (column?_eq_none_iff_column.mpr herror)

/-! ## Columns -/

/-- A column changed in place, also when its change fails, or when there is none. -/
theorem Aligned.enrolls_onColumn {β : Type} (h : s.Aligned) (change : Change (Column k) β) :
    s.Enrolls [] ((onColumn k change).perform s).2 := by
  unfold Change.perform
  cases hc : s.column? k with
  | none =>
    rw [onColumn_of_none hc]
    exact .refl h
  | some c =>
    rw [onColumn_apply hc]
    cases change c <;> exact h.enrolls_setColumn _

theorem exists_setColumn_of_set? {e : EntityId} {value : k.Value} (h : s.set? k e value = some s') :
    ∃ c : Column k, s' = s.setColumn c := by
  unfold set? at h
  simp only [bind, Option.bind_eq_some_iff, pure, Option.some.injEq] at h
  obtain ⟨_, _, c, _, rfl⟩ := h
  exact ⟨c, rfl⟩

theorem Aligned.enrolls_set? (h : s.Aligned) (k : Kind) (e : EntityId) (value : k.Value) :
    s.Enrolls [] ((s.set? k e value).getD s) := by
  cases hset : s.set? k e value with
  | none => exact .refl h
  | some s' =>
    obtain ⟨c, rfl⟩ := exists_setColumn_of_set? hset
    exact h.enrolls_setColumn c

theorem Aligned.enrolls_setPair (h : s.Aligned) (a b : Kind) (e : EntityId) (x : a.Value)
    (y : b.Value) : s.Enrolls [] (s.setPair a b e x y) :=
  (h.enrolls_set? a e x).trans ((h.enrolls_set? a e x).aligned.enrolls_set? b e y)

end Storage

namespace World

variable {w w' : World}

theorem storage_after_onStorage {β : Type} (w : World) (c : Change Storage β) :
    (w.after (onStorage c)).storage = (c.perform w.storage).2 := by
  rw [after, perform_onStorage, Change.perform]
  cases c w.storage <;> rfl

theorem perform_registerComponent_cases (h : w.storage.Aligned) (k : Kind) :
    (∃ t storage, w.perform (registerComponent k) = (.ok t, { w with storage }) ∧
      storage.typeId? k = some t ∧ w.storage.Enrolls [k] storage) ∨
    (w.storage.limit ≤ w.storage.count ∧ w.perform (registerComponent k) =
      (.error (.componentCapacityExceeded w.storage.limit), w)) := by
  rw [registerComponent, perform_onStorage]
  rcases h.registerComponent_cases k with ⟨t, storage, hr, ht, hs⟩ | ⟨hfull, hr⟩ <;> rw [hr]
  · exact .inl ⟨t, storage, rfl, ht, hs⟩
  · exact .inr ⟨hfull, rfl⟩

theorem enrolls_registerComponent (h : w.storage.Aligned) (k : Kind) :
    w.storage.Enrolls [k] (w.after (registerComponent k)).storage := by
  rcases perform_registerComponent_cases h k with ⟨t, storage, hp, _, hs⟩ | ⟨hfull, hp⟩ <;>
    rw [after, hp]
  · exact hs
  · exact .of_full h hfull [k]

/-- What asks for nothing comes after another action. -/
theorem enrolls_bind {β γ : Type} {a : Action β} {f : β → Action γ} {asked : List Kind}
    (ha : w.storage.Enrolls asked (w.after a).storage)
    (hf : ∀ (x : β) (w' : World), w'.storage.Aligned →
      w'.storage.Enrolls [] (w'.after (f x)).storage) :
    w.storage.Enrolls asked (w.after (a >>= f)).storage := by
  refine after_bind w (I := fun w' => w.storage.Enrolls asked w'.storage) ha fun x w' hw' => ?_
  have hrest := hw'.trans (hf x w' hw'.aligned)
  rwa [List.append_nil] at hrest

theorem enrolls_of_storage_eq {β : Type} {a : Action β} (h : w.storage.Aligned)
    (ha : (w.after a).storage = w.storage) : w.storage.Enrolls [] (w.after a).storage := by
  rw [ha]
  exact .refl h

theorem enrolls_changeSignature (h : w.storage.Aligned) (e : EntityId) (s : Signature) :
    w.storage.Enrolls [] (w.after (changeSignature e s)).storage := by
  refine enrolls_of_storage_eq h ?_
  rcases changeSignature_cases w e s with ⟨_, hp⟩ | ⟨_, _, hp⟩ <;> rw [after, hp]

theorem enrolls_ofExcept {β : Type} (h : w.storage.Aligned) (x : Except SceneError β) :
    w.storage.Enrolls [] (w.after (ofExcept x)).storage := by
  cases x <;> exact .refl h

/-- The kinds an addition asks for: one if there is the entity, which is seen to first. -/
theorem enrolls_addComponent (h : w.storage.Aligned) (k : Kind) (e : EntityId) (value : k.Value) :
    w.storage.Enrolls (if w.isAlive e then [k] else [])
      (w.after (addComponent k e value)).storage := by
  cases hs : w.entities.signature? e with
  | none =>
    have hdead : w.isAlive e = false := by simp [isAlive, EntityTable.isAlive, hs]
    rw [hdead]
    refine enrolls_of_storage_eq h ?_
    simp [after, addComponent, signature, EntityTable.signature, hs]
  | some s =>
    have halive : w.isAlive e = true := by simp [isAlive, EntityTable.isAlive, hs]
    have hrun : w.after (addComponent k e value) = w.after (registerComponent k >>= fun t => do
        onStorage (Storage.addComponent k e value)
        changeSignature e (s.insert t)) := by
      simp [after, addComponent, signature, EntityTable.signature, hs]
    rw [halive, if_pos rfl, hrun]
    refine enrolls_bind (enrolls_registerComponent h k) fun t w₁ h₁ => enrolls_bind ?_ ?_
    · rw [storage_after_onStorage]
      exact h₁.enrolls_onColumn _
    · exact fun _ w₂ h₂ => enrolls_changeSignature h₂ e (s.insert t)

theorem enrolls_removeComponent (h : w.storage.Aligned) (k : Kind) (e : EntityId) :
    w.storage.Enrolls [] (w.after (removeComponent k e)).storage := by
  refine enrolls_bind (a := get) (.refl h) fun w₀ w₁ h₁ => ?_
  refine enrolls_bind (enrolls_ofExcept h₁ _) fun s w₂ h₂ => ?_
  split
  · exact .refl h₂
  · next t _ =>
    refine enrolls_bind ?_ fun value w₃ h₃ =>
      enrolls_bind (enrolls_changeSignature h₃ e (s.erase t)) fun _ _ h₄ => .refl h₄
    rw [storage_after_onStorage]
    exact h₂.enrolls_onColumn _

theorem enrolls_write (h : w.storage.Aligned) (k : Kind) (e : EntityId) (value : k.Value) :
    w.storage.Enrolls [] (w.after (write k e value)).storage := by
  have hrun : (w.after (write k e value)).storage = (w.storage.set? k e value).getD w.storage := by
    cases hset : w.storage.set? k e value <;> simp [after, write, hset]
  rw [hrun]
  exact h.enrolls_set? k e value

/-- The kinds a request asks for. -/
def asks (w : World) : Request → List Kind
  | .register k => [k]
  | .add k e _ => if w.isAlive e then [k] else []
  | _ => []

theorem enrolls_serve (h : w.storage.Aligned) (r : Request) :
    w.storage.Enrolls (w.asks r) (w.after (serve r)).storage := by
  cases r with
  | register k => exact enrolls_registerComponent h k
  | add k e value => exact enrolls_addComponent h k e value
  | remove k e => exact enrolls_removeComponent h k e
  | create name =>
    refine enrolls_of_storage_eq h ?_
    rw [after, serve, createEntity, perform_onEntities]
    cases EntityTable.createEntity name w.entities <;> rfl
  | destroy e =>
    rcases destroyEntity_cases w e with ⟨_, hp⟩ | ⟨entities, _, hp⟩ <;> rw [after, serve, hp]
    · exact .refl h
    · exact h.enrolls_discard e
  | component k e =>
    rw [after, serve, perform_read]
    exact .refl h
  | signature e => exact enrolls_bind (a := get) (.refl h) fun _ _ h₁ => enrolls_ofExcept h₁ _
  | update k e change =>
    have hread : w.storage.Enrolls [] (w.after (read k e)).storage := by
      rw [after, perform_read]
      exact .refl h
    exact enrolls_bind hread fun x w' h' =>
      enrolls_bind (enrolls_write h' k e (change x)) fun _ _ h'' => .refl h''
  | update? k e change =>
    refine enrolls_bind (a := get) (.refl h) fun w₀ w₁ h₁ => ?_
    split
    · exact .refl h₁
    · exact enrolls_bind (enrolls_write h₁ k e _) fun _ _ h₂ => .refl h₂
  | updatePair a b e change =>
    have hread : w.storage.Enrolls [] (w.after (readPair a b e)).storage := by
      rw [after, perform_readPair]
      exact .refl h
    exact enrolls_bind hread fun xy w' h' =>
      h'.enrolls_setPair a b e (change xy).1 (change xy).2
  | component? k e | hasComponent k e | isAlive e | byName name | nameOf e | living =>
    exact .refl h

theorem enrolls_registerSystem (h : w.storage.Aligned) (name : String) (required : Signature) :
    w.storage.Enrolls [] (w.after (registerSystem name required)).storage := by
  obtain ⟨roster, hw, _⟩ := after_registerSystem w name required
  exact enrolls_of_storage_eq h (by rw [hw])

/-- A kind for which there is no room ends the registration, and there would have been none
for those after it. -/
theorem enrolls_insertKinds (h : w.storage.Aligned) (s : Signature) (kinds : List Kind) :
    w.storage.Enrolls kinds (w.after (kinds.foldlM
      (fun s k => return s.insert (← registerComponent k)) s)).storage := by
  induction kinds generalizing w s with
  | nil => exact .refl h
  | cons k rest ih =>
    rw [List.foldlM_cons]
    rcases perform_registerComponent_cases h k with ⟨t, storage, hp, _, hs⟩ | ⟨hfull, hp⟩
    · have hrun : w.after ((do return s.insert (← registerComponent k)) >>= fun s =>
          rest.foldlM (fun s k => return s.insert (← registerComponent k)) s) =
          after { w with storage }
            (rest.foldlM (fun s k => return s.insert (← registerComponent k)) (s.insert t)) := by
        simp [after, hp]
      rw [hrun]
      exact hs.trans (ih (w := { w with storage }) hs.aligned (s.insert t))
    · have hsame : w.after ((do return s.insert (← registerComponent k)) >>= fun s =>
          rest.foldlM (fun s k => return s.insert (← registerComponent k)) s) = w := by
        simp [after, hp]
      rw [hsame]
      exact .of_full h hfull _

theorem enrolls_registerSystemFor (h : w.storage.Aligned) (name : String) (kinds : List Kind) :
    w.storage.Enrolls kinds (w.after (registerSystemFor name kinds)).storage :=
  enrolls_bind (enrolls_insertKinds h .empty kinds) fun s _ h' => enrolls_registerSystem h' name s

/-! ## Runs -/

/-- What is done to a world: by its own operations, by changes to the array of one kind, and
by schedules. -/
inductive Deed where
  | operate (op : Operation)
  | replace {k : Kind} (c : Column k)
  | discard (e : EntityId)
  | addBehavior (schedule : Schedule) (b : Behavior)

/-- What a deed leaves, also when it fails. -/
def enact (w : World) : Deed → World
  | .operate op => w.advance op
  | .replace c => { w with storage := w.storage.setColumn c }
  | .discard e => { w with storage := w.storage.discard e }
  | .addBehavior schedule b => ((Schedule.addBehavior b).perform (w, schedule)).2.1

def enactAll (w : World) (run : List Deed) : World := run.foldl enact w

theorem enactAll_append (w : World) (first second : List Deed) :
    w.enactAll (first ++ second) = (w.enactAll first).enactAll second := List.foldl_append

/-- The kinds a deed asks for, in order. -/
def demand (w : World) : Deed → List Kind
  | .operate (.serve r) => w.asks r
  | .operate (.registerSystem _ _) => []
  | .operate (.registerSystemFor _ kinds) => kinds
  | .replace _ => []
  | .discard _ => []
  | .addBehavior _ b => b.required

/-- The kinds a run asks for, in order. -/
def demands (w : World) : List Deed → List Kind
  | [] => []
  | deed :: rest => w.demand deed ++ (w.enact deed).demands rest

theorem enrolls_enact (h : w.storage.Aligned) (deed : Deed) :
    w.storage.Enrolls (w.demand deed) (w.enact deed).storage := by
  cases deed with
  | operate op =>
    cases op with
    | serve r => exact enrolls_serve h r
    | registerSystem name required => exact enrolls_registerSystem h name required
    | registerSystemFor name kinds => exact enrolls_registerSystemFor h name kinds
  | replace c => exact h.enrolls_setColumn c
  | discard e => exact h.enrolls_discard e
  | addBehavior schedule b =>
    have hw : w.enact (.addBehavior schedule b) =
        w.after (registerSystemFor b.name b.required) := by
      rw [enact, Schedule.perform_addBehavior, after]
      rcases w.perform (registerSystemFor b.name b.required) with ⟨_ | _, _⟩ <;> rfl
    rw [hw]
    exact enrolls_registerSystemFor h b.name b.required

theorem enrolls_enactAll (h : w.storage.Aligned) (run : List Deed) :
    w.storage.Enrolls (w.demands run) (w.enactAll run).storage := by
  induction run generalizing w with
  | nil => exact .refl h
  | cons deed rest ih =>
    have hdeed := enrolls_enact h deed
    exact hdeed.trans (ih hdeed.aligned)

end World

end SceneEngine
