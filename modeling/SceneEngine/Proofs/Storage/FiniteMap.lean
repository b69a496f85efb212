/-
A column is a finite map kept without gaps.

Beside a column stands the finite map it is kept for (`Contents`), on which every operation is
one insertion or one erasure. The two give the same answers to any series of operations and
stay in step (`Holds`), although each removal puts the last slot into the one set free and
so moves the component of an entity that has nothing to do with it.

What this rests on is that the slots stay `Dense`: every slot has its owner, every owner its
one slot, and no entity is sent to a slot that is not there.
-/
import Mathlib.Data.Finmap
import SceneEngine.Proofs.Storage

namespace SceneEngine

variable {k : Kind}

/-! ## Operations -/

namespace Column

/-- An operation that can change a column. -/
inductive Operation (k : Kind) where
  | insert (e : EntityId) (value : k.Value)
  | remove (e : EntityId)
  | discard (e : EntityId)
  /-- A write to the component of `e` where it lies. -/
  | set (e : EntityId) (value : k.Value)

/-- What an operation is answered with. Those that answer yes or no say whether the entity
had a component. -/
abbrev Operation.Answer : Operation k → Type
  | insert .. => Except SceneError Unit
  | remove _ => Except SceneError k.Value
  | discard _ | set .. => Bool

def Operation.Fails : (op : Operation k) → op.Answer → Prop
  | insert .., answer => ∃ error, answer = .error error
  | remove _, answer => ∃ error, answer = .error error
  | discard _, answer => answer = false
  | set .., answer => answer = false

/-- What an operation answers, and the column it leaves. -/
def perform (c : Column k) : (op : Operation k) → op.Answer × Column k
  | .insert e value => (insertComponent e value).perform c
  | .remove e => (removeComponent e).perform c
  | .discard e => c.discard e
  | .set e value =>
    match c.set? e value with
    | some c' => (true, c')
    | none => (false, c)

/-- The column a series of operations leaves. -/
def play (c : Column k) (ops : List (Operation k)) : Column k :=
  ops.foldl (fun c op => (c.perform op).2) c

/-- The answers to a series of operations. -/
def answers (c : Column k) : List (Operation k) → List (Σ op : Operation k, op.Answer)
  | [] => []
  | op :: rest => ⟨op, (c.perform op).1⟩ :: (c.perform op).2.answers rest

end Column

/-! ## The map a column is kept for -/

/-- Which entities have a component of kind `k`, and which. -/
abbrev Contents (k : Kind) : Type := Finmap fun _ : EntityId => k.Value

namespace Contents

open Column (Operation)

def perform (m : Contents k) : (op : Operation k) → op.Answer × Contents k
  | .insert e value =>
    if e ∈ m then (.error (.componentAlreadyPresent e k), m) else (.ok (), m.insert e value)
  | .remove e =>
    match m.lookup e with
    | some value => (.ok value, m.erase e)
    | none => (.error (.componentMissing e k), m)
  | .discard e => (decide (e ∈ m), m.erase e)
  | .set e value => if e ∈ m then (true, m.insert e value) else (false, m)

def play (m : Contents k) (ops : List (Operation k)) : Contents k :=
  ops.foldl (fun m op => (m.perform op).2) m

def answers (m : Contents k) : List (Operation k) → List (Σ op : Operation k, op.Answer)
  | [] => []
  | op :: rest => ⟨op, (m.perform op).1⟩ :: answers (m.perform op).2 rest

end Contents

namespace Column

variable {c c' : Column k} {m : Contents k} {e : EntityId}

/-! ## One operation -/

/-- The column has what the map has. -/
structure Holds (c : Column k) (m : Contents k) : Prop where
  sound : c.Sound
  get? : ∀ e, c.get? e = m.lookup e

theorem holds_empty : (empty : Column k).Holds ∅ := ⟨.empty, fun e => by simp [Column.get?, empty]⟩

theorem Holds.mem_iff (h : c.Holds m) : e ∈ m ↔ (c.get? e).isSome = true := by
  rw [h.get?, Finmap.lookup_isSome]

theorem Holds.get?_eq_none_iff (h : c.Holds m) : c.get? e = none ↔ e ∉ m := by
  rw [h.get?, Finmap.lookup_eq_none]

theorem Holds.insert (h : c.Holds m) (hs : c'.Sound) {value : k.Value}
    (hc : ∀ e', c'.get? e' = if e' = e then some value else c.get? e') :
    c'.Holds (m.insert e value) := by
  refine ⟨hs, fun e' => ?_⟩
  rw [hc e', h.get?]
  split
  · next he => rw [he, Finmap.lookup_insert]
  · next he => rw [Finmap.lookup_insert_of_ne _ he]

theorem Holds.erase (h : c.Holds m) (hs : c'.Sound)
    (hc : ∀ e', c'.get? e' = if e' = e then none else c.get? e') : c'.Holds (m.erase e) := by
  refine ⟨hs, fun e' => ?_⟩
  rw [hc e', h.get?]
  split
  · next he => rw [he, Finmap.lookup_erase]
  · next he => rw [Finmap.lookup_erase_ne he]

/-- An operation answers from the column as from the map, and leaves both in step. -/
theorem Holds.perform (h : c.Holds m) (op : Operation k) :
    (c.perform op).1 = (m.perform op).1 ∧ (c.perform op).2.Holds (m.perform op).2 := by
  cases op with
  | insert e value =>
    rcases insertComponent_cases h.sound e value with ⟨hsome, hi⟩ | ⟨hnone, c', hi, hs, hc⟩
    · simp only [Column.perform, Change.perform, hi, Contents.perform, if_pos (h.mem_iff.mpr hsome)]
      exact ⟨trivial, h⟩
    · simp only [Column.perform, Change.perform, hi, Contents.perform,
        if_neg (h.get?_eq_none_iff.mp hnone)]
      exact ⟨trivial, h.insert hs hc⟩
  | remove e =>
    rcases removeComponent_cases h.sound e with ⟨hnone, hr⟩ | ⟨value, c', hv, hr, hs, hc⟩
    · rw [h.get?] at hnone
      simp only [Column.perform, Change.perform, hr, Contents.perform, hnone]
      exact ⟨trivial, h⟩
    · rw [h.get?] at hv
      simp only [Column.perform, Change.perform, hr, Contents.perform, hv]
      exact ⟨trivial, h.erase hs hc⟩
  | discard e =>
    obtain ⟨hs, hc⟩ := h.sound.discard e
    refine ⟨?_, h.erase hs hc⟩
    rcases removeComponent_cases h.sound e with ⟨hnone, hr⟩ | ⟨value, c', hv, hr, _⟩
    · simp [Column.perform, Column.discard, hr, Contents.perform, h.get?_eq_none_iff.mp hnone]
    · have hmem : e ∈ m := h.mem_iff.mpr (by simp [hv])
      simp [Column.perform, Column.discard, hr, Contents.perform, hmem]
  | set e value =>
    rcases set?_cases h.sound e value with ⟨hnone, hw⟩ | ⟨hsome, c', hw, hs, hc⟩
    · simp only [Column.perform, hw, Contents.perform, if_neg (h.get?_eq_none_iff.mp hnone)]
      exact ⟨trivial, h⟩
    · simp only [Column.perform, hw, Contents.perform, if_pos (h.mem_iff.mpr hsome)]
      exact ⟨trivial, h.insert hs hc⟩

/-! ## Any series of operations -/

theorem Holds.play (h : c.Holds m) (ops : List (Operation k)) :
    (c.play ops).Holds (m.play ops) := by
  induction ops generalizing c m with
  | nil => exact h
  | cons op rest ih => exact ih (h.perform op).2

theorem Holds.answers_eq (h : c.Holds m) (ops : List (Operation k)) :
    c.answers ops = m.answers ops := by
  induction ops generalizing c m with
  | nil => rfl
  | cons op rest ih =>
    obtain ⟨hanswer, hnext⟩ := h.perform op
    rw [answers, Contents.answers, hanswer, ih hnext]

/-- Each of its slots has one owner, and each owner one slot. -/
structure Dense (c : Column k) : Prop where
  owners_size : c.owners.size = c.values.size
  slots_size : c.slotOf.size = c.values.size
  slotOf_owner : ∀ (i : Nat) (e : EntityId), c.owners[i]? = some e → c.slotOf[e]? = some i
  owners_nodup : c.owners.toList.Nodup
  slot_lt : ∀ (e : EntityId) (i : Nat), c.slotOf[e]? = some i → i < c.values.size

/-- The table of slots has the owners for its keys. -/
theorem Sound.keys_perm (h : c.Sound) : c.slotOf.keys.Perm c.owners.toList := by
  refine (List.perm_ext_iff_of_nodup c.slotOf.nodup_keys h.owners_nodup).mpr fun e => ?_
  rw [Std.TreeMap.mem_keys, h.mem_owners, ← h.contains_eq, contains, Std.TreeMap.contains_iff_mem]

theorem Sound.dense (h : c.Sound) : c.Dense where
  owners_size := h.size
  slots_size := by rw [← Std.TreeMap.length_keys, h.keys_perm.length_eq, Array.length_toList, h.size]
  slotOf_owner i e hi := (h.slot_iff e i).mpr hi
  owners_nodup := h.owners_nodup
  slot_lt e i hi := h.slot_lt hi

/-- Owners and values, slot by slot, as entries of a map. -/
def entries (c : Column k) : List (Σ _ : EntityId, k.Value) :=
  c.toList.map fun entry => ⟨entry.1, entry.2⟩

/-- Whatever is read of the column is what the map has. -/
structure Shows (c : Column k) (m : Contents k) : Prop where
  get? : ∀ e, c.get? e = m.lookup e
  contains : ∀ e, c.contains e = decide (e ∈ m)
  size : c.size = m.keys.card
  /-- The slots are the entries of the map, each once. -/
  entries : (c.entries : Multiset (Σ _ : EntityId, k.Value)) = m.entries

theorem Sound.entries_nodup (h : c.Sound) : c.entries.Nodup := by
  have howners : c.entries.map Sigma.fst = c.owners.toList := by
    rw [Column.entries, List.map_map]
    exact List.map_fst_zip (by simp [h.size])
  exact .of_map Sigma.fst (howners ▸ h.owners_nodup)

theorem Holds.entries_eq (h : c.Holds m) :
    (c.entries : Multiset (Σ _ : EntityId, k.Value)) = m.entries := by
  refine (Multiset.Nodup.ext (Multiset.coe_nodup.mpr h.sound.entries_nodup) m.nodup_entries).mpr ?_
  rintro ⟨e, value⟩
  have hmem : (⟨e, value⟩ : Σ _ : EntityId, k.Value) ∈ c.entries ↔ (e, value) ∈ c.toList := by
    simp [Column.entries]
  rw [Multiset.mem_coe, hmem, h.sound.mem_toList_iff, h.get?, ← Finmap.mem_lookup_iff]
  rfl

theorem length_entries (h : c.Sound) : c.entries.length = c.size := by
  simp [Column.entries, toList, size, h.size]

theorem Holds.shows (h : c.Holds m) : c.Shows m where
  get? := h.get?
  contains e := by rw [h.sound.contains_eq, Bool.eq_iff_iff, decide_eq_true_iff, h.mem_iff]
  size := by
    rw [← length_entries h.sound, ← Multiset.coe_card, h.entries_eq]
    exact (Multiset.card_map _ _).symm
  entries := h.entries_eq

/-! ## Failure -/

theorem Holds.insert_fails_iff (h : c.Holds m) (value : k.Value) :
    (∃ error, c.insert e value = .error error) ↔ e ∈ m := by
  rcases insert_cases h.sound e value with ⟨hsome, hi⟩ | ⟨hnone, c', hi, _⟩
  · simp [hi, h.mem_iff.mpr hsome]
  · simp [hi, h.get?_eq_none_iff.mp hnone]

theorem Holds.remove_fails_iff (h : c.Holds m) : (∃ error, c.remove e = .error error) ↔ e ∉ m := by
  rcases remove_cases h.sound e with ⟨hnone, hr⟩ | ⟨value, c', hv, hr, _⟩
  · simp [hr, h.get?_eq_none_iff.mp hnone]
  · have hmem : e ∈ m := h.mem_iff.mpr (by simp [hv])
    simp [hr, hmem]

/-- An operation that fails leaves owners, values and slots as they were. -/
theorem perform_of_fails (c : Column k) {op : Operation k} (h : op.Fails (c.perform op).1) :
    (c.perform op).2 = c := by
  cases op with
  | insert e value =>
    simp only [perform, Change.perform, insertComponent_apply] at h ⊢
    cases hc : c.contains e <;> simp [hc, Operation.Fails] at h ⊢
  | remove e =>
    simp only [perform, Change.perform, removeComponent_apply] at h ⊢
    cases hi : c.slotOf[e]?.bind fun i => c.values[i]?.map (i, ·) <;>
      simp [hi, Operation.Fails] at h ⊢
  | discard e =>
    simp only [perform, Column.discard, removeComponent_apply] at h ⊢
    cases hi : c.slotOf[e]?.bind fun i => c.values[i]?.map (i, ·) <;>
      simp [hi, Operation.Fails] at h ⊢
  | set e value =>
    cases hw : c.set? e value with
    | some c' => simp [perform, hw, Operation.Fails] at h
    | none => simp only [perform, hw]

/-- **A column is a finite map.** Whatever has been done to a column since it was empty, it
has answered as the map does that the same operations were done to. Its slots are dense, and
what can be read of it is what the map has. Insertion fails exactly for an entity of the map
and removal for any other, and an operation that fails changes nothing. -/
theorem plays_as_map (ops : List (Operation k)) :
    (empty : Column k).answers ops = Contents.answers ∅ ops ∧
    (empty.play ops).Dense ∧ (empty.play ops).Shows (Contents.play ∅ ops) ∧
    (∀ e value, (∃ error, (empty.play ops).insert e value = .error error) ↔ e ∈ Contents.play ∅ ops) ∧
    (∀ e, (∃ error, (empty.play ops).remove e = .error error) ↔ e ∉ Contents.play ∅ ops) ∧
    ∀ op : Operation k, op.Fails ((empty.play ops).perform op).1 →
      ((empty.play ops).perform op).2 = empty.play ops := by
  have h : (empty.play ops).Holds (Contents.play ∅ ops) := holds_empty.play ops
  exact ⟨holds_empty.answers_eq ops, h.sound.dense, h.shows, fun e => h.insert_fails_iff,
    fun e => h.remove_fails_iff, fun op => perform_of_fails _⟩

/-- Three owners, of whom the first goes, so that the last moves into its slot, and then the
one that moved, which cannot go again. The other is still found. -/
theorem plays_as_map_moved :
    ∃ (ops : List (Operation (.custom 0))) (c : Column (.custom 0)), c = empty.play ops ∧
      c.owners = #[5] ∧ c.size = (Contents.play ∅ ops).keys.card ∧ c.get? 5 = some 50 ∧
      (∃ error, c.remove 7 = .error error) ∧ (c.perform (.discard 7)).2 = c := by
  let ops : List (Operation (.custom 0)) :=
    [.insert 3 30, .insert 5 40, .insert 7 70, .remove 3, .set 5 50, .insert 5 60, .discard 7]
  obtain ⟨_, _, hshows, _, hremove, hunchanged⟩ := plays_as_map ops
  have hgone : 7 ∉ Contents.play ∅ ops := by
    have hcontains : (empty.play ops).contains 7 = false := by decide +kernel
    rwa [hshows.contains, decide_eq_false_iff_not] at hcontains
  have hdiscard : ((empty.play ops).perform (.discard 7)).1 = false := by decide +kernel
  exact ⟨ops, _, rfl, by decide +kernel, hshows.size, by decide +kernel, (hremove 7).mpr hgone,
    hunchanged _ hdiscard⟩

end Column

end SceneEngine
