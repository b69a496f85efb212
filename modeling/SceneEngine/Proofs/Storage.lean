/-
Columns and storage as finite maps.

A column is read by `get?`. Slots move when one is removed, and `Column.Sound` is
what keeps the lookup right: the table of slots and the list of owners are inverse
to each other. Each operation is then one equation on `get?`. The same is done one
level up for a storage, where a component is found by its kind and its entity.

A storage looks a kind up in two steps, its number first and what stands there next.
`Storage.Aligned` is what makes this one lookup: a kind has a number exactly when its
column stands there. Registration keeps it, at the end of both tables, and so does any
change of a column in place. Then what is found under a kind is the one column of that
kind, wherever it stands (`Aligned.column?_eq_some_iff`).
-/
import SceneEngine.Storage

namespace SceneEngine

theorem size_swapRemove {α : Type} (xs : Array α) (i : Nat) : (swapRemove xs i).size = xs.size - 1 := by
  unfold swapRemove
  split
  · next h => simp [Array.back?_eq_none_iff.mp h]
  · simp

/-- Slot `i` gets the last element, and the last slot goes. -/
theorem getElem?_swapRemove {α : Type} {xs : Array α} {i : Nat} (hi : i < xs.size) (j : Nat) :
    (swapRemove xs i)[j]? =
      if j + 1 < xs.size then if j = i then xs[xs.size - 1]? else xs[j]? else none := by
  obtain ⟨last, hlast⟩ : ∃ last, xs[xs.size - 1]? = some last :=
    ⟨_, Array.getElem?_eq_getElem (by omega)⟩
  rw [swapRemove, Array.back?_eq_getElem?, hlast]
  show (xs.setIfInBounds i last).pop[j]? = _
  rw [Array.getElem?_pop, Array.size_setIfInBounds, Array.getElem?_setIfInBounds]
  by_cases hj : j + 1 < xs.size
  · rw [if_pos hj, if_pos (by omega)]
    by_cases hji : j = i
    · simp [hji, hi]
    · simp [hji, Ne.symm hji]
  · rw [if_neg hj, if_neg (by omega)]

namespace Column

variable {k : Kind} {c : Column k} {e : EntityId}

/-- Owners and their slots are matched one to one. -/
structure Sound (c : Column k) : Prop where
  size : c.owners.size = c.values.size
  slot_iff : ∀ (e : EntityId) (i : Nat), c.slotOf[e]? = some i ↔ c.owners[i]? = some e

theorem Sound.empty : (empty : Column k).Sound where
  size := rfl
  slot_iff := by simp [Column.empty]

theorem Sound.slot_lt (h : c.Sound) {i : Nat} (hi : c.slotOf[e]? = some i) : i < c.values.size := by
  rw [← h.size]
  exact (Array.getElem?_eq_some_iff.mp ((h.slot_iff e i).mp hi)).1

theorem Sound.owner_inj (h : c.Sound) {i j : Nat} (hi : c.owners[i]? = some e)
    (hj : c.owners[j]? = some e) : i = j := by
  rw [← h.slot_iff] at hi hj
  rw [hi, Option.some.injEq] at hj
  exact hj

theorem Sound.contains_eq (h : c.Sound) (e : EntityId) : c.contains e = (c.get? e).isSome := by
  rw [contains, Std.TreeMap.contains_eq_isSome_getElem?, get?]
  cases hi : c.slotOf[e]? with
  | none => rfl
  | some i => simp [h.slot_lt hi]

/-- The owners are the entities with a component, each once. -/
theorem Sound.mem_owners (h : c.Sound) : e ∈ c.owners.toList ↔ (c.get? e).isSome = true := by
  rw [← h.contains_eq, contains, Std.TreeMap.contains_eq_isSome_getElem?, Option.isSome_iff_exists,
    Array.mem_toList_iff, Array.mem_iff_getElem?]
  exact exists_congr fun i => (h.slot_iff e i).symm

theorem Sound.owners_nodup (h : c.Sound) : c.owners.toList.Nodup := by
  rw [List.Nodup, List.pairwise_iff_getElem]
  intro i j hi hj hij heq
  rw [Array.length_toList] at hi hj
  rw [Array.getElem_toList, Array.getElem_toList] at heq
  have := h.owner_inj (Array.getElem?_eq_getElem hi) (heq ▸ Array.getElem?_eq_getElem hj)
  omega

/-- What is stored, slot by slot, is what is found under an owner. -/
theorem Sound.mem_toList_iff (h : c.Sound) {x : EntityId} {value : k.Value} :
    (x, value) ∈ c.toList ↔ c.get? x = some value := by
  rw [toList, List.mem_iff_getElem?, get?, Option.bind_eq_some_iff]
  refine exists_congr fun i => ?_
  rw [List.getElem?_zip_eq_some, Array.getElem?_toList, Array.getElem?_toList, h.slot_iff]

/-! ## Insertion -/

theorem insertComponent_apply (c : Column k) (e : EntityId) (value : k.Value) :
    insertComponent e value c =
      if c.contains e then .error (.componentAlreadyPresent e k) c
      else .ok () ⟨c.owners.push e, c.values.push value, c.slotOf.insert e c.values.size⟩ := by
  simp only [insertComponent, Change.bind_apply, Change.get_apply]
  split <;> rfl

theorem insertComponent_cases (h : c.Sound) (e : EntityId) (value : k.Value) :
    ((c.get? e).isSome = true ∧
      insertComponent e value c = .error (.componentAlreadyPresent e k) c) ∨
    c.get? e = none ∧ ∃ c', insertComponent e value c = .ok () c' ∧ c'.Sound ∧
      ∀ e', c'.get? e' = if e' = e then some value else c.get? e' := by
  rw [insertComponent_apply, h.contains_eq]
  cases hg : c.get? e with
  | some v => exact .inl ⟨rfl, rfl⟩
  | none =>
    refine .inr ⟨rfl, _, rfl, ⟨by simp [h.size], ?_⟩, ?_⟩
    · intro e' i
      have habs : e ∉ c.owners.toList := by simp [h.mem_owners, hg]
      have hslot := h.slot_iff e' i
      simp only [Std.TreeMap.getElem?_insert, Std.LawfulEqCmp.compare_eq_iff_eq,
        Array.getElem?_push, ← h.size]
      by_cases he : e = e'
      · subst he
        have : ∀ j, c.owners[j]? ≠ some e := fun j hj =>
          habs (Array.mem_toList_iff.mpr (Array.mem_of_getElem? hj))
        grind
      · grind
    · intro e'
      simp only [get?, Std.TreeMap.getElem?_insert, Std.LawfulEqCmp.compare_eq_iff_eq]
      by_cases he : e' = e
      · simp [he]
      · rw [if_neg (Ne.symm he), if_neg he]
        cases hi : c.slotOf[e']? with
        | none => rfl
        | some i =>
          have := h.slot_lt hi
          simp [Array.getElem?_push, Nat.ne_of_lt this]

theorem insert_cases (h : c.Sound) (e : EntityId) (value : k.Value) :
    ((c.get? e).isSome = true ∧ c.insert e value = .error (.componentAlreadyPresent e k)) ∨
    c.get? e = none ∧ ∃ c', c.insert e value = .ok c' ∧ c'.Sound ∧
      ∀ e', c'.get? e' = if e' = e then some value else c.get? e' := by
  unfold insert Change.outcome
  rcases insertComponent_cases h e value with ⟨hsome, hi⟩ | ⟨hnone, c', hi, hs, hg⟩ <;> rw [hi]
  · exact .inl ⟨hsome, rfl⟩
  · exact .inr ⟨hnone, c', rfl, hs, hg⟩

/-! ## Removal -/

/-- Where an entity is found once slot `i` of `e` is gone: the owner of the last slot at
`i`, every other where it was. -/
theorem slotOf_removeSlot (h : c.Sound) {i : Nat} (hi : c.slotOf[e]? = some i) (e' : EntityId) :
    (c.removeSlot e i).slotOf[e']? =
      if e' = e then none
      else if c.owners[c.owners.size - 1]? = some e' then some i
      else c.slotOf[e']? := by
  have hown := (h.slot_iff e i).mp hi
  have hlt : i < c.owners.size := (Array.getElem?_eq_some_iff.mp hown).1
  simp only [removeSlot, getElem?_swapRemove hlt]
  by_cases htail : i + 1 < c.owners.size
  · obtain ⟨last, hlast⟩ : ∃ last, c.owners[c.owners.size - 1]? = some last :=
      ⟨_, Array.getElem?_eq_getElem (by omega)⟩
    have hne : last ≠ e := fun he => by
      have := h.owner_inj hown (he ▸ hlast)
      omega
    simp only [htail, if_true, hlast, Option.elim_some, Std.TreeMap.getElem?_insert,
      Std.TreeMap.getElem?_erase, Std.LawfulEqCmp.compare_eq_iff_eq, Option.some.injEq]
    grind
  · -- The last slot itself is removed, and nothing moves.
    have hlast : c.owners[c.owners.size - 1]? = some e := by
      rw [show c.owners.size - 1 = i by omega]
      exact hown
    simp only [htail, if_false, hlast, Option.elim_none, Std.TreeMap.getElem?_erase,
      Std.LawfulEqCmp.compare_eq_iff_eq, Option.some.injEq]
    grind

theorem Sound.removeSlot (h : c.Sound) {i : Nat} (hi : c.slotOf[e]? = some i) :
    (c.removeSlot e i).Sound where
  size := by simp [Column.removeSlot, size_swapRemove, h.size]
  slot_iff := by
    intro e' j
    have hown := (h.slot_iff e i).mp hi
    have hlt : i < c.owners.size := (Array.getElem?_eq_some_iff.mp hown).1
    rw [slotOf_removeSlot h hi]
    show _ ↔ (swapRemove c.owners i)[j]? = some e'
    rw [getElem?_swapRemove hlt]
    by_cases he : e' = e
    · subst he
      rw [if_pos rfl]
      refine ⟨nofun, fun hr => ?_⟩
      split at hr
      · split at hr <;> have := h.owner_inj hr hown <;> omega
      · cases hr
    rw [if_neg he]
    by_cases hl : c.owners[c.owners.size - 1]? = some e'
    · -- The last owner moves to slot `i`, which is not the last.
      have hil : i ≠ c.owners.size - 1 := fun heq => by simp [heq, hl, he] at hown
      rw [if_pos hl]
      constructor
      · intro hij
        cases hij
        rw [if_pos (by omega), if_pos rfl]
        exact hl
      · intro hr
        split at hr
        · split at hr
          · next hji => rw [hji]
          · have := h.owner_inj hr hl
            omega
        · cases hr
    · rw [if_neg hl, h.slot_iff]
      constructor
      · intro hj
        have hjl : j ≠ c.owners.size - 1 := fun heq => hl (heq ▸ hj)
        have hji : j ≠ i := fun heq => by simp [heq, hown, Ne.symm he] at hj
        have hjlt : j < c.owners.size := (Array.getElem?_eq_some_iff.mp hj).1
        rw [if_pos (by omega), if_neg hji]
        exact hj
      · intro hr
        split at hr
        · split at hr
          · exact absurd hr hl
          · exact hr
        · cases hr

theorem Sound.get?_removeSlot (h : c.Sound) {i : Nat} (hi : c.slotOf[e]? = some i) (e' : EntityId) :
    (c.removeSlot e i).get? e' = if e' = e then none else c.get? e' := by
  have hlt : i < c.values.size := h.slot_lt hi
  rw [get?, slotOf_removeSlot h hi]
  by_cases he : e' = e
  · simp [he]
  · simp only [he, if_false, get?]
    have hvalues : ∀ j, (c.removeSlot e i).values[j]? =
        if j + 1 < c.values.size then if j = i then c.values[c.values.size - 1]? else c.values[j]?
        else none := getElem?_swapRemove hlt
    have hown := (h.slot_iff e i).mp hi
    by_cases hlast : c.owners[c.owners.size - 1]? = some e'
    · have hslot := (h.slot_iff e' _).mpr hlast
      have hne : i ≠ c.owners.size - 1 := fun hx => by
        rw [hx, hlast, Option.some.injEq] at hown
        exact he hown
      have hsize := h.size
      rw [if_pos hlast, hslot, Option.bind_some, Option.bind_some, hvalues, hsize,
        if_pos (by omega), if_pos rfl]
    · simp only [hlast, if_false]
      cases hj : c.slotOf[e']? with
      | none => rfl
      | some j =>
        have hj' := (h.slot_iff e' j).mp hj
        have hjlt := h.slot_lt hj
        have hne : j ≠ c.owners.size - 1 := fun hx => hlast (hx ▸ hj')
        have hsize := h.size
        have hji : j ≠ i := fun hx => by
          rw [hx, hown, Option.some.injEq] at hj'
          exact he hj'.symm
        simp only [Option.bind_some, hvalues, if_neg hji]
        rw [if_pos (by omega)]

theorem removeComponent_apply (c : Column k) (e : EntityId) :
    removeComponent e c = match c.slotOf[e]?.bind fun i => c.values[i]?.map (i, ·) with
      | none => .error (.componentMissing e k) c
      | some (i, value) => .ok value (c.removeSlot e i) := by
  simp only [removeComponent, Change.bind_apply, Change.get_apply]
  cases c.slotOf[e]?.bind fun i => c.values[i]?.map (i, ·) <;> rfl

theorem removeComponent_cases (h : c.Sound) (e : EntityId) :
    (c.get? e = none ∧ removeComponent e c = .error (.componentMissing e k) c) ∨
    ∃ value c', c.get? e = some value ∧ removeComponent e c = .ok value c' ∧ c'.Sound ∧
      ∀ e', c'.get? e' = if e' = e then none else c.get? e' := by
  cases hi : c.slotOf[e]? with
  | none => exact .inl ⟨by simp [get?, hi], by simp [removeComponent_apply, hi]⟩
  | some i =>
    obtain ⟨value, hv⟩ : ∃ value, c.values[i]? = some value :=
      ⟨_, Array.getElem?_eq_getElem (h.slot_lt hi)⟩
    refine .inr ⟨value, c.removeSlot e i, by simp [get?, hi, hv],
      by simp [removeComponent_apply, hi, hv], ?_, ?_⟩
    · exact h.removeSlot hi
    · exact h.get?_removeSlot hi

theorem remove_cases (h : c.Sound) (e : EntityId) :
    (c.get? e = none ∧ c.remove e = .error (.componentMissing e k)) ∨
    ∃ value c', c.get? e = some value ∧ c.remove e = .ok (value, c') ∧ c'.Sound ∧
      ∀ e', c'.get? e' = if e' = e then none else c.get? e' := by
  unfold remove Change.outcome
  rcases removeComponent_cases h e with ⟨hnone, hr⟩ | ⟨value, c', hv, hr, hs, hg⟩ <;> rw [hr]
  · exact .inl ⟨hnone, rfl⟩
  · exact .inr ⟨value, c', hv, rfl, hs, hg⟩

theorem Sound.discard (h : c.Sound) (e : EntityId) :
    (c.discard e).2.Sound ∧ ∀ e', (c.discard e).2.get? e' = if e' = e then none else c.get? e' := by
  unfold Column.discard
  rcases removeComponent_cases h e with ⟨hnone, hr⟩ | ⟨value, c', _, hr, hs, hg⟩ <;> rw [hr]
  · refine ⟨h, fun e' => ?_⟩
    by_cases he : e' = e
    · simpa [he] using hnone
    · simp [he]
  · exact ⟨hs, hg⟩

/-! ## Replacement -/

theorem set?_cases (h : c.Sound) (e : EntityId) (value : k.Value) :
    (c.get? e = none ∧ c.set? e value = none) ∨
    (c.get? e).isSome = true ∧ ∃ c', c.set? e value = some c' ∧ c'.Sound ∧
      ∀ e', c'.get? e' = if e' = e then some value else c.get? e' := by
  cases hi : c.slotOf[e]? with
  | none => exact .inl ⟨by simp [get?, hi], by simp [set?, hi]⟩
  | some i =>
    have hlt := h.slot_lt hi
    refine .inr ⟨by simp [get?, hi, hlt], { c with values := c.values.setIfInBounds i value },
      by simp [set?, hi], ⟨?_, h.slot_iff⟩, fun e' => ?_⟩
    · simp [h.size]
    · simp only [get?]
      by_cases he : e' = e
      · subst he; simp [hi, hlt]
      · rw [if_neg he]
        cases hj : c.slotOf[e']? with
        | none => rfl
        | some j =>
          have hne : i ≠ j := fun hij => by
            have h₁ := (h.slot_iff e i).mp hi
            rw [hij, (h.slot_iff e' j).mp hj, Option.some.injEq] at h₁
            exact he h₁
          simp [Array.getElem?_setIfInBounds_ne hne]

end Column

/-! ## Finding columns -/

namespace Column

variable {k : Kind}

theorem downcast?_eq_some_iff {entry : Sigma Column} {c : Column k} :
    downcast? k entry = some c ↔ entry = ⟨k, c⟩ := by
  obtain ⟨k', c'⟩ := entry
  unfold downcast?
  by_cases hk : k' = k
  · subst hk
    simp
  · simp [hk]

@[simp] theorem downcast?_self (c : Column k) : downcast? k ⟨k, c⟩ = some c :=
  downcast?_eq_some_iff.mpr rfl

/-- Columns changed each by itself stay columns of their kinds. -/
theorem downcast?_map (g : (k : Kind) → Column k → Column k) (entry : Sigma Column) :
    downcast? k ⟨entry.1, g entry.1 entry.2⟩ = (downcast? k entry).map (g k) := by
  obtain ⟨k', c⟩ := entry
  by_cases hk : k' = k
  · subst hk
    simp
  · simp [downcast?, hk]

end Column

namespace Storage

variable {s s' : Storage} {k k' : Kind} {e : EntityId} {t : Nat}

theorem length_kinds (s : Storage) : s.kinds.length = s.count := List.length_map _

theorem getElem?_kinds {c : Column k} (h : s.columns[t]? = some ⟨k, c⟩) : s.kinds[t]? = some k := by
  simp [kinds, h]

theorem column_eq_ok_iff {c : Column k} :
    s.column k = .ok c ↔ ∃ t, s.typeId? k = some t ∧ s.columns[t]? = some ⟨k, c⟩ := by
  unfold column require
  cases ht : s.typeId? k with
  | none => simp [bind, Except.bind]
  | some t =>
    simp only [bind, Except.bind, typed, Option.some.injEq, exists_eq_left']
    rcases hentry : s.columns[t]? with _ | entry
    · simp
    · cases hc : Column.downcast? k entry with
      | none =>
        simp only [Option.bind_some, hc, reduceCtorEq, Option.some.injEq, false_iff]
        exact fun heq => by simp [heq] at hc
      | some c' =>
        obtain rfl := Column.downcast?_eq_some_iff.mp hc
        simp [eq_comm]

/-- A column that is not found is said not to be registered. -/
theorem column_eq_error {error : SceneError} (h : s.column k = .error error) :
    error = .componentNotRegistered k := by
  unfold column require at h
  cases ht : s.typeId? k with
  | none =>
    rw [ht] at h
    exact (Except.error.inj h).symm
  | some t =>
    rw [ht] at h
    simp only [bind, Except.bind, typed] at h
    cases hc : (s.columns[t]?).bind (Column.downcast? k) with
    | some c => simp [hc] at h
    | none =>
      rw [hc] at h
      exact (Except.error.inj h).symm

theorem column?_eq_some_iff_column {c : Column k} : s.column? k = some c ↔ s.column k = .ok c := by
  unfold column?
  cases s.column k <;> simp [Except.toOption]

theorem column?_eq_none_iff_column :
    s.column? k = none ↔ s.column k = .error (.componentNotRegistered k) := by
  unfold column?
  cases hc : s.column k with
  | error error => simp [Except.toOption, column_eq_error hc]
  | ok c => simp [Except.toOption]

theorem mem_columns_of_column? {c : Column k} (h : s.column? k = some c) : ⟨k, c⟩ ∈ s.columns := by
  obtain ⟨t, _, hc⟩ := column_eq_ok_iff.mp (column?_eq_some_iff_column.mp h)
  exact List.mem_of_getElem? hc

theorem mem_kinds_of_column? {c : Column k} (h : s.column? k = some c) : k ∈ s.kinds :=
  List.mem_map_of_mem (f := Sigma.fst) (mem_columns_of_column? h)

theorem column?_eq_none_of_not_mem (h : k ∉ s.kinds) : s.column? k = none := by
  cases hc : s.column? k with
  | none => rfl
  | some c => exact absurd (mem_kinds_of_column? hc) h

theorem get?_eq_none_of_not_mem (h : k ∉ s.kinds) : s.get? k e = none := by
  simp [get?, column?_eq_none_of_not_mem h]

theorem mem_kinds_of_isSome (h : (s.get? k e).isSome = true) : k ∈ s.kinds := by
  refine Decidable.byContradiction fun hk => ?_
  simp [get?_eq_none_of_not_mem hk] at h

/-! ## Numbers and places -/

/-- A kind has a number exactly when its column stands there, and there are no more numbers
than a signature has bits. -/
structure Aligned (s : Storage) : Prop where
  typeId?_iff : ∀ k t, s.typeId? k = some t ↔ s.kinds[t]? = some k
  count_le : s.count ≤ s.limit
  limit_le : s.limit ≤ signatureBits

/-- The numbers are right, and so is every column. -/
structure Sound (s : Storage) : Prop extends s.Aligned where
  columns : ∀ entry ∈ s.columns, entry.2.Sound

theorem Aligned.new (limit : Nat) : (new limit).Aligned where
  typeId?_iff := by simp [Storage.new, typeId?, kinds]
  count_le := Nat.zero_le _
  limit_le := Nat.min_le_right _ _

theorem Sound.new (limit : Nat) : (new limit).Sound where
  toAligned := .new limit
  columns := by simp [Storage.new]

theorem Aligned.kinds_nodup (h : s.Aligned) : s.kinds.Nodup := by
  rw [List.Nodup, List.pairwise_iff_getElem]
  intro i j hi hj hij heq
  have hti := (h.typeId?_iff _ i).mpr (List.getElem?_eq_getElem hi)
  have htj := (h.typeId?_iff _ j).mpr (List.getElem?_eq_getElem hj)
  rw [heq, htj, Option.some.injEq] at hti
  omega

theorem Aligned.typeId?_eq_none_iff (h : s.Aligned) : s.typeId? k = none ↔ k ∉ s.kinds := by
  rw [Option.eq_none_iff_forall_ne_some, List.mem_iff_getElem?, not_exists]
  exact forall_congr' fun t => not_congr (h.typeId?_iff k t)

theorem Aligned.mem_kinds (h : s.Aligned) (ht : s.typeId? k = some t) : k ∈ s.kinds :=
  List.mem_of_getElem? ((h.typeId?_iff k t).mp ht)

theorem Aligned.typeId_lt (h : s.Aligned) (ht : s.typeId? k = some t) : t < s.count := by
  rw [← length_kinds]
  exact (List.getElem?_eq_some_iff.mp ((h.typeId?_iff k t).mp ht)).1

theorem Aligned.typeId_lt_bits (h : s.Aligned) (ht : s.typeId? k = some t) : t < signatureBits :=
  Nat.lt_of_lt_of_le (h.typeId_lt ht) (Nat.le_trans h.count_le h.limit_le)

/-- The kind of a number below the count. -/
theorem Aligned.exists_typeId?_of_lt (h : s.Aligned) (ht : t < s.count) :
    ∃ k, s.typeId? k = some t := by
  rw [← length_kinds] at ht
  exact ⟨_, (h.typeId?_iff _ t).mpr (List.getElem?_eq_getElem ht)⟩

/-- Distinct kinds have distinct numbers. -/
theorem Aligned.typeId?_inj (h : s.Aligned) (ht : s.typeId? k = some t)
    (ht' : s.typeId? k' = some t) : k = k' := by
  rw [h.typeId?_iff] at ht ht'
  exact Option.some.inj (ht.symm.trans ht')

theorem Aligned.getElem?_columns (h : s.Aligned) (ht : s.typeId? k = some t) :
    ∃ c : Column k, s.columns[t]? = some ⟨k, c⟩ ∧ s.column? k = some c := by
  have hk := (h.typeId?_iff k t).mp ht
  rw [kinds, List.getElem?_map, Option.map_eq_some_iff] at hk
  obtain ⟨⟨k, c⟩, hc, rfl⟩ := hk
  exact ⟨c, hc, column?_eq_some_iff_column.mpr (column_eq_ok_iff.mpr ⟨t, ht, hc⟩)⟩

/-- **What is found under a kind is the column of that kind.** -/
theorem Aligned.column?_eq_some_iff (h : s.Aligned) {c : Column k} :
    s.column? k = some c ↔ ⟨k, c⟩ ∈ s.columns := by
  refine ⟨mem_columns_of_column?, fun hmem => ?_⟩
  obtain ⟨t, ht⟩ := List.mem_iff_getElem?.mp hmem
  have hid := (h.typeId?_iff k t).mpr (getElem?_kinds ht)
  exact column?_eq_some_iff_column.mpr (column_eq_ok_iff.mpr ⟨t, hid, ht⟩)

theorem Aligned.mem_kinds_iff (h : s.Aligned) : k ∈ s.kinds ↔ ∃ c, s.column? k = some c := by
  refine ⟨fun hk => ?_, fun ⟨c, hc⟩ => mem_kinds_of_column? hc⟩
  obtain ⟨⟨k, c⟩, hmem, rfl⟩ := List.mem_map.mp hk
  exact ⟨c, h.column?_eq_some_iff.mpr hmem⟩

theorem Aligned.column?_eq_none_iff (h : s.Aligned) : s.column? k = none ↔ k ∉ s.kinds := by
  rw [h.mem_kinds_iff, ← Option.isSome_iff_exists]
  simp

theorem Aligned.require_eq (h : s.Aligned) (k : Kind) :
    (k ∉ s.kinds ∧ s.require k = .error (.componentNotRegistered k)) ∨
    ∃ t, s.typeId? k = some t ∧ s.require k = .ok t := by
  unfold require
  cases ht : s.typeId? k with
  | none => exact .inl ⟨h.typeId?_eq_none_iff.mp ht, rfl⟩
  | some t => exact .inr ⟨t, rfl, rfl⟩

theorem Sound.column (h : s.Sound) {c : Column k} (hc : s.column? k = some c) : c.Sound :=
  h.columns _ (mem_columns_of_column? hc)

theorem stores_eq (h : s.Sound) (ht : s.typeId? k = some t) (e : EntityId) :
    s.stores t e = (s.get? k e).isSome := by
  obtain ⟨c, hc, hfind⟩ := h.getElem?_columns ht
  simp [stores, hc, get?, hfind, (h.column hfind).contains_eq]

/-- As many components are stored of a kind as entities have one. -/
theorem storedCount_eq (h : s.Sound) (ht : s.typeId? k = some t) {ids : List EntityId}
    (hnd : ids.Nodup) (hids : ∀ e, e ∈ ids ↔ (s.get? k e).isSome = true) :
    s.storedCount t = ids.length := by
  obtain ⟨c, hc, hfind⟩ := h.getElem?_columns ht
  have hcs := h.column hfind
  have hperm : c.owners.toList.Perm ids := by
    refine (List.perm_ext_iff_of_nodup hcs.owners_nodup hnd).mpr fun e => ?_
    rw [hcs.mem_owners, hids, get?, hfind, Option.bind_some]
  simp [storedCount, hc, Column.size, ← hcs.size, ← hperm.length_eq]

/-! ## Registration -/

/-- With one more kind, whose column is empty. -/
def enlist (s : Storage) (k : Kind) : Storage :=
  { s with
    typeIds := s.typeIds.insert k (UInt8.ofNat s.count)
    columns := s.columns ++ [⟨k, .empty⟩] }

/-- A kind that has a number keeps it. One that has none gets the next, if there is room. -/
theorem registerComponent_apply (s : Storage) (k : Kind) :
    registerComponent k s = match s.typeId? k with
      | some t => .ok t s
      | none =>
        if s.limit ≤ s.count then .error (.componentCapacityExceeded s.limit) s
        else .ok (UInt8.ofNat s.count).toNat (s.enlist k) := by
  simp only [registerComponent, Change.bind_apply, Change.get_apply]
  cases s.typeId? k with
  | some t => rfl
  | none =>
    dsimp only
    split <;> rfl

@[simp] theorem kinds_enlist (s : Storage) (k : Kind) : (s.enlist k).kinds = s.kinds ++ [k] := by
  simp [enlist, kinds]

theorem typeId?_enlist (s : Storage) (k k' : Kind) :
    (s.enlist k).typeId? k' = if k = k' then some (UInt8.ofNat s.count).toNat else s.typeId? k' := by
  rw [typeId?, enlist, Std.TreeMap.getElem?_insert, typeId?]
  simp only [Std.LawfulEqCmp.compare_eq_iff_eq]
  split <;> rfl

/-- A number below the limit fits in a byte. -/
theorem Aligned.toNat_ofNat_count (h : s.Aligned) (hroom : s.count < s.limit) :
    (UInt8.ofNat s.count).toNat = s.count := by
  have hbits := h.limit_le
  refine UInt8.toNat_ofNat_of_lt' ?_
  simp only [signatureBits] at hbits
  simp only [UInt8.size]
  omega

theorem Aligned.enlist (h : s.Aligned) (hk : k ∉ s.kinds) (hroom : s.count < s.limit) :
    (s.enlist k).Aligned where
  typeId?_iff k' t := by
    rw [typeId?_enlist, h.toNat_ofNat_count hroom, kinds_enlist, ← length_kinds]
    by_cases hkk : k = k'
    · -- The new kind stands behind the others and at no other place.
      subst hkk
      rw [if_pos rfl, Option.some.injEq]
      constructor
      · rintro rfl
        simp
      · intro ht
        rw [List.getElem?_append] at ht
        split at ht
        · exact absurd (List.mem_of_getElem? ht) hk
        · have := (List.getElem?_eq_some_iff.mp ht).1
          simp only [List.length_singleton] at this
          omega
    · rw [if_neg hkk, h.typeId?_iff, List.getElem?_append]
      split
      · rfl
      · next hge =>
        rw [List.getElem?_eq_none (by omega)]
        simp only [reduceCtorEq, false_iff]
        exact fun ht => hkk (by simpa [eq_comm] using List.mem_of_getElem? ht)
  count_le := by
    rw [← length_kinds, kinds_enlist, List.length_append, length_kinds]
    exact hroom
  limit_le := h.limit_le

theorem Sound.enlist (h : s.Sound) (hk : k ∉ s.kinds) (hroom : s.count < s.limit) :
    (s.enlist k).Sound where
  toAligned := h.toAligned.enlist hk hroom
  columns := by
    intro entry hentry
    rcases List.mem_append.mp hentry with hentry | hentry
    · exact h.columns _ hentry
    · rw [List.mem_singleton.mp hentry]
      exact .empty

/-- The columns there were are found as before, and the new one is empty. -/
theorem Aligned.column?_enlist (h : s.Aligned) (hk : k ∉ s.kinds) (hroom : s.count < s.limit)
    (k' : Kind) : (s.enlist k).column? k' = s.column? k' ∨
      k' = k ∧ (s.enlist k).column? k' = some .empty := by
  have hs' := h.enlist hk hroom
  by_cases hkk : k' = k
  · subst hkk
    exact .inr ⟨rfl, hs'.column?_eq_some_iff.mpr (by simp [Storage.enlist])⟩
  · refine .inl (Option.ext fun c => ?_)
    rw [hs'.column?_eq_some_iff, h.column?_eq_some_iff, Storage.enlist, List.mem_append]
    simp [hkk]

theorem Aligned.get?_enlist (h : s.Aligned) (hk : k ∉ s.kinds) (hroom : s.count < s.limit)
    (k' : Kind) (e : EntityId) : (s.enlist k).get? k' e = s.get? k' e := by
  rcases h.column?_enlist hk hroom k' with hc | ⟨rfl, hc⟩
  · rw [get?, hc, get?]
  · rw [get?_eq_none_of_not_mem hk, get?, hc]
    simp [Column.get?, Column.empty]

/-- What the registration of a kind does: at most it adds the kind after the others. -/
structure Registered (s : Storage) (k : Kind) (t : Nat) (s' : Storage) : Prop where
  sound : s'.Sound
  place : s'.typeId? k = some t
  kinds : s'.kinds = if k ∈ s.kinds then s.kinds else s.kinds ++ [k]
  get? : ∀ k' e, s'.get? k' e = s.get? k' e
  limit : s'.limit = s.limit
  room : k ∈ s.kinds ∨ s.count < s.limit
  eq_of_mem : k ∈ s.kinds → s' = s

theorem registerComponent_cases (h : s.Sound) (k : Kind) :
    (k ∉ s.kinds ∧ s.limit ≤ s.count ∧
      registerComponent k s = .error (.componentCapacityExceeded s.limit) s) ∨
    ∃ t s', registerComponent k s = .ok t s' ∧ Registered s k t s' := by
  rw [registerComponent_apply]
  cases ht : s.typeId? k with
  | some t =>
    have hk := h.mem_kinds ht
    exact .inr ⟨t, s, rfl, h, ht, by simp [hk], fun _ _ => rfl, rfl, .inl hk, fun _ => rfl⟩
  | none =>
    have hk := h.typeId?_eq_none_iff.mp ht
    by_cases hfull : s.limit ≤ s.count
    · exact .inl ⟨hk, hfull, if_pos hfull⟩
    · have hroom := Nat.lt_of_not_le hfull
      refine .inr ⟨_, _, if_neg hfull, h.enlist hk hroom, ?_, ?_, h.get?_enlist hk hroom, rfl,
        .inr hroom, fun hmem => absurd hmem hk⟩
      · rw [typeId?_enlist, if_pos rfl]
      · rw [kinds_enlist, if_neg hk]

/-! ## Changing one column -/

theorem typeId?_congr (h : s'.typeIds = s.typeIds) (k : Kind) : s'.typeId? k = s.typeId? k := by
  rw [typeId?, h, typeId?]

@[simp] theorem typeIds_setColumn (s : Storage) (c : Column k) :
    (s.setColumn c).typeIds = s.typeIds := by
  unfold setColumn
  cases s.typeId? k <;> rfl

@[simp] theorem typeId?_setColumn (s : Storage) (c : Column k) (k' : Kind) :
    (s.setColumn c).typeId? k' = s.typeId? k' := typeId?_congr (typeIds_setColumn s c) k'

@[simp] theorem limit_setColumn (s : Storage) (c : Column k) : (s.setColumn c).limit = s.limit := by
  unfold setColumn
  cases s.typeId? k <;> rfl

theorem columns_setColumn (c : Column k) (ht : s.typeId? k = some t) :
    (s.setColumn c).columns = s.columns.set t ⟨k, c⟩ := by
  rw [setColumn, ht]

/-- A column put back as it was. -/
theorem setColumn_self {c : Column k} (hc : s.column? k = some c) : s.setColumn c = s := by
  obtain ⟨t, ht, hentry⟩ := column_eq_ok_iff.mp (column?_eq_some_iff_column.mp hc)
  obtain ⟨hlt, hget⟩ := List.getElem?_eq_some_iff.mp hentry
  rw [setColumn, ht, ← hget]
  dsimp only
  rw [List.set_getElem_self]

theorem Aligned.kinds_setColumn (h : s.Aligned) (c : Column k) :
    (s.setColumn c).kinds = s.kinds := by
  cases ht : s.typeId? k with
  | none => rw [setColumn, ht]
  | some t =>
    -- What stands at the number of a kind is of that kind before and after.
    have hk := (h.typeId?_iff k t).mp ht
    obtain ⟨hlt, hget⟩ := List.getElem?_eq_some_iff.mp hk
    rw [kinds, columns_setColumn c ht, List.map_set]
    show s.kinds.set t k = s.kinds
    simp only [← hget, List.set_getElem_self]

theorem Aligned.of_kinds (h : s.Aligned) (hids : s'.typeIds = s.typeIds)
    (hkinds : s'.kinds = s.kinds) (hlimit : s'.limit = s.limit) : s'.Aligned where
  typeId?_iff k t := by rw [typeId?_congr hids, hkinds, h.typeId?_iff]
  count_le := by
    rw [← length_kinds, hkinds, length_kinds, hlimit]
    exact h.count_le
  limit_le := hlimit ▸ h.limit_le

theorem Aligned.setColumn (h : s.Aligned) (c : Column k) : (s.setColumn c).Aligned :=
  h.of_kinds (typeIds_setColumn s c) (h.kinds_setColumn c) (limit_setColumn s c)

theorem Aligned.column?_setColumn_self (h : s.Aligned) (hk : k ∈ s.kinds) (c : Column k) :
    (s.setColumn c).column? k = some c := by
  obtain ⟨c₀, hc₀⟩ := h.mem_kinds_iff.mp hk
  obtain ⟨t, ht, hentry⟩ := column_eq_ok_iff.mp (column?_eq_some_iff_column.mp hc₀)
  have hlt := (List.getElem?_eq_some_iff.mp hentry).1
  refine column?_eq_some_iff_column.mpr (column_eq_ok_iff.mpr ⟨t, ?_, ?_⟩)
  · rwa [typeId?_setColumn]
  · rw [columns_setColumn c ht, List.getElem?_set_self hlt]

theorem Aligned.column?_setColumn_other (h : s.Aligned) (c : Column k) (hk : k' ≠ k) :
    (s.setColumn c).column? k' = s.column? k' := by
  cases ht : s.typeId? k with
  | none => rw [Storage.setColumn, ht]
  | some t =>
    refine Option.ext fun c' => ?_
    simp only [column?_eq_some_iff_column, column_eq_ok_iff, typeId?_setColumn]
    refine exists_congr fun t' => and_congr_right fun ht' => ?_
    have hne : t ≠ t' := fun heq => hk (h.typeId?_inj ht' (heq ▸ ht))
    rw [columns_setColumn c ht, List.getElem?_set_ne hne]

theorem onColumn_apply {β : Type} {c : Column k} (hc : s.column? k = some c)
    (change : Change (Column k) β) : onColumn k change s = match change c with
      | .ok x c' => .ok x (s.setColumn c')
      | .error error c' => .error error (s.setColumn c') := by
  have hok := column?_eq_some_iff_column.mp hc
  simp only [onColumn, Change.bind_apply, Change.get_apply, hok, Change.ofExcept_ok_apply,
    Change.within]
  cases change c <;> rfl

theorem onColumn_of_none {β : Type} (hc : s.column? k = none) (change : Change (Column k) β) :
    onColumn k change s = .error (.componentNotRegistered k) s := by
  have herror := column?_eq_none_iff_column.mp hc
  simp only [onColumn, Change.bind_apply, Change.get_apply, herror, Change.ofExcept_error_apply]

/-! ## Changing one component -/

/-- What a change of one component does: `e` has `x` under `k` now, and all else is as
it was. -/
structure Updated (s : Storage) (k : Kind) (e : EntityId) (x : Option k.Value) (s' : Storage) :
    Prop where
  sound : s'.Sound
  kinds : s'.kinds = s.kinds
  typeIds : s'.typeIds = s.typeIds
  limit : s'.limit = s.limit
  self : s'.get? k e = x
  other : ∀ k' e', ¬ (k' = k ∧ e' = e) → s'.get? k' e' = s.get? k' e'

theorem Sound.setColumn {c : Column k} (h : s.Sound) (hc : c.Sound) : (s.setColumn c).Sound where
  toAligned := h.toAligned.setColumn c
  columns := by
    cases ht : s.typeId? k with
    | none =>
      rw [Storage.setColumn, ht]
      exact h.columns
    | some t =>
      intro entry hentry
      rw [columns_setColumn c ht] at hentry
      rcases List.mem_or_eq_of_mem_set hentry with hentry | rfl
      · exact h.columns _ hentry
      · exact hc

/-- Replacing the column of a registered kind by one that differs at `e` only. -/
theorem updated_setColumn {c c' : Column k} {x : Option k.Value} (h : s.Sound)
    (hc : s.column? k = some c) (hs : c'.Sound) (hself : c'.get? e = x)
    (hother : ∀ e', e' ≠ e → c'.get? e' = c.get? e') : Updated s k e x (s.setColumn c') where
  sound := h.setColumn hs
  kinds := h.kinds_setColumn c'
  typeIds := typeIds_setColumn s c'
  limit := limit_setColumn s c'
  self := by rw [get?, h.column?_setColumn_self (mem_kinds_of_column? hc), Option.bind_some, hself]
  other := by
    intro k' e' hne
    by_cases hk : k' = k
    · subst hk
      rw [get?, h.column?_setColumn_self (mem_kinds_of_column? hc), get?, hc]
      exact hother e' fun he => hne ⟨rfl, he⟩
    · rw [get?, h.column?_setColumn_other c' hk, get?]

/-- An addition that fails leaves the storage as it is: the column it was tried on is put back
unchanged. -/
theorem addComponent_cases (h : s.Sound) (hk : k ∈ s.kinds) (e : EntityId) (value : k.Value) :
    ((s.get? k e).isSome = true ∧
      addComponent k e value s = .error (.componentAlreadyPresent e k) s) ∨
    s.get? k e = none ∧ ∃ s', addComponent k e value s = .ok () s' ∧
      Updated s k e (some value) s' := by
  obtain ⟨c, hc⟩ := h.mem_kinds_iff.mp hk
  have hget : s.get? k e = c.get? e := by simp [get?, hc]
  rw [hget, addComponent, onColumn_apply hc]
  rcases Column.insertComponent_cases (h.column hc) e value with ⟨hsome, hi⟩ | ⟨hnone, c', hi, hs, hg⟩
  · exact .inl ⟨hsome, by rw [hi]; dsimp only; rw [setColumn_self hc]⟩
  · refine .inr ⟨hnone, s.setColumn c', by rw [hi], ?_⟩
    exact updated_setColumn h hc hs (by simp [hg]) fun e' he => by simp [hg, he]

theorem removeComponent_cases (h : s.Sound) (hk : k ∈ s.kinds) (e : EntityId) :
    (s.get? k e = none ∧ removeComponent k e s = .error (.componentMissing e k) s) ∨
    ∃ value s', s.get? k e = some value ∧ removeComponent k e s = .ok value s' ∧
      Updated s k e none s' := by
  obtain ⟨c, hc⟩ := h.mem_kinds_iff.mp hk
  have hget : s.get? k e = c.get? e := by simp [get?, hc]
  rw [hget, removeComponent, onColumn_apply hc]
  rcases Column.removeComponent_cases (h.column hc) e with ⟨hnone, hr⟩ | ⟨value, c', hv, hr, hs, hg⟩
  · exact .inl ⟨hnone, by rw [hr]; dsimp only; rw [setColumn_self hc]⟩
  · refine .inr ⟨value, s.setColumn c', hv, by rw [hr], ?_⟩
    exact updated_setColumn h hc hs (by simp [hg]) fun e' he => by simp [hg, he]

theorem set?_cases (h : s.Sound) (k : Kind) (e : EntityId) (value : k.Value) :
    (s.get? k e = none ∧ s.set? k e value = none) ∨
    (s.get? k e).isSome = true ∧ ∃ s', s.set? k e value = some s' ∧ Updated s k e (some value) s' := by
  cases hc : s.column? k with
  | none => exact .inl ⟨by simp [get?, hc], by simp [set?, hc]⟩
  | some c =>
    have hget : s.get? k e = c.get? e := by simp [get?, hc]
    rw [hget]
    rcases Column.set?_cases (h.column hc) e value with ⟨hnone, hr⟩ | ⟨hsome, c', hr, hs, hg⟩
    · exact .inl ⟨hnone, by simp [set?, hc, hr]⟩
    · refine .inr ⟨hsome, s.setColumn c', by simp [set?, hc, hr], ?_⟩
      exact updated_setColumn h hc hs (by simp [hg]) fun e' he => by simp [hg, he]

/-! ## Dropping an entity -/

@[simp] theorem typeId?_discard (s : Storage) (e : EntityId) (k : Kind) :
    (s.discard e).typeId? k = s.typeId? k := rfl

theorem kinds_discard (s : Storage) (e : EntityId) : (s.discard e).kinds = s.kinds := by
  simp [discard, kinds, Function.comp_def]

theorem column?_discard (s : Storage) (e : EntityId) (k : Kind) :
    (s.discard e).column? k = (s.column? k).map fun c => (c.discard e).2 := by
  unfold column? column require
  rw [typeId?_discard]
  cases ht : s.typeId? k with
  | none => rfl
  | some t =>
    simp only [bind, Except.bind, typed, discard, List.getElem?_map]
    rcases s.columns[t]? with _ | entry
    · rfl
    · simp only [Option.map_some, Option.bind_some,
        Column.downcast?_map (fun _ c => (c.discard e).2) entry]
      cases Column.downcast? k entry <;> rfl

theorem get?_discard (h : s.Sound) (e : EntityId) (k : Kind) (e' : EntityId) :
    (s.discard e).get? k e' = if e' = e then none else s.get? k e' := by
  rw [get?, column?_discard, get?]
  cases hc : s.column? k with
  | none => simp
  | some c => simpa using ((h.column hc).discard e).2 e'

theorem Aligned.discard (h : s.Aligned) (e : EntityId) : (s.discard e).Aligned :=
  h.of_kinds rfl (kinds_discard s e) rfl

theorem Sound.discard (h : s.Sound) (e : EntityId) : (s.discard e).Sound where
  toAligned := h.toAligned.discard e
  columns := by
    intro entry hentry
    obtain ⟨entry', hmem, rfl⟩ := List.mem_map.mp hentry
    exact ((h.columns _ hmem).discard e).1

/-! ## Pairs -/

/-- The two parts of the table hold what stands at the two places. -/
theorem twoEntries_eq (s : Storage) {i j : Nat} (h : i ≠ j) :
    s.twoEntries i j = (s.columns[i]?, s.columns[j]?) := by
  unfold twoEntries
  rw [List.splitAt_eq]
  dsimp only
  split
  · next hlt =>
    have hmax : max i j = j := by omega
    rw [hmax, List.getElem?_take_of_lt hlt, List.getElem?_drop, Nat.add_zero]
  · next hge =>
    have hmax : max i j = i := by omega
    have hlt : j < i := by omega
    rw [hmax, List.getElem?_take_of_lt hlt, List.getElem?_drop, Nat.add_zero]

/-- Reading a pair changes nothing, whether it fails or not. -/
theorem getPair_apply (s : Storage) (a b : Kind) (e : EntityId) :
    getPair a b e s = match s.pair a b e with
      | .ok xy => .ok xy s
      | .error error => .error error s := by
  unfold pair Change.outcome getPair
  simp only [Change.bind_apply, Change.get_apply]
  cases s.require a with
  | error error => rfl
  | ok i =>
    cases s.require b with
    | error error => rfl
    | ok j =>
      dsimp only [Change.ofExcept_ok_apply]
      split
      · rfl
      · cases componentIn a e (s.twoEntries i j).1 with
        | error error => rfl
        | ok x => cases componentIn b e (s.twoEntries i j).2 <;> rfl

theorem componentIn_some (c : Column k) (e : EntityId) :
    componentIn k e (some ⟨k, c⟩) = match c.get? e with
      | some value => .ok value
      | none => .error (.componentMissing e k) := by
  simp only [componentIn, typed, Option.bind_some, Column.downcast?_self, bind, Except.bind]
  cases c.get? e <;> rfl

/-- Which pairs can be read: two kinds that are registered and differ, of an entity that
has both. -/
theorem Aligned.pair_eq (h : s.Aligned) (a b : Kind) (e : EntityId) :
    s.pair a b e =
      if a ∉ s.kinds then .error (.componentNotRegistered a)
      else if b ∉ s.kinds then .error (.componentNotRegistered b)
      else if a = b then .error (.aliasedComponents a)
      else match s.get? a e, s.get? b e with
        | some x, some y => .ok (x, y)
        | none, _ => .error (.componentMissing e a)
        | _, none => .error (.componentMissing e b) := by
  unfold pair Change.outcome getPair
  simp only [Change.bind_apply, Change.get_apply]
  rcases h.require_eq a with ⟨ha, hi⟩ | ⟨i, hti, hi⟩ <;> rw [hi]
  · rw [if_pos ha]
    rfl
  rw [if_neg (not_not_intro (h.mem_kinds hti))]
  rcases h.require_eq b with ⟨hb, hj⟩ | ⟨j, htj, hj⟩ <;> rw [hj]
  · rw [if_pos hb]
    rfl
  rw [if_neg (not_not_intro (h.mem_kinds htj))]
  dsimp only [Change.ofExcept_ok_apply]
  by_cases hab : a = b
  · -- One kind has one number.
    subst hab
    obtain rfl := Option.some.inj (hti.symm.trans htj)
    simp [Except.map]
  · have hij : i ≠ j := fun heq => hab (h.typeId?_inj hti (heq ▸ htj))
    obtain ⟨ca, hentry, hca⟩ := h.getElem?_columns hti
    obtain ⟨cb, hentry', hcb⟩ := h.getElem?_columns htj
    rw [if_neg hij, if_neg hab, twoEntries_eq s hij, hentry, hentry']
    simp only [get?, hca, hcb, Option.bind_some, componentIn_some]
    cases ca.get? e <;> cases cb.get? e <;> rfl

/-- What the replacement of a pair does: nothing but that. -/
theorem setPair_updated {a b : Kind} (h : s.Sound) (hab : a ≠ b) {x₀ : a.Value} {y₀ : b.Value}
    (hx : s.get? a e = some x₀) (hy : s.get? b e = some y₀) (x : a.Value) (y : b.Value) :
    ∃ s₁, Updated s a e (some x) s₁ ∧ Updated s₁ b e (some y) (s.setPair a b e x y) := by
  rcases set?_cases h a e x with ⟨hnone, _⟩ | ⟨_, s₁, hs₁, h₁⟩
  · simp [hx] at hnone
  · have hy₁ : s₁.get? b e = some y₀ := by rw [h₁.other b e fun hc => hab hc.1.symm, hy]
    rcases set?_cases h₁.sound b e y with ⟨hnone, _⟩ | ⟨_, s₂, hs₂, h₂⟩
    · simp [hy₁] at hnone
    · refine ⟨s₁, h₁, ?_⟩
      simpa [setPair, hs₁, hs₂] using h₂

end Storage

end SceneEngine
