/-
The sweep finds what a plain filter of all pairs finds (`candidatePairs_eq_filter`).

The bodies are sorted by where they begin, so the first that begins beyond the end of
another hides only bodies that do so too: stopping there loses nothing. Each pair is
found once, from whichever of the two begins first, and the last sort puts the pairs
into the one ascending order there is.
-/
import Mathlib.Data.List.Nodup
import Mathlib.Data.List.Sort
import SceneEngine.Contact.Pairs
import SceneEngine.Proofs.Box

namespace SceneEngine.Contact

/-! ## Sorting -/

section Sorting

variable {α : Type} {le : α → α → Bool}

theorem insertBy_eq_orderedInsert (x : α) (l : List α) :
    insertBy le x l = l.orderedInsert (fun a b => le a b = true) x := by
  induction l with
  | nil => rfl
  | cons y rest ih => simp only [insertBy, List.orderedInsert_cons, ih]

theorem sortBy_eq_insertionSort (l : List α) :
    sortBy le l = l.insertionSort fun a b => le a b = true := by
  induction l with
  | nil => rfl
  | cons x rest ih => rw [sortBy, ih, insertBy_eq_orderedInsert, List.insertionSort_cons]

theorem sortBy_perm (le : α → α → Bool) (l : List α) : (sortBy le l).Perm l := by
  rw [sortBy_eq_insertionSort]
  exact List.perm_insertionSort _ l

theorem sortBy_pairwise (htotal : ∀ a b, le a b = true ∨ le b a = true)
    (htrans : ∀ a b c, le a b = true → le b c = true → le a c = true) (l : List α) :
    (sortBy le l).Pairwise fun a b => le a b = true := by
  have : Std.Total fun a b => le a b = true := ⟨htotal⟩
  have : IsTrans α fun a b => le a b = true := ⟨htrans⟩
  rw [sortBy_eq_insertionSort]
  exact List.pairwise_insertionSort _ l

end Sorting

variable {n : Nat} {bodies : Vector Solid n}

/-! ## Pairs -/

namespace Pair

theorem le_total (p q : Pair n) : Pair.le p q = true ∨ Pair.le q p = true := by
  simp only [Pair.le, decide_eq_true_eq]
  omega

theorem le_trans (p q r : Pair n) (hpq : Pair.le p q = true) (hqr : Pair.le q r = true) :
    Pair.le p r = true := by
  simp only [Pair.le, decide_eq_true_eq] at *
  omega

theorem le_antisymm {p q : Pair n} (hpq : Pair.le p q = true) (hqp : Pair.le q p = true) : p = q := by
  simp only [Pair.le, decide_eq_true_eq] at hpq hqp
  exact Prod.ext (by omega) (by omega)

theorem ordered_eq_iff {a b : Fin n} (hab : a ≠ b) {p : Pair n} :
    Pair.ordered a b = p ↔ p.1 < p.2 ∧ (p.1 = a ∧ p.2 = b ∨ p.1 = b ∧ p.2 = a) := by
  unfold Pair.ordered
  split <;> simp only [Prod.ext_iff] <;> omega

end Pair

theorem mem_allPairs {p : Pair n} : p ∈ allPairs bodies ↔ p.1 < p.2 := by
  simp only [allPairs, List.mem_flatMap, List.mem_finRange, true_and, List.mem_map, List.mem_filter,
    decide_eq_true_eq]
  constructor
  · rintro ⟨a, b, hab, rfl⟩
    exact hab
  · exact fun hp => ⟨p.1, p.2, hp, rfl⟩

/-- All pairs, by their first body and then by their second. -/
theorem allPairs_pairwise (bodies : Vector Solid n) :
    (allPairs bodies).Pairwise fun p q => Pair.le p q = true ∧ p ≠ q := by
  rw [allPairs, List.pairwise_flatMap]
  constructor
  · intro a _
    refine List.Pairwise.map _ (fun b c (hbc : b < c) => ?_) ((List.pairwise_lt_finRange n).filter _)
    simp only [Pair.le, decide_eq_true_eq, ne_eq, Prod.mk.injEq, true_and]
    omega
  · refine (List.pairwise_lt_finRange n).imp fun hab => ?_
    simp only [List.mem_map, List.mem_filter]
    rintro _ ⟨c, _, rfl⟩ _ ⟨d, _, rfl⟩
    simp only [Pair.le, decide_eq_true_eq, ne_eq, Prod.mk.injEq]
    omega

/-! ## What is near -/

/-- Whether the swept boxes of two bodies reach each other along the X axis. -/
def reaches (a b : Solid) : Bool :=
  decide (a.swept.lower.x ≤ b.swept.upper.x) && decide (b.swept.lower.x ≤ a.swept.upper.x)

/-- The pairs a plain filter keeps. -/
def near (bodies : Vector Solid n) (p : Pair n) : Bool :=
  reaches (bodies.get p.1) (bodies.get p.2) && matters bodies p.1 p.2

theorem near_swap (a b : Fin n) : near bodies (a, b) = near bodies (b, a) := by
  simp only [near, reaches, matters, Box.intersects_comm (bodies.get a).current]
  grind

/-! ## The sweep -/

/-- Every swept box begins where it ends or before; so no place on the X axis is a NaN. -/
def Forward (bodies : Vector Solid n) : Prop :=
  ∀ i, (bodies.get i).swept.lower.x ≤ (bodies.get i).swept.upper.x

/-- Bodies in the order in which they begin. -/
def Ascending (bodies : Vector Solid n) (l : List (Fin n)) : Prop :=
  l.Pairwise fun a b => (bodies.get a).swept.lower.x ≤ (bodies.get b).swept.lower.x

theorem sweepOrder_perm (bodies : Vector Solid n) : (sweepOrder bodies).Perm (List.finRange n) :=
  sortBy_perm _ _

theorem sweepOrder_ascending (h : Forward bodies) : Ascending bodies (sweepOrder bodies) := by
  have hnum : ∀ i, (bodies.get i).swept.lower.x.isNaN = false := fun i => (Binary.le_iff.mp (h i)).1
  have hsorted : (sweepOrder bodies).Pairwise fun a b =>
      decide (start bodies a ≤ start bodies b) = true := by
    refine sortBy_pairwise (fun a b => ?_) (fun a b c hab hbc => ?_) _
    · simp only [decide_eq_true_eq]
      omega
    · simp only [decide_eq_true_eq] at *
      omega
  exact hsorted.imp fun hab => Binary.le_of_rank_le (hnum _) (hnum _) (of_decide_eq_true hab)

/-- The pairs of one body with those that begin after it: the stop at the first that is
out of reach drops none that is not. -/
theorem pairsFrom_eq (h : Forward bodies) {a : Fin n} {l : List (Fin n)}
    (hl : Ascending bodies (a :: l)) :
    pairsFrom bodies a l = (l.filter fun b => near bodies (a, b)).map (Pair.ordered a) := by
  induction l with
  | nil => rfl
  | cons b rest ih =>
    obtain ⟨ha, hlater⟩ := List.pairwise_cons.mp hl
    have hb := (List.pairwise_cons.mp hlater).1
    rw [pairsFrom]
    split
    · next hbeyond =>
      have hfar : ∀ c ∈ b :: rest, near bodies (a, c) = false := by
        intro c hc
        have hbc : (bodies.get b).swept.lower.x ≤ (bodies.get c).swept.lower.x := by
          rcases List.mem_cons.mp hc with rfl | hc
          · exact Binary.le_refl (Binary.le_iff.mp (h _)).1
          · exact hb c hc
        have hc : ¬ (bodies.get c).swept.lower.x ≤ (bodies.get a).swept.upper.x := fun hle =>
          Binary.not_lt_of_le hle (Binary.lt_of_lt_of_le hbeyond hbc)
        simp [near, reaches, hc]
      rw [List.filter_eq_nil_iff.mpr fun c hc => by simp [hfar c hc], List.map_nil]
    · next hwithin =>
      have hba : (bodies.get b).swept.lower.x ≤ (bodies.get a).swept.upper.x :=
        Binary.le_of_not_lt (Binary.le_iff.mp (h b)).1 (Binary.le_iff.mp (h a)).2.1 hwithin
      have hab : (bodies.get a).swept.lower.x ≤ (bodies.get b).swept.upper.x :=
        Binary.le_trans (ha b (by simp)) (h b)
      have hnear : near bodies (a, b) = matters bodies a b := by simp [near, reaches, hab, hba]
      rw [List.filter_cons, hnear, ih (hl.sublist ((List.sublist_cons_self b rest).cons_cons a))]
      split <;> rfl

/-- The pairs the sweep finds: those of its bodies that are near. -/
theorem mem_sweep (h : Forward bodies) {l : List (Fin n)} (hl : Ascending bodies l) (hnd : l.Nodup)
    {p : Pair n} :
    p ∈ sweep bodies l ↔ p.1 < p.2 ∧ p.1 ∈ l ∧ p.2 ∈ l ∧ near bodies p = true := by
  induction l with
  | nil => simp [sweep]
  | cons a rest ih =>
    obtain ⟨ha, hnd⟩ := List.nodup_cons.mp hnd
    have hne : ∀ {b}, b ∈ rest → a ≠ b := fun hb heq => ha (heq ▸ hb)
    rw [sweep, List.mem_append, ih hl.tail hnd, pairsFrom_eq h hl]
    simp only [List.mem_map, List.mem_filter]
    constructor
    · rintro (⟨b, ⟨hb, hnear⟩, hp⟩ | ⟨hlt, h₁, h₂, hnear⟩)
      · obtain ⟨hlt, ⟨h₁, h₂⟩ | ⟨h₁, h₂⟩⟩ := (Pair.ordered_eq_iff (hne hb)).mp hp
        · have : near bodies p = true := by rw [← hnear, ← h₁, ← h₂]
          exact ⟨hlt, by simp [h₁], by simp [h₂, hb], this⟩
        · have : near bodies p = true := by rw [← hnear, near_swap, ← h₁, ← h₂]
          exact ⟨hlt, by simp [h₁, hb], by simp [h₂], this⟩
      · exact ⟨hlt, by simp [h₁], by simp [h₂], hnear⟩
    · rintro ⟨hlt, h₁, h₂, hnear⟩
      -- `a` may be the first of the two, the second, or neither.
      rcases List.mem_cons.mp h₁ with h₁ | h₁ <;> rcases List.mem_cons.mp h₂ with h₂ | h₂
      · omega
      · refine .inl ⟨p.2, ⟨h₂, by rw [← h₁]; exact hnear⟩, ?_⟩
        exact (Pair.ordered_eq_iff (hne h₂)).mpr ⟨hlt, .inl ⟨h₁, rfl⟩⟩
      · refine .inl ⟨p.1, ⟨h₁, by rw [near_swap, ← h₂]; exact hnear⟩, ?_⟩
        exact (Pair.ordered_eq_iff (hne h₁)).mpr ⟨hlt, .inr ⟨rfl, h₂⟩⟩
      · exact .inr ⟨hlt, h₁, h₂, hnear⟩

/-- No pair is found twice. -/
theorem sweep_nodup (h : Forward bodies) {l : List (Fin n)} (hl : Ascending bodies l)
    (hnd : l.Nodup) : (sweep bodies l).Nodup := by
  induction l with
  | nil => simp [sweep]
  | cons a rest ih =>
    obtain ⟨ha, hnd⟩ := List.nodup_cons.mp hnd
    have hne : ∀ {b}, b ∈ rest → a ≠ b := fun hb heq => ha (heq ▸ hb)
    rw [sweep, pairsFrom_eq h hl]
    refine List.Nodup.append (List.Nodup.map_on ?_ (hnd.filter _)) (ih hl.tail hnd) ?_
    · intro b hb c hc heq
      have hb := (Pair.ordered_eq_iff (hne (List.mem_of_mem_filter hb))).mp heq
      have hc := (Pair.ordered_eq_iff (hne (List.mem_of_mem_filter hc))).mp rfl
      omega
    · -- The pairs on the left are of `a`, those on the right are not.
      intro p hleft hright
      obtain ⟨b, hb, hp⟩ := List.mem_map.mp hleft
      obtain ⟨_, h₁, h₂, _⟩ := (mem_sweep h hl.tail hnd).mp hright
      obtain ⟨_, ⟨hpa, _⟩ | ⟨_, hpa⟩⟩ := (Pair.ordered_eq_iff (hne (List.mem_of_mem_filter hb))).mp hp
      · exact ha (hpa ▸ h₁)
      · exact ha (hpa ▸ h₂)

/-- In whatever order bodies that begin at one place are swept, the pairs found are those of all
pairs that are near, and sorted they are in the same order. -/
theorem sortBy_sweep (h : Forward bodies) {order : List (Fin n)} (hperm : order.Perm (List.finRange n))
    (hasc : Ascending bodies order) :
    sortBy Pair.le (sweep bodies order) = (allPairs bodies).filter (near bodies) := by
  have hnd : order.Nodup := hperm.nodup_iff.mpr (List.nodup_finRange n)
  have hall := allPairs_pairwise bodies
  have hsame : (sortBy Pair.le (sweep bodies order)).Perm ((allPairs bodies).filter (near bodies)) := by
    refine (sortBy_perm _ _).trans
      ((List.perm_ext_iff_of_nodup (sweep_nodup h hasc hnd) ?_).mpr fun p => ?_)
    · exact (hall.imp And.right).filter _
    · rw [mem_sweep h hasc hnd, List.mem_filter, mem_allPairs, hperm.mem_iff, hperm.mem_iff]
      simp
  exact hsame.eq_of_pairwise (fun p q _ _ => Pair.le_antisymm)
    (sortBy_pairwise Pair.le_total Pair.le_trans _) ((hall.imp And.left).filter _)

/-- **The sweep is a filter.** The candidate pairs are those of all pairs that are near,
in the same order. -/
theorem candidatePairs_eq_filter (h : Forward bodies) :
    candidatePairs bodies = (allPairs bodies).filter (near bodies) :=
  sortBy_sweep h (sweepOrder_perm bodies) (sweepOrder_ascending h)

end SceneEngine.Contact
