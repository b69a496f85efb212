/-
Where the time of a tick goes.

Read without rounding, a tick takes as many whole steps from its time as there are, up to
the most that are allowed, and keeps less than one step. What it loses beyond that is a
whole number of steps. The `ledger` of a series of ticks writes down for each what there
was, what came in, what was taken and what is left; since each tick begins with what the
one before has left, the account closes over any series (`sum_delta_ledger`).

An engine with a fixed timestep keeps this ledger in single precision, and its simulation
is made of the steps entered there (`ticks_keep_ledger`).
-/
import Mathlib.Algebra.BigOperators.Group.List.Basic
import Mathlib.Algebra.Order.Floor.Semifield
import Mathlib.Data.Rat.Floor
import Mathlib.Tactic.LinearCombination
import SceneEngine.Proofs.Engine.Ticks
import SceneEngine.Proofs.Exact

namespace SceneEngine

namespace Clock

/-! ## Ledgers -/

section Ledger

variable {α : Type} [Scalar α]

/-- The time that comes in by a delta: none when it is negative or no number. -/
def accepted (dt : α) : α := if Scalar.isFinite dt ∧ 0 ≤ dt then dt else 0

/-- What one tick did with its time. -/
structure Entry (α : Type) where
  /-- Left over from before. -/
  before : α
  /-- Come in. -/
  delta : α
  /-- The steps taken. -/
  steps : Nat
  /-- Left over afterwards. -/
  after : α

/-- A series of ticks, by their deltas, that begins with some time left over. -/
def ledger (step leftover : α) : List α → List (Entry α)
  | [] => []
  | dt :: rest =>
    let (steps, after) := advance step leftover (accepted dt)
    ⟨leftover, accepted dt, steps, after⟩ :: ledger step after rest

/-- What a series of ticks leaves over. -/
def closing (step leftover : α) : List α → α
  | [] => leftover
  | dt :: rest => closing step (advance step leftover (accepted dt)).2 rest

/-- The time a tick has lost: what was there and came in, less what was taken and kept. -/
def Entry.lost (step : α) (t : Entry α) : α :=
  t.before + t.delta - (t.steps : α) * step - t.after

theorem map_delta_ledger (step leftover : α) (dts : List α) :
    (ledger step leftover dts).map Entry.delta = dts.map accepted := by
  induction dts generalizing leftover with
  | nil => rfl
  | cons dt rest ih => simp only [ledger, List.map_cons, ih]

end Ledger

/-! ## Without rounding -/

open scoped Exact

variable {K : Type} [Field K] [LinearOrder K] [FieldFunctions K]

theorem spend_eq (step time : K) (n : Nat) : spend step n time = time - n * step := by
  induction n generalizing time with
  | zero => simp [spend]
  | succ n ih =>
    rw [spend, ih]
    push_cast
    ring

theorem accepted_nonneg (dt : K) : 0 ≤ accepted dt := by
  unfold accepted
  split
  · next h => exact h.2
  · exact le_rfl

/-- The time that came in is simulated, left over or lost. -/
theorem sum_delta_ledger (step leftover : K) (dts : List K) :
    leftover + ((ledger step leftover dts).map Entry.delta).sum =
      (((ledger step leftover dts).map Entry.steps).sum : K) * step + closing step leftover dts +
        ((ledger step leftover dts).map (Entry.lost step)).sum := by
  induction dts generalizing leftover with
  | nil => simp [ledger, closing]
  | cons dt rest ih =>
    have ih := ih (advance step leftover (accepted dt)).2
    simp only [ledger, closing, List.map_cons, List.sum_cons, Nat.cast_add, Entry.lost] at ih ⊢
    linear_combination ih

/-- The remainder is what division leaves when it rounds toward zero. -/
def RoundsTowardZero (K : Type) [Field K] [LinearOrder K] [FloorRing K] [FieldFunctions K] : Prop :=
  ∀ x y : K, y ≠ 0 →
    FieldFunctions.rem x y = x - y * ((if 0 ≤ x / y then ⌊x / y⌋ else ⌈x / y⌉ : ℤ) : K)

variable [IsStrictOrderedRing K] [FloorRing K] {step time : K}

theorem dueSteps_eq (hs : 0 < step) (ht : 0 ≤ time) (budget : Nat) :
    dueSteps step budget time = min budget ⌊time / step⌋₊ := by
  induction budget generalizing time with
  | zero => simp [dueSteps]
  | succ budget ih =>
    rw [dueSteps]
    split
    · next hle =>
      have hdiv : (time - step) / step = time / step - 1 := by
        rw [sub_div, div_self hs.ne']
      have hone : 1 ≤ ⌊time / step⌋₊ := Nat.floor_pos.mpr ((one_le_div hs).mpr hle)
      rw [ih (sub_nonneg.mpr hle), hdiv, Nat.floor_sub_one]
      omega
    · next hlt =>
      rw [Nat.floor_eq_zero.mpr ((div_lt_one hs).mpr (not_le.mp hlt)), Nat.min_zero]

theorem trim_eq (hrem : RoundsTowardZero K) (hs : 0 < step) (ht : 0 ≤ time) :
    trim step time = time - ⌊time / step⌋₊ * step := by
  rw [trim]
  split
  · have hdiv : 0 ≤ time / step := div_nonneg ht hs.le
    have hcast : ((⌊time / step⌋ : ℤ) : K) = (⌊time / step⌋₊ : K) := by
      rw [← Int.natCast_floor_eq_floor hdiv, Int.cast_natCast]
    show FieldFunctions.rem time step = _
    rw [hrem time step hs.ne', if_pos hdiv, hcast, mul_comm]
  · next hlt =>
    rw [Nat.floor_eq_zero.mpr ((div_lt_one hs).mpr (not_le.mp hlt))]
    simp

/-- What is left of a time once all whole steps are taken from it. -/
theorem sub_floor_mul (hs : 0 < step) (ht : 0 ≤ time) :
    0 ≤ time - ⌊time / step⌋₊ * step ∧ time - ⌊time / step⌋₊ * step < step := by
  have hle : (⌊time / step⌋₊ : K) ≤ time / step := Nat.floor_le (div_nonneg ht hs.le)
  have hlt : time / step < ⌊time / step⌋₊ + 1 := Nat.lt_floor_add_one _
  rw [le_div_iff₀ hs] at hle
  rw [div_lt_iff₀ hs, add_mul, one_mul] at hlt
  exact ⟨sub_nonneg.mpr hle, sub_lt_iff_lt_add'.mpr hlt⟩

/-- The account of one tick is right: as many steps as there are in its time, but no more
than are allowed; less than a step kept; whole steps lost, and only beyond those allowed. -/
structure Entry.Balanced (step : K) (t : Entry K) : Prop where
  steps : t.steps = min maxSteps ⌊(t.before + t.delta) / step⌋₊
  after_nonneg : 0 ≤ t.after
  after_lt : t.after < step
  lost_whole : ∃ k : Nat, t.lost step = k * step
  lost_capped : t.lost step ≠ 0 → t.steps = maxSteps

theorem balanced_advance (hrem : RoundsTowardZero K) (hs : 0 < step) {leftover delta : K}
    (hleftover : 0 ≤ leftover) (hdelta : 0 ≤ delta) :
    Entry.Balanced step ⟨leftover, delta, (advance step leftover delta).1,
      (advance step leftover delta).2⟩ := by
  have htime : 0 ≤ leftover + delta := add_nonneg hleftover hdelta
  have hsteps : (advance step leftover delta).1 = min maxSteps ⌊(leftover + delta) / step⌋₊ :=
    dueSteps_eq hs htime maxSteps
  generalize hn : (advance step leftover delta).1 = n at hsteps
  -- What the steps leave of the time is not negative, and they are taken off its floor.
  let rest := leftover + delta - n * step
  have hrest : 0 ≤ rest := by
    have hfloor : (n : K) ≤ (leftover + delta) / step :=
      (Nat.cast_le.mpr (hsteps ▸ min_le_right _ _)).trans (Nat.floor_le (div_nonneg htime hs.le))
    exact sub_nonneg.mpr ((le_div_iff₀ hs).mp hfloor)
  have hdiv : ⌊rest / step⌋₊ = ⌊(leftover + delta) / step⌋₊ - n := by
    rw [sub_div, mul_div_cancel_right₀ _ hs.ne', Nat.floor_sub_natCast]
  have hafter : (advance step leftover delta).2 = rest - ⌊rest / step⌋₊ * step := by
    have hspent : (advance step leftover delta).2 = trim step (spend step n (leftover + delta)) := by
      rw [← hn]
      rfl
    rw [hspent, spend_eq, trim_eq hrem hs hrest]
  have hlost : Entry.lost step ⟨leftover, delta, n, (advance step leftover delta).2⟩ =
      ⌊rest / step⌋₊ * step := by
    rw [Entry.lost, hafter]
    exact sub_sub_cancel rest _
  obtain ⟨hnonneg, hlt⟩ := sub_floor_mul hs hrest
  refine ⟨hsteps, hafter ▸ hnonneg, hafter ▸ hlt, ⟨_, hlost⟩, fun hne => ?_⟩
  -- Time is lost only where steps are left that were not taken.
  have hmore : ⌊(leftover + delta) / step⌋₊ - n ≠ 0 := by
    rintro hzero
    rw [hlost, hdiv, hzero, Nat.cast_zero, zero_mul] at hne
    exact hne rfl
  show n = maxSteps
  omega

/-- Every tick of a series is accounted for rightly. -/
theorem balanced_of_mem_ledger (hrem : RoundsTowardZero K) (hs : 0 < step) {leftover : K}
    (hleftover : 0 ≤ leftover) {dts : List K} {t : Entry K} (ht : t ∈ ledger step leftover dts) :
    t.Balanced step := by
  induction dts generalizing leftover with
  | nil => cases ht
  | cons dt rest ih =>
    have hb := balanced_advance hrem hs hleftover (accepted_nonneg dt)
    rcases List.mem_cons.mp ht with rfl | ht
    · exact hb
    · exact ih hb.after_nonneg ht

end Clock

/-! ## Engines -/

namespace Engine

variable {e e' : Engine} {step : F32}

theorem leftover_new {config : EngineConfig} (h : Engine.new config = .ok e) : e.leftover = 0 := by
  obtain ⟨_, _, _, _, _, _, _, rfl⟩ := exists_of_new h
  rfl

theorem division_of_fixed (h : e.config.physics.fixedTimestep = some step) (dt : F32) :
    e.division dt = ⟨(Clock.advance step e.leftover (Clock.accepted dt)).1, step,
      (Clock.advance step e.leftover (Clock.accepted dt)).2,
      (Clock.advance step e.leftover (Clock.accepted dt)).2 / step⟩ := by
  rw [division, h]
  rfl

/-- Ticks of an engine with a fixed timestep report the entries of its ledger, and simulate
the steps entered there. -/
theorem ticks_keep_ledger (hfixed : e.config.physics.fixedTimestep = some step) {dts : List F32}
    {all : List TickStats} (h : ticks dts e = .ok all e') :
    all.map TickStats.steps = (Clock.ledger step e.leftover dts).map Clock.Entry.steps ∧
    all.map TickStats.alpha = (Clock.ledger step e.leftover dts).map (fun t => t.after / step) ∧
    e'.leftover = Clock.closing step e.leftover dts ∧
    simulateAll (List.replicate (all.map TickStats.steps).sum step) e =
      .ok () { e with world := e'.world, contact := e'.contact } := by
  induction dts generalizing e all with
  | nil =>
    obtain ⟨rfl, rfl⟩ := ticks_nil_eq_ok_iff.mp h
    exact ⟨rfl, rfl, rfl, simulateAll_nil_eq_ok_iff.mpr rfl⟩
  | cons dt rest ih =>
    obtain ⟨stats, e₁, others, htick, hrest, rfl⟩ := ticks_cons_eq_ok_iff.mp h
    obtain ⟨world, contact, renderer, hall, _, rfl, rfl⟩ := tick_eq_ok_iff.mp htick
    rw [stepsOf, division_of_fixed hfixed] at hall
    rw [division_of_fixed hfixed] at hrest ⊢
    obtain ⟨hsteps, halpha, hclosing, hothers⟩ := ih (by exact hfixed) hrest
    refine ⟨?_, ?_, hclosing, ?_⟩
    · rw [List.map_cons, hsteps]
      rfl
    · rw [List.map_cons, halpha]
      rfl
    · rw [List.map_cons, List.sum_cons, List.replicate_add]
      -- The steps of the other ticks begin where those of this one end.
      refine simulateAll_append_eq_ok_iff.mpr ⟨_, hall, ?_⟩
      exact simulateAll_beside e.leftover e.renderer e.frame hothers

open scoped Exact in
/-- **Time is accounted for.** An engine with a fixed timestep begins with no time left over.
Its ticks run the steps its ledger says, all as long as the timestep, and report the share
of a step that is left over. Without rounding, each tick of the ledger takes the whole steps
in its time, but no more than eight; it keeps less than one step; and what it loses is a
whole number of steps, none unless it took eight. So the time that came in is the time
simulated, the time left over and the time lost. -/
theorem fixed_steps_account :
    (∀ (config : EngineConfig) (e : Engine), Engine.new config = .ok e → e.leftover = 0) ∧
    (∀ (e e' : Engine) (step : F32) (dts : List F32) (all : List TickStats),
      e.config.physics.fixedTimestep = some step → ticks dts e = .ok all e' →
      all.map TickStats.steps = (Clock.ledger step e.leftover dts).map Clock.Entry.steps ∧
      all.map TickStats.alpha = (Clock.ledger step e.leftover dts).map (fun t => t.after / step) ∧
      e'.leftover = Clock.closing step e.leftover dts ∧
      simulateAll (List.replicate (all.map TickStats.steps).sum step) e =
        .ok () { e with world := e'.world, contact := e'.contact }) ∧
    ∀ (K : Type) [Field K] [LinearOrder K] [IsStrictOrderedRing K] [FloorRing K]
      [FieldFunctions K], Clock.RoundsTowardZero K → ∀ step : K, 0 < step → ∀ dts : List K,
      (∀ t ∈ Clock.ledger step 0 dts,
        t.steps = min 8 ⌊(t.before + t.delta) / step⌋₊ ∧
        (0 ≤ t.after ∧ t.after < step) ∧ (0 ≤ t.after / step ∧ t.after / step < 1) ∧
        t.before + t.delta = t.steps * step + t.after + t.lost step ∧
        (∃ k : Nat, t.lost step = k * step) ∧ (t.lost step ≠ 0 → t.steps = 8)) ∧
      (dts.map Clock.accepted).sum =
        (((Clock.ledger step 0 dts).map Clock.Entry.steps).sum : K) * step +
          Clock.closing step 0 dts + ((Clock.ledger step 0 dts).map (Clock.Entry.lost step)).sum := by
  refine ⟨fun _ _ h => leftover_new h, fun _ _ _ _ _ hfixed h => ticks_keep_ledger hfixed h, ?_⟩
  intro K _ _ _ _ _ hrem step hs dts
  refine ⟨fun t ht => ?_, ?_⟩
  · have hb := Clock.balanced_of_mem_ledger hrem hs le_rfl ht
    refine ⟨hb.steps, ⟨hb.after_nonneg, hb.after_lt⟩, ⟨div_nonneg hb.after_nonneg hs.le,
      (div_lt_one hs).mpr hb.after_lt⟩, ?_, hb.lost_whole, hb.lost_capped⟩
    rw [Clock.Entry.lost]
    ring
  · have hsum := Clock.sum_delta_ledger step 0 dts
    rwa [Clock.map_delta_ledger, zero_add] at hsum

open scoped Exact in
/-- Half a second per step: two steps and a rest, then a delta that counts for nothing, then
far more than eight steps. -/
theorem fixed_steps_account_capped :
    ∃ (_ : FieldFunctions ℚ) (e e' : Engine) (all : List TickStats),
      Clock.RoundsTowardZero ℚ ∧ e.config.physics.fixedTimestep = some Scalar.half ∧
      ticks [1 + Scalar.half * Scalar.half, -1, (100 : Nat)] e = .ok all e' ∧
      all.map TickStats.steps = [2, 0, 8] ∧ e.leftover = 0 ∧
      simulateAll (List.replicate 10 Scalar.half) e =
        .ok () { e with world := e'.world, contact := e'.contact } ∧
      (Clock.ledger (1 / 2 : ℚ) 0 [5 / 4, -1, 100]).map Clock.Entry.steps = [2, 0, 8] ∧
      ([5 / 4, -1, 100].map Clock.accepted).sum =
        (10 : ℚ) * (1 / 2) + Clock.closing (1 / 2 : ℚ) 0 [5 / 4, -1, 100] + 96 := by
  let functions : FieldFunctions ℚ := { FieldFunctions.arithmetic with
    rem := fun x y => x - y * ((if 0 ≤ x / y then ⌊x / y⌋ else ⌈x / y⌉ : ℤ) : ℚ) }
  have hrem : Clock.RoundsTowardZero ℚ := fun _ _ _ => rfl
  let config : EngineConfig :=
    { EngineConfig.standard with
      physics := { PhysicsConfig.standard with fixedTimestep := some Scalar.half } }
  let dts : List F32 := [1 + Scalar.half * Scalar.half, -1, (100 : Nat)]
  have hfacts : (Engine.new config).toOption.any (fun e =>
      e.config.physics.fixedTimestep = some Scalar.half ∧
      (e.outcome? (ticks dts)).map (fun (all, _) => all.map TickStats.steps) = some [2, 0, 8]) =
      true := by
    decide +kernel
  cases hnew : Engine.new config with
  | error _ => simp [hnew, Except.toOption] at hfacts
  | ok e =>
    rw [hnew, Except.toOption, Option.any_some, decide_eq_true_eq] at hfacts
    obtain ⟨hfixed, hcounts⟩ := hfacts
    obtain ⟨⟨all, e'⟩, hticks, (hall : all.map TickStats.steps = [2, 0, 8])⟩ :=
      Option.map_eq_some_iff.mp hcounts
    have hticks := outcome?_eq_some_iff.mp hticks
    obtain ⟨hzero, hrun, hexact⟩ := fixed_steps_account
    obtain ⟨_, _, _, hsimulated⟩ := hrun e e' _ dts all hfixed hticks
    rw [hall] at hsimulated
    have hsteps : (Clock.ledger (1 / 2 : ℚ) 0 [5 / 4, -1, 100]).map Clock.Entry.steps = [2, 0, 8] := by
      decide +kernel
    have hlost : ((Clock.ledger (1 / 2 : ℚ) 0 [5 / 4, -1, 100]).map
        (Clock.Entry.lost (1 / 2))).sum = 96 := by
      decide +kernel
    have hsum := (hexact ℚ hrem (1 / 2) (by norm_num) [5 / 4, -1, 100]).2
    rw [hsteps, hlost] at hsum
    exact ⟨functions, e, e', all, hrem, hfixed, hticks, hall, hzero config e hnew, hsimulated,
      hsteps, hsum⟩

end Engine

end SceneEngine
