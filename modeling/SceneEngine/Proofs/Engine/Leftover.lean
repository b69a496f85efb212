/-
The time an engine has left over, in single precision.

As long as the time of a tick is finite, whole steps come off it one by one, and what is
kept is at least zero and below the step: a difference of numbers in order lies between
zero and the larger one, and a remainder is exact. Time that overflows is infinite. No step
makes it less, its remainder is no number, and with that left over no later tick ever runs
a step. Overflow needs a step above `2 ^ 103`, unless a tick fails on the way and leaves
its time behind (`leftover_usable_or_lost`).
-/
import SceneEngine.Proofs.Binary.Rounding
import SceneEngine.Proofs.Clock
import SceneEngine.Proofs.Engine.Acceptance
import SceneEngine.Proofs.Engine.Deliveries

namespace SceneEngine

/-! ## Numbers in order -/

namespace Binary

variable {x y : F32}

theorem nonneg_iff : 0 ≤ x ↔ x.isNaN = false ∧ 0 ≤ x.key := by
  have hle : (signedZero false : F32).le x = true ↔ _ := le_iff
  exact hle.trans ⟨fun h => h.2, fun h => ⟨rfl, h⟩⟩

theorem pos_iff : 0 < x ↔ x.isNaN = false ∧ 0 < x.key := by
  have hlt : (signedZero false : F32).lt x = true ↔ _ := lt_iff
  exact hlt.trans ⟨fun h => h.2, fun h => ⟨rfl, h⟩⟩

theorem precision_pos : 0 < Format.single.precision := by decide

theorem isFinite_of_between (hx : x.isFinite = true) (h : 0 ≤ y) (hle : y ≤ x) :
    y.isFinite = true := by
  have hkey := (le_iff.mp hle).2.2
  have hy := (nonneg_iff.mp h).2
  refine isFinite_of_le hx ?_
  rw [← natAbs_key, ← natAbs_key]
  omega

theorem add_nonneg (hx : 0 ≤ x) (hy : 0 ≤ y) (hfin : y.isFinite = true) : 0 ≤ x + y := by
  obtain ⟨hxnan, hxkey⟩ := nonneg_iff.mp hx
  obtain ⟨-, hykey⟩ := nonneg_iff.mp hy
  cases hxfin : x.isFinite with
  | true =>
    have hsum : 0 ≤ x.units + y.units := by
      rw [units_of_key_nonneg hxkey, units_of_key_nonneg hykey]
      omega
    refine nonneg_iff.mpr ⟨isNaN_add hxfin hfin, ?_⟩
    have hkey : (x + y).key = _ := key_add hxfin hfin
    rw [hkey, nearestKey_of_nonneg precision_pos hsum]
    exact Int.natCast_nonneg _
  | false =>
    have hadd : x + y = x := by
      show x.add y = x
      simp [add, hxnan, isNaN_of_isFinite hfin, isInfinite_of_isFinite hfin,
        isInfinite_of_not_isFinite hxfin hxnan]
    rwa [hadd]

/-- A difference of numbers in order is between zero and the larger one. -/
theorem sub_between (hx : 0 < x) (hfin : x.isFinite = true) (h : x ≤ y) : 0 ≤ y - x ∧ y - x ≤ y := by
  obtain ⟨-, hpos⟩ := pos_iff.mp hx
  obtain ⟨-, hynan, hkey⟩ := le_iff.mp h
  cases hy : y.isFinite with
  | false =>
    have hsub : y - x = y := sub_of_not_isFinite hy hfin
    rw [hsub]
    exact ⟨nonneg_iff.mpr ⟨hynan, by omega⟩, le_refl hynan⟩
  | true =>
    have hunits := units_le hkey
    have hxunits := units_of_key_nonneg (x := x) (by omega)
    have hyunits := units_of_key_nonneg (x := y) (by omega)
    have hnear : (nearest false (y.units - x.units).natAbs 1 : F32).magnitude ≤ y.magnitude := by
      refine nearest_le precision_pos Nat.one_pos ?_
      have hcount : y.unitCount = Format.single.unitsAt y.magnitude := rfl
      omega
    have hsub : (y - x).key = _ := key_sub hy hfin
    rw [nearestKey_of_nonneg precision_pos (by omega)] at hsub
    have hynat := natAbs_key y
    exact ⟨nonneg_iff.mpr ⟨isNaN_sub hy hfin, by omega⟩,
      le_iff.mpr ⟨isNaN_sub hy hfin, hynan, by omega⟩⟩

/-- A remainder is below what was divided by. -/
theorem rem_between (hx : 0 < x) (hfin : y.isFinite = true) (h : x ≤ y) :
    0 ≤ y.rem x ∧ y.rem x < x := by
  obtain ⟨hxnan, hpos⟩ := pos_iff.mp hx
  obtain ⟨-, hynan, hkey⟩ := le_iff.mp h
  have hxmag := natAbs_key x
  have hymag := natAbs_key y
  obtain ⟨hneg, hlt⟩ := rem_lt (x := y) (y := x) precision_pos hfin (by omega) (by omega)
  rw [negative_of_key_pos (x := y) (by omega)] at hneg
  have hremkey : (y.rem x).key = (y.rem x).magnitude := by simp [key, hneg]
  have hremnan : (y.rem x).isNaN = false := by
    simp only [isNaN, decide_eq_false_iff_not] at hxnan ⊢
    omega
  exact ⟨nonneg_iff.mpr ⟨hremnan, by omega⟩, lt_iff.mpr ⟨hremnan, hxnan, by omega⟩⟩

/-- A share of something larger is below one, however close the two are. -/
theorem div_between (hx : 0 ≤ x) (hlt : x < y) (hfin : y.isFinite = true) :
    0 ≤ x / y ∧ x / y < 1 := by
  obtain ⟨hxnan, hxkey⟩ := nonneg_iff.mp hx
  obtain ⟨-, hynan, hkey⟩ := lt_iff.mp hlt
  have hxmag := natAbs_key x
  have hymag := natAbs_key y
  have hxfin : x.isFinite = true := isFinite_of_le hfin (by omega)
  have hyzero : y.isZero = false := by
    simp [isZero]
    omega
  have hdiv : x / y = nearest (x.negative != y.negative) (x.unitCount <<< 149) y.unitCount := by
    show x.div y = _
    simp [div, hxnan, hynan, isInfinite_of_isFinite hxfin, isInfinite_of_isFinite hfin, hyzero]
    rfl
  have hpos : 0 < y.unitCount := by
    have hunits : Format.single.unitsAt 0 < y.unitCount :=
      Format.unitsAt_strictMono _ (by omega)
    rwa [Format.unitsAt_zero] at hunits
  -- The number below one is `2 ^ -24` less, and `x` is below `y` by as large a share of it.
  have hone : (1 : F32).key = 0x3f7fffff + 1 := by decide
  have hgap : x.unitCount * 2 ^ 24 ≤ y.unitCount * (2 ^ 24 - 1) :=
    Format.unitsAt_mul_le precision_pos (by omega)
  have hmag : (x / y).magnitude ≤ 0x3f7fffff := by
    rw [hdiv]
    refine nearest_le_of_lt_middle precision_pos hpos ?_
    have hmiddle : Format.single.unitsAt 0x3f7fffff + Format.single.unitsAt (0x3f7fffff + 1) =
        2 ^ 150 - 2 ^ 125 := by decide
    rw [hmiddle, Nat.shiftLeft_eq]
    omega
  have hnan : (x / y).isNaN = false := by
    rw [hdiv]
    exact isNaN_nearest _ _ _
  have hnonneg : 0 ≤ (x / y).key := by
    cases hneg : x.negative with
    | false =>
      refine key_nonneg ?_
      rw [hdiv, hneg, negative_of_key_pos (x := y) (by omega)]
      rfl
    | true =>
      -- A negative zero, whose share is one too.
      have hxzero : x.magnitude = 0 := by
        simp only [key, hneg, if_true] at hxkey
        omega
      have hzero : (x / y).magnitude ≤ 0 := by
        rw [hdiv]
        refine nearest_le precision_pos hpos ?_
        simp [unitCount, hxzero, Format.unitsAt_zero]
      have hquot := natAbs_key (x / y)
      omega
  have hquot := natAbs_key (x / y)
  exact ⟨nonneg_iff.mpr ⟨hnan, hnonneg⟩, lt_iff.mpr ⟨hnan, by decide, by omega⟩⟩

/-- Below half the distance from the largest number to the next power of two, no finite
addend makes a sum overflow. -/
theorem isFinite_add (hx : 0 ≤ x) (hlt : x < ((2 ^ 103 : Nat) : F32)) (hy : 0 ≤ y)
    (hfin : y.isFinite = true) : (x + y).isFinite = true := by
  obtain ⟨-, hxkey⟩ := nonneg_iff.mp hx
  obtain ⟨-, hykey⟩ := nonneg_iff.mp hy
  obtain ⟨-, -, hkey⟩ := lt_iff.mp hlt
  have hbound : ((2 ^ 103 : Nat) : F32).key = 0x73000000 := by decide
  have hxmag := natAbs_key x
  have hymag := lt_infinity hfin
  have hinf : Format.single.infinity = 0x7f7fffff + 1 := by decide
  have hxfin : x.isFinite = true := decide_eq_true (by omega)
  have hxunits : x.unitCount < 2 ^ 252 := by
    have hmono : x.unitCount < Format.single.unitsAt 0x73000000 :=
      Format.unitsAt_strictMono _ (by omega)
    rwa [show Format.single.unitsAt 0x73000000 = 2 ^ 252 by decide] at hmono
  have hyunits : y.unitCount ≤ 2 ^ 277 - 2 ^ 253 := by
    have hmono : y.unitCount ≤ Format.single.unitsAt 0x7f7fffff := Format.unitsAt_mono (by omega)
    rwa [show Format.single.unitsAt 0x7f7fffff = 2 ^ 277 - 2 ^ 253 by decide +kernel] at hmono
  have hsum : x.units + y.units = (x.unitCount + y.unitCount : Nat) := by
    rw [units_of_key_nonneg hxkey, units_of_key_nonneg hykey, Int.natCast_add]
  have hnear : (nearest false (x.units + y.units).natAbs 1 : F32).magnitude ≤ 0x7f7fffff := by
    refine nearest_le_of_lt_middle precision_pos Nat.one_pos ?_
    have hmiddle : Format.single.unitsAt 0x7f7fffff + Format.single.unitsAt (0x7f7fffff + 1) =
        2 ^ 278 - 2 ^ 253 := by decide +kernel
    rw [hmiddle, hsum, Int.natAbs_natCast]
    omega
  have hadd : (x + y).key = _ := key_add hxfin hfin
  have hmag := natAbs_key (x + y)
  rw [hadd, natAbs_nearestKey precision_pos] at hmag
  exact decide_eq_true (by omega)

end Binary

/-! ## Clocks -/

namespace Clock

variable {step time : F32}

theorem spend_between (hs : 0 < step) (hfin : step.isFinite = true) (ht : 0 ≤ time) {n budget : Nat}
    (hn : n ≤ dueSteps step budget time) :
    0 ≤ spend step n time ∧ spend step n time ≤ time := by
  induction n generalizing time budget with
  | zero => exact ⟨ht, Binary.le_refl (Binary.nonneg_iff.mp ht).1⟩
  | succ n ih =>
    cases budget with
    | zero => simp [dueSteps] at hn
    | succ budget =>
      rw [dueSteps] at hn
      split at hn
      · next hle =>
        obtain ⟨hnonneg, hsub⟩ := Binary.sub_between hs hfin hle
        obtain ⟨hspent, hrest⟩ := ih hnonneg (Nat.le_of_succ_le_succ hn)
        exact ⟨hspent, Binary.le_trans hrest hsub⟩
      · omega

theorem trim_between (hs : 0 < step) (ht : 0 ≤ time) (htime : time.isFinite = true) :
    0 ≤ trim step time ∧ trim step time < step := by
  rw [trim]
  split
  · next hle => exact Binary.rem_between hs htime hle
  · next hlt =>
    exact ⟨ht, Binary.lt_of_not_le (Binary.nonneg_iff.mp ht).1 (Binary.pos_iff.mp hs).1 hlt⟩

/-- Time that is no number stays as it is, however much is taken from it. -/
theorem spend_of_not_isFinite (hfin : step.isFinite = true) (ht : time.isFinite = false) (n : Nat) :
    spend step n time = time := by
  induction n with
  | zero => rfl
  | succ n ih =>
    have hsub : time - step = time := Binary.sub_of_not_isFinite ht hfin
    rw [spend, hsub, ih]

theorem not_le_of_isNaN (ht : time.isNaN = true) : ¬ step ≤ time := fun hle => by
  have hnumber := (Binary.le_iff.mp hle).2.1
  simp [ht] at hnumber

/-- Whole steps leave no remainder of it. -/
theorem isNaN_trim (hs : 0 < step) (ht : time.isFinite = false) (h : time.isNaN = true ∨ 0 ≤ time) :
    (trim step time).isNaN = true := by
  rw [trim]
  cases hnan : time.isNaN with
  | true =>
    rwa [if_neg (not_le_of_isNaN hnan)]
  | false =>
    have hinf := Binary.isInfinite_of_not_isFinite ht hnan
    obtain ⟨hstep, hpos⟩ := Binary.pos_iff.mp hs
    have hle : step ≤ time := by
      obtain ⟨-, hkey⟩ := Binary.nonneg_iff.mp (h.resolve_left (by simp [hnan]))
      have hmag := Binary.natAbs_key time
      have hbound := Binary.natAbs_key_le hstep
      simp only [Binary.isInfinite, beq_iff_eq] at hinf
      exact Binary.le_iff.mpr ⟨hstep, hnan, by omega⟩
    rw [if_pos hle]
    show (Binary.rem time step).isNaN = true
    rw [Binary.rem]
    simp only [hnan, hstep, hinf, Bool.true_or, Bool.false_eq_true, if_false, if_true]
    decide

variable {leftover dt : F32}

/-- What is kept of a finite time is less than one step. -/
theorem advance_between (hs : 0 < step) (hfin : step.isFinite = true) (h : 0 ≤ leftover + dt)
    (ht : (leftover + dt).isFinite = true) :
    0 ≤ (advance step leftover dt).2 ∧ (advance step leftover dt).2 < step := by
  obtain ⟨hnonneg, hle⟩ := spend_between hs hfin h (Nat.le_refl (dueSteps step maxSteps _))
  exact trim_between hs hnonneg (Binary.isFinite_of_between ht hnonneg hle)

theorem isNaN_advance (hs : 0 < step) (hfin : step.isFinite = true)
    (ht : (leftover + dt).isFinite = false)
    (h : (leftover + dt).isNaN = true ∨ 0 ≤ leftover + dt) :
    (advance step leftover dt).2.isNaN = true := by
  rw [advance, spend_of_not_isFinite hfin ht]
  exact isNaN_trim hs ht h

/-- What a tick leaves over, also one that fails after some of its steps. -/
def Remains (step leftover dt x : F32) : Prop :=
  x = (advance step leftover dt).2 ∨
    ∃ n ≤ dueSteps step maxSteps (leftover + dt), x = spend step n (leftover + dt)

/-- No number, or one at or above zero. -/
def Proper (x : F32) : Prop := x.isNaN = true ∨ 0 ≤ x

theorem Proper.add (h : Proper leftover) (hdt : 0 ≤ dt) (hfin : dt.isFinite = true) :
    Proper (leftover + dt) := by
  rcases h with hnan | hnonneg
  · exact .inl (Binary.isNaN_add_left hnan)
  · exact .inr (Binary.add_nonneg hnonneg hdt hfin)

theorem Proper.remains {x : F32} (ht : Proper (leftover + dt)) (hs : 0 < step)
    (hfin : step.isFinite = true) (h : Remains step leftover dt x) : Proper x := by
  cases hfinite : (leftover + dt).isFinite with
  | false =>
    rcases h with rfl | ⟨n, -, rfl⟩
    · exact .inl (isNaN_advance hs hfin hfinite ht)
    · rwa [spend_of_not_isFinite hfin hfinite]
  | true =>
    have hnonneg := ht.resolve_left (by simp [Binary.isNaN_of_isFinite hfinite])
    rcases h with rfl | ⟨n, hn, rfl⟩
    · exact .inr (advance_between hs hfin hnonneg hfinite).1
    · exact .inr (spend_between hs hfin hnonneg hn).1

/-- Once it is no number, the time left over stays so. -/
theorem Remains.isNaN {x : F32} (h : Remains step leftover dt x) (hs : 0 < step)
    (hfin : step.isFinite = true) (hnan : leftover.isNaN = true) : x.isNaN = true := by
  have htime : (leftover + dt).isNaN = true := Binary.isNaN_add_left hnan
  have hfinite : (leftover + dt).isFinite = false := Binary.isFinite_of_isNaN htime
  rcases h with rfl | ⟨n, -, rfl⟩
  · exact isNaN_advance hs hfin hfinite (.inl htime)
  · rwa [spend_of_not_isFinite hfin hfinite]

/-- And no step is due. -/
theorem advance_of_isNaN (hnan : leftover.isNaN = true) : (advance step leftover dt).1 = 0 :=
  if_neg (not_le_of_isNaN (Binary.isNaN_add_left hnan))

end Clock

/-! ## Engines -/

namespace Engine

variable {e e' : Engine} {step dt : F32}

/-- The settings and the time left over. -/
def timing (e : Engine) : EngineConfig × F32 := (e.config, e.leftover)

/-- Wherever it ends, the action changes neither. -/
def KeepsTiming {β : Type} (action : EngineAction β) : Prop :=
  ∀ e : Engine, (e.after action).timing = e.timing

theorem timing_after_bind {β γ : Type} {a : EngineAction β} {f : β → EngineAction γ}
    (hf : ∀ x, KeepsTiming (f x)) (e : Engine) :
    (e.after (a >>= f)).timing = (e.after a).timing :=
  part_after_bind timing hf

theorem KeepsTiming.bind {β γ : Type} {a : EngineAction β} {f : β → EngineAction γ}
    (ha : KeepsTiming a) (hf : ∀ x, KeepsTiming (f x)) : KeepsTiming (a >>= f) :=
  fun e => (timing_after_bind hf e).trans (ha e)

theorem keepsTiming_get : KeepsTiming get := fun _ => rfl

theorem keepsTiming_onWorld {β : Type} (action : Action β) : KeepsTiming (onWorld action) := by
  intro e
  rw [after_onWorld]
  rfl

theorem keepsTiming_stepContact : KeepsTiming stepContact := by
  intro e
  unfold after stepContact
  rcases Contact.step e.contact e.contactId e.world with ⟨contact, _ | _⟩ <;> rfl

theorem keepsTiming_simulate (dt : F32) : KeepsTiming (simulate dt) :=
  keepsTiming_get.bind fun _ => (keepsTiming_onWorld _).bind fun _ =>
    keepsTiming_stepContact.bind fun _ => (keepsTiming_onWorld _).bind fun _ => keepsTiming_onWorld _

theorem keepsTiming_present : KeepsTiming present := by
  intro e
  rw [after, present_eq]
  cases e.shown <;> rfl

theorem keepsTiming_conclude (x : Nat × F32) : KeepsTiming (conclude x) :=
  keepsTiming_present.bind fun _ _ => rfl

/-- Only whole steps are taken off the time, though a failing one leaves the rest of them. -/
theorem timing_after_simulateSteps (e : Engine) (step : F32) (n : Nat) :
    ∃ k ≤ n, (e.after (simulateSteps step n)).timing = (e.config, Clock.spend step k e.leftover) := by
  induction n generalizing e with
  | zero => exact ⟨0, Nat.le_refl 0, rfl⟩
  | succ n ih =>
    have hfirst := keepsTiming_simulate step e
    rw [after] at hfirst
    rw [simulateSteps_succ, after_bind]
    cases hrun : simulate step e with
    | error _ e₁ =>
      rw [hrun] at hfirst
      exact ⟨0, Nat.zero_le _, hfirst⟩
    | ok _ e₁ =>
      rw [hrun] at hfirst
      obtain ⟨hconfig, hleftover⟩ := Prod.mk.inj hfirst
      obtain ⟨k, hk, hrest⟩ := ih { e₁ with leftover := e₁.leftover - step }
      refine ⟨k + 1, Nat.succ_le_succ hk, hrest.trans ?_⟩
      rw [Clock.spend, ← hleftover, ← hconfig]

theorem timing_after_simulateFixed (e : Engine) (step dt : F32) : ∃ x,
    Clock.Remains step e.leftover dt x ∧ (e.after (simulateFixed step dt)).timing = (e.config, x) := by
  let time := e.leftover + dt
  let n := Clock.dueSteps step Clock.maxSteps time
  obtain ⟨k, hk, hsteps⟩ := timing_after_simulateSteps { e with leftover := time } step n
  rw [after_congr (simulateFixed_eq e step dt), after_bind]
  rw [after] at hsteps
  cases hrun : simulateSteps step n { e with leftover := time } with
  | error _ e₁ =>
    rw [hrun] at hsteps
    exact ⟨_, .inr ⟨k, hk, rfl⟩, hsteps⟩
  | ok _ e₁ =>
    rw [hrun] at hsteps
    have hconfig : e₁.config = e.config := (Prod.mk.inj hsteps).1
    obtain ⟨e₂, -, rfl⟩ := simulateSteps_eq_ok_iff.mp hrun
    refine ⟨_, .inl rfl, ?_⟩
    rw [← hconfig]
    rfl

/-- What a deed does to the time left over. -/
theorem timing_enact (hfixed : e.config.physics.fixedTimestep = some step) (deed : Deed) :
    (e.enact deed).timing = e.timing ∨ ∃ dt x, deed = .tick dt ∧
      Clock.Remains step e.leftover (effectiveDelta dt) x ∧ (e.enact deed).timing = (e.config, x) := by
  cases deed with
  | change action => exact .inl (keepsTiming_onWorld action e)
  | attachRenderer capacity =>
    have hkeeps : KeepsTiming (Engine.attachRenderer capacity) :=
      (keepsTiming_onWorld _).bind fun _ _ => rfl
    exact .inl (hkeeps e)
  | addBehavior b =>
    obtain ⟨_, _, hafter⟩ := after_addBehavior e b
    exact .inl (by rw [enact, hafter]; rfl)
  | receiveFrames act => exact .inl rfl
  | drainEvents => exact .inl rfl
  | tick dt =>
    obtain ⟨x, hx, htiming⟩ := timing_after_simulateFixed e step (effectiveDelta dt)
    refine .inr ⟨dt, x, rfl, hx, ?_⟩
    rw [enact, after_congr (tick_of_fixed hfixed dt), timing_after_bind keepsTiming_conclude, htiming]

/-- What stays true of the time left over through every tick, holds after every run. -/
theorem enactAll_induction {P : F32 → Prop} (hfixed : e.config.physics.fixedTimestep = some step)
    (tick : ∀ {leftover dt x}, P leftover → Clock.Remains step leftover (effectiveDelta dt) x → P x)
    (h : P e.leftover) (run : List Deed) :
    (e.enactAll run).config = e.config ∧ P (e.enactAll run).leftover := by
  induction run generalizing e with
  | nil => exact ⟨rfl, h⟩
  | cons deed rest ih =>
    have hall : e.enactAll (deed :: rest) = (e.enact deed).enactAll rest := rfl
    rw [hall]
    rcases timing_enact hfixed deed with hkept | ⟨dt, x, -, hx, htiming⟩
    · obtain ⟨hconfig, hleftover⟩ := Prod.mk.inj hkept
      obtain ⟨hrest, hP⟩ := ih (by rw [hconfig]; exact hfixed) (by rw [hleftover]; exact h)
      exact ⟨hrest.trans hconfig, hP⟩
    · obtain ⟨hconfig, hleftover⟩ := Prod.mk.inj htiming
      obtain ⟨hrest, hP⟩ := ih (by rw [hconfig]; exact hfixed) (by rw [hleftover]; exact tick h hx)
      exact ⟨hrest.trans hconfig, hP⟩

theorem effectiveDelta_nonneg (dt : F32) : 0 ≤ effectiveDelta dt := by
  unfold effectiveDelta
  split
  · next h => exact h.2
  · decide

theorem isFinite_effectiveDelta (dt : F32) : (effectiveDelta dt).isFinite = true := by
  unfold effectiveDelta
  split
  · next h => exact h.1
  · decide

/-- A timestep that is accepted is positive and finite. -/
theorem step_of_new {config : EngineConfig} (h : Engine.new config = .ok e)
    (hfixed : config.physics.fixedTimestep = some step) : 0 < step ∧ step.isFinite = true := by
  cases hvalid : config.validate with
  | error _ =>
    rw [new_of_invalid hvalid] at h
    cases h
  | ok _ =>
    -- Only where none of the seven settings before it is at fault is the step looked at.
    have hfault := fault?_of_valid hvalid
    unfold EngineConfig.fault? at hfault
    iterate 7 replace hfault := (eq_none_of_ite hfault).2
    simp only [hfixed] at hfault
    have hstep := (eq_none_of_ite hfault).1
    rw [not_or, not_not, Bool.not_eq_true', Bool.not_eq_false] at hstep
    exact hstep

/-- What a tick that comes to its end has done to time. -/
theorem timing_of_tick (hfixed : e.config.physics.fixedTimestep = some step) {stats : TickStats}
    (h : tick dt e = .ok stats e') :
    stats.steps = (Clock.advance step e.leftover (effectiveDelta dt)).1 ∧
      stats.alpha = (Clock.advance step e.leftover (effectiveDelta dt)).2 / step ∧
      e'.leftover = (Clock.advance step e.leftover (effectiveDelta dt)).2 ∧ e'.config = e.config := by
  obtain ⟨world, contact, renderer, -, -, rfl, rfl⟩ := tick_eq_ok_iff.mp h
  rw [division_of_fixed hfixed]
  exact ⟨rfl, rfl, rfl, rfl⟩

/-- Without a time that is a number no tick runs a step, whatever is done. -/
theorem steps_of_isNaN (hs : 0 < step) (hfin : step.isFinite = true)
    (hfixed : e.config.physics.fixedTimestep = some step) (hnan : e.leftover.isNaN = true)
    {later : List Deed} {stats : TickStats} (h : tick dt (e.enactAll later) = .ok stats e') :
    stats.steps = 0 := by
  obtain ⟨hconfig, hlost⟩ := enactAll_induction (P := fun x => x.isNaN = true) hfixed
    (fun h hx => hx.isNaN hs hfin h) hnan later
  obtain ⟨hsteps, -⟩ := timing_of_tick (by rw [hconfig]; exact hfixed) h
  rw [hsteps, Clock.advance_of_isNaN hlost]

/-- Every tick of the run comes to its end. -/
def Punctual : Engine → List Deed → Prop
  | _, [] => True
  | e, deed :: rest =>
    (∀ dt, deed = .tick dt → ∃ stats e', Engine.tick dt e = .ok stats e') ∧ Punctual (e.enact deed) rest

/-- The time left over is at least zero and less than a step. -/
def Usable (step leftover : F32) : Prop := 0 ≤ leftover ∧ leftover < step

theorem Usable.isFinite_add {leftover : F32} (h : Usable step leftover)
    (hstep : step ≤ ((2 ^ 103 : Nat) : F32)) (dt : F32) :
    (leftover + effectiveDelta dt).isFinite = true :=
  Binary.isFinite_add h.1 (Binary.lt_of_lt_of_le h.2 hstep) (effectiveDelta_nonneg dt)
    (isFinite_effectiveDelta dt)

/-- With a step that is not too large, ticks that come to their end leave usable time. -/
theorem Usable.enactAll (hs : 0 < step) (hfin : step.isFinite = true)
    (hstep : step ≤ ((2 ^ 103 : Nat) : F32)) (hfixed : e.config.physics.fixedTimestep = some step)
    (h : Usable step e.leftover) {run : List Deed} (hrun : Punctual e run) :
    Usable step (e.enactAll run).leftover := by
  induction run generalizing e with
  | nil => exact h
  | cons deed rest ih =>
    obtain ⟨hends, hrest⟩ := hrun
    have hall : e.enactAll (deed :: rest) = (e.enact deed).enactAll rest := rfl
    rw [hall]
    rcases timing_enact hfixed deed with hkept | ⟨dt, x, rfl, -, -⟩
    · obtain ⟨hconfig, hleftover⟩ := Prod.mk.inj hkept
      exact ih (by rw [hconfig]; exact hfixed) (by rw [hleftover]; exact h) hrest
    · obtain ⟨stats, e', htick⟩ := hends dt rfl
      obtain ⟨-, -, hleftover, hconfig⟩ := timing_of_tick hfixed htick
      have henact : e.enact (.tick dt) = e' := by rw [enact, after, htick]
      rw [henact] at hrest ⊢
      refine ih (by rw [hconfig]; exact hfixed) ?_ hrest
      rw [hleftover]
      exact Clock.advance_between hs hfin (Binary.add_nonneg h.1 (effectiveDelta_nonneg dt)
        (isFinite_effectiveDelta dt)) (h.isFinite_add hstep dt)

/-- A larger step lets so much time be left over that the largest delta makes it infinite. -/
theorem exists_overflow {config : EngineConfig} (hnew : Engine.new config = .ok e)
    (hfixed : e.config.physics.fixedTimestep = some step) (hlt : ((2 ^ 103 : Nat) : F32) < step) :
    ∃ run dt, Punctual e run ∧ ((e.enactAll run).leftover + effectiveDelta dt).isFinite = false := by
  obtain ⟨stats, e', htick, -⟩ := (ready_new hnew).tick ((2 ^ 103 : Nat) : F32)
  have hnot : ¬ step ≤ ((2 ^ 103 : Nat) : F32) := fun hle => Binary.not_lt_of_le hle hlt
  refine ⟨[.tick ((2 ^ 103 : Nat) : F32)], .ofWord 0x7f7fffff, ⟨?_, trivial⟩, ?_⟩
  · rintro _ ⟨⟩
    exact ⟨stats, e', htick⟩
  · have henact : e.enactAll [.tick ((2 ^ 103 : Nat) : F32)] = e' := by
      show e.after (tick _) = e'
      rw [after, htick]
    obtain ⟨-, -, hleftover, -⟩ := timing_of_tick hfixed htick
    have hsum : (0 : F32) + effectiveDelta ((2 ^ 103 : Nat) : F32) = ((2 ^ 103 : Nat) : F32) := by
      decide
    have hadvance : (Clock.advance step 0 (effectiveDelta ((2 ^ 103 : Nat) : F32))).2 =
        ((2 ^ 103 : Nat) : F32) := by
      simp only [Clock.advance, hsum, Clock.maxSteps, Clock.dueSteps, hnot, if_false, Clock.spend,
        Clock.trim]
    rw [henact, hleftover, leftover_new hnew, hadvance]
    decide

/-- **The time left over is usable until it overflows, and never again.** Whatever is done to
an engine with a fixed timestep, a tick that comes to its end on a finite time leaves over
less than one step, and tells a share below one. On a time that has overflowed it leaves no
number behind, and from then on no tick runs a step. As long as all ticks come to their end,
that cannot happen exactly when the step is at most `2 ^ 103`. -/
theorem leftover_usable_or_lost {config : EngineConfig} {e₀ : Engine}
    (hnew : Engine.new config = .ok e₀) (hfixed : config.physics.fixedTimestep = some step) :
    (∀ (run : List Deed) (dt : F32) (stats : TickStats) (e' : Engine),
      tick dt (e₀.enactAll run) = .ok stats e' →
      (((e₀.enactAll run).leftover + effectiveDelta dt).isFinite = true →
        (0 ≤ e'.leftover ∧ e'.leftover < step) ∧ (0 ≤ stats.alpha ∧ stats.alpha < 1)) ∧
      (((e₀.enactAll run).leftover + effectiveDelta dt).isFinite = false →
        e'.leftover.isNaN = true ∧ stats.alpha.isNaN = true ∧
        ∀ (later : List Deed) (dt' : F32) (stats' : TickStats) (e'' : Engine),
          tick dt' (e'.enactAll later) = .ok stats' e'' → stats'.steps = 0)) ∧
    ((∀ run : List Deed, Punctual e₀ run → ∀ dt : F32,
        ((e₀.enactAll run).leftover + effectiveDelta dt).isFinite = true) ↔
      step ≤ ((2 ^ 103 : Nat) : F32)) := by
  obtain ⟨hs, hfin⟩ := step_of_new hnew hfixed
  have hconfig₀ : e₀.config = config := by
    obtain ⟨_, _, _, _, _, _, _, rfl⟩ := exists_of_new hnew
    rfl
  rw [← hconfig₀] at hfixed
  have hzero := leftover_new hnew
  refine ⟨fun run dt stats e' htick => ?_, fun hall => ?_, fun hle run hrun dt => ?_⟩
  · obtain ⟨hconfig, hproper⟩ := enactAll_induction (P := Clock.Proper) hfixed
      (fun h hx => (h.add (effectiveDelta_nonneg _) (isFinite_effectiveDelta _)).remains hs hfin hx)
      (.inr (by rw [hzero]; decide)) run
    have htime := hproper.add (effectiveDelta_nonneg dt) (isFinite_effectiveDelta dt)
    obtain ⟨-, halpha, hleftover, hconfig'⟩ := timing_of_tick (by rw [hconfig]; exact hfixed) htick
    rw [hleftover, halpha]
    refine ⟨fun hfinite => ?_, fun hinfinite => ?_⟩
    · have hnonneg := htime.resolve_left (by simp [Binary.isNaN_of_isFinite hfinite])
      have hbetween := Clock.advance_between hs hfin hnonneg hfinite
      exact ⟨hbetween, Binary.div_between hbetween.1 hbetween.2 hfin⟩
    · have hnan := Clock.isNaN_advance hs hfin hinfinite htime
      refine ⟨hnan, Binary.isNaN_div_left hnan, fun later dt' stats' e'' htick' => ?_⟩
      have hfixed' : e'.config.physics.fixedTimestep = some step := by
        rw [hconfig', hconfig]
        exact hfixed
      exact steps_of_isNaN hs hfin hfixed' (hleftover ▸ hnan) htick'
  · refine Decidable.byContradiction fun hnot => ?_
    obtain ⟨run, dt, hrun, hinfinite⟩ := exists_overflow hnew hfixed
      (Binary.lt_of_not_le (by decide) (Binary.pos_iff.mp hs).1 hnot)
    rw [hall run hrun dt] at hinfinite
    cases hinfinite
  · have husable : Usable step e₀.leftover := hzero ▸ ⟨by decide, hs⟩
    exact (husable.enactAll hs hfin hle hfixed hrun).isFinite_add hle dt

/-- The largest step that is safe, with nearly as much left over and the largest delta. -/
theorem leftover_usable_or_lost_largest :
    ∃ (config : EngineConfig) (e₀ : Engine) (stats : TickStats) (e' : Engine),
      Engine.new config = .ok e₀ ∧
      config.physics.fixedTimestep = some ((2 ^ 103 : Nat) : F32) ∧
      tick (.ofWord 0x7f7fffff) (e₀.enactAll [.tick (.ofWord 0x72ffffff)]) = .ok stats e' ∧
      stats.steps = 8 ∧ (0 ≤ e'.leftover ∧ e'.leftover < ((2 ^ 103 : Nat) : F32)) ∧
      (0 ≤ stats.alpha ∧ stats.alpha < 1) := by
  let config : EngineConfig := { EngineConfig.standard with
    physics := { PhysicsConfig.standard with fixedTimestep := some ((2 ^ 103 : Nat) : F32) } }
  let run : List Deed := [.tick (.ofWord 0x72ffffff)]
  let dt : F32 := .ofWord 0x7f7fffff
  have hfacts : (Engine.new config).toOption.any (fun e₀ =>
      ((e₀.enactAll run).outcome? (tick dt)).map (fun (stats, _) => stats.steps) = some 8 ∧
      ((e₀.enactAll run).leftover + effectiveDelta dt).isFinite = true) = true := by
    decide +kernel
  obtain ⟨e₀, hnew, hfacts⟩ := (Option.any_eq_true _ _).mp hfacts
  obtain ⟨hsteps, hfinite⟩ := of_decide_eq_true hfacts
  have hnew := eq_ok_of_toOption hnew
  obtain ⟨⟨stats, e'⟩, htick, hsteps⟩ := Option.map_eq_some_iff.mp hsteps
  have htick := outcome?_eq_some_iff.mp htick
  obtain ⟨hleftover, halpha⟩ := ((leftover_usable_or_lost hnew rfl).1 run dt stats e' htick).1 hfinite
  exact ⟨config, e₀, stats, e', hnew, rfl, htick, hsteps, hleftover, halpha⟩

/-- A step of `2 ^ 127`. Half a step is left over, and one and a half more make a time that
overflows: eight steps are run, and none ever after. -/
theorem overflow_ends_simulation :
    ∃ (config : EngineConfig) (e₀ e : Engine) (all : List TickStats),
      config.validate = .ok () ∧ Engine.new config = .ok e₀ ∧
      ticks [((2 ^ 126 : Nat) : F32), ((3 * 2 ^ 126 : Nat) : F32)] e₀ = .ok all e ∧
      all.map TickStats.steps = [0, 8] ∧ e.leftover.isNaN = true ∧
      (∃ stats ∈ all, stats.alpha.isNaN = true) ∧
      ∀ (later : List Deed) (dt : F32) (stats : TickStats) (e' : Engine),
        tick dt (e.enactAll later) = .ok stats e' → stats.steps = 0 := by
  let config : EngineConfig := { EngineConfig.standard with
    physics := { PhysicsConfig.standard with fixedTimestep := some ((2 ^ 127 : Nat) : F32) } }
  let dts : List F32 := [((2 ^ 126 : Nat) : F32), ((3 * 2 ^ 126 : Nat) : F32)]
  have hfacts : (Engine.new config).toOption.any (fun e₀ => (e₀.outcome? (ticks dts)).any
      fun (all, e) => all.map TickStats.steps = [0, 8] ∧
        (all.any fun stats => stats.alpha.isNaN) = true ∧ e.leftover.isNaN = true ∧
        e.config.physics.fixedTimestep = some ((2 ^ 127 : Nat) : F32)) = true := by
    decide +kernel
  obtain ⟨e₀, hnew, hfacts⟩ := (Option.any_eq_true _ _).mp hfacts
  obtain ⟨⟨all, e⟩, hticks, hfacts⟩ := (Option.any_eq_true _ _).mp hfacts
  obtain ⟨hsteps, halpha, hnan, hfixed⟩ := of_decide_eq_true hfacts
  exact ⟨config, e₀, e, all, by decide +kernel, eq_ok_of_toOption hnew,
    outcome?_eq_some_iff.mp hticks, hsteps, hnan, List.any_eq_true.mp halpha,
    fun _ _ _ _ h => steps_of_isNaN (by decide) (by decide) hfixed hnan h⟩

end Engine

end SceneEngine
