/-
Numbers read back.

A number is read as far as its digits go, so what is read depends on what stands after it:
`Stops` says that digits end there, `Ends` that a value does. Before such an end whole
numbers read back as they are (`readScalar_toString`) and floats as well, a NaN as a NaN of
its sign (`readScalar_renderFloat`). Neither can be taken for a date or a time, which has a
dash or a colon after its first digits (`readMoment_append`).
-/
import Mathlib.Data.List.Basic
import SceneEngine.Proofs.Binary.Shortest
import SceneEngine.Toml.Reader

namespace SceneEngine.Toml

/-! ## Digits -/

/-- What is to hold of listed characters is checked along the list. -/
theorem forall_mem_of_all {cs : List Char} {p : Char → Prop} [DecidablePred p]
    (h : cs.all (fun c => decide (p c)) = true) : ∀ c ∈ cs, p c := fun c hc =>
  of_decide_eq_true (List.all_eq_true.mp h c hc)

/-- What holds of the ten digits holds of every digit. -/
theorem forall_isDigit {p : Char → Prop} (h : ∀ k : Fin 10, p (Nat.digitChar k)) {c : Char}
    (hc : c.isDigit = true) : p c := by
  simp only [Char.isDigit, Bool.and_eq_true, decide_eq_true_eq] at hc
  have hlow : 48 ≤ c.toNat := UInt32.le_iff_toNat_le.mp hc.1
  have hhigh : c.toNat ≤ 57 := UInt32.le_iff_toNat_le.mp hc.2
  have hchar : c = Nat.digitChar (c.toNat - 48) := by
    refine Char.toNat_inj.mp ?_
    rw [Nat.toNat_digitChar_of_lt_ten (by omega)]
    omega
  rw [hchar]
  exact h ⟨c.toNat - 48, by omega⟩

theorem digit?_of_isDigit {c : Char} (hc : c.isDigit = true) :
    digit? 10 c = some (c.toNat - '0'.toNat) :=
  forall_isDigit (p := fun c => digit? 10 c = some (c.toNat - '0'.toNat)) (by decide) hc

theorem isDigit_of_isDigit {c : Char} (hc : c.isDigit = true) : isDigit 10 c = true := by
  rw [isDigit, digit?_of_isDigit hc]
  rfl

variable {ds rest : List Char}

theorem ofDigits_eq (hds : ∀ c ∈ ds, c.isDigit = true) : ofDigits 10 ds = Nat.ofDigitChars 10 ds 0 := by
  refine List.foldl_ext _ _ _ fun n c hc => ?_
  rw [digit?_of_isDigit (hds c hc)]
  rfl

/-- Digits end here. -/
def Stops (rest : List Char) : Prop := ∀ c ∈ rest.head?, isDigit 10 c = false ∧ c ≠ '_'

theorem readDigits_cons {c : Char} (h : rest.head? ≠ some '_') : readDigits 10 (c :: rest) =
    if !isDigit 10 c then none
    else
      match readDigits 10 rest with
      | some (ds, rest) => some (c :: ds, rest)
      | none => if rest.head?.any (isDigit 10) then none else some ([c], rest) := by
  cases rest with
  | nil => rfl
  | cons r rest =>
    conv_lhs => unfold readDigits
    split
    · next heq => cases heq
    · next heq =>
      obtain ⟨-, hrest⟩ := List.cons.inj heq
      exact absurd (congrArg List.head? hrest) h
    · next heq =>
      obtain ⟨rfl, rfl⟩ := List.cons.inj heq
      rfl

theorem readDigits_of_stops (h : Stops rest) : readDigits 10 rest = none := by
  cases rest with
  | nil => rfl
  | cons r rest =>
    obtain ⟨hdigit, -⟩ := h r rfl
    unfold readDigits
    split
    · rfl
    · next heq =>
      obtain ⟨rfl, rfl⟩ := List.cons.inj heq
      simp [hdigit]
    · next heq =>
      obtain ⟨rfl, rfl⟩ := List.cons.inj heq
      simp [hdigit]

theorem readDigits_append (hne : ds ≠ []) (hds : ∀ c ∈ ds, c.isDigit = true) (hrest : Stops rest) :
    readDigits 10 (ds ++ rest) = some (ds, rest) := by
  induction ds with
  | nil => exact absurd rfl hne
  | cons c ds ih =>
    have hc := isDigit_of_isDigit (hds c List.mem_cons_self)
    cases ds with
    | nil =>
      have hnext : rest.head? ≠ some '_' := fun h => (hrest _ h).2 rfl
      have hany : rest.head?.any (isDigit 10) = false := by
        cases rest with
        | nil => rfl
        | cons r rest => exact (hrest r rfl).1
      rw [List.singleton_append, readDigits_cons hnext, readDigits_of_stops hrest]
      simp [hc, hany]
    | cons d ds =>
      have hd := hds d (by simp)
      have hnext : (d :: ds ++ rest).head? ≠ some '_' := by
        rintro h
        obtain rfl := Option.some.inj h
        exact absurd hd (by decide)
      rw [List.cons_append, readDigits_cons hnext,
        ih (List.cons_ne_nil _ _) (fun c hc => hds c (List.mem_cons_of_mem _ hc))]
      simp [hc]

/-! ## Whole numbers -/

/-- Digits, without a zero in front of another one. -/
structure IsWhole (ds : List Char) : Prop where
  nonempty : ds ≠ []
  digits : ∀ c ∈ ds, c.isDigit = true
  leading : ds.head? = some '0' → ds = ['0']

theorem readWhole_append (h : IsWhole ds) (hrest : Stops rest) :
    readWhole (ds ++ rest) = some (ds, rest) := by
  obtain ⟨c, ds, rfl⟩ := List.exists_cons_of_ne_nil h.nonempty
  by_cases hc : c = '0'
  · subst hc
    rw [h.leading rfl]
    rfl
  · have hread := readDigits_append h.nonempty h.digits hrest
    rw [List.cons_append] at hread ⊢
    rw [readWhole, hread]
    simpa using hc

theorem isDigit_of_mem_toDigits {n : Nat} {c : Char} (hc : c ∈ Nat.toDigits 10 n) : c.isDigit = true :=
  Nat.isDigit_of_mem_toDigits (by decide) (by decide) hc

theorem ofDigits_toDigits (n : Nat) : ofDigits 10 (Nat.toDigits 10 n) = n := by
  rw [ofDigits_eq fun _ => isDigit_of_mem_toDigits, Nat.ofDigitChars_ten_toDigits]

theorem isWhole_toDigits (n : Nat) : IsWhole (Nat.toDigits 10 n) where
  nonempty := Nat.toDigits_ne_nil
  digits := fun _ => isDigit_of_mem_toDigits
  leading := by
    intro hzero
    induction n using Nat.strongRecOn with
    | ind n ih =>
      rcases Nat.lt_or_ge n 10 with hlt | hge
      · rw [Nat.toDigits_of_lt_base hlt] at hzero ⊢
        exact congrArg (fun c => [c]) (Option.some.inj hzero)
      · have hsplit := Nat.toDigits_of_base_le (b := 10) (by decide) hge
        rw [hsplit, List.head?_append_of_ne_nil _ Nat.toDigits_ne_nil] at hzero
        have hrest := ih (n / 10) (by omega) hzero
        have hvalue := ofDigits_toDigits (n / 10)
        rw [hrest, show ofDigits 10 ['0'] = 0 by decide] at hvalue
        omega

/-! ## What may stand after a number -/

/-- A value ends here: at the end of its line or of its place in an array. -/
def Ends (rest : List Char) : Prop := rest.head? ∈ [some '\n', some ',', some ']']

/-- A whole number ends here, be it a value or the front of one. -/
def EndsWhole (rest : List Char) : Prop := rest.head? ∈ [some '.', some '\n', some ',', some ']']

theorem ends_cons {c : Char} (hc : c ∈ ['\n', ',', ']']) : Ends (c :: rest) := by simpa [Ends] using hc

theorem Ends.exists_cons (h : Ends rest) : ∃ c left, rest = c :: left ∧ c ∈ ['\n', ',', ']'] := by
  cases rest with
  | nil => simp [Ends] at h
  | cons c left => exact ⟨c, left, rfl, by simpa [Ends] using h⟩

theorem Ends.endsWhole (h : Ends rest) : EndsWhole rest := List.mem_cons_of_mem _ h

theorem EndsWhole.stops (h : EndsWhole rest) : Stops rest := by
  have hall : ∀ c ∈ ['.', '\n', ',', ']'], isDigit 10 c = false ∧ c ≠ '_' :=
    forall_mem_of_all (by decide)
  intro c hc
  rw [EndsWhole, Option.mem_def.mp hc] at h
  exact hall c (by simpa using h)

theorem EndsWhole.ne {c : Char} (h : EndsWhole rest) (hc : c ∉ ['.', '\n', ',', ']']) :
    rest.head? ≠ some c := by
  intro heq
  rw [EndsWhole, heq] at h
  simp at h hc
  tauto

/-! ## No date, no time -/

theorem readPlaces_append {count n : Nat} {left : List Char} (hrest : Stops rest)
    (hcount : 0 < count) (h : readPlaces count (ds ++ rest) = some (n, left)) :
    ds ≠ [] ∧ left = ds.drop count ++ rest := by
  unfold readPlaces at h
  dsimp only at h
  split at h
  · next htaken =>
    obtain ⟨hlength, hall⟩ := htaken
    obtain ⟨-, rfl⟩ := Prod.mk.inj (Option.some.inj h)
    have hle : count ≤ ds.length := by
      refine Nat.not_lt.mp fun hlt => ?_
      obtain ⟨c, tail, rfl⟩ : ∃ c tail, rest = c :: tail := by
        refine List.exists_cons_of_ne_nil fun hnil => ?_
        subst hnil
        rw [List.append_nil, List.length_take] at hlength
        omega
      have hmem : c ∈ (ds ++ c :: tail).take count := by
        obtain ⟨k, hk⟩ : ∃ k, count - ds.length = k + 1 := ⟨count - ds.length - 1, by omega⟩
        rw [List.take_append, hk]
        simp
      have hdigit := List.all_eq_true.mp hall c hmem
      rw [(hrest c rfl).1] at hdigit
      cases hdigit
    refine ⟨List.ne_nil_of_length_pos (by omega), ?_⟩
    rw [List.drop_append_of_le_length hle]
  · cases h

theorem expect_append {c : Char} (hds : ∀ c ∈ ds, c.isDigit = true) (hc : c.isDigit = false)
    (hrest : rest.head? ≠ some c) : expect c (ds ++ rest) = none := by
  cases ds with
  | nil =>
    cases rest with
    | nil => rfl
    | cons r rest => exact if_neg fun h => hrest (congrArg some h)
  | cons d ds =>
    refine if_neg fun h => ?_
    have hd := hds d List.mem_cons_self
    rw [h, hc] at hd
    cases hd

/-- A date has a dash after its first digits, and a time has a colon. -/
theorem readMoment_append (hds : ∀ c ∈ ds, c.isDigit = true) (hrest : Stops rest)
    (h : ds ≠ [] → rest.head? ≠ some '-' ∧ rest.head? ≠ some ':') : readMoment (ds ++ rest) = none := by
  have hdrop : ∀ k, ∀ c ∈ ds.drop k, c.isDigit = true := fun k c hc => hds c (List.mem_of_mem_drop hc)
  have hdate : skipDate (ds ++ rest) = none := by
    cases hread : readPlaces 4 (ds ++ rest) with
    | none => simp [skipDate, hread]
    | some read =>
      obtain ⟨hne, hleft⟩ := readPlaces_append hrest (by decide) hread
      simp [skipDate, hread, hleft, expect_append (hdrop 4) (by decide) (h hne).1]
  have htime : skipTime (ds ++ rest) = none := by
    cases hread : readPlaces 2 (ds ++ rest) with
    | none => simp [skipTime, hread]
    | some read =>
      obtain ⟨hne, hleft⟩ := readPlaces_append hrest (by decide) hread
      simp [skipTime, hread, hleft, expect_append (hdrop 2) (by decide) (h hne).2]
  simp [readMoment, hdate, htime]

theorem readMoment_of_stops {cs : List Char} (h : Stops cs) : readMoment cs = none := by
  have hread : readMoment ([] ++ cs) = none := readMoment_append nofun h fun hne => absurd rfl hne
  exact hread

/-! ## Reading a number -/

/-- The sign in front of a number. -/
def sign (negative : Bool) : List Char := if negative then ['-'] else []

theorem readNumber_of_sign {cs : List Char} {c : Char} {tail : List Char} {negative : Bool}
    (hbase : ∀ b ∈ ['x', 'o', 'b'], ∀ left, cs ≠ '0' :: b :: left)
    (hsign : readSign cs = (negative, c :: tail))
    (hc : c ≠ 'i' ∧ c ≠ 'n') : readNumber cs = readDecimal negative (c :: tail) := by
  unfold readNumber
  split
  · exact absurd rfl (hbase 'x' (by decide) _)
  · exact absurd rfl (hbase 'o' (by decide) _)
  · exact absurd rfl (hbase 'b' (by decide) _)
  · rw [hsign]
    dsimp only
    split
    · next heq => exact absurd (List.cons.inj heq).1 hc.1
    · next heq => exact absurd (List.cons.inj heq).1 hc.2
    · rfl

theorem readNumber_append (h : IsWhole ds) (hrest : EndsWhole rest) (negative : Bool) :
    readNumber (sign negative ++ (ds ++ rest)) = readDecimal negative (ds ++ rest) := by
  obtain ⟨c, tail, htail⟩ := List.exists_cons_of_ne_nil h.nonempty
  have hc : c.isDigit = true := h.digits c (htail ▸ List.mem_cons_self)
  have hfront : c ≠ '-' ∧ c ≠ '+' ∧ c ≠ 'i' ∧ c ≠ 'n' :=
    forall_isDigit (p := fun c => c ≠ '-' ∧ c ≠ '+' ∧ c ≠ 'i' ∧ c ≠ 'n') (by decide) hc
  have hcons : ds ++ rest = c :: (tail ++ rest) := by rw [htail, List.cons_append]
  cases negative with
  | true =>
    rw [hcons]
    refine readNumber_of_sign ?_ rfl hfront.2.2
    intro b _ left heq
    exact absurd (List.cons.inj heq).1 (by decide)
  | false =>
    have hsign : readSign (ds ++ rest) = (false, c :: (tail ++ rest)) := by
      rw [hcons, readSign]
      · exact fun _ heq => hfront.1 (List.cons.inj heq).1
      · exact fun _ heq => hfront.2.1 (List.cons.inj heq).1
    have hbase : ∀ b ∈ ['x', 'o', 'b'], ∀ left, ds ++ rest ≠ '0' :: b :: left := by
      intro b hb left heq
      have hother : ∀ b ∈ ['x', 'o', 'b'], b ∉ ['.', '\n', ',', ']'] := forall_mem_of_all (by decide)
      rw [hcons] at heq
      obtain ⟨rfl, hsecond⟩ := List.cons.inj heq
      have hsingle := h.leading (by rw [htail]; rfl)
      rw [htail] at hsingle
      obtain ⟨-, rfl⟩ := List.cons.inj hsingle
      exact hrest.ne (hother b hb) (by rw [← List.nil_append rest, hsecond]; rfl)
    exact (readNumber_of_sign hbase hsign hfront.2.2).trans (by rw [hcons])

theorem readDecimal_whole (h : IsWhole ds) (hrest : Ends rest) (negative : Bool) :
    readDecimal negative (ds ++ rest) = (integer? negative (ofDigits 10 ds)).map fun v => (v, rest) := by
  have hnone : rest.head?.any (fun c => c == '.' || c == 'e' || c == 'E') = false := by
    have hall : ∀ c ∈ ['\n', ',', ']'], (c == '.' || c == 'e' || c == 'E') = false :=
      forall_mem_of_all (by decide)
    obtain ⟨c, left, rfl, hc⟩ := hrest.exists_cons
    exact hall c hc
  rw [readDecimal, readWhole_append h hrest.endsWhole.stops]
  simp only [Option.bind_eq_bind, Option.bind_some, hnone]
  cases integer? negative (ofDigits 10 ds) <;> rfl

theorem readDecimal_fraction {fraction : List Char} (h : IsWhole ds) (hne : fraction ≠ [])
    (hfraction : ∀ c ∈ fraction, c.isDigit = true) (hrest : Ends rest) (negative : Bool) :
    readDecimal negative (ds ++ '.' :: (fraction ++ rest)) =
      (float? negative ds fraction 0).map fun v => (v, rest) := by
  have hpoint : EndsWhole ('.' :: (fraction ++ rest)) := List.mem_cons_self
  have hexponent : readExponent rest = some (0, rest) := by
    have hall : ∀ c ∈ ['\n', ',', ']'], ¬ (c = 'e' ∨ c = 'E') := forall_mem_of_all (by decide)
    obtain ⟨c, left, rfl, hc⟩ := hrest.exists_cons
    exact if_neg (hall c hc)
  rw [readDecimal, readWhole_append h hpoint.stops]
  simp only [Option.bind_eq_bind, Option.bind_some, List.head?_cons, Option.any_some, beq_self_eq_true,
    Bool.true_or, readFraction, readDigits_append hne hfraction hrest.endsWhole.stops, hexponent]
  cases float? negative ds fraction 0 <;> rfl

/-- What begins with neither a quote nor a letter of a boolean is a date, a time or a number. -/
theorem readScalar_of_head {cs : List Char} (h : ∀ c ∈ cs.head?, c ∉ ['"', '\'', 't', 'f']) :
    readScalar cs = (readMoment cs).orElse fun _ => readNumber cs := by
  unfold readScalar
  split
  · exact absurd (h _ rfl) (by decide)
  · exact absurd (h _ rfl) (by decide)
  · exact absurd (h _ rfl) (by decide)
  · exact absurd (h _ rfl) (by decide)
  · rfl

theorem readScalar_append (h : IsWhole ds) (hrest : EndsWhole rest) (negative : Bool) :
    readScalar (sign negative ++ (ds ++ rest)) = readDecimal negative (ds ++ rest) := by
  obtain ⟨c, tail, htail⟩ := List.exists_cons_of_ne_nil h.nonempty
  have hc : c ∉ ['"', '\'', 't', 'f'] :=
    forall_isDigit (p := fun c => c ∉ ['"', '\'', 't', 'f']) (by decide)
      (h.digits c (htail ▸ List.mem_cons_self))
  have hmoment : readMoment (sign negative ++ (ds ++ rest)) = none := by
    cases negative with
    | false =>
      show readMoment (ds ++ rest) = none
      exact readMoment_append h.digits hrest.stops fun _ => ⟨hrest.ne (by decide), hrest.ne (by decide)⟩
    | true =>
      have hstop : Stops ('-' :: (ds ++ rest)) := by
        intro c hc
        obtain rfl := Option.some.inj hc
        decide
      exact readMoment_of_stops hstop
  rw [readScalar_of_head, hmoment, ← readNumber_append h hrest]
  · rfl
  · intro front hfront
    cases negative with
    | false =>
      rw [htail] at hfront
      obtain rfl := Option.some.inj hfront
      exact hc
    | true =>
      obtain rfl := Option.some.inj hfront
      decide

theorem toList_toString (n : Nat) : (toString n).toList = Nat.toDigits 10 n := by simp

theorem toList_toString_int (n : Int) :
    (toString n).toList = sign (decide (n < 0)) ++ Nat.toDigits 10 n.natAbs := by
  cases n with
  | ofNat n => exact toList_toString n
  | negSucc n =>
    show ("-" ++ toString (n + 1)).toList = _
    simp [sign]

/-- A whole number reads back. -/
theorem readScalar_toString {n : Int} (hleast : -(maxInteger + 1) ≤ n) (hmost : n ≤ maxInteger)
    (hrest : Ends rest) : readScalar ((toString n).toList ++ rest) = some (.integer n, rest) := by
  have hinteger : integer? (decide (n < 0)) n.natAbs = some (.integer n) := by
    unfold integer?
    by_cases hn : n < 0
    · rw [decide_eq_true hn, if_pos rfl, if_pos (by omega)]
      congr 2
      omega
    · rw [decide_eq_false hn, if_neg Bool.false_ne_true, if_pos (by omega)]
      congr 2
      omega
  have hwhole := isWhole_toDigits n.natAbs
  rw [toList_toString_int, List.append_assoc, readScalar_append hwhole hrest.endsWhole,
    readDecimal_whole hwhole hrest, ofDigits_toDigits, hinteger, Option.map_some]

/-! ## Floats -/

/-- A decimal written with digits on both sides of a point. -/
structure Pointed (d : Decimal) (whole fraction : List Char) : Prop where
  isWhole : IsWhole whole
  nonempty : fraction ≠ []
  digits : ∀ c ∈ fraction, c.isDigit = true
  length : (fraction.length : Int) ≤ max 1 (-d.exponent)
  places : 0 ≤ d.exponent + fraction.length
  value : ofDigits 10 (whole ++ fraction) = d.digits * 10 ^ (d.exponent + fraction.length).toNat

theorem isDigit_of_mem_replicate {k : Nat} {c : Char} (h : c ∈ List.replicate k '0') :
    c.isDigit = true := by
  rw [List.eq_of_mem_replicate h]
  decide

/-- Zeros in front of a number do not count, and each one after it counts for a ten. -/
theorem ofDigits_padded (k n l : Nat) :
    ofDigits 10 (List.replicate k '0' ++ (Nat.toDigits 10 n ++ List.replicate l '0')) = n * 10 ^ l := by
  rw [ofDigits_eq, Nat.ofDigitChars_append, Nat.ofDigitChars_append, Nat.ofDigitChars_replicate_zero,
    Nat.ofDigitChars_replicate_zero, Nat.mul_zero, Nat.ofDigitChars_ten_toDigits, Nat.mul_comm]
  intro c hc
  simp only [List.mem_append] at hc
  rcases hc with hc | hc | hc
  · exact isDigit_of_mem_replicate hc
  · exact isDigit_of_mem_toDigits hc
  · exact isDigit_of_mem_replicate hc

/-- A whole number gets one place. -/
theorem pointed_ofNat {n zeros : Nat} (h : n = 0 → zeros = 0) :
    Pointed ⟨n, .ofNat zeros⟩ (Nat.toDigits 10 n ++ List.replicate zeros '0') ['0'] where
  isWhole := by
    refine ⟨List.append_ne_nil_of_left_ne_nil Nat.toDigits_ne_nil _, fun c hc => ?_, fun hzero => ?_⟩
    · exact (List.mem_append.mp hc).elim isDigit_of_mem_toDigits isDigit_of_mem_replicate
    · rw [List.head?_append_of_ne_nil _ Nat.toDigits_ne_nil] at hzero
      have hdigits := (isWhole_toDigits n).leading hzero
      have hvalue := ofDigits_toDigits n
      rw [hdigits, show ofDigits 10 ['0'] = 0 by decide] at hvalue
      rw [hdigits, h hvalue.symm]
      rfl
  nonempty := List.cons_ne_nil _ _
  digits := by
    intro c hc
    rw [List.mem_singleton.mp hc]
    decide
  length := by simp
  places := Int.add_nonneg (Int.natCast_nonneg zeros) (Int.natCast_nonneg 1)
  value := by
    have hzeros : List.replicate zeros '0' ++ ['0'] = List.replicate (zeros + 1) '0' :=
      List.replicate_succ'.symm
    have hvalue := ofDigits_padded 0 n (zeros + 1)
    rw [List.replicate_zero, List.nil_append] at hvalue
    rw [List.append_assoc, hzeros, hvalue]
    rfl

/-- A fraction gets as many places as it takes, and a zero in front when it is below one. -/
theorem pointed_negSucc (n k : Nat) : ∃ whole fraction, Pointed ⟨n, .negSucc k⟩ whole fraction ∧
    (Decimal.positional ⟨n, .negSucc k⟩).toList = whole ++ '.' :: fraction := by
  let text := Nat.toDigits 10 n
  let padded := List.replicate (k + 1 + 1 - text.length) '0' ++ text
  have hpadded : ∀ c ∈ padded, c.isDigit = true := fun c hc =>
    (List.mem_append.mp hc).elim isDigit_of_mem_replicate isDigit_of_mem_toDigits
  have hlength : padded.length = max (k + 2) text.length := by
    simp only [padded, List.length_append, List.length_replicate]
    omega
  have hfraction : (padded.drop (padded.length - (k + 1))).length = k + 1 := by
    rw [List.length_drop]
    omega
  refine ⟨padded.take (padded.length - (k + 1)), padded.drop (padded.length - (k + 1)), ?_, ?_⟩
  · refine ⟨⟨?_, fun c hc => hpadded c (List.mem_of_mem_take hc), fun hzero => ?_⟩, ?_,
      fun c hc => hpadded c (List.mem_of_mem_drop hc), ?_, ?_, ?_⟩
    · refine List.ne_nil_of_length_pos ?_
      rw [List.length_take]
      omega
    · rcases Nat.lt_or_ge (k + 1) text.length with hlong | hshort
      · -- The text needs no zeros in front, and begins with one only when it is one digit.
        have hsame : padded = text := by
          simp only [padded, show k + 1 + 1 - text.length = 0 by omega, List.replicate_zero,
            List.nil_append]
        rw [hsame, List.head?_take, if_neg (by omega)] at hzero
        have hsingle : text.length = 1 := congrArg List.length ((isWhole_toDigits n).leading hzero)
        omega
      · have hone : padded.length - (k + 1) = 1 := by omega
        obtain ⟨c, tail, hc⟩ := List.exists_cons_of_ne_nil (l := padded)
          (List.ne_nil_of_length_pos (by omega))
        rw [hone, hc] at hzero ⊢
        exact congrArg (fun c => [c]) (Option.some.inj hzero)
    · refine List.ne_nil_of_length_pos ?_
      omega
    · rw [hfraction, Int.negSucc_eq]
      dsimp only
      omega
    · rw [hfraction, Int.negSucc_eq]
      dsimp only
      omega
    · have hvalue := ofDigits_padded (k + 1 + 1 - text.length) n 0
      rw [List.replicate_zero, List.append_nil] at hvalue
      have hexponent : (Int.negSucc k + (k + 1 : Nat)).toNat = 0 := by
        rw [Int.negSucc_eq]
        omega
      rw [List.take_append_drop, hfraction, hexponent]
      exact hvalue
  · simp only [Decimal.positional, toList_toString, String.toList_ofList]
    rfl

theorem toList_toText {x : F64} (hx : x.isFinite = true) :
    x.toText.toList = sign x.negative ++ x.toDecimal.positional.toList := by
  simp only [Binary.toText, Binary.isNaN_of_isFinite hx, Binary.isInfinite_of_isFinite hx,
    Bool.false_eq_true, if_false, sign]
  cases x.negative <;> simp

theorem renderFloat_of_isFinite {x : F64} (hx : x.isFinite = true) :
    renderFloat x = if '.' ∈ x.toText.toList then x.toText else x.toText ++ ".0" := by
  simp only [renderFloat, hx, Binary.isNaN_of_isFinite hx, Bool.false_eq_true, if_false, true_and]
  by_cases h : '.' ∈ x.toText.toList <;> simp [h]

theorem point_notMem {cs : List Char} (h : ∀ c ∈ cs, c.isDigit = true) : '.' ∉ cs := fun hmem =>
  absurd (h '.' hmem) (by decide)

/-- A finite float is shown as its shortest decimal. -/
theorem exists_pointed {x : F64} (hx : x.isFinite = true) : ∃ whole fraction,
    Pointed x.toDecimal whole fraction ∧
      (renderFloat x).toList = sign x.negative ++ (whole ++ '.' :: fraction) := by
  have htext := toList_toText hx
  have hzero := x.exponent_toDecimal_eq_zero
  rw [renderFloat_of_isFinite hx]
  cases hdecimal : x.toDecimal with
  | mk digits exponent =>
    rw [hdecimal] at htext hzero
    cases exponent with
    | ofNat zeros =>
      have hpointed := pointed_ofNat fun h => Int.ofNat.inj (hzero h)
      have hshown : (Decimal.positional ⟨digits, .ofNat zeros⟩).toList =
          Nat.toDigits 10 digits ++ List.replicate zeros '0' := by
        simp only [Decimal.positional, toList_toString, String.toList_ofList]
      have hnone : '.' ∉ x.toText.toList := by
        rw [htext, hshown, List.mem_append]
        refine fun h => h.elim ?_ (point_notMem hpointed.isWhole.digits)
        cases x.negative <;> decide
      refine ⟨_, _, hpointed, ?_⟩
      rw [if_neg hnone, String.toList_append, htext, hshown, List.append_assoc]
      rfl
    | negSucc k =>
      obtain ⟨whole, fraction, hpointed, hshown⟩ := pointed_negSucc digits k
      refine ⟨whole, fraction, hpointed, ?_⟩
      rw [hshown] at htext
      rw [if_pos (by rw [htext]; simp), htext]

/-- A number without the payload of a NaN. -/
def quiet {f : Format} (x : Binary f) : Binary f := if x.isNaN then .signedNaN x.negative else x

theorem float?_pointed {x : F64} {whole fraction : List Char} (hx : x.isFinite = true)
    (h : Pointed x.toDecimal whole fraction) : float? x.negative whole fraction 0 = some (.float x) := by
  have hlength : fraction.length ≤ Format.double.unitBits + 1 := by
    have hmost := h.length
    have hleast := x.le_exponent_toDecimal
    omega
  have hread := Binary.ofDecimal_toDecimal (by decide) (by decide) hx hlength h.places
  rw [← h.value] at hread
  simp [float?, hread, Binary.isInfinite_of_isFinite hx]

/-- What begins with no digit, no quote and no letter of a boolean may only be a number. -/
theorem readScalar_eq_readNumber {c : Char}
    (hc : isDigit 10 c = false ∧ c ≠ '_' ∧ c ∉ ['"', '\'', 't', 'f']) (left : List Char) :
    readScalar (c :: left) = readNumber (c :: left) := by
  have hstops : Stops (c :: left) := fun d hd => Option.some.inj hd ▸ ⟨hc.1, hc.2.1⟩
  have hhead : ∀ d ∈ (c :: left).head?, d ∉ ['"', '\'', 't', 'f'] :=
    fun d hd => Option.some.inj hd ▸ hc.2.2
  rw [readScalar_of_head hhead, readMoment_of_stops hstops]
  rfl

theorem readScalar_infinity (negative : Bool) :
    readScalar (sign negative ++ 'i' :: 'n' :: 'f' :: rest) =
      some (.float (.signedInfinity negative), rest) := by
  cases negative with
  | true => exact readScalar_eq_readNumber (by decide) _
  | false => exact readScalar_eq_readNumber (by decide) _

theorem readScalar_nan (negative : Bool) :
    readScalar (sign negative ++ 'n' :: 'a' :: 'n' :: rest) =
      some (.float (.signedNaN negative), rest) := by
  cases negative with
  | true => exact readScalar_eq_readNumber (by decide) _
  | false => exact readScalar_eq_readNumber (by decide) _

theorem toList_renderFloat_of_isNaN {x : F64} (h : x.isNaN = true) :
    (renderFloat x).toList = sign x.negative ++ ['n', 'a', 'n'] := by
  simp only [renderFloat, h, Binary.isFinite_of_isNaN h, Bool.false_eq_true, if_true, if_false,
    false_and]
  cases x.negative <;> rfl

theorem toList_renderFloat_of_isInfinite {x : F64} (h : x.isInfinite = true) :
    (renderFloat x).toList = sign x.negative ++ ['i', 'n', 'f'] := by
  have hfin : x.isFinite = false := by
    rw [Binary.isFinite, beq_iff_eq.mp h]
    exact decide_eq_false (Nat.lt_irrefl _)
  simp only [renderFloat, Binary.toText, Binary.isNaN_of_isInfinite h, h, hfin, Bool.false_eq_true,
    if_true, if_false, false_and]
  cases x.negative <;> rfl

/-- A float reads back. -/
theorem readScalar_renderFloat (x : F64) (hrest : Ends rest) :
    readScalar ((renderFloat x).toList ++ rest) = some (.float (quiet x), rest) := by
  cases hfin : x.isFinite with
  | true =>
    obtain ⟨whole, fraction, hpointed, hshown⟩ := exists_pointed hfin
    have hpoint : EndsWhole ('.' :: (fraction ++ rest)) := List.mem_cons_self
    rw [hshown, List.append_assoc, List.append_assoc, List.cons_append,
      readScalar_append hpointed.isWhole hpoint,
      readDecimal_fraction hpointed.isWhole hpointed.nonempty hpointed.digits hrest,
      float?_pointed hfin hpointed, quiet, Binary.isNaN_of_isFinite hfin]
    rfl
  | false =>
    cases hnan : x.isNaN with
    | true =>
      rw [toList_renderFloat_of_isNaN hnan, List.append_assoc, quiet, if_pos hnan]
      exact readScalar_nan x.negative
    | false =>
      have hinf := Binary.isInfinite_of_not_isFinite hfin hnan
      have hsame : x = .signedInfinity x.negative := Binary.ext rfl (beq_iff_eq.mp hinf)
      rw [toList_renderFloat_of_isInfinite hinf, List.append_assoc, quiet, if_neg (by simp [hnan])]
      exact (readScalar_infinity x.negative).trans (by rw [← hsame]; rfl)

end SceneEngine.Toml
