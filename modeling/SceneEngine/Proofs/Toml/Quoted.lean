/-
Quoted texts read back.

`Body` says what may stand between quotes for a text: quotes as they are, in a block and no
more than two in a row, and for every other character something that is read as just that
character whatever follows it (`Spells`). Whatever stands there in this way reads back, on one
line (`read_line`) and in a block (`read_block`), where quotes at the very end run into the
closing ones. Every text is written in this way (`body_choose`), so every text reads back:
`readScalar_render`.
-/
import SceneEngine.Proofs.Toml.Number

namespace SceneEngine.Toml.Quoting

variable {q : Quoting} {c : Char} {s text body rest : List Char} {run : Nat}

/-! ## One character -/

/-- What is read as one character wherever it stands. It begins with no quote, and not in the
way a line ends unless the character is a line end. -/
structure Spells (q : Quoting) (s : List Char) (c : Char) : Prop where
  starts : ∃ x left, s = x :: left ∧ x ≠ q.quote ∧ x ≠ '\r' ∧ (x = '\n' → c = '\n')
  reads : ∀ rest, q.read .plain (s ++ rest) =
    (q.read .plain rest).map fun (text, rest) => (c :: text, rest)

theorem spells_plain (hquote : c ≠ q.quote) (hescape : ¬ (q.escapes = true ∧ c = '\\'))
    (hplain : isPlain c = true) : Spells q [c] c where
  starts := by
    refine ⟨c, [], rfl, hquote, ?_, id⟩
    intro hc
    rw [hc] at hplain
    exact absurd hplain (by decide)
  reads := fun rest => by
    rw [List.singleton_append, read]
    simp [Mode.at, hquote, hescape, hplain]

theorem spells_newline (hblock : q.block = true) (hquote : '\n' ≠ q.quote) : Spells q ['\n'] '\n' where
  starts := ⟨'\n', [], rfl, hquote, by decide, id⟩
  reads := fun rest => by
    rw [List.singleton_append, read]
    simp [Mode.at, hquote, hblock, show isPlain '\n' = false by decide]

/-- An escape begins with a backslash. -/
theorem spells_escape (hescapes : q.escapes = true) (hquote : '\\' ≠ q.quote)
    (h : ∀ rest, q.read .escape (s ++ rest) =
      (q.read .plain rest).map fun (text, rest) => (c :: text, rest)) :
    Spells q ('\\' :: s) c where
  starts := ⟨'\\', s, rfl, hquote, by decide, fun h => absurd h (by decide)⟩
  reads := fun rest => by
    rw [List.cons_append, read]
    simp [Mode.at, hquote, hescapes, h rest]

/-- A letter after a backslash. -/
theorem read_letter {x : Char} (h : escape? x = some c) (hx : x ∉ ['u', 'U', '\n', '\r', ' ', '\t'])
    (rest : List Char) :
    q.read .escape (x :: rest) = (q.read .plain rest).map fun (text, rest) => (c :: text, rest) := by
  simp only [List.mem_cons, List.not_mem_nil, not_or, or_false] at hx
  obtain ⟨hu, hU, hnewline, hreturn, hspace, htab⟩ := hx
  rw [read]
  simp [Mode.at, hu, hU, hnewline, hreturn, hspace, htab, isBlank, isReturn, h]

/-- The number that hexadecimal digits add to one read so far. -/
def hexValue (value : Nat) (digits : List Char) : Option Nat :=
  digits.foldlM (fun value c => (hexDigit? c).map fun d => 16 * value + d) value

theorem read_digits {digits : List Char} {value n : Nat} (hne : digits ≠ [])
    (h : hexValue value digits = some n) (rest : List Char) :
    q.read (.digits digits.length value) (digits ++ rest) = (character? n).bind fun c =>
      (q.read .plain rest).map fun (text, rest) => (c :: text, rest) := by
  induction digits generalizing value with
  | nil => exact absurd rfl hne
  | cons c digits ih =>
    rw [hexValue, List.foldlM_cons] at h
    cases hc : hexDigit? c with
    | none => simp [hc] at h
    | some d =>
      rw [hc] at h
      rw [List.cons_append, read]
      cases digits with
      | nil =>
        obtain rfl := Option.some.inj h
        simp [Mode.at, hc]
      | cons e digits =>
        have hlong : ¬ (c :: e :: digits).length ≤ 1 := by simp
        have hnext := ih (List.cons_ne_nil _ _) h
        simpa [Mode.at, hc, hlong] using hnext

/-- The four digits of a control character say which it is. -/
theorem hexValue_numbered : ∀ k : Fin 128, (numbered (Char.ofNat k)).take 2 = ['\\', 'u'] ∧
    ((numbered (Char.ofNat k)).drop 2).length = 4 ∧
    hexValue 0 ((numbered (Char.ofNat k)).drop 2) = some k.val := by
  decide +kernel

theorem spells_numbered (hescapes : q.escapes = true) (hquote : '\\' ≠ q.quote) (h : isPlain c = false) :
    Spells q (numbered c) c := by
  have hsmall : c.toNat < 128 := by
    simp only [isPlain, Bool.or_eq_false_iff, Bool.and_eq_false_iff, decide_eq_false_iff_not,
      bne_eq_false_iff_eq] at h
    omega
  obtain ⟨htake, hlength, hvalue⟩ := hexValue_numbered ⟨c.toNat, hsmall⟩
  have hshown := List.take_append_drop 2 (numbered c)
  simp only [Char.ofNat_toNat] at htake hlength hvalue
  rw [htake] at hshown
  rw [← hshown]
  refine spells_escape hescapes hquote fun rest => ?_
  have hread := read_digits (q := q) (List.ne_nil_of_length_pos (by omega)) hvalue rest
  have hvalid : c.toNat.isValidChar := c.valid
  have hchar : character? c.toNat = some c := by
    rw [character?, if_pos hvalid, Char.ofNat_toNat]
  rw [hlength, hchar] at hread
  exact hread

/-! ## What stands between the quotes -/

/-- What may stand between quotes for a text, `run` quotes being just before it. -/
inductive Body (q : Quoting) : (run : Nat) → (text body : List Char) → Prop
  | nil (run : Nat) : Body q run [] []
  | quote {run : Nat} {text body : List Char} (hblock : q.block = true) (hrun : run < 2)
      (rest : Body q (run + 1) text body) : Body q run (q.quote :: text) (q.quote :: body)
  | char {run : Nat} {c : Char} {s text body : List Char} (hspells : Spells q s c)
      (rest : Body q 0 text body) : Body q run (c :: text) (s ++ body)

theorem read_line (hblock : q.block = false) (h : Body q run text body) (rest : List Char) :
    q.read .plain (body ++ q.quote :: rest) = some (text, rest) := by
  induction h with
  | nil =>
    rw [List.nil_append, read]
    simp [Mode.at, hblock]
  | quote hlines =>
    rw [hblock] at hlines
    cases hlines
  | char hspells _ ih => rw [List.append_assoc, hspells.reads, ih, Option.map_some]

/-- After a quote there are two more only at the end, with at most one of them in the text. -/
theorem Body.eq_of_take (h : Body q run text body) (hrun : 1 ≤ run)
    (htake : (body ++ q.quote :: q.quote :: q.quote :: rest).take 2 = [q.quote, q.quote]) :
    text = body ∧ (body = [] ∨ body = [q.quote]) := by
  cases h with
  | nil => exact ⟨rfl, .inl rfl⟩
  | quote hblock hlt hrest =>
    cases hrest with
    | nil => exact ⟨rfl, .inr rfl⟩
    | quote hblock hlt' => omega
    | char hspells =>
      obtain ⟨x, left, rfl, hx, -⟩ := hspells.starts
      simp [hx] at htake
  | char hspells =>
    obtain ⟨x, left, rfl, hx, -⟩ := hspells.starts
    simp [hx] at htake

/-- Quotes after the first three of a closing belong to the text. -/
theorem closeBlock_append {quote : Char} {k : Nat} (hk : k ≤ 2) (hrest : rest.head? ≠ some quote) :
    closeBlock quote (List.replicate k quote ++ rest) = (List.replicate k quote, rest) := by
  have hnone : ∀ l, (rest.take l).takeWhile (· == quote) = [] := by
    intro l
    cases rest with
    | nil => simp
    | cons x left =>
      have hx : x ≠ quote := fun h => hrest (congrArg some h)
      cases l <;> simp [hx]
  have htake : (List.replicate k quote ++ rest).take 2 =
      List.replicate k quote ++ rest.take (2 - k) := by
    rw [List.take_append, List.take_replicate, List.length_replicate, Nat.min_eq_right hk]
  have hall : (List.replicate k quote ++ rest.take (2 - k)).takeWhile (· == quote) =
      List.replicate k quote := by
    rw [List.takeWhile_append_of_pos (by simp), hnone, List.append_nil]
  rw [closeBlock, htake, hall]
  simp

theorem read_block (hblock : q.block = true) (h : Body q run text body)
    (hrest : rest.head? ≠ some q.quote) :
    q.read .plain (body ++ q.quote :: q.quote :: q.quote :: rest) = some (text, rest) := by
  induction h with
  | nil =>
    have hclose := closeBlock_append (k := 0) (by decide) hrest
    rw [List.nil_append, read]
    simpa [Mode.at, hblock] using hclose
  | @quote _ text body _ _ hbody ih =>
    rw [List.cons_append, read]
    by_cases htake : (body ++ q.quote :: q.quote :: q.quote :: rest).take 2 = [q.quote, q.quote]
    · -- The text ends here, and what is left of it runs into the closing quotes.
      obtain ⟨rfl, rfl | rfl⟩ := hbody.eq_of_take (by omega) htake
      · have hclose := closeBlock_append (k := 1) (by decide) hrest
        simpa [Mode.at, hblock] using hclose
      · have hclose := closeBlock_append (k := 2) (by decide) hrest
        simpa [Mode.at, hblock] using hclose
    · simp [Mode.at, hblock, htake, ih]
  | char hspells _ ih => rw [List.append_assoc, hspells.reads, ih, Option.map_some]

/-! ## How a text is written -/

/-- Escapes make every text fit between double quotes. -/
theorem body_escaped (block : Bool) (run : Nat) (text : List Char) :
    Body ⟨'"', true, block⟩ run text (escaped block run text) := by
  induction text generalizing run with
  | nil => exact .nil run
  | cons c text ih =>
    have hquote : '\\' ≠ '"' := by decide
    have hletter : ∀ {x c : Char}, escape? x = some c → x ∉ ['u', 'U', '\n', '\r', ' ', '\t'] →
        Spells ⟨'"', true, block⟩ ['\\', x] c := fun h hx =>
      spells_escape rfl hquote (read_letter h hx)
    rw [escaped.eq_def]
    dsimp only
    split
    · next hc =>
      subst hc
      split
      · next hroom => exact .quote hroom.1 hroom.2 (ih (run + 1))
      · exact .char (hletter (x := '"') (by decide) (by decide)) (ih 0)
    · next hc =>
      refine .char ?_ (ih 0)
      split
      · exact hletter (by decide) (by decide)
      · exact hletter (by decide) (by decide)
      · exact hletter (by decide) (by decide)
      · exact hletter (by decide) (by decide)
      · exact hletter (by decide) (by decide)
      · split
        · next hblock => exact spells_newline hblock (show '\n' ≠ '"' by decide)
        · exact hletter (by decide) (by decide)
      · next hbackslash _ =>
        split
        · next hplain => exact spells_plain hc (fun h => hbackslash h.2) hplain
        · next hplain => exact spells_numbered rfl hquote (by simpa using hplain)

theorem le_longestRun (c : Char) (run : Nat) (text : List Char) : run ≤ longestRun c run text := by
  induction text generalizing run with
  | nil => exact Nat.le_refl _
  | cons x text ih =>
    rw [longestRun]
    split
    · exact Nat.le_trans (Nat.le_succ run) (ih (run + 1))
    · exact Nat.le_max_left _ _

/-- Without escapes a text must fit as it is. -/
theorem body_self (hescapes : q.escapes = false) (hquote : '\n' ≠ q.quote)
    (hcontrol : ∀ c ∈ text, isControl c = false) (hnewline : q.block = false → '\n' ∉ text)
    (hrun : longestRun q.quote run text ≤ if q.block then 2 else 0) : Body q run text text := by
  induction text generalizing run with
  | nil => exact .nil run
  | cons c text ih =>
    have hnext : ∀ {run}, longestRun q.quote run text ≤ (if q.block then 2 else 0) →
        Body q run text text :=
      ih (fun c hc => hcontrol c (List.mem_cons_of_mem _ hc))
        (fun hblock hmem => hnewline hblock (List.mem_cons_of_mem _ hmem))
    rw [longestRun] at hrun
    split at hrun
    · next hc =>
      subst hc
      have hlong := Nat.le_trans (le_longestRun q.quote (run + 1) text) hrun
      cases hblock : q.block with
      | false =>
        rw [hblock] at hlong
        exact absurd hlong (by simp)
      | true =>
        rw [hblock] at hlong
        exact .quote hblock hlong (hnext hrun)
    · next hc =>
      have hspells : Spells q [c] c := by
        by_cases hline : c = '\n'
        · subst hline
          cases hblock : q.block with
          | false => exact absurd List.mem_cons_self (hnewline hblock)
          | true => exact spells_newline hblock hquote
        · have hplain := hcontrol c List.mem_cons_self
          refine spells_plain hc (by simp [hescapes]) ?_
          simpa [isControl, hline] using hplain
      exact .char hspells (hnext (Nat.le_trans (Nat.le_max_right _ _) hrun))

/-- What is written between the quotes. -/
def shown (q : Quoting) (text : List Char) : List Char :=
  if q.escapes then escaped q.block 0 text else text

theorem choose_mem (text : List Char) : choose text ∈ [basic, literal, basicBlock, literalBlock] := by
  unfold choose
  dsimp only
  repeat' split
  all_goals decide

/-- The quotes that are chosen fit the text. -/
theorem body_choose (text : List Char) : Body (choose text) 0 text ((choose text).shown text) := by
  have hline : Body basic 0 text (basic.shown text) := body_escaped false 0 text
  have hblock : Body basicBlock 0 text (basicBlock.shown text) := body_escaped true 0 text
  have hplain : ∀ {b : Bool}, (!text.any isControl && b) = true → ∀ c ∈ text, isControl c = false := by
    intro b h
    simp only [Bool.and_eq_true, Bool.not_eq_true', List.any_eq_false, Bool.not_eq_true] at h
    exact h.1
  unfold choose
  dsimp only
  split
  · exact hline
  split
  · next h =>
    simp only [Bool.and_assoc] at h
    have hcontrol := hplain h
    simp only [Bool.and_eq_true, Bool.not_eq_true', List.contains_eq_mem, decide_eq_false_iff_not,
      beq_iff_eq] at h
    exact body_self rfl (by decide) hcontrol (fun _ => h.2.1) (Nat.le_of_eq h.2.2)
  split
  · exact hblock
  split
  · next h =>
    have hcontrol := hplain h
    simp only [Bool.and_eq_true, decide_eq_true_eq] at h
    exact body_self rfl (by decide) hcontrol nofun h.2
  split
  · exact hblock
  · exact hline

/-! ## The quotes -/

/-- The quoting by its quotes, double or single, and by whether it is a block. -/
def family (double block : Bool) : Quoting := ⟨if double then '"' else '\'', double, block⟩

theorem exists_family (h : q ∈ [basic, literal, basicBlock, literalBlock]) :
    ∃ double block, q = family double block := by
  simp only [List.mem_cons, List.not_mem_nil, or_false] at h
  rcases h with rfl | rfl | rfl | rfl
  · exact ⟨true, false, rfl⟩
  · exact ⟨false, false, rfl⟩
  · exact ⟨true, true, rfl⟩
  · exact ⟨false, true, rfl⟩

theorem readAny_line {double : Bool} (h : Body (family double false) 0 text body)
    (hrest : rest.head? ≠ some (family double false).quote) :
    readAny double (body ++ (family double false).quote :: rest) = some (text, rest) := by
  have hopen : (body ++ (family double false).quote :: rest).take 2 ≠
      [(family double false).quote, (family double false).quote] := by
    cases h with
    | nil =>
      cases rest with
      | nil => simp
      | cons x left =>
        intro htake
        simp only [List.nil_append, List.take_succ_cons, List.take_zero, List.cons.injEq, true_and,
          and_true] at htake
        exact hrest (congrArg some htake)
    | quote hblock => cases hblock
    | char hspells =>
      obtain ⟨x, left, rfl, hx, -⟩ := hspells.starts
      simp [hx]
  have hread := read_line rfl h rest
  cases double with
  | true => exact (if_neg hopen).trans hread
  | false => exact (if_neg hopen).trans hread

/-- What stands in a block begins with a line end only if the text does. -/
theorem Body.head_ne (h : Body q run text body) (hline : q.quote ≠ '\n')
    (hreturn : q.quote ≠ '\r') {c : Char}
    (hc : c ∈ (body ++ q.quote :: rest).head?) : c ≠ '\r' ∧ (c = '\n' → '\n' ∈ text) := by
  cases h with
  | nil =>
    obtain rfl := Option.some.inj hc
    exact ⟨hreturn, fun h => absurd h hline⟩
  | quote =>
    obtain rfl := Option.some.inj hc
    exact ⟨hreturn, fun h => absurd h hline⟩
  | @char _ x _ _ _ hspells =>
    obtain ⟨y, left, rfl, -, hy, hnewline⟩ := hspells.starts
    obtain rfl := Option.some.inj hc
    refine ⟨hy, fun h => ?_⟩
    rw [hnewline h]
    exact List.mem_cons_self

/-- A line end right after the opening quotes of a block is not read. -/
theorem readAny_newline (double : Bool) (cs : List Char) :
    readAny double ((family double true).quote :: (family double true).quote :: '\n' :: cs) =
      (family double true).read .plain cs := by
  cases double <;> rfl

theorem readAny_open {double : Bool} {cs : List Char} (h : ∀ c ∈ cs.head?, c ≠ '\r' ∧ c ≠ '\n') :
    readAny double ((family double true).quote :: (family double true).quote :: cs) =
      (family double true).read .plain cs := by
  cases double with
  | true =>
    show readAny true ('"' :: '"' :: cs) = basicBlock.read .plain cs
    simp only [readAny, basic, List.take_succ_cons, List.take_zero, List.drop_succ_cons,
      List.drop_zero, if_true]
    split
    · exact absurd rfl (h _ rfl).2
    · exact absurd rfl (h _ rfl).1
    · rfl
  | false =>
    show readAny false ('\'' :: '\'' :: cs) = literalBlock.read .plain cs
    simp only [readAny, literal, List.take_succ_cons, List.take_zero, List.drop_succ_cons,
      List.drop_zero, if_true, Bool.false_eq_true, if_false]
    split
    · exact absurd rfl (h _ rfl).2
    · exact absurd rfl (h _ rfl).1
    · rfl

/-- A block of several lines begins on a line of its own. -/
theorem readAny_block {double : Bool} (h : Body (family double true) 0 text body)
    (hrest : rest.head? ≠ some (family double true).quote) :
    readAny double ((family double true).quote :: (family double true).quote ::
      ((if '\n' ∈ text then ['\n'] else []) ++ (body ++ (family double true).quote ::
        (family double true).quote :: (family double true).quote :: rest))) = some (text, rest) := by
  have hread := read_block rfl h hrest
  by_cases hnewline : '\n' ∈ text
  · rw [if_pos hnewline]
    exact (readAny_newline double _).trans hread
  · have hquote : (family double true).quote ≠ '\n' ∧ (family double true).quote ≠ '\r' := by
      cases double <;> decide
    have hhead : ∀ c ∈ (body ++ (family double true).quote :: (family double true).quote ::
        (family double true).quote :: rest).head?, c ≠ '\r' ∧ c ≠ '\n' := by
      intro c hc
      obtain ⟨hreturn, hline⟩ := h.head_ne hquote.1 hquote.2 hc
      exact ⟨hreturn, fun heq => hnewline (hline heq)⟩
    rw [if_neg hnewline, List.nil_append, readAny_open hhead]
    exact hread

/-- A text reads back. -/
theorem readScalar_render (s : String) (hrest : Ends rest) :
    readScalar ((render s).toList ++ rest) = some (.text s, rest) := by
  obtain ⟨double, block, hq⟩ := exists_family (choose_mem s.toList)
  have hbody := body_choose s.toList
  have hother : ∀ double block, (family double block).quote ∉ ['.', '\n', ',', ']'] := by decide
  have hquote := hrest.endsWhole.ne (hother double block)
  have hshown : (render s).toList = (choose s.toList).write s.toList := String.toList_ofList
  rw [hq] at hbody hshown
  have hscalar : ∀ {cs left}, readAny double cs = some (s.toList, left) →
      readScalar ((family double block).quote :: cs) = some (.text s, left) := by
    intro cs left hread
    cases double with
    | true => simp [readScalar, family, hread]
    | false => simp [readScalar, family, hread]
  cases block with
  | false =>
    have hread := hscalar (readAny_line hbody hquote)
    rw [hshown]
    simpa [write, family, shown] using hread
  | true =>
    have hread := hscalar (readAny_block hbody hquote)
    rw [hshown]
    simpa [write, family, shown] using hread

end SceneEngine.Toml.Quoting
