/-
Documents read back.

A text `Reads` as statements when it does so in front of whatever lines follow; so a
document may be read line by line and put together by `Reads.append`. Lines that open a
table or assign a value to a plain key read as they should (`reads_header`, `reads_line`),
and tables with different names and different keys come out as they were written
(`ofStatements?_tables`).
-/
import SceneEngine.Proofs.Toml.Quoted

namespace SceneEngine.Toml

variable {c : Char} {text left rest : List Char} {v : Value}

/-! ## Values -/

/-- No value without parts of its own begins with a blank, a line end or a bracket. -/
theorem readScalar_eq_none (hc : c ∈ [' ', '\t', '\n', '\r', '#', ']', '[', '\x7b']) (left : List Char) :
    readScalar (c :: left) = none := by
  have hall : ∀ c ∈ [' ', '\t', '\n', '\r', '#', ']', '[', '\x7b'],
      isDigit 10 c = false ∧ c ≠ '_' ∧ c ∉ ['"', '\'', 't', 'f'] := forall_mem_of_all (by decide)
  have hstops : Stops (c :: left) := fun d hd => Option.some.inj hd ▸ ⟨(hall c hc).1, (hall c hc).2.1⟩
  have hwhole : readNumber (c :: left) = readDecimal false (c :: left) ∧
      readWhole (c :: left) = readDigits 10 (c :: left) := by
    simp only [List.mem_cons, List.not_mem_nil, or_false] at hc
    rcases hc with rfl | rfl | rfl | rfl | rfl | rfl | rfl | rfl <;> exact ⟨rfl, rfl⟩
  rw [readScalar_eq_readNumber (hall c hc), hwhole.1, readDecimal, hwhole.2, readDigits_of_stops hstops]
  rfl

/-- A text that is read as a value without parts, wherever the value may end. -/
def Shows (text : List Char) (v : Value) : Prop :=
  ∀ rest, Ends rest → readScalar (text ++ rest) = some (v, rest)

theorem Shows.exists_cons (h : Shows text v) : ∃ c left, text = c :: left ∧
    c ∉ [' ', '\t', '\n', '\r', '#', ']', '[', '\x7b'] := by
  have hread := h ['\n'] (ends_cons (by decide))
  cases text with
  | nil =>
    rw [List.nil_append, readScalar_eq_none (by decide)] at hread
    cases hread
  | cons c left =>
    refine ⟨c, left, rfl, fun hc => ?_⟩
    rw [List.cons_append, readScalar_eq_none hc] at hread
    cases hread

theorem shows_toString {n : Int} (hleast : -(maxInteger + 1) ≤ n) (hmost : n ≤ maxInteger) :
    Shows (toString n).toList (.integer n) :=
  fun _ => readScalar_toString hleast hmost

theorem shows_renderFloat (x : F64) : Shows (renderFloat x).toList (.float (quiet x)) :=
  fun _ => readScalar_renderFloat x

theorem shows_render (s : String) : Shows (Quoting.render s).toList (.text s) :=
  fun _ => Quoting.readScalar_render s

theorem shows_boolean (b : Bool) : Shows (if b then "true" else "false").toList (.boolean b) := by
  intro rest _
  cases b <;> rfl

theorem Shows.readValue (h : Shows text v) (depth : Nat) (hrest : Ends rest) :
    readValue depth (text ++ rest) = some (v, rest) := by
  have hread := h rest hrest
  obtain ⟨c, left, rfl, hc⟩ := h.exists_cons
  rw [List.cons_append] at hread ⊢
  unfold Toml.readValue
  split
  · exact hread
  · split
    · next heq =>
      obtain ⟨rfl, -⟩ := List.cons.inj heq
      exact absurd (by decide) hc
    · next heq =>
      obtain ⟨rfl, -⟩ := List.cons.inj heq
      exact absurd (by decide) hc
    · exact hread

/-! ## Arrays -/

theorem skipLines_of_head (hc : c ∉ [' ', '\t', '\n', '\r', '#']) (left : List Char) :
    skipLines false (c :: left) = c :: left := by
  simp only [List.mem_cons, List.not_mem_nil, not_or, or_false] at hc
  obtain ⟨hspace, htab, hnewline, hreturn, hmark⟩ := hc
  rw [skipLines]
  simp [hspace, htab, hnewline, hreturn, hmark, Quoting.isReturn, isBlank]

theorem readItems_space (value : List Char → Option (Value × List Char)) (fuel : Nat) (cs : List Char) :
    readItems value fuel (' ' :: cs) = readItems value fuel cs := by
  cases fuel with
  | zero => rfl
  | succ fuel =>
    have hskip : skipLines false (' ' :: cs) = skipLines false cs := by
      rw [skipLines]
      simp [isBlank, Quoting.isReturn]
    rw [readItems, readItems, hskip]

/-- Items are read one after the other; the blank after a comma belongs to the next one. -/
theorem readItems_intercalate {texts : List (List Char)} {values : List Value} {fuel : Nat}
    (h : List.Forall₂ Shows texts values) (hne : texts ≠ []) (hfuel : texts.length ≤ fuel) (depth : Nat)
    (rest : List Char) :
    readItems (readValue depth) fuel ([',', ' '].intercalate texts ++ ']' :: rest) =
      some (values, rest) := by
  induction h generalizing fuel with
  | nil => exact absurd rfl hne
  | @cons text v texts values hshows hmore ih =>
    obtain ⟨fuel, rfl⟩ : ∃ k, fuel = k + 1 := ⟨fuel - 1, by simp at hfuel; omega⟩
    obtain ⟨c, left, htext, hc⟩ := hshows.exists_cons
    have hskip : ∀ cs, skipLines false (text ++ cs) = text ++ cs := by
      intro cs
      rw [htext]
      exact skipLines_of_head (fun hmem =>
        hc (by simp only [List.mem_cons, List.not_mem_nil] at hmem ⊢; tauto)) _
    have hopen : ∀ cs left, text ++ cs ≠ ']' :: left := by
      intro cs left heq
      rw [htext] at heq
      obtain ⟨rfl, -⟩ := List.cons.inj heq
      exact absurd (by decide) hc
    by_cases hlast : texts = []
    · subst hlast
      cases hmore
      rw [List.intercalate_singleton, readItems, hskip]
      split
      · next heq => exact absurd heq (hopen _ _)
      · rw [hshows.readValue depth (ends_cons (by decide))]
        rfl
    · have hitems := ih hlast (by simpa using hfuel)
      rw [List.intercalate_cons_of_ne_nil hlast, List.append_assoc, List.append_assoc, readItems, hskip]
      split
      · next heq => exact absurd heq (hopen _ _)
      · rw [List.cons_append, List.cons_append, List.nil_append,
          hshows.readValue depth (ends_cons (by decide))]
        simp [skipLines_of_head, readItems_space, hitems]

/-- There is room for the items when there is room for what separates them. -/
theorem length_le_intercalate (texts : List (List Char)) :
    texts.length ≤ ([',', ' '].intercalate texts).length + 1 := by
  induction texts with
  | nil => exact Nat.zero_le _
  | cons text texts ih =>
    by_cases hlast : texts = []
    · subst hlast
      exact Nat.le_add_left _ _
    · rw [List.intercalate_cons_of_ne_nil hlast]
      simp only [List.length_cons, List.length_append]
      omega

theorem isBlank_of_notMem {cs : List Char} (hc : c ∉ cs) (hspace : ' ' ∈ cs) (htab : '\t' ∈ cs) :
    isBlank c = false := by
  have hspace' : c ≠ ' ' := fun h => hc (h ▸ hspace)
  have htab' : c ≠ '\t' := fun h => hc (h ▸ htab)
  simp [isBlank, hspace', htab']

/-- A text that is read as a value where a line assigns one. -/
structure Assigned (text : List Char) (v : Value) : Prop where
  starts : ∃ c left, text = c :: left ∧ isBlank c = false
  reads : ∀ rest, Ends rest → readValue (depthLimit - 1) (text ++ rest) = some (v, rest)

theorem Shows.assigned (h : Shows text v) : Assigned text v where
  starts := by
    obtain ⟨c, left, rfl, hc⟩ := h.exists_cons
    exact ⟨c, left, rfl, isBlank_of_notMem hc (by decide) (by decide)⟩
  reads := fun _ => h.readValue _

theorem assigned_array {texts : List (List Char)} {values : List Value}
    (h : List.Forall₂ Shows texts values) :
    Assigned ('[' :: [',', ' '].intercalate texts ++ [']']) (.array values) where
  starts := ⟨'[', _, rfl, by decide⟩
  reads := fun rest _ => by
    have hitems : readItems (readValue (depthLimit - 2))
        ([',', ' '].intercalate texts ++ ']' :: rest).length
        ([',', ' '].intercalate texts ++ ']' :: rest) = some (values, rest) := by
      cases h with
      | nil =>
        show readItems _ (rest.length + 1) (']' :: rest) = _
        rw [readItems, skipLines_of_head (by decide)]
        rfl
      | @cons text v texts values hshows hmore =>
        refine readItems_intercalate (.cons hshows hmore) (List.cons_ne_nil _ _) ?_ _ rest
        have hroom := length_le_intercalate (text :: texts)
        simp only [List.length_append, List.length_cons] at hroom ⊢
        omega
    rw [List.append_assoc, List.cons_append, List.singleton_append,
      show depthLimit - 1 = depthLimit - 2 + 1 from rfl, Toml.readValue, hitems]
    rfl

/-! ## Lines -/

theorem skipBlanks_of_head (hc : isBlank c = false) (left : List Char) :
    skipBlanks (c :: left) = c :: left := by
  simp [skipBlanks, hc]

/-- A line that begins with anything but a blank or a comment says something. -/
theorem finishLine_of_head (hc : c ∉ [' ', '\t', '#', '\n', '\r']) (left : List Char) :
    finishLine (c :: left) = none := by
  have hblank := isBlank_of_notMem hc (by decide) (by decide)
  simp only [List.mem_cons, List.not_mem_nil, not_or, or_false] at hc
  obtain ⟨-, -, hmark, hnewline, hreturn⟩ := hc
  have hcomment : skipComment (c :: left) = c :: left := by simp [skipComment, hmark]
  rw [finishLine, skipBlanks_of_head hblank, hcomment]
  simp [skipLineEnd, hnewline, hreturn]

theorem readStatements_mono {fuel fuel' : Nat} {cs : List Char} {statements : List Statement}
    (h : readStatements fuel cs = some statements) (hle : fuel ≤ fuel') :
    readStatements fuel' cs = some statements := by
  induction fuel generalizing fuel' cs statements with
  | zero =>
    cases cs with
    | nil =>
      cases fuel' <;> exact h
    | cons c cs => cases h
  | succ fuel ih =>
    obtain ⟨fuel', rfl⟩ : ∃ k, fuel' = k + 1 := ⟨fuel' - 1, by omega⟩
    cases cs with
    | nil => exact h
    | cons c cs =>
      simp only [readStatements] at h ⊢
      cases hline : finishLine (c :: cs) with
      | some rest =>
        rw [hline] at h
        exact ih h (by omega)
      | none =>
        rw [hline] at h
        simp only [Option.bind_eq_bind, Option.bind_eq_some_iff] at h ⊢
        obtain ⟨statement, hstatement, rest, hrest, more, hmore, hsum⟩ := h
        exact ⟨statement, hstatement, rest, hrest, more, ih hmore (by omega), hsum⟩

/-- A text that is read as statements, whatever lines follow it. -/
def Reads (text : String) (statements : List Statement) : Prop :=
  ∀ fuel rest more, readStatements fuel rest = some more →
    readStatements (fuel + text.toList.length) (text.toList ++ rest) = some (statements ++ more)

theorem reads_empty : Reads "" [] := fun _ _ _ h => h

theorem Reads.append {text₁ text₂ : String} {statements₁ statements₂ : List Statement}
    (h₁ : Reads text₁ statements₁) (h₂ : Reads text₂ statements₂) :
    Reads (text₁ ++ text₂) (statements₁ ++ statements₂) := by
  intro fuel rest more hmore
  have hread := h₁ _ _ _ (h₂ fuel rest more hmore)
  rw [String.toList_append, List.length_append, List.append_assoc, List.append_assoc,
    Nat.add_comm text₁.toList.length, ← Nat.add_assoc]
  exact hread

theorem reads_newline : Reads "\n" [] := fun _ _ _ h => h

/-- One line with one statement on it. -/
theorem reads_of_readStatement {text : String} {statement : Statement} (hne : text.toList ≠ [])
    (hstart : ∀ c ∈ text.toList.head?, c ∉ [' ', '\t', '#', '\n', '\r'])
    (h : ∀ rest, readStatement (text.toList ++ '\n' :: rest) = some (statement, '\n' :: rest)) :
    Reads (text ++ "\n") [statement] := by
  intro fuel rest more hmore
  obtain ⟨c, left, htext⟩ := List.exists_cons_of_ne_nil hne
  have hc := hstart c (by rw [htext]; rfl)
  have hblank := isBlank_of_notMem hc (by decide) (by decide)
  have hstatement := h rest
  have hlater := readStatements_mono hmore (Nat.le_add_right fuel text.toList.length)
  rw [String.toList_append, List.length_append, List.append_assoc, ← Nat.add_assoc]
  rw [htext] at hstatement hlater ⊢
  have hline : finishLine ('\n' :: rest) = some rest := rfl
  simp only [List.cons_append] at hstatement ⊢
  rw [show "\n".toList = ['\n'] from rfl, List.singleton_append, List.length_singleton]
  simp only [readStatements, finishLine_of_head hc, skipBlanks_of_head hblank, hstatement,
    Option.bind_eq_bind, Option.bind_some, hline, hlater]
  rfl

/-! ## Keys -/

/-- A key that needs no quotes. -/
def IsBare (key : String) : Prop := key.toList ≠ [] ∧ key.toList.all isKeyChar = true

instance (key : String) : Decidable (IsBare key) := inferInstanceAs (Decidable (_ ∧ _))

/-- What has a meaning of its own in front of a key is no part of one. -/
theorem not_isKeyChar : ∀ c ∈ ['"', '\'', ' ', '\t', '#', '\n', '\r', '[', ']'], isKeyChar c = false :=
  forall_mem_of_all (by decide)

theorem IsBare.exists_cons {key : String} (h : IsBare key) : ∃ c left, key.toList = c :: left ∧
    c ∉ ['"', '\'', ' ', '\t', '#', '\n', '\r', '[', ']'] := by
  obtain ⟨c, left, hkey⟩ := List.exists_cons_of_ne_nil h.1
  refine ⟨c, left, hkey, fun hmem => ?_⟩
  have hc := List.all_eq_true.mp h.2 c (by rw [hkey]; exact List.mem_cons_self)
  rw [not_isKeyChar c hmem] at hc
  cases hc

theorem readKey_bare {key : String} (h : IsBare key) (hrest : ∀ c ∈ rest.head?, isKeyChar c = false)
    (hend : ∀ left, skipBlanks rest ≠ '.' :: left) :
    readKey (key.toList ++ rest) = some (⟨[], key⟩, skipBlanks rest) := by
  obtain ⟨c, left, hkey, hc⟩ := h.exists_cons
  have hblank := isBlank_of_notMem hc (by decide) (by decide)
  have hstop : rest.takeWhile isKeyChar = [] ∧ rest.dropWhile isKeyChar = rest := by
    cases rest with
    | nil => exact ⟨rfl, rfl⟩
    | cons d rest => simp [hrest d rfl]
  have htake : (key.toList ++ rest).takeWhile isKeyChar = key.toList := by
    rw [List.takeWhile_append_of_pos (List.all_eq_true.mp h.2), hstop.1, List.append_nil]
  have hdrop : (key.toList ++ rest).dropWhile isKeyChar = rest := by
    rw [List.dropWhile_append_of_pos (List.all_eq_true.mp h.2), hstop.2]
  have hpart : readPart (skipBlanks (key.toList ++ rest)) = some (key, rest) := by
    have hskip : skipBlanks (key.toList ++ rest) = key.toList ++ rest := by
      rw [hkey]
      exact skipBlanks_of_head hblank _
    rw [hskip]
    unfold readPart
    split
    · next heq =>
      rw [hkey] at heq
      obtain ⟨rfl, -⟩ := List.cons.inj heq
      exact absurd (by decide) hc
    · next heq =>
      rw [hkey] at heq
      obtain ⟨rfl, -⟩ := List.cons.inj heq
      exact absurd (by decide) hc
    · rw [htake, hdrop, hkey]
      simp [← hkey]
  have hparts : readParts (depthLimit - 1) (key.toList ++ rest) = some ([key], skipBlanks rest) := by
    rw [show depthLimit - 1 = depthLimit - 2 + 1 from rfl, readParts, hpart]
    simp only [Option.bind_eq_bind, Option.bind_some]
    rfl
  rw [readKey, hparts]
  rfl

/-- A header opens a table. -/
theorem reads_header {key : String} (h : IsBare key) :
    Reads ("[" ++ key ++ "]" ++ "\n") [.table ⟨[], key⟩] := by
  have htext : ("[" ++ key ++ "]").toList = '[' :: (key.toList ++ [']']) := by simp
  refine reads_of_readStatement (by rw [htext]; exact List.cons_ne_nil _ _) ?_ fun rest => ?_
  · intro c hc
    rw [htext] at hc
    obtain rfl := Option.some.inj hc
    decide
  · have hkey : readKey (key.toList ++ ']' :: '\n' :: rest) = some (⟨[], key⟩, ']' :: '\n' :: rest) :=
      readKey_bare h (fun c hc => Option.some.inj hc ▸ not_isKeyChar ']' (by decide)) nofun
    have hsingle : ∀ left, key.toList ++ ']' :: '\n' :: rest ≠ '[' :: left := by
      intro left heq
      obtain ⟨c, more, hkey, hc⟩ := h.exists_cons
      rw [hkey] at heq
      obtain ⟨rfl, -⟩ := List.cons.inj heq
      exact absurd (by decide) hc
    rw [htext, List.cons_append, List.append_assoc, List.singleton_append]
    unfold readStatement
    split
    · next heq => exact absurd (List.cons.inj heq).2 (hsingle _)
    · next heq =>
      obtain ⟨-, rfl⟩ := List.cons.inj heq
      rw [readHeader, hkey]
      rfl
    · next hother => exact absurd rfl (hother _)

/-- A line assigns a value to a key. -/
theorem reads_line {key value : String} (h : IsBare key) (hvalue : Assigned value.toList v) :
    Reads (key ++ " = " ++ value ++ "\n") [.assign ⟨[], key⟩ v] := by
  have htext : (key ++ " = " ++ value).toList =
      key.toList ++ ' ' :: '=' :: ' ' :: value.toList := by simp
  obtain ⟨c, left, hcons, hc⟩ := h.exists_cons
  refine reads_of_readStatement (by rw [htext, hcons]; exact List.cons_ne_nil _ _) ?_ fun rest => ?_
  · intro d hd
    rw [htext, hcons] at hd
    obtain rfl := Option.some.inj hd
    simp only [List.mem_cons, List.not_mem_nil, not_or, or_false] at hc ⊢
    tauto
  · have hkey : readKey (key.toList ++ ' ' :: '=' :: ' ' :: (value.toList ++ '\n' :: rest)) =
        some (⟨[], key⟩, '=' :: ' ' :: (value.toList ++ '\n' :: rest)) :=
      readKey_bare h (fun c hc => Option.some.inj hc ▸ not_isKeyChar ' ' (by decide)) nofun
    obtain ⟨d, more, hstart, hd⟩ := hvalue.starts
    have hread := hvalue.reads ('\n' :: rest) (ends_cons (by decide))
    have hskip : skipBlanks (' ' :: (value.toList ++ '\n' :: rest)) = value.toList ++ '\n' :: rest := by
      rw [hstart]
      exact skipBlanks_of_head hd _
    rw [htext, List.append_assoc]
    simp only [List.cons_append]
    unfold readStatement
    split
    · next heq =>
      rw [hcons] at heq
      obtain ⟨rfl, -⟩ := List.cons.inj heq
      exact absurd (by decide) hc
    · next heq =>
      rw [hcons] at heq
      obtain ⟨rfl, -⟩ := List.cons.inj heq
      exact absurd (by decide) hc
    · rw [readAssignment, hkey]
      simp [expect, hskip, hread]

/-! ## Tables -/

namespace Entries

theorem lookup_append {entries more : Entries} {key : String} (h : key ∉ entries.map Prod.fst) :
    List.lookup key (entries ++ more) = more.lookup key := by
  induction entries with
  | nil => rfl
  | cons entry entries ih =>
    obtain ⟨name, value⟩ := entry
    simp only [List.map_cons, List.mem_cons, not_or] at h
    rw [List.cons_append, List.lookup_cons, beq_eq_false_iff_ne.mpr h.1]
    exact ih h.2

theorem lookup_eq_none {entries : Entries} {key : String} (h : key ∉ entries.map Prod.fst) :
    entries.lookup key = none := by
  rw [← List.append_nil entries, lookup_append h]
  rfl

theorem put_append {entries more : Entries} {key : String} (h : key ∉ entries.map Prod.fst)
    (value : Value) :
    put key value (entries ++ more) = entries ++ put key value more := by
  induction entries with
  | nil => rfl
  | cons entry entries ih =>
    simp only [List.map_cons, List.mem_cons, not_or] at h
    rw [List.cons_append, put, if_neg (Ne.symm h.1), ih h.2, List.cons_append]

theorem put_of_notMem {entries : Entries} {key : String} (h : key ∉ entries.map Prod.fst)
    (value : Value) :
    put key value entries = entries ++ [(key, value)] := by
  rw [← List.append_nil entries, put_append h, List.append_nil]
  rfl

theorem put_last {entries : Entries} {key : String} (h : key ∉ entries.map Prod.fst)
    (old value : Value) :
    put key value (entries ++ [(key, old)]) = entries ++ [(key, value)] := by
  rw [put_append h, put, if_pos rfl]

end Entries

/-- One line for every entry of a table. -/
def assignments (entries : Entries) : List Statement :=
  entries.map fun entry => .assign ⟨[], entry.1⟩ entry.2

theorem assignments_cons (entry : String × Value) (entries : Entries) :
    assignments (entry :: entries) = .assign ⟨[], entry.1⟩ entry.2 :: assignments entries := rfl

/-- A header and the lines below it. -/
def tableStatements (table : String × Entries) : List Statement :=
  .table ⟨[], table.1⟩ :: assignments table.2

variable {entries : Entries} {name : String}

theorem extend_table (h : name ∉ entries.map Prod.fst) (current : List String) :
    Draft.extend ⟨entries, current⟩ (.table ⟨[], name⟩) =
      some ⟨entries ++ [(name, .table .header [])], [name]⟩ := by
  simp [Draft.extend, Entries.openTable, Route.modify, Entries.lookup_eq_none h, Entries.put_of_notMem h]

theorem extend_assign {fields : Entries} {key : String} (hname : name ∉ entries.map Prod.fst)
    (hkey : key ∉ fields.map Prod.fst) (value : Value) :
    Draft.extend ⟨entries ++ [(name, .table .header fields)], [name]⟩ (.assign ⟨[], key⟩ value) =
      some ⟨entries ++ [(name, .table .header (fields ++ [(key, value)]))], [name]⟩ := by
  have hassign : Entries.assign ⟨[], key⟩ value fields = some (fields ++ [(key, value)]) := by
    simp [Entries.assign, Route.modify, Entries.define, Entries.lookup_eq_none hkey,
      Entries.put_of_notMem hkey]
  have hlookup : List.lookup name (entries ++ [(name, Value.table .header fields)]) =
      some (.table .header fields) := by
    rw [Entries.lookup_append hname]
    simp
  simp [Draft.extend, Route.modify, hlookup, Route.passes, hassign, Entries.put_last hname]

/-- One line after the other fills the table opened last. -/
theorem foldlM_assign {fields more : Entries} (hname : name ∉ entries.map Prod.fst)
    (hkeys : ((fields ++ more).map Prod.fst).Nodup) :
    (assignments more).foldlM Draft.extend ⟨entries ++ [(name, .table .header fields)], [name]⟩ =
      some ⟨entries ++ [(name, .table .header (fields ++ more))], [name]⟩ := by
  induction more generalizing fields with
  | nil => simp [assignments]
  | cons entry more ih =>
    have hkey : entry.1 ∉ fields.map Prod.fst := by
      rw [List.map_append, List.nodup_append] at hkeys
      intro hmem
      exact hkeys.2.2 _ hmem entry.1 (by simp) rfl
    rw [← List.singleton_append, ← List.append_assoc] at hkeys
    have hrest := ih hkeys
    rw [List.append_assoc, List.singleton_append] at hrest
    rw [assignments_cons, List.foldlM_cons, extend_assign hname hkey]
    exact hrest

/-- What a table comes out as. -/
def tableEntry (table : String × Entries) : String × Value := (table.1, .table .header table.2)

theorem foldlM_tables {tables : List (String × Entries)} (current : List String)
    (hnames : (entries.map Prod.fst ++ tables.map Prod.fst).Nodup)
    (hkeys : ∀ table ∈ tables, (table.2.map Prod.fst).Nodup) :
    ∃ last, (tables.flatMap tableStatements).foldlM Draft.extend ⟨entries, current⟩ =
      some ⟨entries ++ tables.map tableEntry, last⟩ := by
  induction tables generalizing entries current with
  | nil => exact ⟨current, by simp⟩
  | cons table tables ih =>
    have hname : table.1 ∉ entries.map Prod.fst := by
      rw [List.nodup_append] at hnames
      intro hmem
      exact hnames.2.2 _ hmem table.1 (by simp) rfl
    have hfields : (assignments table.2).foldlM Draft.extend
        ⟨entries ++ [(table.1, .table .header [])], [table.1]⟩ =
          some ⟨entries ++ [tableEntry table], [table.1]⟩ :=
      foldlM_assign hname (hkeys table List.mem_cons_self)
    have hfront : ((entries ++ [tableEntry table]).map Prod.fst ++ tables.map Prod.fst).Nodup := by
      simpa [tableEntry] using hnames
    obtain ⟨last, hrest⟩ := ih [table.1] hfront fun later hlater =>
      hkeys later (List.mem_cons_of_mem _ hlater)
    refine ⟨last, ?_⟩
    rw [List.flatMap_cons, tableStatements, List.cons_append, List.foldlM_cons, extend_table hname,
      Option.bind_eq_bind, Option.bind_some, List.foldlM_append, hfields]
    rw [List.append_assoc, List.singleton_append] at hrest
    exact hrest

/-- Tables of different names, each with different keys, come out as they were written. -/
theorem ofStatements?_tables {tables : List (String × Entries)} (hnames : (tables.map Prod.fst).Nodup)
    (hkeys : ∀ table ∈ tables, (table.2.map Prod.fst).Nodup) :
    Entries.ofStatements? (tables.flatMap tableStatements) = some (tables.map tableEntry) := by
  have hfront : (([] : Entries).map Prod.fst ++ tables.map Prod.fst).Nodup := hnames
  obtain ⟨last, hfold⟩ := foldlM_tables [] hfront hkeys
  rw [Entries.ofStatements?, Draft.empty, hfold]
  rfl

/-- A document is read when its lines are. It must not begin with the mark of a text. -/
theorem parse?_of_reads {text : String} {tables : List (String × Entries)}
    (hmark : text.toList.head? ≠ some '\ufeff') (hreads : Reads text (tables.flatMap tableStatements))
    (hnames : (tables.map Prod.fst).Nodup) (hkeys : ∀ table ∈ tables, (table.2.map Prod.fst).Nodup) :
    parse? text = some (tables.map tableEntry) := by
  have hskip : skipMark text.toList = text.toList := by
    unfold skipMark
    split
    · next heq => exact absurd (by rw [heq]; rfl) hmark
    · rfl
  have hread := hreads 0 [] [] rfl
  rw [Nat.zero_add, List.append_nil, List.append_nil] at hread
  rw [parse?, hskip, hread, Option.bind_some, ofStatements?_tables hnames hkeys]

end SceneEngine.Toml
