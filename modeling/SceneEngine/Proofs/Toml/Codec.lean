/-
What settings need of a library for documents, and that there is one.

A document is only as good as its values: written by a library and read again it has its keys
and whole numbers as they were, and its floats and texts as the library reads what it writes for
them. `KeepsFloats` and `KeepsTexts` say that it reads these well, each in a document of its own
(`Returns`), and `KeepsDocuments` that it reads a document value by value. The standard codec does
(`standard_keepsDocuments`): it writes lines that read as what they were written for, one after
the other.
-/
import Mathlib.Data.List.Forall2
import SceneEngine.Proofs.Toml.Document
import SceneEngine.Toml.Writer

namespace SceneEngine

theorem Binary.same_quiet {f : Format} (hf : f.infinity < f.quietNaN) (x : Binary f) :
    Same x (Toml.quiet x) := by
  unfold Toml.quiet
  split
  · next hnan => exact .inr ⟨hnan, decide_eq_true hf⟩
  · exact .inl rfl

namespace Toml

/-! ## Floats in values -/

/-- A value without parts, another float in the place of a float. -/
def Value.mapScalar (g : F64 → F64) : Value → Value
  | float x => .float (g x)
  | v => v

def Value.mapFloats (g : F64 → F64) : Value → Value
  | array items => .array (items.map (mapScalar g))
  | v => v.mapScalar g

def Entries.mapFloats (g : F64 → F64) (entries : Entries) : Entries :=
  entries.map fun entry => (entry.1, entry.2.mapFloats g)

def Tables.mapFloats (g : F64 → F64) (tables : Tables) : Tables :=
  tables.map fun table => (table.1, Entries.mapFloats g table.2)

/-! ## Libraries -/

/-- Documents without anything out of the ordinary: keys that need no quotes, none of them twice
in one place, and values that fit on a line. -/
structure Tables.Plain (tables : Tables) : Prop where
  names : (tables.map Prod.fst).Nodup
  keys : ∀ table ∈ tables, (table.2.map Prod.fst).Nodup
  bareNames : ∀ table ∈ tables, IsBare table.1
  bareKeys : ∀ table ∈ tables, ∀ entry ∈ table.2, IsBare entry.1
  flat : tables.areFlat = true

namespace Codec

/-- In a document of its own the first value comes back as the second. -/
def Returns (codec : Codec) (v v' : Value) : Prop :=
  ∀ name key, IsBare name → IsBare key → ∃ text, codec.write [(name, [(key, v)])] = some text ∧
    codec.read text = some [tableEntry (name, [(key, v')])]

/-- A float comes back as it was, and a NaN as a NaN. -/
def KeepsFloats (codec : Codec) : Prop :=
  ∀ x : F64, ∃ y, Binary.Same x y ∧ codec.Returns (.float x) (.float y)

/-- A text comes back as it was. -/
def KeepsTexts (codec : Codec) : Prop := ∀ s : String, codec.Returns (.text s) (.text s)

/-- A plain document comes back value by value: its names, keys, integers and truth values as they
were, and if every float comes back as `back` has it and every text as it was, so do its own. -/
def KeepsDocuments (codec : Codec) : Prop :=
  ∀ back : F64 → F64, (∀ x, codec.Returns (.float x) (.float (back x))) → codec.KeepsTexts →
    ∀ tables : Tables, tables.Plain → ∃ text, codec.write tables = some text ∧
      codec.read text = some ((tables.mapFloats back).map tableEntry)

end Codec

/-! ## The standard codec -/

theorem shows_integer {n : Int} (h : (Value.integer n).isScalar = true) :
    Shows (toString n).toList (.integer n) := by
  simp only [Value.isScalar, Bool.and_eq_true, decide_eq_true_eq] at h
  exact shows_toString h.1 h.2

theorem shows_scalarText {v : Value} (h : v.isScalar = true) :
    Shows v.scalarText.toList (v.mapScalar quiet) := by
  cases v with
  | integer n => exact shows_integer h
  | float x => exact shows_renderFloat x
  | boolean b => exact shows_boolean b
  | text s => exact shows_render s
  | moment | array | table | series => cases h

/-- An array of values without parts, which are separated by commas. -/
theorem assigned_items {items : List Value} (h : ∀ v ∈ items, v.isScalar = true) :
    Assigned (Value.array items).lineText.toList ((Value.array items).mapFloats quiet) := by
  have htext : (Value.array items).lineText.toList =
      '[' :: [',', ' '].intercalate (items.map fun v => v.scalarText.toList) ++ [']'] := by
    simp [Value.lineText, String.toList_intercalate, Function.comp_def]
  have hshows : List.Forall₂ Shows (items.map fun v => v.scalarText.toList)
      (items.map (Value.mapScalar quiet)) := by
    rw [List.forall₂_map_left_iff, List.forall₂_map_right_iff, List.forall₂_same]
    exact fun v hv => shows_scalarText (h v hv)
  rw [htext]
  exact assigned_array hshows

theorem assigned_lineText {v : Value} (h : v.isFlat = true) :
    Assigned v.lineText.toList (v.mapFloats quiet) := by
  cases v with
  | array items => exact assigned_items (List.all_eq_true.mp h)
  | integer n => exact (shows_scalarText (v := .integer n) h).assigned
  | float x => exact (shows_scalarText (v := .float x) h).assigned
  | boolean b => exact (shows_scalarText (v := .boolean b) h).assigned
  | text s => exact (shows_scalarText (v := .text s) h).assigned
  | moment | table | series => cases h

theorem reads_entryText {entry : String × Value} (hkey : IsBare entry.1) (h : entry.2.isFlat = true) :
    Reads (Tables.entryText entry) [.assign ⟨[], entry.1⟩ (entry.2.mapFloats quiet)] :=
  reads_line hkey (assigned_lineText h)

theorem reads_entryTexts {entries : Entries} (hkeys : ∀ entry ∈ entries, IsBare entry.1)
    (h : ∀ entry ∈ entries, entry.2.isFlat = true) :
    Reads (String.join (entries.map Tables.entryText))
      (assignments (Entries.mapFloats quiet entries)) := by
  induction entries with
  | nil => exact reads_empty
  | cons entry rest ih =>
    rw [List.map_cons, String.join_cons]
    have hrest := ih (fun e he => hkeys e (by simp [he])) fun e he => h e (by simp [he])
    exact (reads_entryText (hkeys entry (by simp)) (h entry (by simp))).append hrest

theorem reads_tableText {table : String × Entries} (hname : IsBare table.1)
    (hkeys : ∀ entry ∈ table.2, IsBare entry.1) (h : ∀ entry ∈ table.2, entry.2.isFlat = true) :
    Reads (Tables.tableText table) (tableStatements (table.1, Entries.mapFloats quiet table.2)) :=
  (reads_header hname).append (reads_entryTexts hkeys h)

theorem Tables.text_cons_cons (table next : String × Entries) (rest : Tables) :
    Tables.text (table :: next :: rest) = tableText table ++ "\n" ++ Tables.text (next :: rest) :=
  String.intercalate_cons_of_ne_nil (by simp)

theorem reads_text {tables : Tables} (hnames : ∀ table ∈ tables, IsBare table.1)
    (hkeys : ∀ table ∈ tables, ∀ entry ∈ table.2, IsBare entry.1)
    (h : ∀ table ∈ tables, ∀ entry ∈ table.2, entry.2.isFlat = true) :
    Reads tables.text ((Tables.mapFloats quiet tables).flatMap tableStatements) := by
  induction tables with
  | nil => exact reads_empty
  | cons table rest ih =>
    have hfirst := reads_tableText (hnames table (by simp)) (hkeys table (by simp)) (h table (by simp))
    have hrest := ih (fun t ht => hnames t (by simp [ht])) (fun t ht => hkeys t (by simp [ht]))
      fun t ht => h t (by simp [ht])
    cases rest with
    | nil => simpa [Tables.text, Tables.mapFloats] using hfirst
    | cons next rest =>
      rw [Tables.text_cons_cons]
      simpa [Tables.mapFloats] using (hfirst.append reads_newline).append hrest

/-- A document that begins with a header does not begin with the mark of a text. -/
theorem head?_text (tables : Tables) : tables.text.toList.head? ≠ some '\ufeff' := by
  cases tables with
  | nil => simp [Tables.text]
  | cons table rest =>
    cases rest with
    | nil => simp [Tables.text, Tables.tableText]
    | cons next rest => simp [Tables.text_cons_cons, Tables.tableText]

/-- Plain documents read back, every NaN without its payload. -/
theorem parse?_text {tables : Tables} (h : tables.Plain) :
    parse? tables.text = some ((Tables.mapFloats quiet tables).map tableEntry) := by
  have hflat : ∀ table ∈ tables, ∀ entry ∈ table.2, entry.2.isFlat = true := by
    simpa [Tables.areFlat] using h.flat
  refine parse?_of_reads (head?_text tables) (reads_text h.bareNames h.bareKeys hflat) ?_ ?_
  · simpa [Tables.mapFloats, Function.comp_def] using h.names
  · intro table htable
    obtain ⟨old, hold, rfl⟩ := List.mem_map.mp htable
    simpa [Entries.mapFloats, Function.comp_def] using h.keys old hold

namespace Codec

variable {codec : Codec} {v v' : Value}

/-- A value does not come back in two ways. -/
theorem Returns.unique (h : codec.Returns v v') {other : Value} (hother : codec.Returns v other) :
    v' = other := by
  obtain ⟨text, hwrite, hread⟩ := h "a" "a" (by decide) (by decide)
  obtain ⟨text', hwrite', hread'⟩ := hother "a" "a" (by decide) (by decide)
  obtain rfl := Option.some.inj (hwrite.symm.trans hwrite')
  simpa [tableEntry] using hread.symm.trans hread'

theorem standard_write {tables : Tables} (h : tables.Plain) :
    standard.write tables = some tables.text := if_pos h.flat

theorem standard_returns (h : v.isFlat = true) : standard.Returns v (v.mapFloats quiet) := by
  intro name key hname hkey
  have hplain : Tables.Plain [(name, [(key, v)])] :=
    ⟨by simp, by simp, by simpa using hname, by simpa using hkey, by simpa [Tables.areFlat] using h⟩
  exact ⟨_, standard_write hplain, parse?_text hplain⟩

theorem standard_keepsFloats : standard.KeepsFloats := fun x =>
  ⟨quiet x, Binary.same_quiet (by decide) x, standard_returns (v := .float x) rfl⟩

theorem standard_keepsTexts : standard.KeepsTexts := fun s => standard_returns (v := .text s) rfl

theorem standard_keepsDocuments : standard.KeepsDocuments := by
  intro back hback _ tables h
  obtain rfl : back = quiet := funext fun x =>
    Value.float.inj ((hback x).unique (standard_returns (v := .float x) rfl))
  exact ⟨_, standard_write h, parse?_text h⟩

end Codec

end Toml

end SceneEngine
