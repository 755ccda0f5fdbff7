import Mathlib.Data.List.Dedup
import Houdinny.Lib.Text

/-!
# TOML documents

The value of a TOML document is a table (`Table`). Programs that write TOML
write documents of a small fragment (`Doc`), line by line: comments, empty
lines, headers `[name]` and `[[name]]` with bare names, and pairs of a bare key
and a basic string without escapes. Such a document has the rendering
`Doc.render`, and, where no key is defined twice (`Doc.WellFormed`), the value
`Doc.value` that TOML 1.0 gives it.

A well-formed document can be read back from its rendering
(`read_eq_some_iff`).

Programs paste texts between quotes. A text that stands for itself there is `Plain`, which
is decidable, and kept by case mappings in both directions (`plain_toLowercase`,
`plain_toUppercase`). The documents with other texts have a rendering too, but they are not
well-formed, and what becomes of their rendering is a matter for a reader of all of TOML:
see `Lib.Toml.Reader`, and `Lib.Toml.Blocks` for what it makes of blocks.

Most of the documents are made of blocks for the elements of one array (`Doc.block`). The
value of such a document is put together from the values of the blocks (`Doc.value_of_split`).
-/

namespace Toml

/-- A TOML value. Floats and dates are given by their texts. -/
inductive Value
  | string (s : Text)
  | integer (n : ℤ)
  | float (repr : Text)
  | boolean (b : Bool)
  | datetime (repr : Text)
  | array (vs : List Value)
  | table (entries : List (Text × Value))

/-- A TOML table: its entries, of which the order is of no importance. -/
abbrev Table := List (Text × Value)

/-! ## Documents -/

/-- A line of a document. -/
inductive Line
  | comment (s : Text)
  | blank
  | table (name : Text)
  | element (name : Text)
  | pair (key value : Text)
  deriving DecidableEq

/-- A document, line by line. -/
abbrev Doc := List Line

/-- The text of a line, without its newline. -/
def Line.render : Line → Text
  | comment s => '#' :: s
  | blank => []
  | table name => "[".toList ++ name ++ "]".toList
  | element name => "[[".toList ++ name ++ "]]".toList
  | pair key value => key ++ " = \"".toList ++ value ++ "\"".toList

/-- The text of a document. -/
def Doc.render (d : Doc) : Text := d.flatMap fun l => l.render ++ ['\n']

/-- A character that a comment or a basic string cannot have. -/
def isControl (c : Char) : Bool := (c.toNat < 0x20 && c != '\t') || c.toNat == 0x7F

/-- A character that stands for itself in a basic string. -/
def isPlain (c : Char) : Bool := !isControl c && c != '"' && c != '\\'

/-- A character of a bare key. -/
def isBare (c : Char) : Bool := c.isAlphanum || c == '_' || c == '-'

/-- A bare key. -/
def Bare (k : Text) : Prop := k ≠ [] ∧ ∀ c ∈ k, isBare c = true

/-- A text that stands for itself in a basic string. -/
def Plain (s : Text) : Prop := ∀ c ∈ s, isPlain c = true

/-- Lower-case letters, and what is not ASCII, stand for themselves. -/
theorem isPlain_of_toNat {c : Char} (h : 97 ≤ c.toNat ∧ c.toNat ≤ 122 ∨ 128 ≤ c.toNat) :
    isPlain c = true := by
  have hquote : c ≠ '"' := by rintro rfl; revert h; decide
  have hbackslash : c ≠ '\\' := by rintro rfl; revert h; decide
  have hcontrol : isControl c = false := by
    have hle : ¬c.toNat < 0x20 := by omega
    have hne : c.toNat ≠ 0x7F := by omega
    simp [isControl, hle, hne]
  simp [isPlain, hcontrol, hquote, hbackslash]

/-- Two plain texts make one. -/
theorem Plain.append {s t : Text} (hs : Plain s) (ht : Plain t) : Plain (s ++ t) :=
  fun c hc => (List.mem_append.1 hc).elim (hs c) (ht c)

/-- Lower case needs no escapes where there were none. -/
theorem Plain.toLowercase {s : Text} (h : Plain s) (casing : Text.CaseMapping) :
    Plain (casing.toLowercase s) := by
  intro c hc
  rcases casing.lower_mem s c hc with hmem | hlower | hascii
  · exact h c hmem
  · exact isPlain_of_toNat (.inl (Text.toNat_of_isLower hlower))
  · exact isPlain_of_toNat (.inr hascii)

/-- And only these do. -/
@[simp]
theorem plain_append {s t : Text} : Plain (s ++ t) ↔ Plain s ∧ Plain t :=
  List.forall_mem_append

/-- So do digits. -/
theorem plain_ofNat (n : ℕ) : Plain (Text.ofNat n) := by
  intro c hc
  have hdigit := Text.isDigit_of_mem_ofNat hc
  have hle : c.toNat ≤ 57 :=
    UInt32.le_iff_toNat_le.1 (of_decide_eq_true (Bool.and_eq_true_iff.1 hdigit).2)
  have hall : ∀ n < 128, (Char.ofNat n).isDigit = true → isPlain (Char.ofNat n) = true := by decide
  exact Text.forall_ascii (p := fun c => c.isDigit = true → isPlain c = true) hall (by omega) hdigit

/-- Lower case keeps what needs escapes. -/
theorem plain_toLowercase {casing : Text.CaseMapping} (hcasing : casing.KeepsAscii) {s : Text} :
    Plain (casing.toLowercase s) ↔ Plain s := by
  refine ⟨fun h c hc => ?_, fun h => h.toLowercase casing⟩
  by_cases hascii : c.toNat < 128
  · have hall : ∀ n < 128, isPlain (Char.ofNat n).toLower = true →
        isPlain (Char.ofNat n) = true := by decide
    exact Text.forall_ascii (p := fun c => isPlain c.toLower = true → isPlain c = true) hall hascii
      (h _ (hcasing.lower s c hc hascii))
  · exact isPlain_of_toNat (.inr (Nat.le_of_not_lt hascii))

/-- So does upper case. -/
theorem plain_toUppercase {casing : Text.CaseMapping} (hcasing : casing.KeepsAscii) {s : Text} :
    Plain (casing.toUppercase s) ↔ Plain s := by
  constructor
  · intro h c hc
    by_cases hascii : c.toNat < 128
    · have hall : ∀ n < 128, isPlain (Char.ofNat n).toUpper = true →
          isPlain (Char.ofNat n) = true := by decide
      exact Text.forall_ascii (p := fun c => isPlain c.toUpper = true → isPlain c = true) hall
        hascii (h _ (hcasing.upper s c hc hascii))
    · exact isPlain_of_toNat (.inr (Nat.le_of_not_lt hascii))
  · intro h c hc
    rcases hcasing.upper_mem s c hc with hmem | hupper | hascii
    · exact h c hmem
    · have hall : ∀ n < 128, (Char.ofNat n).isUpper = true → isPlain (Char.ofNat n) = true := by
        decide
      have hle := Text.toNat_of_isUpper hupper
      exact Text.forall_ascii (p := fun c => c.isUpper = true → isPlain c = true) hall
        (by omega) hupper
    · exact isPlain_of_toNat (.inr hascii)

instance (s : Text) : Decidable (Plain s) := List.decidableBAll (isPlain · = true) s

instance (k : Text) : Decidable (Bare k) :=
  @instDecidableAnd _ _ inferInstance (List.decidableBAll (isBare · = true) k)

/-- Documents are rendered one after the other. -/
theorem Doc.render_append (d d' : Doc) : Doc.render (d ++ d') = d.render ++ d'.render :=
  List.flatMap_append

/-- Each line ends in a newline. -/
theorem Doc.render_cons (l : Line) (d : Doc) :
    Doc.render (l :: d) = l.render ++ '\n' :: d.render := by
  rw [render, List.flatMap_cons, List.append_assoc]
  rfl

/-- A line that is valid TOML. -/
def Line.WellFormed : Line → Prop
  | comment s => ∀ c ∈ s, isControl c = false
  | blank => True
  | table name | element name => Bare name
  | pair key value => Bare key ∧ Plain value

instance : DecidablePred Line.WellFormed
  | .comment s => List.decidableBAll (isControl · = false) s
  | .blank => inferInstanceAs (Decidable True)
  | .table name => inferInstanceAs (Decidable (Bare name))
  | .element name => inferInstanceAs (Decidable (Bare name))
  | .pair _ _ => inferInstanceAs (Decidable (_ ∧ _))

/-! ## Values -/

/-- The header of a block of pairs. -/
inductive Header
  | table (name : Text)
  | element (name : Text)
  deriving DecidableEq

/-- Pairs of keys and strings. -/
abbrev Pairs := List (Text × Text)

/-- The pairs before the first header, and the blocks of the headers. -/
def Doc.split : Doc → Pairs × List (Header × Pairs)
  | [] => ([], [])
  | .pair key value :: d => ((key, value) :: (split d).1, (split d).2)
  | .table name :: d => ([], (.table name, (split d).1) :: (split d).2)
  | .element name :: d => ([], (.element name, (split d).1) :: (split d).2)
  | .comment _ :: d | .blank :: d => split d

/-- The value of a block. -/
def tableOf (p : Pairs) : Table := p.map fun kv => (kv.1, .string kv.2)

/-- The blocks of the tables. -/
def Doc.tables (d : Doc) : List (Text × Pairs) := d.split.2.filterMap fun
  | (.table name, p) => some (name, p)
  | (.element _, _) => none

/-- The blocks of the elements of arrays. -/
def Doc.elements (d : Doc) : List (Text × Pairs) := d.split.2.filterMap fun
  | (.table _, _) => none
  | (.element name, p) => some (name, p)

/-- The names of the arrays. -/
def Doc.arrays (d : Doc) : List Text := (d.elements.map Prod.fst).dedup

/-- The elements of the array `name`. -/
def Doc.array (d : Doc) (name : Text) : List Value :=
  (d.elements.filter (·.1 = name)).map fun b => .table (tableOf b.2)

/-- The value of a document. -/
def Doc.value (d : Doc) : Table :=
  tableOf d.split.1 ++ d.tables.map (fun b => (b.1, .table (tableOf b.2))) ++
    d.arrays.map fun name => (name, .array (d.array name))

/-- All lines are valid, and no key is defined twice. -/
def Doc.WellFormed (d : Doc) : Prop :=
  (∀ l ∈ d, l.WellFormed) ∧ (∀ b ∈ d.split.2, (b.2.map Prod.fst).Nodup) ∧
    (d.split.1.map Prod.fst ++ d.tables.map Prod.fst ++ d.arrays).Nodup

instance (d : Doc) : Decidable d.WellFormed := inferInstanceAs (Decidable (_ ∧ _ ∧ _))

/-! ## Arrays of tables -/

/-- The block of an element of the array `name`. -/
def Doc.block (name : Text) (p : Pairs) : Doc :=
  .blank :: .element name :: p.map fun kv => .pair kv.1 kv.2

/-- Pairs belong to the header before them. -/
theorem Doc.split_pairs_append (p : Pairs) (d : Doc) :
    split ((p.map fun kv => .pair kv.1 kv.2) ++ d) = (p ++ (split d).1, (split d).2) := by
  induction p with
  | nil => rfl
  | cons kv p ih => rw [List.map_cons, List.cons_append, split, ih]; rfl

/-- Blocks are split into their pairs. -/
theorem Doc.split_blocks (name : Text) (ps : List Pairs) :
    split (ps.flatMap (block name)) = ([], ps.map fun p => (.element name, p)) := by
  induction ps with
  | nil => rfl
  | cons p ps ih =>
    rw [List.flatMap_cons, block, List.cons_append, List.cons_append, split, split,
      split_pairs_append, ih, List.append_nil, List.map_cons]

section

variable {d : Doc} {name : Text} {ps : List Pairs}

/-- A document of blocks has no tables. -/
theorem Doc.tables_of_split (h : d.split = ([], ps.map fun p => (.element name, p))) :
    d.tables = [] := by
  rw [tables, h, List.filterMap_map]
  exact List.filterMap_eq_nil_iff.2 fun p _ => rfl

/-- A document of blocks has one element for each of them. -/
theorem Doc.elements_of_split (h : d.split = ([], ps.map fun p => (.element name, p))) :
    d.elements = ps.map fun p => (name, p) := by
  rw [elements, h, List.filterMap_map]
  exact congrFun (List.filterMap_eq_map (f := fun p => (name, p))) ps

/-- A document of blocks has one array. -/
theorem Doc.arrays_of_split (hne : ps ≠ [])
    (h : d.split = ([], ps.map fun p => (.element name, p))) : d.arrays = [name] := by
  have hnames : d.elements.map Prod.fst = List.replicate ps.length name := by
    rw [elements_of_split h, List.map_map, List.eq_replicate_iff]
    refine ⟨List.length_map _, fun n hn => ?_⟩
    obtain ⟨p, _, rfl⟩ := List.mem_map.1 hn
    rfl
  rw [arrays, hnames]
  exact List.replicate_dedup (fun hlen => hne (List.length_eq_zero_iff.1 hlen))

/-- The value of a document of blocks. -/
theorem Doc.value_of_split (hne : ps ≠ [])
    (h : d.split = ([], ps.map fun p => (.element name, p))) :
    d.value = [(name, .array (ps.map fun p => .table (tableOf p)))] := by
  have harray : d.array name = ps.map fun p => .table (tableOf p) := by
    rw [array, elements_of_split h, List.filter_eq_self.2, List.map_map]
    · rfl
    · intro b hb
      obtain ⟨p, _, rfl⟩ := List.mem_map.1 hb
      exact decide_eq_true rfl
  rw [value, tables_of_split h, arrays_of_split hne h, h, List.map_singleton, harray]
  rfl

/-- A document of blocks is well-formed if its lines are, and no block has a key
    twice. -/
theorem Doc.wellFormed_of_split (hne : ps ≠ [])
    (h : d.split = ([], ps.map fun p => (.element name, p)))
    (hlines : ∀ l ∈ d, l.WellFormed) (hkeys : ∀ p ∈ ps, (p.map Prod.fst).Nodup) :
    d.WellFormed := by
  refine ⟨hlines, fun b hb => ?_, ?_⟩
  · rw [h] at hb
    obtain ⟨p, hp, rfl⟩ := List.mem_map.1 hb
    exact hkeys p hp
  · rw [tables_of_split h, arrays_of_split hne h, h]
    simp

/-- The lines of a block: a blank one, the header, and the pairs. -/
theorem Doc.forall_mem_block {p : Pairs} {P : Line → Prop} : (∀ l ∈ block name p, P l) ↔
    P .blank ∧ P (.element name) ∧ ∀ kv ∈ p, P (.pair kv.1 kv.2) := by
  rw [block, List.forall_mem_cons, List.forall_mem_cons, List.forall_mem_map]

/-- The lines of a block are well-formed if the name and the keys are bare, and
    the values are plain. -/
theorem Doc.wellFormed_of_mem_block {p : Pairs} (hname : Bare name)
    (hp : ∀ kv ∈ p, Bare kv.1 ∧ Plain kv.2) : ∀ l ∈ block name p, l.WellFormed :=
  forall_mem_block.2 ⟨trivial, hname, hp⟩

end

/-! ## Reading -/

/-- A line that has the given rendering, if any does. -/
def readLine (s : Text) : Line :=
  match s.dropPrefix? "#".toList, s.dropPrefix? "[[".toList, s.dropPrefix? "[".toList with
  | some rest, _, _ => .comment rest
  | none, some rest, _ => .element (rest.take (rest.length - 2))
  | none, none, some rest => .table rest.dropLast
  | none, none, none => match Text.splitOnce " = \"".toList s with
    | some (key, value) => .pair key value.dropLast
    | none => .blank

/-- The well-formed document with the given rendering. -/
def read (s : Text) : Option Doc :=
  let d : Doc := (s.splitOn '\n').dropLast.map readLine
  if d.WellFormed ∧ d.render = s then some d else none

/-- What a text starts with is dropped only if it does. -/
theorem dropPrefix?_eq_none {p s : Text} (h : ¬p <+: s) : s.dropPrefix? p = none := by
  rw [Option.eq_none_iff_forall_ne_some]
  rintro t ht
  exact h ⟨t, (Text.eq_append_of_dropPrefix? ht).symm⟩

/-- A bare key has none of the characters that mean something else. -/
theorem Bare.notMem {k : Text} (h : Bare k) {c : Char} (hc : isBare c = false) : c ∉ k :=
  fun hmem => absurd ((h.2 c hmem).symm.trans hc) (by simp)

/-- A bare key starts with none of the characters that mark the other lines. -/
theorem Bare.not_startsWith {k s : Text} (h : Bare k) {c : Char} {p : Text}
    (hc : isBare c = false) : ¬c :: p <+: k ++ s := by
  obtain ⟨hne, hall⟩ := h
  rcases k with _ | ⟨a, k⟩
  · exact absurd rfl hne
  · rw [List.cons_append, List.cons_prefix_cons]
    rintro ⟨rfl, _⟩
    exact absurd ((hall _ List.mem_cons_self).symm.trans hc) (by simp)

/-- A line is read back from its rendering. -/
theorem readLine_render {l : Line} (h : l.WellFormed) : readLine l.render = l := by
  cases l with
  | comment s => simp [readLine, Line.render, List.dropPrefix?]
  | blank => rfl
  | table name =>
    have h₁ : (Line.table name).render.dropPrefix? "#".toList = none := by
      exact dropPrefix?_eq_none (by simp [Line.render])
    have h₂ : (Line.table name).render.dropPrefix? "[[".toList = none := by
      refine dropPrefix?_eq_none ?_
      simpa [Line.render] using h.not_startsWith (s := "]".toList) (c := '[') (p := []) rfl
    have h₃ : (Line.table name).render.dropPrefix? "[".toList = some (name ++ "]".toList) := by
      rw [Line.render, List.append_assoc, Text.dropPrefix?_append]
    simp only [readLine, h₁, h₂, h₃]
    simp
  | element name =>
    have h₁ : (Line.element name).render.dropPrefix? "#".toList = none := by
      exact dropPrefix?_eq_none (by simp [Line.render])
    have h₂ : (Line.element name).render.dropPrefix? "[[".toList = some (name ++ "]]".toList) := by
      rw [Line.render, List.append_assoc, Text.dropPrefix?_append]
    simp only [readLine, h₁, h₂]
    simp
  | pair key value =>
    -- A pair starts with its key, and the key with none of the marks.
    have h₀ (c : Char) (p : Text) (hc : isBare c = false) :
        (Line.pair key value).render.dropPrefix? (c :: p) = none := by
      refine dropPrefix?_eq_none ?_
      simpa only [Line.render, List.append_assoc] using h.1.not_startsWith hc
    have h₁ : Text.splitOnce " = \"".toList (Line.pair key value).render =
        some (key, value ++ "\"".toList) := by
      rw [Line.render, List.append_assoc]
      exact Text.splitOnce_append (h.1.notMem rfl)
    have h₂ : (Line.pair key value).render.dropPrefix? "#".toList = none := h₀ '#' [] rfl
    have h₃ : (Line.pair key value).render.dropPrefix? "[[".toList = none := h₀ '[' ['['] rfl
    have h₄ : (Line.pair key value).render.dropPrefix? "[".toList = none := h₀ '[' [] rfl
    simp only [readLine, h₁, h₂, h₃, h₄]
    simp

/-- A valid line has no newline. -/
theorem newline_notMem_render {l : Line} (h : l.WellFormed) : '\n' ∉ l.render := by
  cases l with
  | comment s =>
    rw [Line.render, List.mem_cons, not_or]
    exact ⟨by decide, fun hmem => absurd (h _ hmem) (by decide)⟩
  | blank => exact List.not_mem_nil
  | table name => simpa [Line.render] using h.notMem (c := '\n') rfl
  | element name => simpa [Line.render] using h.notMem (c := '\n') rfl
  | pair key value =>
    have hv : '\n' ∉ value := fun hmem => absurd (h.2 _ hmem) (by decide)
    simpa [Line.render, hv] using h.1.notMem (c := '\n') rfl

/-- A rendering is cut into its lines. -/
theorem splitOn_render {d : Doc} (h : ∀ l ∈ d, l.WellFormed) :
    d.render.splitOn '\n' = d.map Line.render ++ [[]] := by
  induction d with
  | nil => rfl
  | cons l d ih =>
    rw [List.forall_mem_cons] at h
    rw [Doc.render_cons, List.splitOn_append_cons_self_of_not_mem (newline_notMem_render h.1),
      ih h.2]
    rfl

/-- The documents read are the well-formed ones, from their renderings. -/
theorem read_eq_some_iff {s : Text} {d : Doc} : read s = some d ↔ d.WellFormed ∧ d.render = s := by
  constructor
  · intro h
    rw [read] at h
    split_ifs at h with hs
    exact Option.some.inj h ▸ hs
  · rintro ⟨hd, rfl⟩
    -- The lines are cut at the newlines, and each is read back.
    have hread : ((Doc.render d).splitOn '\n').dropLast.map readLine = d := by
      rw [splitOn_render hd.1, List.dropLast_concat, List.map_map]
      exact (List.map_congr_left fun l hl => readLine_render (hd.1 l hl)).trans d.map_id
    simp only [read, hread]
    exact if_pos ⟨hd, trivial⟩

end Toml
