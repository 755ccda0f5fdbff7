import Mathlib.Data.List.DropRight
import Mathlib.Data.List.Infix
import Mathlib.Tactic.Common

/-!
# Text

A string of a program is the list of its Unicode scalar values (`Text`). The
operations are those of a systems language's standard library, each with the
lemmas that say what it returns:

* `splitOnce`, `rsplitOnce`, `splitInclusive`: cutting at the first, the last, or
  after every separator;
* `trim`, `trimEnd`, `splitWhitespace`: white space is the Unicode
  `White_Space` property (`isWhitespace`);
* `lines`: the lines of a text, without their ends;
* `ofNat`, `parseUnsigned`: decimal numbers, written without sign and read
  with an optional `+` (`parseUnsigned_ofNat`);
* `decodeUtf8`, `encodeUtf8`: the bytes of a text (`decodeUtf8_encodeUtf8`), and
  `fromUtf8Lossy` for bytes that need not be valid (`fromUtf8Lossy_encodeUtf8`).

A proof about a parser has mostly one of two things to say: that a text, which is given in
parts, is cut between them (`splitOnce_append`, `rsplitOnce_append`, `lines_append_cons`),
or that the parts of a text that was cut make it up again (`eq_of_splitOnce`,
`eq_of_rsplitOnce`). The side condition of the former is that a separator is not in one of
the parts.

The case mappings of Unicode are tables. A `CaseMapping` is any pair of
functions that agrees with them as far as ASCII is concerned; where more of them is needed,
it is asked for by name (`KeepsAscii`, `UppersByChar`), and the mapping of the ASCII letters
alone has it.
-/

/-- A text: a sequence of Unicode scalar values. -/
abbrev Text := List Char

/-- A sequence of bytes. -/
abbrev Bytes := List UInt8

namespace Text

/-! ## White space -/

/-- The Unicode `White_Space` property. -/
def isWhitespace (c : Char) : Bool :=
  let n := c.toNat
  (9 ≤ n && n ≤ 13) || n == 0x20 || n == 0x85 || n == 0xA0 || n == 0x1680 ||
    (0x2000 ≤ n && n ≤ 0x200A) || n == 0x2028 || n == 0x2029 || n == 0x202F ||
    n == 0x205F || n == 0x3000

/-- A text without its leading white space. -/
def trimStart (s : Text) : Text := s.dropWhile isWhitespace

/-- A text without its trailing white space. -/
def trimEnd (s : Text) : Text := s.rdropWhile isWhitespace

/-- A text without the white space around it. -/
def trim (s : Text) : Text := trimEnd (trimStart s)

section

variable {c : Char}

/-- A character that is not white space ends the leading white space. -/
theorem trimStart_append_cons (hc : isWhitespace c = false) (s t : Text) :
    trimStart (s ++ c :: t) = trimStart s ++ c :: t := by
  induction s with
  | nil => exact List.dropWhile_cons_of_neg (by rw [hc]; decide)
  | cons d s ih =>
    rw [trimStart, List.cons_append, List.dropWhile_cons, trimStart, List.dropWhile_cons]
    split_ifs
    · exact ih
    · rfl

/-- A character that is not white space starts no trailing white space. -/
theorem trimEnd_append_cons (hc : isWhitespace c = false) (s t : Text) :
    trimEnd (s ++ c :: t) = s ++ c :: trimEnd t := by
  induction t using List.reverseRecOn with
  | nil => exact List.rdropWhile_concat_neg _ _ _ (by rw [hc]; decide)
  | append_singleton t d ih =>
    rw [trimEnd, ← List.cons_append, ← List.append_assoc, List.rdropWhile_concat, trimEnd,
      List.rdropWhile_concat]
    split_ifs
    · exact ih
    · rw [List.append_assoc, List.cons_append]

/-- A character that is not white space stays, and what is around it is trimmed on its side. -/
theorem trim_append_cons (hc : isWhitespace c = false) (s t : Text) :
    trim (s ++ c :: t) = trimStart s ++ c :: trimEnd t := by
  rw [trim, trimStart_append_cons hc, trimEnd_append_cons hc]

/-- White space, or a text with a character that is none. -/
theorem isWhitespace_or_exists (s : Text) :
    (∀ c ∈ s, isWhitespace c = true) ∨ ∃ a c b, s = a ++ c :: b ∧ isWhitespace c = false := by
  by_cases h : ∀ c ∈ s, isWhitespace c = true
  · exact .inl h
  · push Not at h
    obtain ⟨c, hmem, hc⟩ := h
    obtain ⟨a, b, rfl⟩ := List.append_of_mem hmem
    exact .inr ⟨a, c, b, rfl, by simpa using hc⟩

/-- Trimming after the start was trimmed is trimming. -/
theorem trim_trimStart (s : Text) : trim (trimStart s) = trim s :=
  congrArg trimEnd (List.dropWhile_idempotent _ _)

/-- Nothing is left of white space. -/
theorem trim_of_isWhitespace {s : Text} (h : ∀ c ∈ s, isWhitespace c = true) : trim s = [] := by
  rw [trim, trimStart, List.dropWhile_eq_nil_iff.2 h]
  rfl

/-- What leaves nothing has nothing but leading white space. -/
theorem trim_eq_nil_iff {s : Text} : trim s = [] ↔ trimStart s = [] := by
  rcases isWhitespace_or_exists s with h | ⟨a, c, b, rfl, hc⟩
  · exact iff_of_true (trim_of_isWhitespace h) (List.dropWhile_eq_nil_iff.2 h)
  · rw [trim_append_cons hc, trimStart_append_cons hc]
    exact iff_of_false (by simp) (by simp)

/-- Trimming after the end was trimmed is trimming. -/
theorem trim_trimEnd (s : Text) : trim (trimEnd s) = trim s := by
  rcases isWhitespace_or_exists s with h | ⟨a, c, b, rfl, hc⟩
  · rw [trimEnd, List.rdropWhile_eq_nil_iff.2 h, trim_of_isWhitespace h]
    rfl
  · rw [trimEnd_append_cons hc, trim_append_cons hc, trim_append_cons hc]
    exact congrArg (_ ++ _ :: ·) (List.rdropWhile_idempotent _ _)

/-- There is nothing to be trimmed a second time. -/
theorem trim_trim (s : Text) : trim (trim s) = trim s :=
  (trim_trimEnd (trimStart s)).trans (trim_trimStart s)

/-- What is dropped, is white space. -/
theorem mem_trim (hc : isWhitespace c = false) {s : Text} : c ∈ trim s ↔ c ∈ s := by
  constructor
  · exact fun h => (List.dropWhile_sublist _).subset ((List.rdropWhile_prefix _ _).subset h)
  · intro h
    obtain ⟨a, b, rfl⟩ := List.append_of_mem h
    rw [trim_append_cons hc]
    exact List.mem_append_right _ List.mem_cons_self

end

/-- The maximal runs of characters that are not white space. -/
def splitWhitespace (s : Text) : List Text :=
  (s.splitOnP isWhitespace).filter fun w => !w.isEmpty

/-- What holds of the characters of a text can be tested on them, one by one. -/
theorem forall_mem_of_all {p : Char → Prop} [DecidablePred p] {s : Text}
    (h : s.all (p ·) = true) : ∀ c ∈ s, p c := fun c hc =>
  of_decide_eq_true (List.all_eq_true.1 h c hc)

/-- A text without white space. -/
def Solid (s : Text) : Prop := ∀ c ∈ s, isWhitespace c = false

instance (s : Text) : Decidable (Solid s) :=
  List.decidableBAll (fun c => isWhitespace c = false) s

/-- Two texts are without white space if both are. -/
theorem solid_append {s t : Text} : Solid (s ++ t) ↔ Solid s ∧ Solid t := List.forall_mem_append

/-- A word before white space is split off. -/
theorem splitWhitespace_append_cons {w : Text} {c : Char} (hw : w ≠ []) (hsolid : Solid w)
    (hc : isWhitespace c = true) (s : Text) :
    splitWhitespace (w ++ c :: s) = w :: splitWhitespace s := by
  rw [splitWhitespace, List.splitOnP_append_cons_of_forall_mem hsolid c hc,
    List.filter_cons_of_pos (by simpa using hw)]
  rfl

/-- Words are without white space. -/
theorem solid_of_mem_splitWhitespace {w s : Text} (h : w ∈ splitWhitespace s) :
    w ≠ [] ∧ Solid w := by
  obtain ⟨hmem, hne⟩ := List.mem_filter.1 h
  refine ⟨by simpa using hne, ?_⟩
  clear h hne
  induction s generalizing w with
  | nil =>
    obtain rfl := List.mem_singleton.1 (List.splitOnP_nil .. ▸ hmem)
    exact fun c hc => absurd hc List.not_mem_nil
  | cons c s ih =>
    rw [List.splitOnP_cons_eq_if_modifyHead] at hmem
    split_ifs at hmem with hc
    · rcases List.mem_cons.1 hmem with rfl | hmem
      · exact fun c hc => absurd hc List.not_mem_nil
      · exact ih hmem
    · -- The first word goes on to the left.
      rcases hwords : s.splitOnP isWhitespace with _ | ⟨first, words⟩
      · exact absurd hwords (List.splitOnP_ne_nil _ _)
      · rw [hwords, List.modifyHead_cons] at hmem
        rw [hwords] at ih
        rcases List.mem_cons.1 hmem with rfl | hmem
        · exact List.forall_mem_cons.2 ⟨Bool.eq_false_iff.2 hc, ih List.mem_cons_self⟩
        · exact ih (List.mem_cons_of_mem _ hmem)

/-- A text without words is white space. -/
theorem isWhitespace_of_splitWhitespace {s : Text} (h : splitWhitespace s = []) :
    ∀ c ∈ s, isWhitespace c = true := by
  induction s with
  | nil => exact fun c hc => absurd hc List.not_mem_nil
  | cons c s ih =>
    rw [splitWhitespace, List.splitOnP_cons_eq_if_modifyHead] at h
    split_ifs at h with hc
    · exact List.forall_mem_cons.2 ⟨hc, ih h⟩
    · -- The first word has a character.
      rcases hwords : s.splitOnP isWhitespace with _ | ⟨first, words⟩
      · exact absurd hwords (List.splitOnP_ne_nil _ _)
      · rw [hwords, List.modifyHead_cons, List.filter_cons_of_pos rfl] at h
        exact absurd h (List.cons_ne_nil _ _)

/-- Equality up to the case of the ASCII letters. -/
def eqIgnoreAsciiCase (s t : Text) : Bool := s.map Char.toLower == t.map Char.toLower

/-! ## Cutting -/

/-- The text before the first occurrence of `pat`, and the text after it. -/
def splitOnce (pat : Text) : Text → Option (Text × Text)
  | [] => if pat = [] then some ([], []) else none
  | c :: s =>
    match (c :: s).dropPrefix? pat with
    | some rest => some ([], rest)
    | none => (splitOnce pat s).map fun p => (c :: p.1, p.2)

/-- The text before the last `d`, and the text after it. -/
def rsplitOnce (d : Char) : Text → Option (Text × Text)
  | [] => none
  | c :: s =>
    match rsplitOnce d s with
    | some p => some (c :: p.1, p.2)
    | none => if c = d then some ([], s) else none

/-- A prefix is dropped from the text it is put in front of. -/
theorem dropPrefix?_append (p s : Text) : (p ++ s).dropPrefix? p = some s :=
  List.dropPrefix?_eq_some_iff.2 ⟨p, rfl, beq_self_eq_true p⟩

/-- What is left when a prefix is dropped. -/
theorem eq_append_of_dropPrefix? {p s t : Text} (h : s.dropPrefix? p = some t) : s = p ++ t := by
  obtain ⟨p', hs, hp⟩ := List.dropPrefix?_eq_some_iff.1 h
  rw [hs, eq_of_beq hp]

/-- The two parts and the separator make up the text. -/
theorem eq_of_splitOnce {pat s a b : Text} (h : splitOnce pat s = some (a, b)) :
    s = a ++ pat ++ b := by
  induction s generalizing a with
  | nil =>
    rw [splitOnce] at h
    split at h <;> simp_all
  | cons c s ih =>
    rw [splitOnce] at h
    split at h
    · next rest hr =>
      obtain ⟨rfl, rfl⟩ : [] = a ∧ rest = b := by simpa using h
      exact eq_append_of_dropPrefix? hr
    · obtain ⟨⟨a', b'⟩, hs, he⟩ := Option.map_eq_some_iff.1 h
      obtain ⟨rfl, rfl⟩ : c :: a' = a ∧ b' = b := by simpa using he
      simpa using ih hs

/-- Cutting after a text that the separator's first character is not in. -/
theorem splitOnce_append {p : Char} {pat a b : Text} (ha : p ∉ a) :
    splitOnce (p :: pat) (a ++ (p :: pat) ++ b) = some (a, b) := by
  induction a with
  | nil =>
    have h := dropPrefix?_append (p :: pat) b
    rw [List.cons_append] at h
    simp only [List.nil_append, List.cons_append, splitOnce, h]
  | cons c a ih =>
    rw [List.mem_cons, not_or] at ha
    have hne : ((c :: a) ++ (p :: pat) ++ b).dropPrefix? (p :: pat) = none := by
      rw [Option.eq_none_iff_forall_ne_some]
      intro t ht
      have := eq_append_of_dropPrefix? ht
      simp only [List.cons_append, List.cons.injEq] at this
      exact ha.1 this.1.symm
    simp only [List.cons_append] at hne ih ⊢
    rw [splitOnce, hne]
    simp only [ih ha.2, Option.map_some]

/-- A text that the separator is in is cut. -/
theorem rsplitOnce_ne_none {d : Char} {s : Text} (h : d ∈ s) : rsplitOnce d s ≠ none := by
  induction s with
  | nil => exact absurd h List.not_mem_nil
  | cons c s ih =>
    rw [rsplitOnce]
    split
    · simp
    · next hn =>
      rcases List.mem_cons.1 h with rfl | h
      · simp
      · exact absurd hn (ih h)

/-- The two parts and the separator make up the text, and the second part has
    no separator. -/
theorem eq_of_rsplitOnce {d : Char} {s a b : Text} (h : rsplitOnce d s = some (a, b)) :
    s = a ++ d :: b ∧ d ∉ b := by
  induction s generalizing a with
  | nil => exact absurd h (by simp [rsplitOnce])
  | cons c s ih =>
    rw [rsplitOnce] at h
    split at h
    · next p hp =>
      obtain ⟨rfl, rfl⟩ : c :: p.1 = a ∧ p.2 = b := by simpa using h
      obtain ⟨hs, hd⟩ := ih hp
      exact ⟨by rw [hs]; rfl, hd⟩
    · next hn =>
      split at h
      · next hc =>
        obtain ⟨rfl, rfl⟩ : [] = a ∧ s = b := by simpa using h
        exact ⟨by rw [hc]; rfl, fun hmem => rsplitOnce_ne_none hmem hn⟩
      · exact absurd h (by simp)

/-- A text that the separator is not in is not cut. -/
theorem rsplitOnce_eq_none {d : Char} {s : Text} (h : d ∉ s) : rsplitOnce d s = none := by
  induction s with
  | nil => rfl
  | cons c s ih =>
    rw [List.mem_cons, not_or] at h
    rw [rsplitOnce, ih h.2]
    exact if_neg fun hc => h.1 hc.symm

/-- Cutting before a text that the separator is not in. -/
theorem rsplitOnce_append {d : Char} {b : Text} (a : Text) (hb : d ∉ b) :
    rsplitOnce d (a ++ d :: b) = some (a, b) := by
  induction a with
  | nil => simp [rsplitOnce, rsplitOnce_eq_none hb]
  | cons c a ih => simp [rsplitOnce, ih]

/-- Texts that are cut at the first separator have the same parts. -/
theorem cut_inj {α : Type*} {d : α} {s s' rest rest' : List α} (hs : d ∉ s) (hs' : d ∉ s')
    (h : s ++ d :: rest = s' ++ d :: rest') : s = s' ∧ rest = rest' := by
  induction s generalizing s' with
  | nil =>
    rcases s' with _ | ⟨c, s'⟩
    · exact ⟨rfl, (List.cons.inj h).2⟩
    · exact absurd ((List.cons.inj h).1 ▸ List.mem_cons_self) hs'
  | cons c s ih =>
    rcases s' with _ | ⟨c', s'⟩
    · exact absurd ((List.cons.inj h).1 ▸ List.mem_cons_self) hs
    · rw [List.mem_cons, not_or] at hs hs'
      obtain ⟨rfl, htail⟩ := List.cons.inj h
      obtain ⟨rfl, hrest⟩ := ih hs.2 hs'.2 htail
      exact ⟨rfl, hrest⟩

/-- A text up to the first separator is dropped from no text but its own. -/
theorem dropPrefix?_append_cons {d : Char} {k k' : Text} (v : Text) (hk : d ∉ k) (hk' : d ∉ k') :
    (k ++ d :: v).dropPrefix? (k' ++ [d]) = if k = k' then some v else none := by
  split_ifs with heq
  · subst heq
    rw [← dropPrefix?_append (k ++ [d]) v, List.append_assoc]
    rfl
  · rw [Option.eq_none_iff_forall_ne_some]
    intro s hs
    have happend : k ++ d :: v = k' ++ d :: s := by
      rw [eq_append_of_dropPrefix? hs, List.append_assoc]
      rfl
    exact heq (cut_inj hk hk' happend).1

section

variable {α : Type*} [DecidableEq α] {d : α} {l s : List α}

/-- The pieces that end at each `d`, and what comes after the last one, if it is not
    empty. -/
def splitInclusive (d : α) : List α → List (List α)
  | [] => []
  | a :: s =>
    if a = d then [a] :: splitInclusive d s
    else match splitInclusive d s with
      | [] => [[a]]
      | l :: ls => (a :: l) :: ls

/-- What is written after a list that does not end in `d` is dropped. -/
theorem rdropWhile_append_replicate (n : ℕ) (h : l.getLast? ≠ some d) :
    (l ++ List.replicate n d).rdropWhile (· = d) = l := by
  induction n with
  | zero =>
    rw [List.replicate_zero, List.append_nil, List.rdropWhile_eq_self_iff]
    intro hl heq
    exact h (by rw [List.getLast?_eq_some_getLast hl, of_decide_eq_true heq])
  | succ n ih =>
    rw [List.replicate_succ', ← List.append_assoc, List.rdropWhile_concat_pos _ _ _ (by simp), ih]

/-- A piece ends at its only `d`. -/
theorem splitInclusive_append_cons (h : d ∉ l) (s : List α) :
    splitInclusive d (l ++ d :: s) = (l ++ [d]) :: splitInclusive d s := by
  induction l with
  | nil => exact if_pos rfl
  | cons a l ih =>
    rw [List.mem_cons, not_or] at h
    rw [List.cons_append, splitInclusive, if_neg (Ne.symm h.1), ih h.2]
    rfl

/-- What has no `d` is one piece. -/
theorem splitInclusive_of_notMem (h : d ∉ l) (hl : l ≠ []) : splitInclusive d l = [l] := by
  induction l with
  | nil => exact absurd rfl hl
  | cons a l ih =>
    rw [List.mem_cons, not_or] at h
    rw [splitInclusive, if_neg (Ne.symm h.1)]
    rcases l with _ | ⟨b, l⟩
    · rfl
    · rw [ih h.2 (by simp)]

/-- No piece is empty. -/
theorem nil_notMem_splitInclusive (d : α) (s : List α) : [] ∉ splitInclusive d s := by
  induction s with
  | nil => exact List.not_mem_nil
  | cons a s ih =>
    rw [splitInclusive]
    split_ifs
    · simp [ih]
    · rcases hs : splitInclusive d s with _ | ⟨l, ls⟩
      · simp
      · rw [hs, List.mem_cons, not_or] at ih
        simp [ih.2]

/-- Pieces that end at their only `d` are found again. -/
theorem splitInclusive_flatten {ls : List (List α)} (h : ∀ l ∈ ls, d ∉ l) :
    splitInclusive d (ls.map (· ++ [d])).flatten = ls.map (· ++ [d]) := by
  induction ls with
  | nil => rfl
  | cons l ls ih =>
    rw [List.forall_mem_cons] at h
    rw [List.map_cons, List.flatten_cons, List.append_assoc, List.singleton_append,
      splitInclusive_append_cons h.1, ih h.2]

/-- The pieces between the places where `a` is followed by `b`. -/
def splitPair (a b : α) : List α → List (List α)
  | [] => [[]]
  | [x] => [[x]]
  | x :: y :: s =>
    if x = a ∧ y = b then [] :: splitPair a b s else (splitPair a b (y :: s)).modifyHead (x :: ·)

/-- What has no `a` is one piece, up to the first pair. -/
theorem splitPair_append {a : α} (h : a ∉ l) (b : α) (s : List α) :
    splitPair a b (l ++ a :: b :: s) = l :: splitPair a b s := by
  induction l with
  | nil => exact if_pos ⟨rfl, rfl⟩
  | cons x l ih =>
    rw [List.mem_cons, not_or] at h
    rcases l with _ | ⟨y, l⟩
    · rw [List.singleton_append, splitPair, if_neg fun hx => h.1 hx.1.symm]
      exact congrArg _ (ih h.2)
    · rw [List.cons_append, List.cons_append, splitPair, if_neg fun hx => h.1 hx.1.symm]
      exact congrArg _ (ih h.2)

/-- The pieces make up the list. -/
theorem flatten_splitInclusive (d : α) (s : List α) : (splitInclusive d s).flatten = s := by
  induction s with
  | nil => rfl
  | cons a s ih =>
    rw [splitInclusive]
    split_ifs
    · rw [List.flatten_cons, ih]
      rfl
    · rcases hs : splitInclusive d s with _ | ⟨l, ls⟩
      · rw [hs] at ih
        rw [← ih]
        rfl
      · rw [hs, List.flatten_cons] at ih
        rw [← ih]
        rfl

end

/-! ## Pairs of characters -/

section

variable {a b c : Char} {s t : Text}

/-- A pair does not begin in a text without its first character. -/
theorem pair_infix_append_iff (hs : a ∉ s) : [a, b] <:+: s ++ t ↔ [a, b] <:+: t := by
  induction s with
  | nil => rfl
  | cons d s ih =>
    rw [List.mem_cons, not_or] at hs
    have hnot : ¬[a, b] <+: d :: (s ++ t) := fun h => hs.1 (List.cons_prefix_cons.1 h).1
    rw [List.cons_append, List.infix_cons_iff, or_iff_right hnot, ih hs.2]

/-- A pair is on one side of a character that is not in it. -/
theorem pair_infix_append_cons_iff (ha : c ≠ a) (hb : c ≠ b) :
    [a, b] <:+: s ++ c :: t ↔ [a, b] <:+: s ∨ [a, b] <:+: t := by
  induction s with
  | nil =>
    have hnot : ¬[a, b] <+: c :: t := fun h => ha (List.cons_prefix_cons.1 h).1.symm
    have hnil : ¬[a, b] <:+: ([] : Text) := by simp
    rw [List.nil_append, List.infix_cons_iff, or_iff_right hnot, or_iff_right hnil]
  | cons d s ih =>
    have hprefix : [a, b] <+: d :: (s ++ c :: t) ↔ [a, b] <+: d :: s := by
      rcases s with _ | ⟨e, s⟩
      · simp [hb.symm]
      · simp
    rw [List.cons_append, List.infix_cons_iff, hprefix, ih, List.infix_cons_iff, or_assoc]

end

/-! ## Lines -/

/-- A line without the carriage return before its end. -/
def stripReturn (l : Text) : Text := if l.getLast? = some '\r' then l.dropLast else l

/-- A line without its end. -/
def stripEnding (l : Text) : Text :=
  if l.getLast? = some '\n' then stripReturn l.dropLast else l

/-- The lines of a text, each ended by a newline, which the last one need not have. -/
def lines (s : Text) : List Text := (splitInclusive '\n' s).map stripEnding

/-- A line ends at its newline. -/
theorem lines_append_cons {l : Text} (h : '\n' ∉ l) (s : Text) :
    lines (l ++ '\n' :: s) = stripReturn l :: lines s := by
  rw [lines, splitInclusive_append_cons h, List.map_cons, stripEnding,
    if_pos List.getLast?_concat, List.dropLast_concat]
  rfl

/-- What has no newline is the last line. -/
theorem lines_of_notMem {l : Text} (h : '\n' ∉ l) (hl : l ≠ []) : lines l = [l] := by
  rw [lines, splitInclusive_of_notMem h hl, List.map_singleton, stripEnding, if_neg]
  exact fun hlast => h (List.mem_of_getLast? hlast)

/-- A carriage return may be dropped, and nothing else. -/
theorem subset_stripReturn (l : Text) : stripReturn l ⊆ l := by
  rw [stripReturn]
  split_ifs
  · exact List.dropLast_subset l
  · exact List.Subset.refl l

/-- No line has a newline. -/
theorem notMem_of_mem_lines {l s : Text} (h : l ∈ lines s) : '\n' ∉ l := by
  induction hn : s.length using Nat.strong_induction_on generalizing s with
  | _ n ih =>
    by_cases hs : '\n' ∈ s
    · obtain ⟨a, b, rfl, ha⟩ := List.eq_append_cons_of_mem hs
      rw [lines_append_cons ha] at h
      rcases List.mem_cons.1 h with rfl | h
      · exact fun hmem => ha (subset_stripReturn a hmem)
      · exact ih b.length (by simp at hn; omega) h rfl
    · rcases eq_or_ne s [] with rfl | hne
      · exact absurd h List.not_mem_nil
      · rw [lines_of_notMem hs hne] at h
        rwa [List.mem_singleton.1 h]

/-- A carriage return is white space. -/
theorem trim_stripReturn (l : Text) : trim (stripReturn l) = trim l := by
  rw [stripReturn]
  split_ifs with h
  · have hl : l = l.dropLast ++ ['\r'] := by
      obtain ⟨l', rfl⟩ := List.getLast?_eq_some_iff.1 h
      rw [List.dropLast_concat]
    rw [← trim_trimEnd l, hl, trimEnd, List.rdropWhile_concat_pos _ _ _ (by decide),
      List.dropLast_concat]
    exact (trim_trimEnd _).symm
  · rfl

/-! ## Decimal numbers -/

/-- The decimal representation of `n`. -/
def ofNat (n : ℕ) : Text := Nat.toDigits 10 n

/-- The digits of a number written with an optional `+`. -/
def unsignedDigits : Text → Text
  | '+' :: rest => rest
  | s => s

/-- A decimal number of value at most `bound`, written with an optional `+`. -/
def parseUnsigned (bound : ℕ) (s : Text) : Option ℕ :=
  let digits := unsignedDigits s
  let n := Nat.ofDigitChars 10 digits 0
  if digits ≠ [] ∧ digits.all Char.isDigit ∧ n ≤ bound then some n else none

/-- A decimal representation has digits only. -/
theorem isDigit_of_mem_ofNat {n : ℕ} {c : Char} (h : c ∈ ofNat n) : c.isDigit :=
  Nat.isDigit_of_mem_toDigits (by decide) (by decide) h

/-- It has one at least. -/
theorem ofNat_ne_nil (n : ℕ) : ofNat n ≠ [] := Nat.toDigits_ne_nil

/-- A number is determined by its decimal representation. -/
theorem ofNat_injective : Function.Injective ofNat := fun m n h => by
  have := congrArg (Nat.ofDigitChars 10 · 0) h
  simpa [ofNat, Nat.ofDigitChars_toDigits] using this

/-- What is not a digit is in no decimal representation. -/
theorem notMem_ofNat {c : Char} (hc : c.isDigit = false) (n : ℕ) : c ∉ ofNat n := fun h => by
  have := isDigit_of_mem_ofNat h
  rw [hc] at this
  exact absurd this (by simp)

/-- What has no sign is all digits. -/
theorem unsignedDigits_of_notMem {s : Text} (h : '+' ∉ s) : unsignedDigits s = s := by
  unfold unsignedDigits
  split
  · exact absurd List.mem_cons_self h
  · rfl

/-- It has no sign. -/
theorem unsignedDigits_ofNat (n : ℕ) : unsignedDigits (ofNat n) = ofNat n :=
  unsignedDigits_of_notMem (notMem_ofNat (by decide) n)

/-- What is read as a number: digits, the value of which is not too large. -/
theorem parseUnsigned_eq_some {bound n : ℕ} {s : Text} : parseUnsigned bound s = some n ↔
    (unsignedDigits s ≠ [] ∧ (unsignedDigits s).all Char.isDigit ∧
      Nat.ofDigitChars 10 (unsignedDigits s) 0 ≤ bound) ∧
      Nat.ofDigitChars 10 (unsignedDigits s) 0 = n := by
  rw [parseUnsigned]
  split_ifs with h
  · rw [Option.some.injEq, and_iff_right h]
  · exact iff_of_false (by simp) fun hn => h hn.1

/-- What is read as a number is made of digits, and a sign. -/
theorem isDigit_of_parseUnsigned {bound n : ℕ} {s : Text} (h : parseUnsigned bound s = some n) :
    ∀ c ∈ s, c.isDigit = true ∨ c = '+' := by
  have hdigits := List.all_eq_true.1 (parseUnsigned_eq_some.1 h).1.2.1
  unfold unsignedDigits at hdigits
  split at hdigits
  · exact List.forall_mem_cons.2 ⟨.inr rfl, fun c hc => .inl (hdigits c hc)⟩
  · exact fun c hc => .inl (hdigits c hc)

/-- A number that is not too large is read back from its decimal representation. -/
theorem parseUnsigned_ofNat {bound n : ℕ} (h : n ≤ bound) :
    parseUnsigned bound (ofNat n) = some n := by
  have hval : Nat.ofDigitChars 10 (ofNat n) 0 = n :=
    Nat.ofDigitChars_toDigits (by decide) (by decide)
  simp only [parseUnsigned, unsignedDigits_ofNat, hval]
  exact if_pos ⟨ofNat_ne_nil n, List.all_eq_true.2 fun _ hc => isDigit_of_mem_ofNat hc, h⟩

/-! ## UTF-8 -/

/-- The text that the bytes encode, if they are valid UTF-8. -/
def decodeUtf8 (bs : Bytes) : Option Text :=
  bs.toByteArray.utf8Decode?.map Array.toList

/-- The UTF-8 encoding of a text. -/
def encodeUtf8 (s : Text) : Bytes := s.flatMap String.utf8EncodeChar

/-- A text is decoded from its encoding. -/
theorem decodeUtf8_encodeUtf8 (s : Text) : decodeUtf8 (encodeUtf8 s) = some s := by
  change s.utf8Encode.utf8Decode?.map Array.toList = some s
  rw [List.utf8Decode?_utf8Encode, Option.map_some]

/-- A text is the one whose encoding it was decoded from. -/
theorem encodeUtf8_of_decodeUtf8 {bs : Bytes} {s : Text} (h : decodeUtf8 bs = some s) :
    encodeUtf8 s = bs := by
  obtain ⟨cs, hcs, rfl⟩ := Option.map_eq_some_iff.1 h
  have hsome : bs.toByteArray.utf8Decode?.isSome := by rw [hcs]; rfl
  have hencode := @ByteArray.utf8Encode_get_utf8Decode? bs.toByteArray hsome
  rw [Option.get_of_eq_some hsome hcs] at hencode
  have hlist := congrArg (fun b => b.data.toList) hencode
  rw [encodeUtf8]
  simpa [List.utf8Encode] using hlist

/-- Different texts have different encodings. -/
theorem encodeUtf8_injective : Function.Injective encodeUtf8 := fun s t h =>
  Option.some.inj ((decodeUtf8_encodeUtf8 s).symm.trans (h ▸ decodeUtf8_encodeUtf8 t))

/-- An ASCII character is one byte. -/
theorem utf8EncodeChar_ascii {c : Char} (h : c.toNat < 128) :
    String.utf8EncodeChar c = [UInt8.ofNat c.toNat] := by
  have hle : c.val.toNat ≤ 0x7f := Nat.le_of_lt_succ h
  simp only [String.utf8EncodeChar, if_pos hle]
  rfl

/-- The bytes of any other character are none of ASCII. -/
theorem le_of_mem_utf8EncodeChar {c : Char} (h : ¬c.toNat < 128) {b : UInt8}
    (hb : b ∈ String.utf8EncodeChar c) : 128 ≤ b.toNat := by
  have hle : ¬c.val.toNat ≤ 0x7f := fun hle => h (Nat.lt_succ_of_le hle)
  simp only [String.utf8EncodeChar, if_neg hle] at hb
  split_ifs at hb
  all_goals
    simp only [List.mem_cons, List.not_mem_nil, or_false] at hb
    rcases hb with rfl | rfl | rfl | rfl
  all_goals
    rw [UInt8.toNat_ofNat']
    omega

/-- Encodings are put together as the texts are. -/
theorem encodeUtf8_append (s t : Text) : encodeUtf8 (s ++ t) = encodeUtf8 s ++ encodeUtf8 t :=
  List.flatMap_append

/-- So are those of many texts. -/
theorem encodeUtf8_flatten (ss : List Text) :
    encodeUtf8 ss.flatten = (ss.map encodeUtf8).flatten := by
  induction ss with
  | nil => rfl
  | cons s ss ih => rw [List.flatten_cons, encodeUtf8_append, ih, List.map_cons, List.flatten_cons]

/-- A text that is not empty has a byte. -/
theorem encodeUtf8_ne_nil {s : Text} (h : s ≠ []) : encodeUtf8 s ≠ [] := by
  intro hnil
  have hdecode := decodeUtf8_encodeUtf8 s
  rw [hnil] at hdecode
  exact h (Option.some.inj (hdecode.symm.trans (decodeUtf8_encodeUtf8 [])))

/-- Can these bytes start an encoding of three bytes, or of four? -/
def startsLong (b c : UInt8) : Bool :=
  (b = 0xE0 && 0xA0 ≤ c && c ≤ 0xBF) || (0xE1 ≤ b && b ≤ 0xEC && 0x80 ≤ c && c ≤ 0xBF) ||
    (b = 0xED && 0x80 ≤ c && c ≤ 0x9F) || (0xEE ≤ b && b ≤ 0xEF && 0x80 ≤ c && c ≤ 0xBF) ||
    (b = 0xF0 && 0x90 ≤ c && c ≤ 0xBF) || (0xF1 ≤ b && b ≤ 0xF3 && 0x80 ≤ c && c ≤ 0xBF) ||
    (b = 0xF4 && 0x80 ≤ c && c ≤ 0x8F)

/-- How many bytes, where no encoding starts, are replaced by one character: those that an
    encoding can start with, or the first one if there are none. -/
def brokenLength : Bytes → ℕ
  | b :: c :: d :: _ =>
    if startsLong b c then if 0xF0 ≤ b && 0x80 ≤ d && d ≤ 0xBF then 3 else 2 else 1
  | [b, c] => if startsLong b c then 2 else 1
  | _ => 1

/-- The text of the first `n` characters at most. -/
def decodeLossy : ℕ → Bytes → Text
  | 0, _ => []
  | _ + 1, [] => []
  | n + 1, b :: bs =>
    match (b :: bs).toByteArray.utf8DecodeChar? 0 with
    | some c => c :: decodeLossy n ((b :: bs).drop c.utf8Size)
    | none => Char.ofNat 0xFFFD :: decodeLossy n ((b :: bs).drop (brokenLength (b :: bs)))

/-- The text that the bytes encode, with U+FFFD for what is not valid UTF-8. -/
def fromUtf8Lossy (bs : Bytes) : Text := decodeLossy bs.length bs

/-- What is valid is decoded as it is. -/
theorem fromUtf8Lossy_encodeUtf8 (s : Text) : fromUtf8Lossy (encodeUtf8 s) = s := by
  -- The bound is on the characters, of which there are no more than bytes.
  suffices hloop : ∀ n, (encodeUtf8 s).length ≤ n → decodeLossy n (encodeUtf8 s) = s from
    hloop _ le_rfl
  induction s with
  | nil =>
    rintro (_ | n) _
    · rfl
    · rfl
  | cons c s ih =>
    intro n hn
    have hencode : encodeUtf8 (c :: s) = String.utf8EncodeChar c ++ encodeUtf8 s := rfl
    have hsize : (String.utf8EncodeChar c).length = c.utf8Size := String.length_utf8EncodeChar c
    have hpos : 0 < c.utf8Size := c.utf8Size_pos
    have hdrop : (encodeUtf8 (c :: s)).drop c.utf8Size = encodeUtf8 s := by
      rw [hencode, ← hsize, List.drop_left]
    have hfirst : (encodeUtf8 (c :: s)).toByteArray.utf8DecodeChar? 0 = some c := by
      rw [hencode, List.toByteArray_append]
      exact ByteArray.utf8DecodeChar?_utf8EncodeChar_append
    rw [hencode, List.length_append] at hn
    obtain ⟨b, bs, hbs⟩ := List.exists_cons_of_ne_nil
      (encodeUtf8_ne_nil (List.cons_ne_nil c s))
    -- An encoding starts with a character that is decoded, so that the loop takes that branch.
    obtain ⟨n, rfl⟩ : ∃ m, n = m + 1 := ⟨n - 1, by omega⟩
    rw [hbs] at hdrop hfirst ⊢
    rw [decodeLossy, hfirst]
    simp only [hdrop]
    rw [ih n (by omega)]

/-- The bytes below 128 of an encoding are the ASCII characters of the text. -/
theorem mem_encodeUtf8 {s : Text} {c : Char} (h : c.toNat < 128) :
    UInt8.ofNat c.toNat ∈ encodeUtf8 s ↔ c ∈ s := by
  rw [encodeUtf8, List.mem_flatMap]
  constructor
  · rintro ⟨d, hd, hb⟩
    by_cases hascii : d.toNat < 128
    · rw [utf8EncodeChar_ascii hascii, List.mem_singleton] at hb
      have hnat := congrArg UInt8.toNat hb
      rw [UInt8.toNat_ofNat', UInt8.toNat_ofNat', Nat.mod_eq_of_lt (by omega),
        Nat.mod_eq_of_lt (by omega)] at hnat
      rwa [Char.toNat_inj.1 hnat]
    · have := le_of_mem_utf8EncodeChar hascii hb
      rw [UInt8.toNat_ofNat', Nat.mod_eq_of_lt (by omega)] at this
      omega
  · intro hc
    exact ⟨c, hc, by rw [utf8EncodeChar_ascii h]; exact List.mem_singleton_self _⟩

/-- The lines of an encoding are the encodings of the lines. -/
theorem splitInclusive_encodeUtf8 (s : Text) :
    splitInclusive 10 (encodeUtf8 s) = (splitInclusive '\n' s).map encodeUtf8 := by
  have hten : ∀ s : Text, 10 ∈ encodeUtf8 s ↔ '\n' ∈ s := fun s =>
    mem_encodeUtf8 (c := '\n') (by decide)
  -- Induction on what comes after the first line.
  induction hn : s.length using Nat.strongRecOn generalizing s with
  | ind n ih =>
    by_cases h : '\n' ∈ s
    · obtain ⟨l, t, rfl, hl⟩ := List.eq_append_cons_of_mem h
      have hlt : t.length < n := by
        rw [← hn, List.length_append, List.length_cons]
        omega
      have hencode : encodeUtf8 (l ++ '\n' :: t) = encodeUtf8 l ++ 10 :: encodeUtf8 t := by
        rw [encodeUtf8_append]
        rfl
      rw [hencode, splitInclusive_append_cons (mt (hten l).1 hl), splitInclusive_append_cons hl,
        ih _ hlt t rfl, List.map_cons, encodeUtf8_append]
      rfl
    · rcases s with _ | ⟨c, s⟩
      · rfl
      · rw [splitInclusive_of_notMem h (by simp), splitInclusive_of_notMem (mt (hten _).1 h)
          (encodeUtf8_ne_nil (by simp))]
        rfl

/-! ## Case -/

/-- A text of ASCII characters. -/
def Ascii (s : Text) : Prop := ∀ c ∈ s, c.toNat < 128

instance (s : Text) : Decidable (Ascii s) := List.decidableBAll (fun c : Char => c.toNat < 128) s

/-- Case mappings of texts, as far as they are determined for ASCII: on ASCII
    texts they are those of the ASCII letters, and lower case brings in no
    ASCII character other than letters. -/
structure CaseMapping where
  toLowercase : Text → Text
  toUppercase : Text → Text
  lower_ascii : ∀ s, Ascii s → toLowercase s = s.map Char.toLower
  upper_ascii : ∀ s, Ascii s → toUppercase s = s.map Char.toUpper
  lower_mem : ∀ s, ∀ c ∈ toLowercase s, c ∈ s ∨ c.isLower ∨ 128 ≤ c.toNat

/-- The lower case letters of ASCII are within these numbers. -/
theorem toNat_of_isLower {c : Char} (h : c.isLower = true) : 97 ≤ c.toNat ∧ c.toNat ≤ 122 := by
  obtain ⟨h₁, h₂⟩ := Bool.and_eq_true_iff.1 h
  exact ⟨UInt32.le_iff_toNat_le.1 (of_decide_eq_true h₁),
    UInt32.le_iff_toNat_le.1 (of_decide_eq_true h₂)⟩

/-- The ASCII lower case of a character is itself, or a letter. -/
theorem toLower_eq_or_isLower (c : Char) : c.toLower = c ∨ c.toLower.isLower = true := by
  unfold Char.toLower
  split
  · next h =>
    refine .inr ?_
    have h₁ : 65 ≤ c.val.toNat := UInt32.le_iff_toNat_le.1 h.1
    have h₂ : c.val.toNat ≤ 90 := UInt32.le_iff_toNat_le.1 h.2
    have hval : (c.val + ('a'.val - 'A'.val)).toNat = c.val.toNat + 32 := by
      rw [UInt32.toNat_add, Nat.mod_eq_of_lt]
      · rfl
      · change c.val.toNat + 32 < 2 ^ 32
        omega
    refine Bool.and_eq_true_iff.2 ⟨decide_eq_true ?_, decide_eq_true ?_⟩
    · refine UInt32.le_iff_toNat_le.2 ?_
      rw [hval]
      change 97 ≤ _
      omega
    · refine UInt32.le_iff_toNat_le.2 ?_
      rw [hval]
      change _ ≤ 122
      omega
  · exact .inl rfl

/-- The case mappings that change the ASCII letters only. -/
def CaseMapping.ascii : CaseMapping where
  toLowercase := List.map Char.toLower
  toUppercase := List.map Char.toUpper
  lower_ascii _ _ := rfl
  upper_ascii _ _ := rfl
  lower_mem s c hc := by
    obtain ⟨d, hd, rfl⟩ := List.mem_map.1 hc
    rcases toLower_eq_or_isLower d with h | h
    · exact .inl (h.symm ▸ hd)
    · exact .inr (.inl h)

/-- The mappings keep the ASCII characters of a text up to their case, and upper case
    brings in no ASCII character other than letters. -/
structure CaseMapping.KeepsAscii (casing : CaseMapping) : Prop where
  lower : ∀ s, ∀ c ∈ s, c.toNat < 128 → c.toLower ∈ casing.toLowercase s
  upper : ∀ s, ∀ c ∈ s, c.toNat < 128 → c.toUpper ∈ casing.toUppercase s
  upper_mem : ∀ s, ∀ c ∈ casing.toUppercase s, c ∈ s ∨ c.isUpper ∨ 128 ≤ c.toNat

/-- The upper case letters come before them. -/
theorem toNat_of_isUpper {c : Char} (h : c.isUpper = true) : c.toNat ≤ 90 :=
  UInt32.le_iff_toNat_le.1 (of_decide_eq_true h).2

/-- What holds of all ASCII characters. -/
theorem forall_ascii {p : Char → Prop} (h : ∀ n < 128, p (Char.ofNat n)) {c : Char}
    (hc : c.toNat < 128) : p c := by
  have hp := h c.toNat hc
  rwa [Char.ofNat_toNat] at hp

/-- Only ASCII letters have an ASCII upper case, -/
theorem toUpper_of_le {c : Char} (hc : 128 ≤ c.toNat) : c.toUpper = c := by
  refine dif_neg ?_
  rintro ⟨-, hle⟩
  have hz : c.val.toNat ≤ 122 := UInt32.le_iff_toNat_le.1 hle
  exact absurd (hc.trans hz) (by decide)

/-- and only they have an ASCII lower case. -/
theorem toLower_of_le {c : Char} (hc : 128 ≤ c.toNat) : c.toLower = c := by
  refine dif_neg ?_
  rintro ⟨-, hle⟩
  have hz : c.val.toNat ≤ 90 := UInt32.le_iff_toNat_le.1 hle
  exact absurd (hc.trans hz) (by decide)

/-- Changing ASCII letters only keeps the ASCII characters up to their case. -/
theorem ascii_keepsAscii : CaseMapping.ascii.KeepsAscii where
  lower _ _ hc _ := List.mem_map_of_mem hc
  upper _ _ hc _ := List.mem_map_of_mem hc
  upper_mem s c hc := by
    obtain ⟨d, hd, rfl⟩ := List.mem_map.1 hc
    by_cases h : d.toNat < 128
    · have hall : ∀ n < 128, (Char.ofNat n).toUpper = Char.ofNat n ∨
          (Char.ofNat n).toUpper.isUpper = true := by decide
      rcases forall_ascii (p := fun d => d.toUpper = d ∨ d.toUpper.isUpper = true) hall h with
        heq | hupper
      · exact .inl (heq.symm ▸ hd)
      · exact .inr (.inl hupper)
    · exact .inl ((toUpper_of_le (Nat.le_of_not_lt h)).symm ▸ hd)

/-- Upper case is taken character by character, and that of a character outside of ASCII
    contains another one, or an F, I or S: those whose upper case is in ASCII are ı, ſ, ß,
    and the ligatures of f and of st. -/
structure CaseMapping.UppersByChar (casing : CaseMapping) : Prop extends casing.KeepsAscii where
  append : ∀ s t, casing.toUppercase (s ++ t) = casing.toUppercase s ++ casing.toUppercase t
  outside : ∀ c : Char, 128 ≤ c.toNat →
    ∃ d ∈ casing.toUppercase [c], 128 ≤ d.toNat ∨ d ∈ ['F', 'I', 'S']

/-- It goes character by character. -/
theorem ascii_uppersByChar : CaseMapping.ascii.UppersByChar where
  toKeepsAscii := ascii_keepsAscii
  append _ _ := List.map_append
  outside c hc := ⟨c, List.mem_singleton.2 (toUpper_of_le hc).symm, .inl hc⟩

/-- The upper case of an ASCII character is one character. -/
theorem CaseMapping.UppersByChar.toUppercase_cons {casing : CaseMapping}
    (hcasing : casing.UppersByChar) {c : Char} (hc : c.toNat < 128) (s : Text) :
    casing.toUppercase (c :: s) = c.toUpper :: casing.toUppercase s := by
  have hascii : Ascii [c] := List.forall_mem_singleton.2 hc
  rw [← List.singleton_append, hcasing.append, casing.upper_ascii [c] hascii]
  rfl

end Text
