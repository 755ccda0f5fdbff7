import Houdinny.Lib.Toml.Values

/-!
# Reading what was rendered

The renderings of the documents of the fragment are read line by line, each line
being the action it stands for (`run_render`).

If a value is not plain, it is not read. What follows it in the rendering does not
bring it back, as there is a mark before the next quote (`markFirst_render`).

`Line.actions` are the actions of a line: none for a comment or an empty line, and one for
each of the others. A line need not be well-formed as far as its value is concerned for the
second part: `Line.Shaped` asks for the bare keys only.
-/

namespace Toml

open Reader Mode

variable {d : Draft} {k name s t : Text} {use : Use} {ks : List Text} {m : Mode} {c : Char}

/-! ## Lines -/

/-- What a line stands for. -/
def Line.actions : Line → List Action
  | .comment _ | .blank => []
  | .table name => [.table [] name]
  | .element name => [.element [] name]
  | .pair k v => [.put (.pair [] k) (.string v)]

/-- A comment is read up to the end of its line. -/
theorem run_comment {back : Mode} (hs : ∀ c ∈ s, isControl c = false) :
    Run.run Reader.step ⟨.comment back, d⟩ (s ++ '\n' :: t) = Run.run Reader.step ⟨back, d⟩ t := by
  induction s with
  | nil => exact run_goTo rfl
  | cons c s ih =>
    rw [List.forall_mem_cons] at hs
    have hstep : (Mode.comment back).step c = goTo (.comment back) := by
      have hnewline : c ≠ '\n' := by
        rintro rfl
        exact absurd hs.1 (by decide)
      have hcr : c ≠ '\r' := by
        rintro rfl
        exact absurd hs.1 (by decide)
      change stepComment back c = _
      rw [stepComment, if_neg hnewline, if_neg hcr, if_neg (Bool.eq_false_iff.1 hs.1)]
    rw [List.cons_append, run_goTo hstep, ih hs.2]

/-- A bare key is read on. -/
theorem run_bare (hs : ∀ c ∈ s, isBare c = true) :
    Run.run Reader.step ⟨.bare use ks k, d⟩ (s ++ t) =
      Run.run Reader.step ⟨.bare use ks (k ++ s), d⟩ t := by
  induction s generalizing k with
  | nil => rw [List.nil_append, List.append_nil]
  | cons c s ih =>
    rw [List.forall_mem_cons] at hs
    have hstep : (Mode.bare use ks k).step c = goTo (.bare use ks (k ++ [c])) := if_pos hs.1
    rw [List.cons_append, run_goTo hstep, ih hs.2, List.append_assoc]
    rfl

/-- A character of a bare key is none that means something else. -/
theorem ne_of_isBare {b : Char} (hc : isBare c = true) (hb : isBare b = false) : c ≠ b := by
  rintro rfl
  exact absurd (hc.symm.trans hb) (by simp)

/-- A bare key starts with its first character. -/
theorem stepKey_of_isBare (hc : isBare c = true) : stepKey use ks c = goTo (.bare use ks [c]) := by
  have hblank : ¬isBlank c = true := by
    intro h
    rcases Bool.or_eq_true_iff.1 h with h | h <;>
      exact ne_of_isBare hc rfl (of_decide_eq_true h)
  rw [stepKey, if_neg hblank, if_pos hc]

/-- A line that starts with one starts with a pair. -/
theorem stepLine_of_isBare (hc : isBare c = true) : stepLine c = stepKey (.pair []) [] c := by
  have hblank : ¬isBlank c = true := by
    intro h
    rcases Bool.or_eq_true_iff.1 h with h | h <;>
      exact ne_of_isBare hc rfl (of_decide_eq_true h)
  rw [stepLine, if_neg hblank, if_neg (ne_of_isBare hc rfl), if_neg (ne_of_isBare hc rfl),
    if_neg (ne_of_isBare hc rfl), if_neg (ne_of_isBare hc rfl)]

/-- A bare key is read where a key may start. -/
theorem run_key (hm : ∀ c, isBare c = true → m.step c = stepKey use ks c) (hk : Bare k) :
    Run.run Reader.step ⟨m, d⟩ (k ++ t) = Run.run Reader.step ⟨.bare use ks k, d⟩ t := by
  obtain ⟨hne, hall⟩ := hk
  obtain ⟨c, k, rfl⟩ := List.exists_cons_of_ne_nil hne
  rw [List.forall_mem_cons] at hall
  rw [List.cons_append, run_goTo ((hm c hall.1).trans (stepKey_of_isBare hall.1)),
    run_bare hall.2]
  rfl

/-- A pair is read up to its value. -/
theorem run_pair (hk : Bare k) (v : Text) :
    Run.run Reader.step ⟨.line, d⟩ ((Line.pair k v).render ++ t) =
      Run.run Reader.step ⟨.value [] (.pair [] k), d⟩ ('"' :: (v ++ '"' :: t)) := by
  have hrender : (Line.pair k v).render ++ t =
      k ++ ' ' :: '=' :: ' ' :: '"' :: (v ++ '"' :: t) := by
    simp [Line.render]
  have hkey : ∀ c, isBare c = true → Mode.line.step c = stepKey (.pair []) [] c :=
    fun c hc => stepLine_of_isBare hc
  rw [hrender, run_key hkey hk, run_goTo (n := .keyEnd (.pair []) [] k) rfl,
    run_goTo (n := .value [] (.pair [] k)) rfl, run_goTo (n := .value [] (.pair [] k)) rfl]

/-- A line is read as the action it stands for. -/
theorem run_line {l : Line} (h : l.WellFormed) :
    Run.run Reader.step ⟨.line, d⟩ (l.render ++ '\n' :: t) =
      (execs d l.actions).bind fun d' => Run.run Reader.step ⟨.line, d'⟩ t := by
  cases l with
  | comment s =>
    have hstart : Run.run Reader.step ⟨.line, d⟩ ((Line.comment s).render ++ '\n' :: t) =
        Run.run Reader.step ⟨.comment .line, d⟩ (s ++ '\n' :: t) :=
      run_goTo (m := .line) (n := .comment .line) rfl
    exact hstart.trans (run_comment h)
  | blank => exact run_goTo (m := .line) (n := .line) rfl
  -- The bracket leads to a header, of a table unless another bracket follows.
  | table name =>
    have hrender : (Line.table name).render ++ '\n' :: t = '[' :: (name ++ ']' :: '\n' :: t) := by
      simp [Line.render]
    have hkey : ∀ c, isBare c = true → Mode.bracket.step c = stepKey .table [] c :=
      fun c hc => if_neg (ne_of_isBare hc rfl)
    rw [hrender, run_goTo (n := .bracket) rfl, run_key hkey h,
      run_act (n := .after []) (a := .table [] name) rfl, Line.actions, execs_cons,
      Option.bind_assoc]
    exact Option.bind_congr fun d' _ => run_goTo (m := .after []) (n := .line) rfl
  | element name =>
    have hrender : (Line.element name).render ++ '\n' :: t =
        '[' :: '[' :: (name ++ ']' :: ']' :: '\n' :: t) := by
      simp [Line.render]
    have hkey : ∀ c, isBare c = true → (Mode.key .element []).step c = stepKey .element [] c :=
      fun c _ => rfl
    rw [hrender, run_goTo (n := .bracket) rfl, run_goTo (n := .key .element []) rfl,
      run_key hkey h, run_goTo (n := .bracketEnd [] name) rfl,
      run_act (n := .after []) (a := .element [] name) rfl, Line.actions, execs_cons,
      Option.bind_assoc]
    exact Option.bind_congr fun d' _ => run_goTo (m := .after []) (n := .line) rfl
  | pair k v =>
    rw [run_pair h.1, run_quoted h.2 (by decide), Line.actions, execs_cons, Option.bind_assoc]
    exact Option.bind_congr fun d' _ => run_goTo (m := .after []) (n := .line) rfl

/-- Actions are done one after another. -/
theorem execs_append (as bs : List Action) :
    execs d (as ++ bs) = (execs d as).bind fun d' => execs d' bs := by
  rw [execs, List.foldlM_append]
  rfl

/-- A document is read as the actions that its lines stand for. -/
theorem run_render {doc : Doc} (h : ∀ l ∈ doc, l.WellFormed) :
    Run.run Reader.step ⟨.line, d⟩ (doc.render ++ t) =
      (execs d (doc.flatMap Line.actions)).bind fun d' => Run.run Reader.step ⟨.line, d'⟩ t := by
  induction doc generalizing d with
  | nil => rfl
  | cons l doc ih =>
    rw [List.forall_mem_cons] at h
    rw [Doc.render_cons, List.append_assoc, List.cons_append, run_line h.1, List.flatMap_cons,
      execs_append, Option.bind_assoc]
    exact Option.bind_congr fun d' _ => ih h.2

/-! ## Marks -/

/-- There is a mark before the first quote. -/
def MarkFirst (s : Text) : Prop := ∀ u rest, s = u ++ '"' :: rest → ∃ c ∈ u, isMark c = true

/-- Without a quote, there is nothing to be shown. -/
theorem markFirst_of_notMem (h : '"' ∉ s) : MarkFirst s := by
  rintro u rest rfl
  exact absurd (List.mem_append_right u List.mem_cons_self) h

/-- A mark before which there is no quote. -/
theorem markFirst_append_cons (hs : '"' ∉ s) (hc : isMark c = true) (t : Text) :
    MarkFirst (s ++ c :: t) := by
  intro u rest h
  rcases List.append_eq_append_iff.1 h with ⟨v, rfl, hv⟩ | ⟨v, rfl, hv⟩
  · -- The mark is the first character that is not in `s`, and is no quote.
    rcases v with _ | ⟨b, v⟩
    · obtain ⟨rfl, -⟩ := List.cons.inj hv
      exact absurd hc (by decide)
    · obtain ⟨rfl, -⟩ := List.cons.inj hv
      exact ⟨c, List.mem_append_right _ List.mem_cons_self, hc⟩
  · rcases v with _ | ⟨b, v⟩
    · obtain ⟨rfl, -⟩ := List.cons.inj hv
      exact absurd hc (by decide)
    · obtain ⟨rfl, -⟩ := List.cons.inj hv
      exact absurd (List.mem_append_right u List.mem_cons_self) hs

/-- A character that is no quote may come before. -/
theorem MarkFirst.cons (h : MarkFirst s) (hc : c ≠ '"') : MarkFirst (c :: s) := by
  rintro (_ | ⟨b, u⟩) rest hs
  · exact absurd (List.cons.inj hs).1 hc
  · obtain ⟨-, hs'⟩ := List.cons.inj hs
    obtain ⟨a, ha, hmark⟩ := h u rest hs'
    exact ⟨a, List.mem_cons_of_mem _ ha, hmark⟩

/-- On the next lines, too, there is a mark before the first quote. -/
theorem MarkFirst.fenced (h : MarkFirst s) : Fenced ('\n' :: s) where
  line := by
    rintro (_ | ⟨b, u⟩) rest hs hline
    · exact absurd (List.cons.inj hs).1 (by decide)
    · obtain ⟨rfl, -⟩ := List.cons.inj hs
      exact absurd List.mem_cons_self hline
  multi u rest hs := by
    have hcons : MarkFirst ('\n' :: s) := h.cons (by decide)
    exact hcons u ('"' :: '"' :: rest) (by simpa using hs)

/-- A line whose value, if it has one, may be anything. -/
def Line.Shaped : Line → Prop
  | .comment s => ∀ c ∈ s, isControl c = false
  | .blank => True
  | .table name | .element name => Bare name
  | .pair k _ => Bare k

/-- In a document, a mark comes before the first quote. -/
theorem markFirst_render {doc : Doc} (hdoc : ∀ l ∈ doc, l.Shaped) (ht : MarkFirst t) :
    MarkFirst (doc.render ++ t) := by
  induction doc with
  | nil => exact ht
  | cons l doc ih =>
    rw [List.forall_mem_cons] at hdoc
    rw [Doc.render_cons, List.append_assoc, List.cons_append]
    cases l with
    | blank => exact (ih hdoc.2).cons (by decide)
    | comment s => exact markFirst_append_cons (s := []) List.not_mem_nil rfl _
    | table name => exact markFirst_append_cons (s := []) List.not_mem_nil rfl _
    | element name => exact markFirst_append_cons (s := []) List.not_mem_nil rfl _
    | pair k v =>
      have hk : '"' ∉ k ++ [' '] := by
        rw [List.mem_append, not_or]
        exact ⟨Bare.notMem hdoc.1 rfl, by decide⟩
      have hrender : (Line.pair k v).render ++ '\n' :: (Doc.render doc ++ t) =
          (k ++ [' ']) ++ '=' :: ' ' :: '"' :: (v ++ '"' :: '\n' :: (Doc.render doc ++ t)) := by
        simp [Line.render]
      rw [hrender]
      exact markFirst_append_cons hk rfl _

end Toml
