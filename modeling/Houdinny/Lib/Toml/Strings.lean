import Houdinny.Lib.Toml.Reader

/-!
# Reading strings

A program that writes a text between quotes writes a basic string, and the reader
reads the text back if it is plain (`run_quoted`). If it is not, the reader never
reads it back: whatever string it reads there, and wherever it ends, is another
one (`exists_of_run_quoted`).

The second is so because nothing in a string stands for more characters than it
is written with, and because the string cannot end behind the closing quote
without one of the characters that mark the structure of a document in between
(`isMark`), which stand for themselves in every string.

* `Spells acc raw` is the first of these reasons: the string `acc` is written with `raw`,
  which is as long at least, and has as many of each mark. Every step within a string keeps
  it (`Spells.cons`, `Spells.skip`, `Spells.cons_other`).
* `Reads` is what is known when the string has ended: what it is, what it was written with,
  and what is left of the text.
* `Fenced` is what is asked of the text behind the closing quote, so that the string cannot
  be read on as one of several lines: a mark comes before the next quote.
* `Tame` lists the modes in which a reader can be on the line of the value before such a
  mark. None of them can come to three quotes (`Tame.run_quotes`).

There are two kinds of strings to be looked at, as the text may begin with two more quotes:
strings of one line (`exists_of_run_single`) and of several (`exists_of_run_multi`).
-/

namespace Toml

open Reader Mode

variable {d d' e : Draft} {m m' : Mode} {a : Action} {c : Char} {q : Quote} {p : Purpose}
  {outer : List Bracket} {slot : Slot} {acc s t u : Text}

/-! ## Steps -/

/-- A character that does nothing leads to another mode. -/
theorem step_goTo (h : m.step c = goTo m') : Reader.step ⟨m, d⟩ c = some ⟨m', d⟩ := by
  rw [Reader.step, h]
  rfl

/-- One that completes something leads on, if the action is allowed. -/
theorem step_act (h : m.step c = some (m', [a])) :
    Reader.step ⟨m, d⟩ c = (d.exec a).map (⟨m', ·⟩) := by
  rw [Reader.step, h, Option.bind_some, execs, List.foldlM_cons]
  rcases d.exec a with _ | d' <;> rfl

/-- The same, with more to be read. -/
theorem run_goTo {n : Mode} (h : m.step c = goTo n) :
    Run.run Reader.step ⟨m, d⟩ (c :: t) = Run.run Reader.step ⟨n, d⟩ t := by
  rw [Run.run_cons, step_goTo h]
  rfl

/-- The same, with more to be read. -/
theorem run_act {n : Mode} (h : m.step c = some (n, [a])) :
    Run.run Reader.step ⟨m, d⟩ (c :: t) =
      (d.exec a).bind fun d' => Run.run Reader.step ⟨n, d'⟩ t := by
  rw [Run.run_cons, step_act h, Option.bind_map]
  rfl

/-- Modes in which a character does the same. -/
theorem run_congr (h : m.step c = m'.step c) :
    Run.run Reader.step ⟨m, d⟩ (c :: t) = Run.run Reader.step ⟨m', d⟩ (c :: t) := by
  rw [Run.run_cons, Run.run_cons, Reader.step, Reader.step, h]

/-- The first action, and then the others. -/
theorem execs_cons {as : List Action} :
    execs d (a :: as) = (d.exec a).bind fun d' => execs d' as := by
  rw [execs, List.foldlM_cons]
  rfl

/-- A value that is complete before the next character is put in its place. -/
theorem run_complete {v : Value} (h : m.step c = complete outer slot v c) :
    Run.run Reader.step ⟨m, d⟩ (c :: t) =
      (d.exec (.put slot v)).bind fun d' => Run.run Reader.step ⟨.after outer, d'⟩ (c :: t) := by
  have hstep : Reader.step ⟨m, d⟩ c =
      (d.exec (.put slot v)).bind fun d' => Reader.step ⟨.after outer, d'⟩ c := by
    have hafter (d' : Draft) : Reader.step ⟨.after outer, d'⟩ c =
        (stepAfter outer c).bind fun p => (execs d' p.2).map fun e => ⟨p.1, e⟩ := rfl
    simp only [hafter]
    rw [Reader.step, h, complete]
    rcases stepAfter outer c with _ | ⟨m', as⟩
    · rcases d.exec (.put slot v) with _ | d' <;> rfl
    · rw [Option.map_some, Option.bind_some, execs_cons]
      rcases d.exec (.put slot v) with _ | d' <;> rfl
  rw [Run.run_cons, hstep, Option.bind_assoc]
  rfl

/-! ## Plain texts -/

/-- A plain character is added to the string. -/
theorem step_single_of_plain (h : isPlain c = true) :
    (string .basic p (.single acc)).step c = goTo (string .basic p (.single (acc ++ [c]))) := by
  simp only [isPlain, Bool.and_eq_true, Bool.not_eq_true', bne_iff_ne] at h
  change stepSingle .basic p acc c = _
  rw [stepSingle, if_neg (show c ≠ Quote.basic.char from h.1.2), if_neg fun hc => h.2 hc.1,
    if_neg (Bool.eq_false_iff.1 h.1.1)]

/-- A plain text stands for itself. -/
theorem run_single (hs : Plain s) :
    Run.run Reader.step ⟨string .basic p (.single acc), d⟩ (s ++ t) =
      Run.run Reader.step ⟨string .basic p (.single (acc ++ s)), d⟩ t := by
  induction s generalizing acc with
  | nil => rw [List.nil_append, List.append_nil]
  | cons c s ih =>
    rw [Plain, List.forall_mem_cons] at hs
    rw [List.cons_append, run_goTo (step_single_of_plain hs.1), ih hs.2, List.append_assoc]
    rfl

/-- A string that is written plainly, and not empty, is read. -/
theorem run_quoted_of_ne_nil (hs : Plain s) (hne : s ≠ []) :
    Run.run Reader.step ⟨.value outer slot, d⟩ ('"' :: (s ++ '"' :: t)) =
      (d.exec (.put slot (.string s))).bind fun d' => Run.run Reader.step ⟨.after outer, d'⟩ t := by
  obtain ⟨b, s, rfl⟩ := List.exists_cons_of_ne_nil hne
  have hquote : b ≠ '"' := by
    rintro rfl
    exact absurd (hs _ List.mem_cons_self) (by decide)
  have hopened : (string .basic (.value outer slot) .opened).step b =
      (string .basic (.value outer slot) (.single [])).step b := if_neg hquote
  rw [run_goTo (n := string .basic (.value outer slot) .opened) rfl, List.cons_append,
    run_congr hopened, ← List.cons_append, run_single hs]
  exact run_act rfl

/-- A string that is written plainly, and not before another quote, is read. -/
theorem run_quoted (hs : Plain s) (hc : c ≠ '"') :
    Run.run Reader.step ⟨.value outer slot, d⟩ ('"' :: (s ++ '"' :: c :: t)) =
      (d.exec (.put slot (.string s))).bind fun d' =>
        Run.run Reader.step ⟨.after outer, d'⟩ (c :: t) := by
  by_cases hne : s = []
  · rw [hne, List.nil_append, run_goTo (n := string .basic (.value outer slot) .opened) rfl,
      run_goTo (n := string .basic (.value outer slot) .empty) rfl]
    exact run_complete (if_neg hc)
  · exact run_quoted_of_ne_nil hs hne

/-! ## All texts -/

/-- The characters that mark the structure of a document. -/
def isMark (c : Char) : Bool := "#,]\x7d[=.'".toList.contains c

/-- What a string is, and what it is written with: no character of it takes less
    than one, and the marks stand for themselves. -/
structure Spells (raw x : Text) : Prop where
  length_le : x.length ≤ raw.length
  count_le : ∀ c, isMark c = true → raw.count c ≤ x.count c

/-- Nothing is written with nothing. -/
theorem Spells.nil : Spells [] [] := ⟨Nat.le_refl 0, fun _ _ => Nat.le_refl 0⟩

/-- A character that stands for itself. -/
theorem Spells.cons (h : Spells s t) (c : Char) : Spells (c :: s) (c :: t) where
  length_le := Nat.succ_le_succ h.length_le
  count_le := fun b hb => by
    rw [List.count_cons, List.count_cons]
    exact Nat.add_le_add_right (h.count_le b hb) _

/-- A character that stands for nothing. -/
theorem Spells.skip (h : Spells s t) (hc : isMark c = false) : Spells (c :: s) t where
  length_le := Nat.le_succ_of_le h.length_le
  count_le := fun b hb => by
    have hne : c ≠ b := by
      rintro rfl
      exact absurd hb (by simp [hc])
    rw [List.count_cons_of_ne hne]
    exact h.count_le b hb

/-- A character that stands for another one. -/
theorem Spells.cons_other (h : Spells s t) (hc : isMark c = false) (b : Char) :
    Spells (c :: s) (b :: t) where
  length_le := Nat.succ_le_succ h.length_le
  count_le := fun b' hb => by
    have hne : c ≠ b' := by
      rintro rfl
      exact absurd hb (by simp [hc])
    rw [List.count_cons_of_ne hne]
    exact (h.count_le b' hb).trans List.count_le_count_cons

/-- What follows a backslash is no mark. -/
theorem isMark_of_unescape {b : Char} (h : unescape c = some b) : isMark c = false := by
  obtain ⟨l, r, hmem, -⟩ := List.lookup_eq_some_iff.1 h
  have hc : (c, b) ∈ [('b', '\x08'), ('t', '\t'), ('n', '\n'), ('f', '\x0c'), ('r', '\r'),
      ('"', '"'), ('\\', '\\')] := hmem ▸ List.mem_append_right _ List.mem_cons_self
  simp only [List.mem_cons, Prod.mk.injEq, List.not_mem_nil, or_false] at hc
  rcases hc with ⟨rfl, -⟩ | ⟨rfl, -⟩ | ⟨rfl, -⟩ | ⟨rfl, -⟩ | ⟨rfl, -⟩ | ⟨rfl, -⟩ | ⟨rfl, -⟩ <;> rfl

/-- Nor is a digit of a code. -/
theorem isMark_of_isHex (h : isHex c = true) : isMark c = false := by
  have hall : ∀ b ∈ "#,]\x7d[=.'".toList, isHex b = false := Text.forall_mem_of_all (by decide)
  rw [Bool.eq_false_iff]
  exact fun hmark => absurd h (by rw [hall c (List.contains_iff_mem.1 hmark)]; decide)

/-- What reading a character did. -/
theorem exists_of_run_cons {r : Reader} (h : Run.run Reader.step ⟨m, d⟩ (c :: t) = some r) :
    ∃ m' as d', m.step c = some (m', as) ∧ execs d as = some d' ∧
      Run.run Reader.step ⟨m', d'⟩ t = some r := by
  obtain ⟨r', hstep, hrun⟩ := Option.bind_eq_some_iff.1 h
  obtain ⟨⟨m', as⟩, hm, hr'⟩ := Option.bind_eq_some_iff.1 hstep
  obtain ⟨d', hd', rfl⟩ := Option.map_eq_some_iff.1 hr'
  exact ⟨m', as, d', hm, hd', hrun⟩

/-- What follows a backslash. -/
theorem exists_of_stepEscape {multi : Bool} {as : List Action}
    (h : stepEscape q p multi acc c = some (m, as)) : as = [] ∧ isMark c = false ∧
      ((c ≠ '\n' ∧ ((∃ b, m = string q p (body multi (acc ++ [b]))) ∨
        ∃ n code, m = string q p (.unicode multi acc n code))) ∨
      (multi = true ∧ (m = string q p (.trimLine acc) ∨ m = string q p (.trim acc) ∨
        m = cr (string q p (.trim acc))))) := by
  rw [stepEscape] at h
  split at h
  · -- A character with an escape of its own, a code of four or eight digits, or, in a string of
    -- several lines, white space up to the end of the line.
    next b hb =>
    have hc : c ≠ '\n' := by
      rintro rfl
      exact Option.some_ne_none b (hb.symm.trans rfl)
    obtain ⟨rfl, rfl⟩ := Prod.mk.inj (Option.some.inj h)
    exact ⟨rfl, isMark_of_unescape hb, .inl ⟨hc, .inl ⟨b, rfl⟩⟩⟩
  · split_ifs at h with h₁ h₂ h₃ h₄ h₅
    · obtain ⟨rfl, rfl⟩ := Prod.mk.inj (Option.some.inj h)
      subst h₁
      exact ⟨rfl, rfl, .inl ⟨by decide, .inr ⟨4, 0, rfl⟩⟩⟩
    · obtain ⟨rfl, rfl⟩ := Prod.mk.inj (Option.some.inj h)
      subst h₂
      exact ⟨rfl, rfl, .inl ⟨by decide, .inr ⟨8, 0, rfl⟩⟩⟩
    · obtain ⟨rfl, rfl⟩ := Prod.mk.inj (Option.some.inj h)
      refine ⟨rfl, ?_, .inr ⟨h₃.1, .inl rfl⟩⟩
      rcases Bool.or_eq_true_iff.1 h₃.2 with hc | hc <;> rw [of_decide_eq_true hc] <;> rfl
    · obtain ⟨rfl, rfl⟩ := Prod.mk.inj (Option.some.inj h)
      exact ⟨rfl, by rw [h₄.2]; rfl, .inr ⟨h₄.1, .inr (.inl rfl)⟩⟩
    · obtain ⟨rfl, rfl⟩ := Prod.mk.inj (Option.some.inj h)
      exact ⟨rfl, by rw [h₅.2]; rfl, .inr ⟨h₅.1, .inr (.inr rfl)⟩⟩

/-- A digit of an escaped character. -/
theorem exists_of_stepUnicode {multi : Bool} {as : List Action} {n code : ℕ}
    (h : stepUnicode q p multi acc n code c = some (m, as)) : as = [] ∧ isMark c = false ∧
      c ≠ '\n' ∧ ((∃ b, m = string q p (body multi (acc ++ [b]))) ∨
        ∃ n code, m = string q p (.unicode multi acc n code)) := by
  rw [stepUnicode] at h
  split_ifs at h with hhex hn
  all_goals
    have hc : c ≠ '\n' := by
      rintro rfl
      exact absurd hhex (by decide)
  · obtain ⟨b, -, hb⟩ := Option.map_eq_some_iff.1 h
    obtain ⟨rfl, rfl⟩ := Prod.mk.inj hb
    exact ⟨rfl, isMark_of_isHex hhex, hc, .inl ⟨b, rfl⟩⟩
  · obtain ⟨rfl, rfl⟩ := Prod.mk.inj (Option.some.inj h)
    exact ⟨rfl, isMark_of_isHex hhex, hc, .inr ⟨_, _, rfl⟩⟩

/-- The text is read to the end of a string that is written with `raw`: what is
    put in its place is `acc`, and what `raw` stands for. -/
structure Reads (close : Text) (d : Draft) (outer : List Bracket) (slot : Slot) (r : Reader)
    (acc text raw x : Text) : Prop where
  spells : Spells raw x
  rest : ∃ rest, text = raw ++ close ++ rest ∧
    ((d.exec (.put slot (.string (acc ++ x)))).bind fun d' =>
      Run.run Reader.step ⟨.after outer, d'⟩ rest) = some r

section

variable {close raw x : Text} {r : Reader}

/-- A character that stands for itself, or another one. -/
theorem Reads.cons {b : Char} (h : Reads close d outer slot r (acc ++ [b]) t raw x)
    (hc : c = b ∨ isMark c = false) :
    Reads close d outer slot r acc (c :: t) (c :: raw) (b :: x) := by
  obtain ⟨hspells, rest, ht, hrun⟩ := h
  refine ⟨?_, rest, ?_, ?_⟩
  · rcases hc with rfl | hc
    · exact hspells.cons c
    · exact hspells.cons_other hc b
  · rw [ht]
    rfl
  · rwa [List.append_assoc] at hrun

/-- A character that stands for nothing. -/
theorem Reads.skip (h : Reads close d outer slot r acc t raw x) (hc : isMark c = false) :
    Reads close d outer slot r acc (c :: t) (c :: raw) x := by
  obtain ⟨hspells, rest, ht, hrun⟩ := h
  exact ⟨hspells.skip hc, rest, by rw [ht]; rfl, hrun⟩

end

/-- A string of one line ends at a quote, before the newline. What is not plain
    in it takes more characters than it stands for. -/
theorem exists_of_run_single {r : Reader} (hr : r.mode = .line) (t : Text) :
    (∀ acc, Run.run Reader.step ⟨string .basic (.value outer slot) (.single acc), d⟩ t = some r →
      ∃ raw x, Reads ['"'] d outer slot r acc t raw x ∧ '\n' ∉ raw ∧
        (¬Plain raw → x.length < raw.length)) ∧
    (∀ acc, Run.run Reader.step ⟨string .basic (.value outer slot) (.escape false acc), d⟩ t =
      some r → ∃ raw x, Reads ['"'] d outer slot r acc t raw x ∧ '\n' ∉ raw) ∧
    (∀ acc n code, Run.run Reader.step
      ⟨string .basic (.value outer slot) (.unicode false acc n code), d⟩ t = some r →
      ∃ raw x, Reads ['"'] d outer slot r acc t raw x ∧ '\n' ∉ raw) := by
  induction t generalizing d with
  | nil =>
    refine ⟨fun acc h => ?_, fun acc h => ?_, fun acc n code h => ?_⟩ <;>
      exact absurd (Option.some.inj h ▸ hr) (by simp)
  | cons c t ih =>
    obtain ⟨ihsingle, ihescape, ihunicode⟩ := @ih d
    refine ⟨fun acc h => ?_, fun acc h => ?_, fun acc n code h => ?_⟩
    · obtain ⟨m', as, d', hm, hd', hrun⟩ := exists_of_run_cons h
      change stepSingle .basic _ acc c = _ at hm
      rw [stepSingle] at hm
      split_ifs at hm with hquote hescape hcontrol
      · -- The closing quote.
        subst hquote
        refine ⟨[], [], ⟨.nil, t, rfl, ?_⟩, List.not_mem_nil, fun hplain => ?_⟩
        · rw [List.append_nil, ← h, run_act rfl]
        · exact absurd (fun c hc => absurd hc List.not_mem_nil) hplain
      · -- A backslash stands for nothing by itself.
        obtain ⟨rfl, -⟩ := hescape
        obtain ⟨rfl, rfl⟩ := Prod.mk.inj (Option.some.inj hm)
        obtain rfl := Option.some.inj hd'
        obtain ⟨raw, x, hreads, hline⟩ := ihescape acc hrun
        refine ⟨_, x, hreads.skip rfl, ?_, fun _ => ?_⟩
        · rw [List.mem_cons, not_or]
          exact ⟨by decide, hline⟩
        · exact Nat.lt_succ_of_le hreads.spells.length_le
      · obtain ⟨rfl, rfl⟩ := Prod.mk.inj (Option.some.inj hm)
        obtain rfl := Option.some.inj hd'
        obtain ⟨raw, x, hreads, hline, hlt⟩ := ihsingle _ hrun
        refine ⟨_, _, hreads.cons (.inl rfl), ?_, fun hplain => ?_⟩
        · rw [List.mem_cons, not_or]
          refine ⟨?_, hline⟩
          rintro rfl
          exact hcontrol rfl
        · refine Nat.succ_lt_succ (hlt fun hraw => hplain ?_)
          have hc : isPlain c = true := by
            have hbackslash : c ≠ '\\' := fun hc => hescape ⟨hc, rfl⟩
            have hquote' : c ≠ '"' := hquote
            simp [isPlain, hcontrol, hbackslash, hquote']
          exact List.forall_mem_cons.2 ⟨hc, hraw⟩
    · obtain ⟨m', as, d', hm, hd', hrun⟩ := exists_of_run_cons h
      obtain ⟨rfl, hmark, ⟨hc, hnext⟩ | ⟨hmulti, -⟩⟩ := exists_of_stepEscape hm
      · obtain rfl := Option.some.inj hd'
        rcases hnext with ⟨b, rfl⟩ | ⟨n, code, rfl⟩
        · obtain ⟨raw, x, hreads, hline, -⟩ := ihsingle _ hrun
          exact ⟨_, _, hreads.cons (.inr hmark), fun hmem => (List.mem_cons.1 hmem).elim
            (fun heq => hc heq.symm) hline⟩
        · obtain ⟨raw, x, hreads, hline⟩ := ihunicode acc n code hrun
          exact ⟨_, _, hreads.skip hmark, fun hmem => (List.mem_cons.1 hmem).elim
            (fun heq => hc heq.symm) hline⟩
      · exact absurd hmulti (by decide)
    · obtain ⟨m', as, d', hm, hd', hrun⟩ := exists_of_run_cons h
      obtain ⟨rfl, hmark, hc, hnext⟩ := exists_of_stepUnicode hm
      obtain rfl := Option.some.inj hd'
      rcases hnext with ⟨b, rfl⟩ | ⟨n', code', rfl⟩
      · obtain ⟨raw, x, hreads, hline, -⟩ := ihsingle _ hrun
        exact ⟨_, _, hreads.cons (.inr hmark), fun hmem => (List.mem_cons.1 hmem).elim
          (fun heq => hc heq.symm) hline⟩
      · obtain ⟨raw, x, hreads, hline⟩ := ihunicode acc n' code' hrun
        exact ⟨_, _, hreads.skip hmark, fun hmem => (List.mem_cons.1 hmem).elim
          (fun heq => hc heq.symm) hline⟩

/-- A mode within a multi-line string: of the text read, `acc` is known to belong
    to it, and the quotes `owed` are to be read again. -/
inductive InMulti (outer : List Bracket) (slot : Slot) : Mode → Text → Text → Prop
  | multi (acc : Text) : InMulti outer slot
      (string .basic (.value outer slot) (.multi acc)) acc []
  | escape (acc : Text) : InMulti outer slot
      (string .basic (.value outer slot) (.escape true acc)) acc []
  | unicode (acc : Text) (n code : ℕ) : InMulti outer slot
      (string .basic (.value outer slot) (.unicode true acc n code)) acc []
  | quote (acc : Text) : InMulti outer slot
      (string .basic (.value outer slot) (.quotes acc false)) acc ['"']
  | quotes (acc : Text) : InMulti outer slot
      (string .basic (.value outer slot) (.quotes acc true)) acc ['"', '"']
  | closed (acc : Text) (four : Bool) : InMulti outer slot
      (string .basic (.value outer slot) (.closed acc four)) acc ['"', '"', '"']
  | trimLine (acc : Text) : InMulti outer slot
      (string .basic (.value outer slot) (.trimLine acc)) acc []
  | trim (acc : Text) : InMulti outer slot
      (string .basic (.value outer slot) (.trim acc)) acc []
  | cr {m : Mode} (acc : Text) (h : m = string .basic (.value outer slot) (.multi acc) ∨
      m = string .basic (.value outer slot) (.trim acc)) : InMulti outer slot (.cr m) acc []

/-- Nor is a blank. -/
theorem isMark_of_isBlank (h : isBlank c = true) : isMark c = false := by
  rcases Bool.or_eq_true_iff.1 h with hc | hc <;> rw [of_decide_eq_true hc] <;> rfl

/-- A multi-line string ends at three quotes. -/
theorem exists_of_run_multi {r : Reader} (hr : r.mode = .line) (t : Text) :
    ∀ {m acc owed}, InMulti outer slot m acc owed → Run.run Reader.step ⟨m, d⟩ t = some r →
      ∃ raw x, Reads ['"', '"', '"'] d outer slot r acc (owed ++ t) raw x := by
  induction t generalizing d with
  | nil =>
    intro m acc owed hm h
    obtain rfl := Option.some.inj h
    cases hm <;> exact absurd hr (by simp)
  | cons c t ih =>
    -- A character of the string itself.
    have hmulti : ∀ {m acc}, m.step c = stepMulti .basic (.value outer slot) acc c →
        Run.run Reader.step ⟨m, d⟩ (c :: t) = some r →
        ∃ raw x, Reads ['"', '"', '"'] d outer slot r acc (c :: t) raw x := by
      intro m acc hstep h
      obtain ⟨m', as, d', hm, hd', hrun⟩ := exists_of_run_cons h
      rw [hstep, stepMulti] at hm
      split_ifs at hm with hquote hescape hnewline hcr hcontrol
      all_goals
        obtain ⟨rfl, rfl⟩ := Prod.mk.inj (Option.some.inj hm)
        obtain rfl := Option.some.inj hd'
      · obtain ⟨raw, x, hreads⟩ := ih (.quote acc) hrun
        exact ⟨raw, x, by rwa [hquote]⟩
      · obtain ⟨raw, x, hreads⟩ := ih (.escape acc) hrun
        exact ⟨_, _, hreads.skip (by rw [hescape.1]; rfl)⟩
      · obtain ⟨raw, x, hreads⟩ := ih (.multi _) hrun
        exact ⟨_, _, hreads.cons (.inl hnewline)⟩
      · obtain ⟨raw, x, hreads⟩ := ih (.cr _ (.inl rfl)) hrun
        exact ⟨_, _, hreads.cons (.inr (by rw [hcr]; rfl))⟩
      · obtain ⟨raw, x, hreads⟩ := ih (.multi _) hrun
        exact ⟨_, _, hreads.cons (.inl rfl)⟩
    intro m acc owed hm h
    cases hm with
    | multi => exact hmulti rfl h
    | escape =>
      obtain ⟨m', as, d', hm, hd', hrun⟩ := exists_of_run_cons h
      obtain ⟨rfl, hmark, ⟨-, ⟨b, rfl⟩ | ⟨n, code, rfl⟩⟩ | ⟨-, rfl | rfl | rfl⟩⟩ :=
        exists_of_stepEscape hm
      all_goals obtain rfl := Option.some.inj hd'
      · obtain ⟨raw, x, hreads⟩ := ih (.multi _) hrun
        exact ⟨_, _, hreads.cons (.inr hmark)⟩
      · obtain ⟨raw, x, hreads⟩ := ih (.unicode acc n code) hrun
        exact ⟨_, _, hreads.skip hmark⟩
      · obtain ⟨raw, x, hreads⟩ := ih (.trimLine acc) hrun
        exact ⟨_, _, hreads.skip hmark⟩
      · obtain ⟨raw, x, hreads⟩ := ih (.trim acc) hrun
        exact ⟨_, _, hreads.skip hmark⟩
      · obtain ⟨raw, x, hreads⟩ := ih (.cr acc (.inr rfl)) hrun
        exact ⟨_, _, hreads.skip hmark⟩
    | unicode _ n code =>
      obtain ⟨m', as, d', hm, hd', hrun⟩ := exists_of_run_cons h
      obtain ⟨rfl, hmark, -, ⟨b, rfl⟩ | ⟨n', code', rfl⟩⟩ := exists_of_stepUnicode hm
      all_goals obtain rfl := Option.some.inj hd'
      · obtain ⟨raw, x, hreads⟩ := ih (.multi _) hrun
        exact ⟨_, _, hreads.cons (.inr hmark)⟩
      · obtain ⟨raw, x, hreads⟩ := ih (.unicode acc n' code') hrun
        exact ⟨_, _, hreads.skip hmark⟩
    | quote =>
      by_cases hquote : c = '"'
      · subst hquote
        rw [run_goTo (n := string .basic (.value outer slot) (.quotes acc true)) rfl] at h
        exact ih (.quotes acc) h
      · -- The quote before it belongs to the string.
        have hstep : (string .basic (.value outer slot) (.quotes acc false)).step c =
            stepMulti .basic (.value outer slot) (acc ++ ['"']) c := if_neg hquote
        obtain ⟨raw, x, hreads⟩ := hmulti hstep h
        exact ⟨_, _, hreads.cons (.inl rfl)⟩
    | quotes =>
      by_cases hquote : c = '"'
      · subst hquote
        rw [run_goTo (n := string .basic (.value outer slot) (.closed acc false)) rfl] at h
        exact ih (.closed acc false) h
      · have hstep : (string .basic (.value outer slot) (.quotes acc true)).step c =
            stepMulti .basic (.value outer slot) (acc ++ ['"', '"']) c := if_neg hquote
        obtain ⟨raw, x, hreads⟩ := hmulti hstep h
        have htwo : acc ++ ['"', '"'] = acc ++ ['"'] ++ ['"'] := by
          rw [List.append_assoc]
          rfl
        rw [htwo] at hreads
        exact ⟨_, _, (hreads.cons (.inl rfl)).cons (.inl rfl)⟩
    | closed _ four =>
      by_cases hquote : c = '"'
      · subst hquote
        cases four with
        | false =>
          rw [run_goTo (n := string .basic (.value outer slot) (.closed (acc ++ ['"']) true)) rfl]
            at h
          obtain ⟨raw, x, hreads⟩ := ih (.closed (acc ++ ['"']) true) h
          exact ⟨_, _, hreads.cons (.inl rfl)⟩
        | true =>
          rw [run_act (n := .after outer) (a := .put slot (.string (acc ++ ['"']))) rfl] at h
          exact ⟨['"'], ['"'], Spells.nil.cons '"', t, rfl, h⟩
      · have hstep : (string .basic (.value outer slot) (.closed acc four)).step c =
            complete outer slot (.string acc) c := by
          cases four <;> exact if_neg hquote
        rw [run_complete hstep] at h
        exact ⟨[], [], .nil, c :: t, rfl, by rwa [List.append_nil]⟩
    | trimLine =>
      obtain ⟨m', as, d', hm, hd', hrun⟩ := exists_of_run_cons h
      change (if isBlank c then _ else _) = _ at hm
      split_ifs at hm with hblank hnewline hcr
      all_goals
        obtain ⟨rfl, rfl⟩ := Prod.mk.inj (Option.some.inj hm)
        obtain rfl := Option.some.inj hd'
      · obtain ⟨raw, x, hreads⟩ := ih (.trimLine acc) hrun
        exact ⟨_, _, hreads.skip (isMark_of_isBlank hblank)⟩
      · obtain ⟨raw, x, hreads⟩ := ih (.trim acc) hrun
        exact ⟨_, _, hreads.skip (by rw [hnewline]; rfl)⟩
      · obtain ⟨raw, x, hreads⟩ := ih (.cr acc (.inr rfl)) hrun
        exact ⟨_, _, hreads.skip (by rw [hcr]; rfl)⟩
    | trim =>
      by_cases hblank : isBlank c = true ∨ c = '\n'
      · have hstep : (string .basic (.value outer slot) (.trim acc)).step c =
            goTo (string .basic (.value outer slot) (.trim acc)) := if_pos hblank
        rw [run_goTo hstep] at h
        obtain ⟨raw, x, hreads⟩ := ih (.trim acc) h
        refine ⟨_, _, hreads.skip ?_⟩
        rcases hblank with hblank | rfl
        · exact isMark_of_isBlank hblank
        · rfl
      · by_cases hcr : c = '\r'
        · subst hcr
          rw [run_goTo (n := .cr (string .basic (.value outer slot) (.trim acc))) rfl] at h
          obtain ⟨raw, x, hreads⟩ := ih (.cr acc (.inr rfl)) h
          exact ⟨_, _, hreads.skip rfl⟩
        · have hstep : (string .basic (.value outer slot) (.trim acc)).step c =
              stepMulti .basic (.value outer slot) acc c := (if_neg hblank).trans (if_neg hcr)
          exact hmulti hstep h
    | @cr m' _ hm' =>
      by_cases hnewline : c = '\n'
      · have hstep : (Mode.cr m').step c = goTo m' := if_pos hnewline
        rw [run_goTo hstep] at h
        obtain ⟨raw, x, hreads⟩ : ∃ raw x, Reads ['"', '"', '"'] d outer slot r acc t raw x := by
          rcases hm' with rfl | rfl
          · exact ih (.multi acc) h
          · exact ih (.trim acc) h
        exact ⟨_, _, hreads.skip (by rw [hnewline]; rfl)⟩
      · obtain ⟨m', as, d', hm, hd', hrun⟩ := exists_of_run_cons h
        change (if c = '\n' then _ else none) = _ at hm
        rw [if_neg hnewline] at hm
        exact absurd hm (by simp)

/-- A multi-line string, from its first character on. -/
theorem exists_of_run_multiStart {r : Reader} (hr : r.mode = .line)
    (h : Run.run Reader.step ⟨string .basic (.value outer slot) .multiStart, d⟩ t = some r) :
    ∃ raw x, Reads ['"', '"', '"'] d outer slot r [] t raw x := by
  rcases t with _ | ⟨c, t⟩
  · obtain rfl := Option.some.inj h
    exact absurd hr (by simp)
  · by_cases hnewline : c = '\n'
    · subst hnewline
      rw [run_goTo (n := string .basic (.value outer slot) (.multi [])) rfl] at h
      obtain ⟨raw, x, hreads⟩ := exists_of_run_multi hr t (.multi []) h
      exact ⟨_, _, hreads.skip rfl⟩
    · by_cases hcr : c = '\r'
      · subst hcr
        rw [run_goTo (n := .cr (string .basic (.value outer slot) (.multi []))) rfl] at h
        obtain ⟨raw, x, hreads⟩ := exists_of_run_multi hr t (.cr [] (.inl rfl)) h
        exact ⟨_, _, hreads.skip rfl⟩
      · have hstep : (string .basic (.value outer slot) .multiStart).step c =
            (string .basic (.value outer slot) (.multi [])).step c :=
          (if_neg hnewline).trans (if_neg hcr)
        rw [run_congr hstep] at h
        exact exists_of_run_multi hr (c :: t) (.multi []) h

/-- There is a mark in a text before the first quote on its first line, and before
    the first three quotes. -/
structure Fenced (post : Text) : Prop where
  line : ∀ u rest, post = u ++ '"' :: rest → '\n' ∉ u → ∃ c ∈ u, isMark c = true
  multi : ∀ u rest, post = u ++ ['"', '"', '"'] ++ rest → ∃ c ∈ u, isMark c = true

/-- Behind a closing quote there is no other quote. -/
theorem Fenced.exists_cons {post : Text} (h : Fenced post) (hne : post ≠ []) :
    ∃ c u, post = c :: u ∧ c ≠ '"' := by
  obtain ⟨c, u, rfl⟩ := List.exists_cons_of_ne_nil hne
  refine ⟨c, u, rfl, ?_⟩
  rintro rfl
  obtain ⟨b, hb, -⟩ := h.line [] u rfl List.not_mem_nil
  exact List.not_mem_nil hb

/-- What stands for a text has no mark but those of the text. -/
theorem Spells.notMem {v : Text} (h : Spells (v ++ u) t) (ht : t.count c ≤ v.count c)
    (hc : isMark c = true) : c ∉ u := by
  intro hmem
  have hcount := h.count_le c hc
  have hpos := List.count_pos_iff.2 hmem
  rw [List.count_append] at hcount
  omega

/-- A string of one line that is written with `v`, and is `v`, is plain. -/
theorem plain_of_reads {v raw post : Text} {r : Reader} (hpost : Fenced post)
    (h : Reads ['"'] d outer slot r [] (v ++ '"' :: post) raw v) (hline : '\n' ∉ raw)
    (hlt : ¬Plain raw → v.length < raw.length) : Plain v := by
  obtain ⟨hspells, rest, ht, -⟩ := h
  have hcut : (v ++ ['"']) ++ post = raw ++ '"' :: rest := by simpa using ht
  rcases List.append_eq_append_iff.1 hcut with ⟨u, rfl, hu⟩ | ⟨u, hraw, hu⟩
  · -- It ends behind the closing quote: there is a mark in between.
    obtain ⟨c, hc, hmark⟩ := hpost.line u rest hu fun hmem =>
      hline (List.mem_append_right _ hmem)
    rw [List.append_assoc] at hspells
    exact absurd (List.mem_cons_of_mem _ hc) (hspells.notMem (Nat.le_refl _) hmark)
  · -- It ends there or before, and so there, as nothing stands for more.
    have hne : u ≠ [] := by
      rintro rfl
      obtain ⟨c, hc, -⟩ := hpost.line [] rest hu.symm List.not_mem_nil
      exact List.not_mem_nil hc
    have hlen := congrArg List.length hraw
    have hpos := List.length_pos_iff.2 hne
    rw [List.length_append, List.length_append, List.length_singleton] at hlen
    have hle := hspells.length_le
    have hplain : Plain raw := by
      by_contra hraw'
      have := hlt hraw'
      omega
    rwa [List.append_inj_left hraw (by omega)]

/-- A multi-line string that is written with all but the first two quotes of `v`, is
    not `v`. -/
theorem ne_of_reads_multi {w raw x post : Text} {r : Reader} (hpost : Fenced post)
    (h : Reads ['"', '"', '"'] d outer slot r [] (w ++ '"' :: post) raw x) :
    x ≠ '"' :: '"' :: w := by
  rintro rfl
  obtain ⟨hspells, rest, ht, -⟩ := h
  have hcut : (w ++ ['"']) ++ post = raw ++ '"' :: '"' :: '"' :: rest := by simpa using ht
  rcases List.append_eq_append_iff.1 hcut with ⟨u, rfl, hu⟩ | ⟨u, hraw, hu⟩
  · obtain ⟨c, hc, hmark⟩ := hpost.multi u rest (by simpa using hu)
    rw [List.append_assoc] at hspells
    have hcount : ('"' :: '"' :: w).count c ≤ w.count c := by
      have hne : '"' ≠ c := by
        rintro rfl
        exact absurd hmark (by decide)
      rw [List.count_cons_of_ne hne, List.count_cons_of_ne hne]
    exact absurd (List.mem_cons_of_mem _ hc) (hspells.notMem hcount hmark)
  · have hle := hspells.length_le
    have hlen := congrArg List.length hraw
    rw [List.length_append, List.length_append, List.length_singleton] at hlen
    rw [List.length_cons, List.length_cons] at hle
    -- Less than three quotes are left, and a quote is the first character behind.
    have hquote : ∃ rest', post = '"' :: rest' := by
      rcases u with _ | ⟨a, _ | ⟨b, _ | ⟨c, u⟩⟩⟩
      · exact ⟨_, hu.symm⟩
      · exact ⟨_, (List.cons.inj hu).2.symm⟩
      · exact ⟨_, (List.cons.inj (List.cons.inj hu).2).2.symm⟩
      · simp only [List.length_cons] at hlen
        omega
    obtain ⟨rest', hrest⟩ := hquote
    obtain ⟨c, hc, -⟩ := hpost.line [] rest' hrest List.not_mem_nil
    exact List.not_mem_nil hc

/-- Where a text is written between quotes, some string is read, or nothing. It is
    the text only if the text is plain. -/
theorem exists_of_run_quoted {v post : Text} {r : Reader} (hr : r.mode = .line)
    (hpost : Fenced post)
    (h : Run.run Reader.step ⟨.value outer slot, d⟩ ('"' :: (v ++ '"' :: post)) = some r) :
    ∃ x rest, ((d.exec (.put slot (.string x))).bind fun d' =>
      Run.run Reader.step ⟨.after outer, d'⟩ rest) = some r ∧ (x = v → Plain v) := by
  rw [run_goTo (n := string .basic (.value outer slot) .opened) rfl] at h
  rcases v with _ | ⟨c, v⟩
  · -- The empty string.
    rw [List.nil_append, run_goTo (n := string .basic (.value outer slot) .empty) rfl] at h
    by_cases hne : post = []
    · subst hne
      obtain rfl := Option.some.inj h
      exact absurd hr (by simp)
    · obtain ⟨b, post, rfl, hb⟩ := hpost.exists_cons hne
      have hstep : (string .basic (.value outer slot) .empty).step b =
          complete outer slot (.string []) b := if_neg hb
      rw [run_complete hstep] at h
      exact ⟨[], b :: post, h, fun _ _ hc => absurd hc List.not_mem_nil⟩
  · by_cases hc : c = '"'
    · subst hc
      rw [List.cons_append, run_goTo (n := string .basic (.value outer slot) .empty) rfl] at h
      rcases v with _ | ⟨b, w⟩
      · -- What comes behind is taken for a multi-line string.
        rw [List.nil_append, run_goTo (n := string .basic (.value outer slot) .multiStart) rfl] at h
        obtain ⟨raw, x, hspells, rest, ht, hrun⟩ := exists_of_run_multiStart hr h
        refine ⟨x, rest, hrun, ?_⟩
        rintro rfl
        obtain ⟨c, hc, hmark⟩ := hpost.multi raw rest ht
        have hspells' : Spells ([] ++ raw) ['"'] := hspells
        refine absurd hc (hspells'.notMem ?_ hmark)
        have hne : '"' ≠ c := by
          rintro rfl
          exact absurd hmark (by decide)
        rw [List.count_cons_of_ne hne]
      · by_cases hb : b = '"'
        · subst hb
          rw [List.cons_append,
            run_goTo (n := string .basic (.value outer slot) .multiStart) rfl] at h
          obtain ⟨raw, x, hreads⟩ := exists_of_run_multiStart hr h
          obtain ⟨rest, -, hrun⟩ := hreads.rest
          exact ⟨x, rest, hrun, fun hx => absurd hx (ne_of_reads_multi hpost hreads)⟩
        · -- The empty string, and something behind it.
          have hstep : (string .basic (.value outer slot) .empty).step b =
              complete outer slot (.string []) b := if_neg hb
          rw [List.cons_append, run_complete hstep] at h
          exact ⟨[], _, h, fun hx => absurd hx (by simp)⟩
    · have hstep : (string .basic (.value outer slot) .opened).step c =
          (string .basic (.value outer slot) (.single [])).step c := if_neg hc
      rw [List.cons_append, run_congr hstep] at h
      obtain ⟨raw, x, hreads, hline, hlt⟩ := (exists_of_run_single hr _).1 [] h
      obtain ⟨rest, -, hrun⟩ := hreads.rest
      refine ⟨x, rest, hrun, ?_⟩
      rintro rfl
      exact plain_of_reads hpost hreads hline hlt

/-! ## What follows a value -/

/-- The modes that what follows a value leads to, as long as there are no marks. -/
inductive Tame : Mode → Prop
  | line : Tame line
  | after (outer : List Bracket) : Tame (after outer)
  | cr {m : Mode} (h : Tame m) : Tame (cr m)
  | bare (k : Text) : Tame (bare (.pair []) [] k)
  | opened : Tame (string .basic (.key (.pair []) []) .opened)
  | single (acc : Text) : Tame (string .basic (.key (.pair []) []) (.single acc))
  | escape (acc : Text) : Tame (string .basic (.key (.pair []) []) (.escape false acc))
  | unicode (acc : Text) (n code : ℕ) :
    Tame (string .basic (.key (.pair []) []) (.unicode false acc n code))
  | keyEnd (k : Text) : Tame (keyEnd (.pair []) [] k)

/-- What is no mark is another character than one. -/
theorem ne_of_isMark {b : Char} (hc : isMark c = false) (hb : isMark b = true) : c ≠ b := by
  rintro rfl
  exact absurd hb (by simp [hc])

/-- After the end of the line, a line or a comment comes next. -/
theorem tame_nextLine {l : Mode} (h : nextLine outer = some l) : Tame l := by
  rcases outer with _ | ⟨_ | _, outer⟩
  · exact Option.some.inj h ▸ .line
  · exact Option.some.inj h ▸ .after _
  · exact absurd h (by simp [nextLine])

/-- Without a mark, only white space comes after a value. -/
theorem stepAfter_of_not_mark (hc : isMark c = false) : stepAfter outer c =
    if isBlank c then goTo (after outer)
    else if c = '\n' then (nextLine outer).map (·, [])
    else if c = '\r' then (nextLine outer).map (cr ·, [])
    else none := by
  have hmark {b : Char} : isMark b = true → c ≠ b := ne_of_isMark hc
  rcases outer with _ | ⟨_ | _, outer⟩ <;>
    simp [stepAfter, hmark (b := '#') rfl, hmark (b := ',') rfl, hmark (b := ']') rfl,
      hmark (b := '\x7d') rfl]

/-- What comes after a value is tame then. -/
theorem tame_stepAfter {as : List Action} (hc : isMark c = false)
    (h : stepAfter outer c = some (m, as)) : Tame m := by
  rw [stepAfter_of_not_mark hc] at h
  split_ifs at h with hblank hnewline hcr
  · exact (Prod.mk.inj (Option.some.inj h)).1 ▸ .after outer
  · obtain ⟨l, hl, hm⟩ := Option.map_eq_some_iff.1 h
    exact (Prod.mk.inj hm).1 ▸ tame_nextLine hl
  · obtain ⟨l, hl, hm⟩ := Option.map_eq_some_iff.1 h
    exact (Prod.mk.inj hm).1 ▸ .cr (tame_nextLine hl)

/-- So is what comes after a key, -/
theorem tame_stepKeyEnd {as : List Action} {k : Text} (hc : isMark c = false)
    (h : stepKeyEnd (.pair []) [] k c = some (m, as)) : Tame m := by
  simp only [stepKeyEnd, if_neg (ne_of_isMark (b := '.') hc rfl),
    if_neg (ne_of_isMark (b := '=') hc rfl)] at h
  split_ifs at h with hblank
  exact (Prod.mk.inj (Option.some.inj h)).1 ▸ .keyEnd k

/-- what comes at the start of a line, -/
theorem tame_stepLine {as : List Action} (hc : isMark c = false)
    (h : stepLine c = some (m, as)) : Tame m := by
  have hmark {b : Char} : isMark b = true → c ≠ b := ne_of_isMark hc
  rw [stepLine, if_neg (hmark (b := '#') rfl), if_neg (hmark (b := '[') rfl), stepKey,
    if_neg (hmark (b := '\'') rfl)] at h
  split_ifs at h with hblank hnewline hcr hbare hquote
  all_goals obtain ⟨rfl, -⟩ := Prod.mk.inj (Option.some.inj h)
  · exact .line
  · exact .line
  · exact .cr .line
  · exact .bare [c]
  · exact .opened

/-- and what comes in a quoted key. -/
theorem tame_stepSingle {as : List Action}
    (h : stepSingle .basic (.key (.pair []) []) acc c = some (m, as)) : Tame m := by
  rw [stepSingle] at h
  split_ifs at h
  all_goals obtain ⟨rfl, -⟩ := Prod.mk.inj (Option.some.inj h)
  · exact .keyEnd acc
  · exact .escape acc
  · exact .single _

/-- A character that is no mark leads from such a mode to another. -/
theorem Tame.step {as : List Action} (hm : Tame m) (hc : isMark c = false)
    (h : m.step c = some (m', as)) : Tame m' := by
  cases hm with
  | line => exact tame_stepLine hc h
  | after outer => exact tame_stepAfter hc h
  | @cr back hback =>
    change (if c = '\n' then goTo back else none) = _ at h
    split_ifs at h
    obtain ⟨rfl, -⟩ := Prod.mk.inj (Option.some.inj h)
    exact hback
  | bare k =>
    change (if isBare c then goTo (.bare (.pair []) [] (k ++ [c])) else stepKeyEnd _ _ k c) = _ at h
    split_ifs at h
    · obtain ⟨rfl, -⟩ := Prod.mk.inj (Option.some.inj h)
      exact .bare _
    · exact tame_stepKeyEnd hc h
  | opened =>
    change (if c = '"' then goTo (.keyEnd (.pair []) [] []) else stepSingle _ _ [] c) = _ at h
    split_ifs at h
    · obtain ⟨rfl, -⟩ := Prod.mk.inj (Option.some.inj h)
      exact .keyEnd []
    · exact tame_stepSingle h
  | single acc => exact tame_stepSingle h
  | escape acc =>
    -- An escape is of one character, or the start of a code point.
    obtain ⟨-, -, ⟨-, ⟨b, rfl⟩ | ⟨n, code, rfl⟩⟩ | ⟨hmulti, -⟩⟩ := exists_of_stepEscape h
    · exact .single _
    · exact .unicode _ n code
    · exact absurd hmulti (by decide)
  | unicode acc n code =>
    obtain ⟨-, -, -, ⟨b, rfl⟩ | ⟨n', code', rfl⟩⟩ := exists_of_stepUnicode h
    · exact .single _
    · exact .unicode _ n' code'
  | keyEnd k => exact tame_stepKeyEnd hc h

/-- In none of these modes can three quotes be read. -/
theorem Tame.run_quotes (hm : Tame m) :
    Run.run Reader.step ⟨m, d⟩ ('"' :: '"' :: '"' :: t) = none := by
  cases hm with
  | after outer => rcases outer with _ | ⟨_ | _, outer⟩ <;> rfl
  | line | cr | bare | opened | single | escape | unicode | keyEnd => rfl

/-- In a mode like these, a text without marks leads to another. -/
theorem Tame.run {u : Text} {r : Reader} (hm : Tame m) (hu : ∀ c ∈ u, isMark c = false)
    (h : Run.run Reader.step ⟨m, d⟩ u = some r) : Tame r.mode := by
  induction u generalizing m d with
  | nil => exact Option.some.inj h ▸ hm
  | cons c u ih =>
    rw [List.forall_mem_cons] at hu
    obtain ⟨m', as, d', hstep, -, hrun⟩ := exists_of_run_cons h
    exact ih (hm.step hu.1 hstep) hu.2 hrun

/-- On the line of a value, a text without marks leads nowhere else. -/
theorem run_after {u : Text} {r : Reader} (hu : ∀ c ∈ u, isMark c = false ∧ c ≠ '\n')
    (h : Run.run Reader.step ⟨.after outer, d⟩ u = some r) :
    r.mode = .after outer ∨ ∃ back, r.mode = .cr back := by
  induction u generalizing d with
  | nil => exact .inl (Option.some.inj h ▸ rfl)
  | cons c u ih =>
    rw [List.forall_mem_cons] at hu
    obtain ⟨m', as, d', hstep, -, hrun⟩ := exists_of_run_cons h
    change stepAfter outer c = _ at hstep
    rw [stepAfter_of_not_mark hu.1.1, if_neg hu.1.2] at hstep
    split_ifs at hstep with hblank hcr
    · obtain ⟨rfl, -⟩ := Prod.mk.inj (Option.some.inj hstep)
      exact ih hu.2 hrun
    · obtain ⟨l, -, hm⟩ := Option.map_eq_some_iff.1 hstep
      obtain ⟨rfl, -⟩ := Prod.mk.inj hm
      rcases u with _ | ⟨b, u⟩
      · exact .inr ⟨l, Option.some.inj hrun ▸ rfl⟩
      · obtain ⟨m', as, d', hstep, -, -⟩ := exists_of_run_cons hrun
        change (if b = '\n' then goTo l else none) = _ at hstep
        rw [if_neg (hu.2 b List.mem_cons_self).2] at hstep
        exact absurd hstep (by simp)

/-- What can be read after a value has a mark before its first quotes. -/
theorem fenced_of_run_after {post : Text} {r : Reader}
    (h : Run.run Reader.step ⟨.after outer, d⟩ post = some r) : Fenced post := by
  constructor
  · rintro u rest rfl hline
    by_contra hmark
    push Not at hmark
    rw [Run.run_append] at h
    obtain ⟨⟨m, d'⟩, hu, hrest⟩ := Option.bind_eq_some_iff.1 h
    have hchars : ∀ c ∈ u, isMark c = false ∧ c ≠ '\n' := fun c hc =>
      ⟨Bool.eq_false_iff.2 (hmark c hc), fun hn => hline (hn ▸ hc)⟩
    rcases run_after hchars hu with rfl | ⟨back, rfl⟩
    · have hnone : Run.run Reader.step ⟨.after outer, d'⟩ ('"' :: rest) = none := by
        rcases outer with _ | ⟨_ | _, outer⟩ <;> rfl
      exact Option.some_ne_none r (hrest.symm.trans hnone)
    · exact Option.some_ne_none r (hrest.symm.trans rfl)
  · rintro u rest rfl
    by_contra hmark
    push Not at hmark
    rw [List.append_assoc, Run.run_append] at h
    obtain ⟨⟨m, d'⟩, hu, hrest⟩ := Option.bind_eq_some_iff.1 h
    have hm := (Tame.after outer).run (fun c hc => Bool.eq_false_iff.2 (hmark c hc)) hu
    exact Option.some_ne_none r (hrest.symm.trans hm.run_quotes)

end Toml
