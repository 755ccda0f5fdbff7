import Houdinny.Lib.Stream

/-!
# Byte sources, read byte by byte

A source is read one byte at a time, without a buffer. Reading may fail, at the end of
the stream or before, and the source may be anything: a stream that is cut into reads, or a
source that never ends.

* `Yields`: the bytes that are read from a source, and what is left of it;
* `counting`: a source that counts how often it is read;
* `EndsFirst`: the shortest prefix that ends in a given pattern.

Reading is a function of the source, so what is read is determined as far as it goes
(`Yields.total`): two readers of one source read the same, up to the end of the shorter one.
Together with `EndsFirst` this says what a loop consumes that reads up to a pattern
(`EndsFirst.yields_unique`), with no word about how the stream was cut.
-/

namespace Stream

variable {σ ε : Type*} {read : σ → Except ε UInt8 × σ} {s t u : σ} {b : UInt8} {bs cs : Bytes}

/-- Reading the bytes, one by one, leads from the source `s` to `t`. -/
inductive Yields (read : σ → Except ε UInt8 × σ) : σ → Bytes → σ → Prop
  | nil {s : σ} : Yields read s [] s
  | cons {s t u : σ} {b : UInt8} {bs : Bytes} :
      read s = (.ok b, t) → Yields read t bs u → Yields read s (b :: bs) u

/-- Reading goes on from what is left. -/
theorem Yields.append (h : Yields read s bs t) (h' : Yields read t cs u) :
    Yields read s (bs ++ cs) u := by
  induction h with
  | nil => exact h'
  | cons hb _ ih => exact .cons hb (ih h')

/-- What is read is determined, as far as it is read. -/
theorem Yields.total (h : Yields read s bs t) (h' : Yields read s cs u) :
    (∃ ds, cs = bs ++ ds ∧ Yields read t ds u) ∨ ∃ ds, bs = cs ++ ds ∧ Yields read u ds t := by
  induction h generalizing cs with
  | nil => exact .inl ⟨cs, rfl, h'⟩
  | cons hb hbs ih =>
    cases h' with
    | nil => exact .inr ⟨_, rfl, .cons hb hbs⟩
    | cons hb' hcs =>
      obtain ⟨heq, rfl⟩ := Prod.mk.inj (hb.symm.trans hb')
      obtain rfl := Except.ok.inj heq
      rcases ih hcs with ⟨ds, rfl, hds⟩ | ⟨ds, rfl, hds⟩
      · exact .inl ⟨ds, rfl, hds⟩
      · exact .inr ⟨ds, rfl, hds⟩

/-- What is read on is read from what is left. -/
theorem Yields.append_iff (h : Yields read s bs t) :
    Yields read s (bs ++ cs) u ↔ Yields read t cs u := by
  refine ⟨fun h' => ?_, h.append⟩
  rcases h.total h' with ⟨ds, heq, hds⟩ | ⟨ds, heq, hds⟩
  · exact List.append_cancel_left heq ▸ hds
  · rw [List.append_assoc, List.self_eq_append_right, List.append_eq_nil_iff] at heq
    obtain ⟨rfl, rfl⟩ := heq
    cases hds
    exact .nil

/-- Nothing is read where reading fails. -/
theorem Yields.eq_nil_of_error {e : ε} (h : Yields read s bs t) (he : read s = (.error e, u)) :
    bs = [] := by
  cases h with
  | nil => rfl
  | cons hb _ => exact absurd (Prod.mk.inj (hb.symm.trans he)).1 (by simp)

/-- The source, with the number of times that it was read. -/
def counting (read : σ → Except ε UInt8 × σ) (s : σ × ℕ) : Except ε UInt8 × (σ × ℕ) :=
  ((read s.1).1, (read s.1).2, s.2 + 1)

/-- It is read as often as there are bytes. -/
theorem Yields.count {p q : σ × ℕ} (h : Yields (counting read) p bs q) :
    q.2 = p.2 + bs.length := by
  induction h with
  | nil => rfl
  | @cons p q _ b bs hb _ ih =>
    have hnext : p.2 + 1 = q.2 := congrArg (fun r => r.2.2) hb
    rw [ih, ← hnext, List.length_cons]
    omega

/-! ## The first occurrence of a pattern -/

/-- The shortest prefix that ends in the pattern. -/
def EndsFirst (pat bs : Bytes) : Prop := pat <:+ bs ∧ ∀ p, p <+: bs → pat <:+ p → p = bs

variable {pat : Bytes}

/-- What ends in the pattern first is determined by any stream that goes on from it. -/
theorem EndsFirst.unique (h : EndsFirst pat bs) (h' : EndsFirst pat cs) (hbs : bs <+: cs) :
    bs = cs :=
  h'.2 bs hbs h.1

/-- Where the pattern has not occurred, the next byte ends its first occurrence, or it has
    still not occurred. -/
theorem endsFirst_concat (h : ¬pat <:+: bs) (b : UInt8) :
    EndsFirst pat (bs ++ [b]) ↔ pat <:+ bs ++ [b] := by
  refine ⟨fun h => h.1, fun hsuffix => ⟨hsuffix, fun p hp hpat => ?_⟩⟩
  refine (List.prefix_concat_iff.1 hp).resolve_right fun hp => h ?_
  exact hpat.isInfix.trans hp.isInfix

/-- A pattern that has not occurred, and that the next byte does not end, has still not
    occurred. -/
theorem not_infix_concat (h : ¬pat <:+: bs) (hsuffix : ¬pat <:+ bs ++ [b]) :
    ¬pat <:+: bs ++ [b] := by
  rw [List.infix_concat_iff, not_or]
  exact ⟨hsuffix, h⟩

/-- What is read up to the first occurrence is determined. -/
theorem EndsFirst.yields_unique (hbs : EndsFirst pat bs) (hcs : EndsFirst pat cs)
    (h : Yields read s bs t) (h' : Yields read s cs u) : bs = cs ∧ t = u := by
  rcases h.total h' with ⟨ds, rfl, hds⟩ | ⟨ds, rfl, hds⟩
  · obtain rfl := List.self_eq_append_right.1 (hbs.unique hcs (List.prefix_append _ _))
    cases hds
    exact ⟨(List.append_nil _).symm, rfl⟩
  · obtain rfl := List.self_eq_append_right.1 (hcs.unique hbs (List.prefix_append _ _))
    cases hds
    exact ⟨List.append_nil _, rfl⟩

/-- What is read up to the first occurrence goes on from what is read before it. -/
theorem EndsFirst.goes_on (hcs : EndsFirst pat cs) (h' : Yields read s cs u)
    (h : Yields read s bs t) (hno : ¬pat <:+: bs) :
    ∃ b ds, cs = bs ++ b :: ds ∧ Yields read t (b :: ds) u := by
  rcases h.total h' with ⟨_ | ⟨b, ds⟩, rfl, hds⟩ | ⟨ds, rfl, -⟩
  · exact absurd (List.append_nil bs ▸ hcs.1.isInfix) hno
  · exact ⟨b, ds, rfl, hds⟩
  · exact absurd (hcs.1.isInfix.trans (List.prefix_append _ _).isInfix) hno

/-- A pattern comes first after bytes that its first one is not among. -/
theorem endsFirst_append {a : UInt8} (h : a ∉ bs) : EndsFirst (a :: pat) (bs ++ a :: pat) := by
  refine ⟨List.suffix_append _ _, ?_⟩
  rintro _ ⟨r, hr⟩ ⟨q, rfl⟩
  rw [List.append_assoc] at hr
  have hlen := congrArg List.length hr
  simp only [List.length_append, List.length_cons] at hlen
  have hr' : r = [] := by
    refine List.length_eq_zero_iff.1 ?_
    rcases List.append_eq_append_iff.1 hr with ⟨c, rfl, hc⟩ | ⟨c, rfl, hc⟩
    · -- What comes between is no byte of `bs`.
      rcases c with _ | ⟨b, c⟩
      · rw [List.append_nil] at hlen
        omega
      · obtain ⟨rfl, -⟩ := List.cons.inj hc
        exact absurd (List.mem_append_right q List.mem_cons_self) h
    · rw [List.length_append] at hlen
      omega
  rw [← hr, hr', List.append_nil]

end Stream
