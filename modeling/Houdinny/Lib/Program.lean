import Mathlib.Order.Defs.Unbundled
import Mathlib.Tactic.Common

/-!
# Programs that may fail, and keep their state

A program over the states `σ` ends with a result or an error, and with the state that it has
come to in either case.

* `Ensures P x Q`: started where `P` holds, the program ends with a result and a state that
  `Q` relates;
* `Grows R x`: the program only takes steps that the preorder `R` allows, whatever comes of
  it.

Each has a rule for every way to build a program. A program that asks the outside keeps a
log of the questions with their answers (`ask`): what it ensures, it ensures whatever the
answers are.

A program with early returns is a sequence of parts, each of which either ends the program
with an error or goes on with a result (`GoesOn`). The rule for such a sequence is
`Ensures.andThen`, and `Ensures.last` closes it. So the proof of a triple has as many steps
as the program has parts, and what is known of the state between two of them is stated where
they meet.
-/

namespace Program

variable {ε σ α β : Type}

/-- Programs with the errors `ε`. -/
abbrev Prog (ε σ α : Type) := ExceptT ε (StateM σ) α

/-- Started where `P` holds, the program ends as `Q` says. -/
def Ensures (P : σ → Prop) (x : Prog ε σ α) (Q : Except ε α → σ → Prop) : Prop :=
  ∀ s, P s → Q (x s).1 (x s).2

/-- A part of a program has a result as `R` says, or ends the program as `Q` says. -/
def GoesOn (R : α → σ → Prop) (Q : Except ε β → σ → Prop) : Except ε α → σ → Prop
  | .ok a, s => R a s
  | .error e, s => Q (.error e) s

/-- The program leads on from every state. -/
def Grows (R : σ → σ → Prop) (x : Prog ε σ α) : Prop := ∀ s, R s (x s).2

/-- Questions of the kinds `ι`, with their answers. -/
abbrev Log {ι : Type} (ρ : ι → Type) := List (Σ i, ρ i)

/-- Ask, and log the answer, which may depend on all that was asked before. -/
def ask {ι : Type} {ρ : ι → Type} (answers : Log ρ → ∀ i, ρ i) (i : ι) : Prog ε (Log ρ) (ρ i) :=
  fun log => (.ok (answers log i), log ++ [⟨i, answers log i⟩])

/-- Go on with a result, or fail with what is made of an error. -/
def orThrow {δ : Type} (f : δ → ε) : Except δ α → Prog ε σ α
  | .ok a => pure a
  | .error e => throw (f e)

/-- A program goes on from what its first part did, or stops where it failed. -/
theorem bind_apply (x : Prog ε σ α) (f : α → Prog ε σ β) (s : σ) :
    (x >>= f) s = match x s with
      | (.ok a, t) => f a t
      | (.error e, t) => (.error e, t) := by
  change (match x s with | (r, t) => ExceptT.bindCont f r t) = _
  rcases x s with ⟨_ | a, t⟩ <;> rfl

/-! ## What a program ensures -/

variable {P P' : σ → Prop} {Q Q' : Except ε β → σ → Prop} {x : Prog ε σ α} {f : α → Prog ε σ β}

/-- A program that has its result. -/
theorem ensures_pure {b : β} (h : ∀ s, P s → Q (.ok b) s) : Ensures P (pure b) Q := h

/-- A program that fails. -/
theorem ensures_throw {e : ε} (h : ∀ s, P s → Q (.error e) s) :
    Ensures P (throw e : Prog ε σ β) Q := h

/-- Whatever the answer is, the program goes on with it in the log. -/
theorem ensures_ask {ι : Type} {ρ : ι → Type} {answers : Log ρ → ∀ i, ρ i} {i : ι}
    {P : Log ρ → Prop} {Q : Except ε β → Log ρ → Prop} {R : ρ i → Log ρ → Prop}
    (h : ∀ log r, P log → R r (log ++ [⟨i, r⟩])) : Ensures P (ask answers i) (GoesOn R Q) :=
  fun log hlog => h log (answers log i) hlog

/-- A result that is there lets the program go on, and an error ends it. -/
theorem ensures_orThrow {δ : Type} {g : δ → ε} {r : Except δ α} {R : α → σ → Prop}
    (hok : ∀ a s, r = .ok a → P s → R a s)
    (herror : ∀ e s, r = .error e → P s → Q (.error (g e)) s) :
    Ensures P (orThrow g r) (GoesOn R Q) := by
  intro s hs
  rcases r with e | a
  · exact herror e s rfl hs
  · exact hok a s rfl hs

/-- What is known of every state is known. -/
theorem ensures_and {p : Prop} {y : Prog ε σ β} (h : p → Ensures P y Q) :
    Ensures (fun s => p ∧ P s) y Q :=
  fun s hs => h hs.1 s hs.2

/-- After its first part, a program is started where that has led to. -/
theorem Ensures.bind {R : α → σ → Prop} (hx : Ensures P x (GoesOn R Q))
    (hf : ∀ a, Ensures (R a) (f a) Q) : Ensures P (x >>= f) Q := by
  intro s hs
  have h := hx s hs
  rw [bind_apply]
  rcases hxs : x s with ⟨_ | a, t⟩ <;> rw [hxs] at h
  · exact h
  · exact hf a t h

/-- Parts of a program that end it in the same way make one part. -/
theorem Ensures.andThen {γ : Type} {R : α → σ → Prop} {R' : β → σ → Prop}
    {E : Except ε γ → σ → Prop} (hx : Ensures P x (GoesOn R E))
    (hf : ∀ a, Ensures (R a) (f a) (GoesOn R' E)) : Ensures P (x >>= f) (GoesOn R' E) := by
  refine Ensures.bind (R := R) (fun s hs => ?_) hf
  have h := hx s hs
  rcases hxs : x s with ⟨_ | a, t⟩ <;> rw [hxs] at h <;> exact h

/-- The last part of a program ends it. -/
theorem Ensures.last {x : Prog ε σ β} {R : β → σ → Prop} (hx : Ensures P x (GoesOn R Q))
    (h : ∀ b s, R b s → Q (.ok b) s) : Ensures P x Q := by
  intro s hs
  have hend := hx s hs
  rcases hxs : x s with ⟨e | b, t⟩ <;> rw [hxs] at hend
  · exact hend
  · exact h b t hend

/-- What every part of a loop keeps, the loop keeps. -/
theorem ensures_forM {γ : Type} {E : Except ε γ → σ → Prop} {g : α → Prog ε σ PUnit} {l : List α}
    (h : ∀ a ∈ l, Ensures P (g a) (GoesOn (fun _ => P) E)) :
    Ensures P (l.forM g) (GoesOn (fun _ => P) E) := by
  induction l with
  | nil => exact ensures_pure fun s hs => hs
  | cons a l ih =>
    rw [List.forall_mem_cons] at h
    exact h.1.andThen fun _ => ih h.2

/-- What is ensured may be weakened. -/
theorem Ensures.mono {y : Prog ε σ β} (h : Ensures P y Q) (hQ : ∀ r s, Q r s → Q' r s) :
    Ensures P y Q' :=
  fun s hs => hQ _ _ (h s hs)

/-- What is assumed may be strengthened. -/
theorem Ensures.pre {y : Prog ε σ β} (h : Ensures P y Q) (hP : ∀ s, P' s → P s) :
    Ensures P' y Q :=
  fun s hs => h s (hP s hs)

/-! ## Where a program leads -/

variable {R : σ → σ → Prop}

/-- A result alone leads nowhere. -/
theorem grows_pure [Std.Refl R] (a : α) : Grows R (pure a : Prog ε σ α) :=
  fun s => Std.Refl.refl s

/-- Nor does a failure. -/
theorem grows_throw [Std.Refl R] (e : ε) : Grows R (throw e : Prog ε σ α) :=
  fun s => Std.Refl.refl s

/-- A change of the state is the step it takes. -/
theorem grows_modify {g : σ → σ} (h : ∀ s, R s (g s)) : Grows R (modify g : Prog ε σ Unit) := h

/-- The steps of a sequence are those of its parts. -/
theorem Grows.bind [IsTrans σ R] (hx : Grows R x) (hf : ∀ a, Grows R (f a)) :
    Grows R (x >>= f) := by
  intro s
  have h := hx s
  rw [bind_apply]
  rcases hxs : x s with ⟨_ | a, t⟩ <;> rw [hxs] at h
  · exact h
  · exact IsTrans.trans _ _ _ h (hf a t)

/-- The steps of a loop are those of its rounds. -/
theorem Grows.forM [Std.Refl R] [IsTrans σ R] {g : α → Prog ε σ PUnit} {l : List α}
    (h : ∀ a ∈ l, Grows R (g a)) : Grows R (l.forM g) := by
  induction l with
  | nil => exact grows_pure _
  | cons a l ih =>
    rw [List.forall_mem_cons] at h
    exact h.1.bind fun _ => ih h.2

end Program
