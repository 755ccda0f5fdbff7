import Mathlib.Data.List.Infix
import Mathlib.Tactic.Common

/-!
# Runs of step functions

A system that reacts to events is a step function `step : σ → ε → Option σ`,
undefined where the event cannot happen. A *run* is a list of events.

* `Always step P s es`: the property `P` holds in every state that the run `es`
  from `s` goes through, `s` included;
* `EachStep step G s es`: every step the run takes meets the condition `G`, on
  the state before the step and the event.

An invariant kept by every step holds always (`always_of_inv`). Where a step
keeps it under a condition only, it holds always in the runs all of whose steps
meet the condition (`always_of_eachStep`); where a step that does not meet it
destroys a property, all steps do in the runs in which that holds always
(`eachStep_of_always`). With both, the property holds always *exactly* in these
runs (`always_iff_eachStep`); the condition may be read off another system that
follows the run in lockstep (`Watched.always_iff`).
-/

namespace Run

variable {σ τ ε : Type*}

/-- The state after the events `es`, if all of them can happen. -/
def run (step : σ → ε → Option σ) : σ → List ε → Option σ
  | s, [] => some s
  | s, e :: es => (step s e).bind fun t => run step t es

/-- `P` holds in every state that the run goes through. -/
def Always (step : σ → ε → Option σ) (P : σ → Prop) (s : σ) (es : List ε) : Prop :=
  ∀ p, p <+: es → ∀ t, run step s p = some t → P t

/-- Every step that the run takes meets `G`. -/
def EachStep (step : σ → ε → Option σ) (G : σ → ε → Prop) (s : σ) (es : List ε) : Prop :=
  ∀ p e, p ++ [e] <+: es → ∀ t t', run step s p = some t → step t e = some t' → G t e

variable {step : σ → ε → Option σ} {P : σ → Prop} {G : σ → ε → Prop} {s t : σ} {e : ε}
  {es : List ε}

/-- The first event, and then the others. -/
theorem run_cons : run step s (e :: es) = (step s e).bind fun t => run step t es := rfl

/-- A run goes on where another one ended. -/
theorem run_append (es' : List ε) :
    run step s (es ++ es') = (run step s es).bind fun t => run step t es' := by
  induction es generalizing s with
  | nil => rfl
  | cons e es ih =>
    rw [List.cons_append, run_cons, run_cons, Option.bind_assoc]
    exact Option.bind_congr fun t _ => ih

/-- The last step is taken where the run before it ended. -/
theorem run_concat : run step s (es ++ [e]) = (run step s es).bind fun t => step t e := by
  rw [run_append]
  exact Option.bind_congr fun t _ => Option.bind_fun_some (step t e)

/-- Where it does not depend on the state whether an event can happen, a run goes
    through exactly if all of its events can happen. -/
theorem isSome_run_iff {p : ε → Prop} (h : ∀ s e, (step s e).isSome ↔ p e) :
    (run step s es).isSome ↔ ∀ e ∈ es, p e := by
  induction es generalizing s with
  | nil => exact iff_of_true rfl (by simp)
  | cons e es ih =>
    rw [run_cons, List.forall_mem_cons, ← h s e]
    rcases step s e with _ | t
    · simp
    · rw [Option.bind_some, ih]
      simp

/-- What the steps of a run keep, holds at the end of it. -/
theorem run_inv (hstep : ∀ s, ∀ e ∈ es, ∀ t, P s → step s e = some t → P t) (hs : P s)
    (ht : run step s es = some t) : P t := by
  induction es generalizing s with
  | nil => exact Option.some.inj ht ▸ hs
  | cons e es ih =>
    obtain ⟨s', hs', ht⟩ := Option.bind_eq_some_iff.1 ht
    exact ih (fun s e he => hstep s e (List.mem_cons_of_mem _ he))
      (hstep s e List.mem_cons_self s' hs hs') ht

/-- Where every step is one of another system, or does not show there, so is every run. -/
theorem exists_run_of_simulates {σ' ε' : Type*} {step' : σ' → ε' → Option σ'} {f : σ → σ'}
    (hstep : ∀ s, ∀ e ∈ es, ∀ t, P s → step s e = some t →
      P t ∧ (f t = f s ∨ ∃ e', step' (f s) e' = some (f t))) (hs : P s)
    (ht : run step s es = some t) : ∃ es', run step' (f s) es' = some (f t) := by
  induction es generalizing s with
  | nil => exact ⟨[], congrArg (some ∘ f) (Option.some.inj ht)⟩
  | cons e es ih =>
    obtain ⟨s', hs', ht⟩ := Option.bind_eq_some_iff.1 ht
    obtain ⟨hP, hsim⟩ := hstep s e List.mem_cons_self s' hs hs'
    obtain ⟨es', hes'⟩ := ih (fun s e he => hstep s e (List.mem_cons_of_mem _ he)) hP ht
    rcases hsim with hstays | ⟨e', he'⟩
    · exact ⟨es', hstays ▸ hes'⟩
    · exact ⟨e' :: es', by rw [run_cons, he', Option.bind_some, hes']⟩

/-- Nothing happens, so it is to hold now. -/
theorem always_nil : Always step P s [] ↔ P s := by
  refine ⟨fun h => h [] List.prefix_rfl s rfl, fun h p hp t ht => ?_⟩
  obtain rfl := List.prefix_nil.1 hp
  exact Option.some.inj ht ▸ h

/-- Always is now, and always after the first step. -/
theorem always_cons :
    Always step P s (e :: es) ↔ P s ∧ ∀ t, step s e = some t → Always step P t es := by
  constructor
  · refine fun h => ⟨h [] (List.nil_prefix) s rfl, fun t ht p hp t' ht' => ?_⟩
    exact h (e :: p) (List.cons_prefix_cons.2 ⟨rfl, hp⟩) t' (by rw [run_cons, ht]; exact ht')
  · rintro ⟨hs, h⟩ (_ | ⟨e', p⟩) hp t' ht'
    · exact Option.some.inj ht' ▸ hs
    · obtain ⟨rfl, hp'⟩ := List.cons_prefix_cons.1 hp
      obtain ⟨t, ht, ht'⟩ := Option.bind_eq_some_iff.1 ht'
      exact h t ht p hp' t' ht'

/-- No step is taken. -/
theorem eachStep_nil : EachStep step G s [] :=
  fun _ _ h => absurd (List.prefix_nil.1 h) (by simp)

/-- Every step is the first one, and every step after it. -/
theorem eachStep_cons : EachStep step G s (e :: es) ↔
    ∀ t, step s e = some t → G s e ∧ EachStep step G t es := by
  constructor
  · refine fun h t ht => ⟨h [] e ?_ s t rfl ht, fun p e' hp t₁ t₂ h₁ h₂ => ?_⟩
    · exact List.cons_prefix_cons.2 ⟨rfl, List.nil_prefix⟩
    · have hrun : run step s (e :: p) = some t₁ := by rw [run_cons, ht]; exact h₁
      exact h (e :: p) e' (List.cons_prefix_cons.2 ⟨rfl, hp⟩) t₁ t₂ hrun h₂
  · rintro h (_ | ⟨e₀, p⟩) e' hp t₁ t₂ h₁ h₂
    · obtain ⟨rfl, -⟩ := List.cons_prefix_cons.1 hp
      obtain rfl := Option.some.inj h₁
      exact (h t₂ h₂).1
    · obtain ⟨rfl, hp'⟩ := List.cons_prefix_cons.1 hp
      obtain ⟨t, ht, h₁⟩ := Option.bind_eq_some_iff.1 h₁
      exact (h t ht).2 p e' hp' t₁ t₂ h₁ h₂

/-- What holds always holds in the last state. -/
theorem Always.last (h : Always step P s es) (ht : run step s es = some t) : P t :=
  h es List.prefix_rfl t ht

/-- A consequence of what holds always holds always. -/
theorem Always.mono {Q : σ → Prop} (h : Always step P s es) (hPQ : ∀ t, P t → Q t) :
    Always step Q s es :=
  fun p hp t ht => hPQ t (h p hp t ht)

/-- What every step keeps holds always. -/
theorem always_of_inv (hstep : ∀ s e t, P s → step s e = some t → P t) (hs : P s) :
    Always step P s es := by
  induction es generalizing s with
  | nil => exact always_nil.2 hs
  | cons e es ih => exact always_cons.2 ⟨hs, fun t ht => ih (hstep s e t hs ht)⟩

/-- What every step keeps that meets the condition holds always, if every step meets it. -/
theorem always_of_eachStep (hstep : ∀ s e t, P s → step s e = some t → G s e → P t) (hs : P s)
    (h : EachStep step G s es) : Always step P s es := by
  induction es generalizing s with
  | nil => exact always_nil.2 hs
  | cons e es ih =>
    refine always_cons.2 ⟨hs, fun t ht => ?_⟩
    obtain ⟨hG, hes⟩ := eachStep_cons.1 h t ht
    exact ih (hstep s e t hs ht hG) hes

/-- A system `step`, followed in lockstep by a system `watch` through the
    relation `R`. Related states have the property `P`, a step meeting the
    condition `G` of the watching system keeps the relation, and a step not
    meeting it leads to a state without the property. -/
structure Watched (step : σ → ε → Option σ) (watch : τ → ε → Option τ) (R : σ → τ → Prop)
    (P : σ → Prop) (G : τ → ε → Prop) : Prop where
  safe : ∀ s a, R s a → P s
  follow : ∀ s a e t, R s a → step s e = some t → ∃ b, watch a e = some b
  lead : ∀ s a e b, R s a → watch a e = some b → ∃ t, step s e = some t
  keep : ∀ s a e t b, R s a → step s e = some t → watch a e = some b → G a e → R t b
  fail : ∀ s a e t b, R s a → step s e = some t → watch a e = some b → ¬G a e → ¬P t

/-- The property holds always exactly if every step meets the condition. -/
theorem Watched.always_iff {watch : τ → ε → Option τ} {R : σ → τ → Prop} {G : τ → ε → Prop}
    (h : Watched step watch R P G) {a : τ} (hR : R s a) :
    Always step P s es ↔ EachStep watch G a es := by
  -- Induction on the run: up to the first step that does not meet the
  -- condition the states are related, and that step destroys the property.
  induction es generalizing s a with
  | nil => exact ⟨fun _ => eachStep_nil, fun _ => always_nil.2 (h.safe s a hR)⟩
  | cons e es ih =>
    rw [always_cons, eachStep_cons]
    constructor
    · intro ⟨_, hP⟩ b hb
      obtain ⟨t, ht⟩ := h.lead s a e b hR hb
      have hG : G a e := by
        by_contra hG
        exact h.fail s a e t b hR ht hb hG (hP t ht [] List.nil_prefix t rfl)
      exact ⟨hG, (ih (h.keep s a e t b hR ht hb hG)).1 (hP t ht)⟩
    · refine fun hG => ⟨h.safe s a hR, fun t ht => ?_⟩
      obtain ⟨b, hb⟩ := h.follow s a e t hR ht
      obtain ⟨hG, hes⟩ := hG b hb
      exact (ih (h.keep s a e t b hR ht hb hG)).2 hes

/-- Every step meets the condition, if one that does not destroys a property that holds always. -/
theorem eachStep_of_always {inv : σ → Prop}
    (hkeep : ∀ s e t, inv s → step s e = some t → G s e → inv t)
    (hfail : ∀ s e t, inv s → step s e = some t → ¬G s e → ¬P t) (hs : inv s)
    (h : Always step P s es) : EachStep step G s es := by
  induction es generalizing s with
  | nil => exact eachStep_nil
  | cons e es ih =>
    refine eachStep_cons.2 fun t ht => ?_
    have hP := (always_cons.1 h).2 t ht
    have hG : G s e := by
      by_contra hG
      exact hfail s e t hs ht hG (hP [] List.nil_prefix t rfl)
    exact ⟨hG, ih (hkeep s e t hs ht hG) hP⟩

/-- A system that an invariant watches: the invariant gives the property, a
    step meeting the condition keeps it, and a step not meeting the condition
    leads to a state without the property. -/
theorem always_iff_eachStep (inv : σ → Prop) (hsafe : ∀ s, inv s → P s)
    (hkeep : ∀ s e t, inv s → step s e = some t → G s e → inv t)
    (hfail : ∀ s e t, inv s → step s e = some t → ¬G s e → ¬P t) (hs : inv s) :
    Always step P s es ↔ EachStep step G s es :=
  ⟨eachStep_of_always hkeep hfail hs,
    fun h => (always_of_eachStep hkeep hs h).mono hsafe⟩

/-- Whether each step meets a condition is found by taking them. -/
instance decidableEachStep [∀ s e, Decidable (G s e)] :
    (s : σ) → (es : List ε) → Decidable (EachStep step G s es)
  | _, [] => .isTrue eachStep_nil
  | s, e :: es =>
    match h : step s e with
    | none => .isTrue (eachStep_cons.2 fun t ht => absurd (h.symm.trans ht) (by simp))
    | some t =>
      have := decidableEachStep t es
      decidable_of_iff (G s e ∧ EachStep step G t es) <| eachStep_cons.trans (by simp [h]) |>.symm

end Run
