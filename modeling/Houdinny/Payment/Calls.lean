import Houdinny.Payment
import Houdinny.Lib.Run

/-!
# Calls of the payment handlers

A call of `handle_payment` asks the handlers in the order of their registration, one a
step, until one accepts, invokes its `pay`, and waits for what comes of it, which is not
up to the call. A call may also be dropped while it waits, and then no step follows.

The runs of a call are known completely (`run_iff_reached`): a handler is paid once,
exactly if one accepts, namely the first one, and what comes of that is returned
(`paysOnce`). The call returns what `handlePayment` computes, if what comes of `pay` is
what the handler says (`exists_run_handlePayment`).

`Reached` lists the places of a call after the events so far: it asks a handler after
some that have rejected the request, waits for the first that has accepted it, or has
returned. One step leads from one such place to another (`Reached.step`), and each of them
is reached by a run (`run_of_reached`). So the parts of `PaysOnce` are read off the four
places, with no more induction.
-/

namespace Houdinny.Payment

open Run

/-- What comes of a payment. -/
abbrev Settlement := Except Error PaymentProof

/-- Where a call is. -/
inductive Phase
  /-- At the handler at this place. -/
  | asking (i : ℕ)
  /-- Waiting for what comes of the payment by the handler at this place. -/
  | paying (i : ℕ)
  | returned (result : Settlement)

/-- A call of `handle_payment`. -/
structure Call where
  phase : Phase
  /-- The places of the handlers whose `pay` was invoked. -/
  paid : List ℕ

/-- What may happen next. -/
inductive Event
  /-- The loop goes on. -/
  | next
  /-- The payment is settled. -/
  | settle (result : Settlement)

/-- The result if no handler accepts. -/
def noHandler (request : PaymentRequest) : Settlement :=
  .error (.payment ("no payment handler available for ".toList ++ request.url))

/-- One step of a call. -/
def step (handlers : List PaymentHandler) (request : PaymentRequest) : Call → Event → Option Call
  | ⟨.asking i, paid⟩, .next =>
    match handlers[i]? with
    | none => some ⟨.returned (noHandler request), paid⟩
    | some handler =>
      if handler.canHandle request then some ⟨.paying i, paid ++ [i]⟩
      else some ⟨.asking (i + 1), paid⟩
  | ⟨.paying _, paid⟩, .settle result =>
    match result with
    | .ok proof => some ⟨.returned (.ok proof), paid⟩
    | .error e => some ⟨.returned (.error e), paid⟩
  | _, _ => none

/-- A call that starts. -/
def start : Call := ⟨.asking 0, []⟩

/-- The handler at this place is the first one that accepts the request. -/
def IsFirst (handlers : List PaymentHandler) (request : PaymentRequest) (i : ℕ) : Prop :=
  (∃ handler, handlers[i]? = some handler ∧ handler.canHandle request = true) ∧
    ∀ handler ∈ handlers.take i, handler.canHandle request = false

/-- What has come of payments. -/
def settlements (es : List Event) : List Settlement :=
  es.filterMap fun
    | .next => none
    | .settle result => some result

variable {handlers : List PaymentHandler} {request : PaymentRequest} {es : List Event} {c c' : Call}
  {e : Event} {i : ℕ} {r : Settlement}

/-- The handler is one of those that are registered. -/
theorem IsFirst.lt_length (h : IsFirst handlers request i) : i < handlers.length := by
  obtain ⟨⟨_, hhandler, -⟩, -⟩ := h
  exact (List.getElem?_eq_some_iff.1 hhandler).1

/-- The first handler that accepts the request is one that does. -/
theorem IsFirst.exists_accepting (h : IsFirst handlers request i) :
    ∃ handler ∈ handlers, handler.canHandle request = true := by
  obtain ⟨⟨handler, hhandler, haccepts⟩, -⟩ := h
  exact ⟨handler, List.mem_of_getElem? hhandler, haccepts⟩

/-! ## Runs -/

/-- Where a call is after the events. -/
inductive Reached (handlers : List PaymentHandler) (request : PaymentRequest) :
    List Event → Call → Prop
  | asking {i : ℕ} (hi : i ≤ handlers.length)
      (hrejected : ∀ handler ∈ handlers.take i, handler.canHandle request = false) :
      Reached handlers request (List.replicate i .next) ⟨.asking i, []⟩
  | paying {i : ℕ} (hfirst : IsFirst handlers request i) :
      Reached handlers request (List.replicate (i + 1) .next) ⟨.paying i, [i]⟩
  | unpaid (hrejected : ∀ handler ∈ handlers, handler.canHandle request = false) :
      Reached handlers request (List.replicate (handlers.length + 1) .next)
        ⟨.returned (noHandler request), []⟩
  | paid {i : ℕ} {r : Settlement} (hfirst : IsFirst handlers request i) :
      Reached handlers request (List.replicate (i + 1) .next ++ [.settle r]) ⟨.returned r, [i]⟩

/-- What comes of the payment is returned as it is. -/
theorem step_paying (paid : List ℕ) (r : Settlement) :
    step handlers request ⟨.paying i, paid⟩ (.settle r) = some ⟨.returned r, paid⟩ := by
  rcases r with err | proof <;> rfl

/-- The loop goes on to the next handler, pays this one, or ends. -/
theorem step_asking (paid : List ℕ) : step handlers request ⟨.asking i, paid⟩ .next =
    match handlers[i]? with
    | none => some ⟨.returned (noHandler request), paid⟩
    | some handler =>
      if handler.canHandle request then some ⟨.paying i, paid ++ [i]⟩
      else some ⟨.asking (i + 1), paid⟩ := rfl

/-- A call that has returned is over. -/
theorem step_returned (paid : List ℕ) (e : Event) :
    step handlers request ⟨.returned r, paid⟩ e = none := rfl

/-- One step leads on. -/
theorem Reached.step (h : Reached handlers request es c)
    (hstep : step handlers request c e = some c') : Reached handlers request (es ++ [e]) c' := by
  cases h with
  | @asking i hi hrejected =>
    cases e with
    | settle r => exact absurd hstep (by simp [Payment.step])
    | next =>
      -- The loop takes one more step, and then looks at the handler whose turn it is.
      rw [← List.replicate_succ']
      rw [step_asking] at hstep
      split at hstep
      · next hnone =>
        obtain rfl := Option.some.inj hstep
        obtain rfl : i = handlers.length := Nat.le_antisymm hi (List.getElem?_eq_none_iff.1 hnone)
        rw [List.take_length] at hrejected
        exact .unpaid hrejected
      · next handler hhandler =>
        split_ifs at hstep with haccepts
        · obtain rfl := Option.some.inj hstep
          exact .paying ⟨⟨handler, hhandler, haccepts⟩, hrejected⟩
        · obtain rfl := Option.some.inj hstep
          refine .asking (List.getElem?_eq_some_iff.1 hhandler).1 fun other hother => ?_
          rw [List.take_add_one, hhandler, List.mem_append] at hother
          rcases hother with hother | hother
          · exact hrejected other hother
          · obtain rfl := List.mem_singleton.1 hother
            exact Bool.eq_false_iff.2 haccepts
  | paying hfirst =>
    cases e with
    | next => exact absurd hstep (by simp [Payment.step])
    | settle r =>
      obtain rfl := Option.some.inj ((step_paying ..).symm.trans hstep)
      exact .paid hfirst
  | unpaid | paid =>
    rw [step_returned] at hstep
    exact absurd hstep (Option.some_ne_none _).symm

/-- A run leads to one of the places. -/
theorem reached_of_run (h : run (step handlers request) start es = some c) :
    Reached handlers request es c := by
  induction es using List.reverseRecOn generalizing c with
  | nil =>
    obtain rfl := Option.some.inj h
    exact .asking (Nat.zero_le _) fun handler hmem => absurd hmem (by simp)
  | append_singleton es e ih =>
    rw [run_concat] at h
    obtain ⟨t, ht, hstep⟩ := Option.bind_eq_some_iff.1 h
    exact (ih ht).step hstep

/-- The loop comes to a handler if all before it reject the request. -/
theorem run_asking (hi : i ≤ handlers.length)
    (hrejected : ∀ handler ∈ handlers.take i, handler.canHandle request = false) :
    run (step handlers request) start (List.replicate i .next) = some ⟨.asking i, []⟩ := by
  induction i with
  | zero => rfl
  | succ i ih =>
    have hhandler := List.getElem?_eq_getElem (Nat.lt_of_succ_le hi)
    rw [List.take_add_one, hhandler, List.forall_mem_append] at hrejected
    have hrejects := hrejected.2 _ (List.mem_singleton_self _)
    rw [List.replicate_succ', run_concat, ih (Nat.le_of_succ_le hi) hrejected.1, Option.bind_some,
      step_asking, hhandler]
    exact if_neg (Bool.eq_false_iff.1 hrejects)

/-- The first handler that accepts the request is paid, after the others have been asked. -/
theorem run_paying (h : IsFirst handlers request i) :
    run (step handlers request) start (List.replicate (i + 1) .next) = some ⟨.paying i, [i]⟩ := by
  have hi := h.lt_length
  obtain ⟨⟨handler, hhandler, haccepts⟩, hrejected⟩ := h
  rw [List.replicate_succ', run_concat, run_asking hi.le hrejected, Option.bind_some, step_asking,
    hhandler]
  exact if_pos haccepts

/-- Each of the places is reached by a run. -/
theorem run_of_reached (h : Reached handlers request es c) :
    run (step handlers request) start es = some c := by
  cases h with
  | asking hi hrejected => exact run_asking hi hrejected
  | paying hfirst => exact run_paying hfirst
  | unpaid hrejected =>
    rw [List.replicate_succ', run_concat, run_asking le_rfl (by rwa [List.take_length]),
      Option.bind_some, step_asking, List.getElem?_eq_none le_rfl]
  | paid hfirst => rw [run_concat, run_paying hfirst, Option.bind_some, step_paying]

/-- The runs of a call. -/
theorem run_iff_reached :
    run (step handlers request) start es = some c ↔ Reached handlers request es c :=
  ⟨reached_of_run, run_of_reached⟩

/-- Steps of the loop settle nothing. -/
theorem settlements_replicate (n : ℕ) : settlements (List.replicate n .next) = [] := by
  induction n with
  | zero => rfl
  | succ n ih =>
    rw [List.replicate_succ, settlements, List.filterMap_cons_none rfl]
    exact ih

/-- What comes of a payment is the last thing that is settled. -/
theorem settlements_concat (es : List Event) (r : Settlement) :
    settlements (es ++ [.settle r]) = settlements es ++ [r] := by
  rw [settlements, List.filterMap_append]
  rfl

/-- A payment is made at most once, whatever comes of it, and exactly if a handler
    accepts the request; what comes of it is returned, and nothing is tried after it. -/
structure PaysOnce (handlers : List PaymentHandler) (request : PaymentRequest) : Prop where
  once : ∀ es c, run (step handlers request) start es = some c → c.paid.length ≤ 1
  first : ∀ es c, run (step handlers request) start es = some c →
    ∀ i ∈ c.paid, IsFirst handlers request i
  exactly : ∀ es c r, run (step handlers request) start es = some c → c.phase = .returned r →
    (c.paid ≠ [] ↔ ∃ handler ∈ handlers, handler.canHandle request = true)
  unchanged : ∀ es c r, run (step handlers request) start es = some c → c.phase = .returned r →
    c.paid ≠ [] → settlements es = [r]
  refused : ∀ es c r, run (step handlers request) start es = some c → c.phase = .returned r →
    c.paid = [] → r = noHandler request
  asks : ∀ es c i, run (step handlers request) start es = some c → c.phase = .asking i →
    (step handlers request c .next).isSome = true
  settles : ∀ es c i, run (step handlers request) start es = some c → c.phase = .paying i →
    ∀ r, step handlers request c (.settle r) = some ⟨.returned r, c.paid⟩
  final : ∀ es c r, run (step handlers request) start es = some c → c.phase = .returned r →
    ∀ e, step handlers request c e = none
  bounded : ∀ es c, run (step handlers request) start es = some c →
    es.length ≤ handlers.length + 2

/-- One call pays once, exactly if a handler accepts the request, and then the first one; what
    comes of it is returned unchanged, without another attempt. A call takes two more steps than
    there are handlers at most, so it ends. -/
theorem paysOnce (handlers : List PaymentHandler) (request : PaymentRequest) :
    PaysOnce handlers request := by
  constructor
  case once =>
    intro es c h
    cases run_iff_reached.1 h <;> simp
  case first =>
    intro es c h i hi
    cases run_iff_reached.1 h with
    | asking | unpaid => exact absurd hi List.not_mem_nil
    | paying hfirst | paid hfirst => exact List.mem_singleton.1 hi ▸ hfirst
  case exactly =>
    intro es c r h hr
    cases run_iff_reached.1 h with
    | asking | paying => exact absurd hr (by simp)
    | unpaid hrejected => simpa using hrejected
    | paid hfirst => exact iff_of_true (List.cons_ne_nil _ _) hfirst.exists_accepting
  case unchanged =>
    intro es c r h hr hpaid
    cases run_iff_reached.1 h with
    | asking | paying => exact absurd hr (by simp)
    | unpaid hrejected => exact absurd rfl hpaid
    | paid hfirst =>
      obtain rfl := Phase.returned.inj hr
      rw [settlements_concat, settlements_replicate, List.nil_append]
  case refused =>
    intro es c r h hr hpaid
    cases run_iff_reached.1 h with
    | asking | paying => exact absurd hr (by simp)
    | unpaid hrejected => exact (Phase.returned.inj hr).symm
    | paid hfirst => exact absurd hpaid (List.cons_ne_nil _ _)
  case asks =>
    intro es ⟨phase, paid⟩ i h hi
    obtain rfl : phase = .asking i := hi
    rw [step_asking]
    split
    · rfl
    · split_ifs <;> rfl
  case settles =>
    intro es ⟨phase, paid⟩ i h hi r
    obtain rfl : phase = .paying i := hi
    exact step_paying paid r
  case final =>
    intro es ⟨phase, paid⟩ r h hr e
    obtain rfl : phase = .returned r := hr
    exact step_returned paid e
  case bounded =>
    intro es c h
    cases run_iff_reached.1 h with
    | asking hi =>
      rw [List.length_replicate]
      omega
    | paying hfirst =>
      have hi := hfirst.lt_length
      rw [List.length_replicate]
      omega
    | unpaid =>
      rw [List.length_replicate]
      omega
    | paid hfirst =>
      have hi := hfirst.lt_length
      simp only [List.length_append, List.length_replicate, List.length_singleton]
      omega

/-! ## The call as a function -/

/-- The first handler that accepts the request is paid, if there is one. -/
theorem handlePayment_cases (handlers : List PaymentHandler) (request : PaymentRequest) :
    (∃ i handler, handlers[i]? = some handler ∧ IsFirst handlers request i ∧
      handlePayment handlers request = ([handler], handler.pay request)) ∨
    (∀ handler ∈ handlers, handler.canHandle request = false) ∧
      handlePayment handlers request = ([], noHandler request) := by
  induction handlers with
  | nil => exact .inr ⟨fun _ h => absurd h List.not_mem_nil, rfl⟩
  | cons first handlers ih =>
    rw [handlePayment]
    split_ifs with haccepts
    · exact .inl ⟨0, first, rfl, ⟨⟨first, rfl, haccepts⟩, by simp⟩, rfl⟩
    · -- The first handler that accepts is the first of the rest, one place further on.
      have hrejects := Bool.eq_false_iff.2 haccepts
      rcases ih with ⟨i, handler, hhandler, ⟨hi, hrejected⟩, heq⟩ | ⟨hrejected, heq⟩
      · have hfirst : IsFirst (first :: handlers) request (i + 1) :=
          ⟨hi, List.forall_mem_cons.2 ⟨hrejects, hrejected⟩⟩
        exact .inl ⟨i + 1, handler, hhandler, hfirst, heq⟩
      · exact .inr ⟨List.forall_mem_cons.2 ⟨hrejects, hrejected⟩, heq⟩

/-- `handlePayment` is the run in which what comes of `pay` is what the handler says. -/
theorem exists_run_handlePayment (handlers : List PaymentHandler) (request : PaymentRequest) :
    ∃ es c, run (step handlers request) start es = some c ∧
      c.phase = .returned (handlePayment handlers request).2 ∧
      c.paid.filterMap (fun i => handlers[i]?) = (handlePayment handlers request).1 := by
  rcases handlePayment_cases handlers request with
    ⟨i, handler, hhandler, hfirst, heq⟩ | ⟨hrejected, heq⟩
  · refine ⟨_, _, run_iff_reached.2 (.paid (r := handler.pay request) hfirst), by rw [heq], ?_⟩
    rw [heq, List.filterMap_cons_some hhandler, List.filterMap_nil]
  · exact ⟨_, _, run_iff_reached.2 (.unpaid hrejected), by rw [heq], by rw [heq]; rfl⟩

end Houdinny.Payment
