import Mathlib.Data.Int.CardIntervalMod
import Mathlib.Data.List.Perm.Basic
import Houdinny.Router.Call

/-!
# Fairness of the round-robin router

Any number of callers pick from one list, whose healthy transports stay the same, in any
interleaving of their steps.

* `Callers`: the router that they share, and the picks that have begun. A caller may begin
  at any time, and any of the picks in progress may take its next step (`Callers.step`).
* `Callers.Fair`: what is to hold when all picks have returned: no two entries of the
  healthy list have been returned a number of times that differs by more than one, and all
  of them equally often after a multiple of as many picks as there are entries.

A caller reads the counter and advances it in one access, so no two of them get the same
number: the indices that are taken are the residues of consecutive counters, in some order
(`Callers.Inv`, kept by every event). What is left is to count how often a residue comes up
among consecutive numbers (`count_ticket`). So picks are spread evenly from any counter on,
as long as it does not wrap (`Callers.fair`): when it wraps, the residues start anew at
zero, wherever they were.
-/

namespace Houdinny

namespace Router

variable {w : ℕ} {α : Type}

/-- The router, and the picks that have begun. -/
structure Callers (w : ℕ) (α : Type) where
  router : Router w
  calls : List (Call α)
  deriving DecidableEq

/-- What can happen: another pick begins, or the `k`-th takes its next step. -/
inductive Callers.Event
  | call
  | step (k draw : ℕ)

/-- The index that a pick has taken. -/
def Call.index : Call α → Option ℕ
  | filtering .. => none
  | indexing _ idx => some idx
  | returned _ index _ => index
  | panicked => none

/-- Has the pick returned this transport? -/
def Call.returns [DecidableEq α] (t : α) : Call α → Bool
  | returned _ _ (.ok u) => u = t
  | _ => false

/-- Has the pick returned, with a transport or an error? -/
def Call.isReturned : Call α → Bool
  | returned .. => true
  | _ => false

namespace Callers

variable (healthy : α → Bool) (ts : List α)

/-- What an event does, where all pick from the transports `ts`. -/
def step (s : Callers w α) : Event → Option (Callers w α)
  | .call => some ⟨s.router, s.calls ++ [.filtering [] ts]⟩
  | .step k draw =>
    match s.calls[k]? with
    | none => none
    | some c => (c.step healthy draw s.router).map fun (r, c) => ⟨r, s.calls.set k c⟩

/-- The number of picks that have taken this index. -/
def taken (s : Callers w α) (i : ℕ) : ℕ := s.calls.countP fun c => c.index = some i

/-- The number of picks that have returned this transport. -/
def returned [DecidableEq α] (s : Callers w α) (t : α) : ℕ := s.calls.countP (Call.returns t)

/-- The picks are spread evenly over the entries of the healthy list: the numbers
    of times two entries are returned differ by one at most, and are the same
    after a multiple of as many picks as there are entries. -/
structure Fair [DecidableEq α] (s : Callers w α) : Prop where
  /-- Each pick returns the entry of the index that it has taken. -/
  entry : ∀ c ∈ s.calls, ∃ i t, (healthyTransports healthy ts)[i]? = some t ∧
    c = .returned (healthyTransports healthy ts) (some i) (.ok t)
  even : ∀ i < (healthyTransports healthy ts).length, ∀ j < (healthyTransports healthy ts).length,
    s.taken i ≤ s.taken j + 1
  exact : ∀ k, s.calls.length = k * (healthyTransports healthy ts).length →
    ∀ i < (healthyTransports healthy ts).length, s.taken i = k
  /-- So it is for the transports, if none is listed twice. -/
  even_transports : (healthyTransports healthy ts).Nodup → ∀ t ∈ healthyTransports healthy ts,
    ∀ u ∈ healthyTransports healthy ts, s.returned t ≤ s.returned u + 1
  exact_transports : (healthyTransports healthy ts).Nodup →
    ∀ k, s.calls.length = k * (healthyTransports healthy ts).length →
      ∀ t ∈ healthyTransports healthy ts, s.returned t = k

/-! ## The indices taken -/

/-- A pick in progress is about to keep just the healthy transports, or has, and
    returns the entry of its index. -/
def Sound (H : List α) : Call α → Prop
  | .filtering kept rest => kept ++ healthyTransports healthy rest = H
  | .indexing kept idx => kept = H ∧ idx < H.length
  | .returned kept index result =>
    kept = H ∧ ∃ i t, index = some i ∧ H[i]? = some t ∧ result = .ok t
  | .panicked => False

/-- The index that the `j`-th pick takes, from the counter `c` on. -/
def ticket (c : BitVec w) (n j : ℕ) : ℕ := (c + BitVec.ofNat w j).toNat % n

/-- The invariant: the picks are sound, and have taken the residues of the first
    counters. -/
structure Inv (c : BitVec w) (s : Callers w α) : Prop where
  sound : ∀ call ∈ s.calls, Sound healthy (healthyTransports healthy ts) call
  counter : s.router = (roundRobin c).advance (s.calls.filterMap Call.index).length
  tickets : (s.calls.filterMap Call.index).Perm
    ((List.range (s.calls.filterMap Call.index).length).map
      (ticket c (healthyTransports healthy ts).length))

variable {healthy ts} {H : List α} {draw : ℕ} {counter : BitVec w} {r : Router w} {c c' : Call α}

/-- A step of a sound pick either takes no index and leaves the counter, or takes
    the next one. -/
theorem Sound.step (hpos : 0 < H.length) (h : Sound healthy H c)
    (hs : c.step healthy draw (roundRobin counter) = some (r, c')) :
    Sound healthy H c' ∧ ((r = roundRobin counter ∧ c'.index = c.index) ∨
      (r = roundRobin (counter + 1#w) ∧ c.index = none ∧
        c'.index = some (counter.toNat % H.length))) := by
  cases c with
  | filtering kept rest =>
    cases rest with
    | cons t rest =>
      obtain ⟨rfl, rfl⟩ := Prod.mk.inj (Option.some.inj hs)
      refine ⟨?_, .inl ⟨rfl, rfl⟩⟩
      rw [Sound, healthyTransports, List.filter_cons] at h
      by_cases ht : healthy t
      · rw [if_pos ht] at h ⊢
        rw [Sound, healthyTransports, List.append_assoc]
        exact h
      · rw [if_neg ht] at h ⊢
        exact h
    | nil =>
      -- All flags were read, so what is kept are the healthy transports, and the ticket is
      -- taken.
      obtain rfl : kept = H := (List.append_nil kept).symm.trans h
      obtain ⟨rfl, hc⟩ | ⟨t, ht, hr, hc⟩ | ⟨_, hr, hlt, hc⟩ :=
        (roundRobin counter).choose_cases draw kept
      · exact absurd hpos (Nat.lt_irrefl 0)
      · -- A router at random takes no tickets.
        exact absurd hr (by simp)
      · obtain rfl := roundRobin.inj hr
        obtain ⟨rfl, rfl⟩ := Prod.mk.inj (hc.symm.trans (Option.some.inj hs))
        exact ⟨⟨rfl, hlt⟩, .inr ⟨rfl, rfl, rfl⟩⟩
  | indexing kept idx =>
    obtain ⟨rfl, hlt⟩ := h
    rw [Call.step, List.getElem?_eq_getElem hlt] at hs
    obtain ⟨rfl, rfl⟩ := Prod.mk.inj (Option.some.inj hs)
    exact ⟨⟨rfl, idx, _, rfl, List.getElem?_eq_getElem hlt, rfl⟩, .inl ⟨rfl, rfl⟩⟩
  | returned kept index result => exact absurd hs (by simp [Call.step])
  | panicked => exact h.elim

/-- A step in a list of picks, as the indices taken see it. -/
theorem filterMap_index_set (c' : Call α) {l : List (Call α)} {k : ℕ} (hk : l[k]? = some c) :
    ∃ before after, l.filterMap Call.index = before ++ c.index.toList ++ after ∧
      (l.set k c').filterMap Call.index = before ++ c'.index.toList ++ after := by
  obtain ⟨hlt, rfl⟩ := List.getElem?_eq_some_iff.1 hk
  refine ⟨(l.take k).filterMap Call.index, (l.drop (k + 1)).filterMap Call.index, ?_, ?_⟩
  · conv_lhs => rw [← List.take_append_drop k l, List.drop_eq_getElem_cons hlt]
    rw [List.filterMap_append, List.filterMap_cons, List.append_assoc]
    rcases l[k].index <;> rfl
  · rw [List.set_eq_take_append_cons_drop, if_pos hlt, List.filterMap_append, List.filterMap_cons,
      List.append_assoc]
    rcases c'.index <;> rfl

/-- Every event keeps the invariant. -/
theorem Inv.step {c : BitVec w} {s s' : Callers w α} {e : Event}
    (hpos : 0 < (healthyTransports healthy ts).length) (h : Inv healthy ts c s)
    (hs : s.step healthy ts e = some s') : Inv healthy ts c s' := by
  cases e with
  | call =>
    obtain rfl := Option.some.inj hs
    have hsame : (s.calls ++ [Call.filtering [] ts]).filterMap Call.index =
        s.calls.filterMap Call.index := by
      rw [List.filterMap_append]
      exact List.append_nil _
    refine ⟨fun call hcall => ?_, ?_, ?_⟩
    · rcases List.mem_append.1 hcall with hcall | hcall
      · exact h.sound call hcall
      · exact List.mem_singleton.1 hcall ▸ List.nil_append _
    · rw [hsame]
      exact h.counter
    · rw [hsame]
      exact h.tickets
  | step k draw =>
    rw [Callers.step] at hs
    split at hs
    · exact absurd hs (by simp)
    · next call hk =>
      obtain ⟨⟨r, call'⟩, hstep, rfl⟩ := Option.map_eq_some_iff.1 hs
      rw [h.counter] at hstep
      obtain ⟨hsound, hindex⟩ := (h.sound call (List.mem_of_getElem? hk)).step hpos hstep
      have hsound' : ∀ u ∈ s.calls.set k call', Sound healthy (healthyTransports healthy ts) u := by
        intro u hu
        rcases List.mem_or_eq_of_mem_set hu with hu | rfl
        · exact h.sound u hu
        · exact hsound
      obtain ⟨before, after, hold, hnew⟩ := filterMap_index_set call' hk
      rcases hindex with ⟨rfl, hsame⟩ | ⟨rfl, hnone, hsome⟩
      · have hindices : (s.calls.set k call').filterMap Call.index =
            s.calls.filterMap Call.index := by rw [hnew, hold, hsame]
        refine ⟨hsound', ?_, ?_⟩
        · rw [hindices]; rfl
        · rw [hindices]; exact h.tickets
      · -- The new index is the residue of the counter that comes next.
        have hindices : ((s.calls.set k call').filterMap Call.index).Perm (ticket c
            (healthyTransports healthy ts).length (s.calls.filterMap Call.index).length ::
              s.calls.filterMap Call.index) := by
          rw [hnew, hsome, List.append_assoc]
          conv_rhs => rw [hold, hnone, Option.toList_none, List.append_nil]
          rw [hold, hnone, Option.toList_none, List.append_nil]
          exact List.perm_middle
        refine ⟨hsound', ?_, ?_⟩
        · rw [hindices.length_eq, List.length_cons, ← advance_add]; rfl
        · rw [hindices.length_eq, List.length_cons, List.range_succ, List.map_append]
          exact hindices.trans ((List.Perm.cons _ h.tickets).trans
            (List.perm_append_singleton _ _).symm)

/-- In every state of every run, the indices taken are those of consecutive counters. -/
theorem inv_of_run {c : BitVec w} {s : Callers w α} {es : List Event}
    (hpos : 0 < (healthyTransports healthy ts).length)
    (hrun : Run.run (step healthy ts) ⟨roundRobin c, []⟩ es = some s) : Inv healthy ts c s := by
  have hstart : Inv healthy ts c ⟨roundRobin c, []⟩ :=
    ⟨fun call hcall => absurd hcall List.not_mem_nil, (advance_zero _).symm, List.Perm.nil⟩
  exact (Run.always_of_inv (fun _ _ _ h hs => h.step hpos hs) hstart).last hrun

/-! ## Fairness -/

/-- How often an index comes up among the tickets of `m` picks, if the counter does
    not wrap: the numbers with this residue below the last counter, without those
    below the first. -/
theorem count_ticket {c : BitVec w} {n m i : ℕ} (hi : i < n) (hwrap : c.toNat + m ≤ 2 ^ w) :
    (c.toNat / n + if i < c.toNat % n then 1 else 0) +
      ((List.range m).map (ticket c n)).count i =
    (c.toNat + m) / n + if i < (c.toNat + m) % n then 1 else 0 := by
  have hn : 0 < n := Nat.zero_lt_of_lt hi
  have hcount : ((List.range m).map (ticket c n)).count i =
      Nat.count (fun j => c.toNat + j ≡ i [MOD n]) m := by
    rw [List.count, List.countP_map, Nat.count]
    refine List.countP_congr fun j hj => ?_
    have hj : j < m := List.mem_range.1 hj
    have hmod : (c + BitVec.ofNat w j).toNat = c.toNat + j := by
      rw [BitVec.toNat_add, BitVec.toNat_ofNat, Nat.add_mod_mod, Nat.mod_eq_of_lt (by omega)]
    rw [Function.comp_apply, ticket, hmod, beq_iff_eq, decide_eq_true_iff, Nat.ModEq,
      Nat.mod_eq_of_lt hi]
  have hall := Nat.count_add (fun k => k ≡ i [MOD n]) c.toNat m
  rw [Nat.count_modEq_card _ hn, Nat.count_modEq_card _ hn, Nat.mod_eq_of_lt hi] at hall
  rw [hcount]
  exact hall.symm

/-- A pick that has returned has taken an index, and returned the entry there. -/
theorem Sound.returned {H : List α} {c : Call α} (h : Sound healthy H c) (hr : c.isReturned) :
    ∃ i t, H[i]? = some t ∧ c = .returned H (some i) (.ok t) := by
  cases c with
  | returned kept index result =>
    obtain ⟨rfl, i, t, rfl, ht, rfl⟩ := h
    exact ⟨i, t, ht, rfl⟩
  | filtering kept rest => exact absurd hr Bool.false_ne_true
  | indexing kept idx => exact absurd hr Bool.false_ne_true
  | panicked => exact h.elim

/-- Where no transport is listed twice, a transport is returned as often as its
    index is taken. -/
theorem returned_eq_taken [DecidableEq α] {s : Callers w α} {i : ℕ} (hH : H.Nodup)
    (hi : i < H.length)
    (hs : ∀ c ∈ s.calls, ∃ i t, H[i]? = some t ∧ c = .returned H (some i) (.ok t)) :
    s.returned H[i] = s.taken i := by
  refine List.countP_congr fun c hc => ?_
  obtain ⟨j, t, ht, rfl⟩ := hs c hc
  obtain ⟨hj, rfl⟩ := List.getElem?_eq_some_iff.1 ht
  change decide (H[j] = H[i]) = true ↔ decide (some j = some i) = true
  rw [decide_eq_true_iff, decide_eq_true_iff, hH.getElem_inj_iff, Option.some_inj]

/-- Any number of callers, from any counter, as long as it does not wrap: once all picks have
    returned, they are spread evenly over the healthy transports. The callers take their steps
    in any order; each takes a ticket of its own, and consecutive tickets are spread evenly. -/
theorem fair [DecidableEq α] (healthy : α → Bool) (ts : List α) (c : BitVec w) (es : List Event)
    (s : Callers w α) (hpos : 1 ≤ (healthyTransports healthy ts).length)
    (hrun : Run.run (step healthy ts) ⟨roundRobin c, []⟩ es = some s)
    (hdone : ∀ call ∈ s.calls, call.isReturned) (hwrap : c.toNat + s.calls.length ≤ 2 ^ w) :
    s.Fair healthy ts := by
  obtain ⟨hsound, -, htickets⟩ := inv_of_run hpos hrun
  have hentry := fun call hcall => (hsound call hcall).returned (hdone call hcall)
  -- All picks have taken an index, so there are as many tickets as picks.
  have hlen : (s.calls.filterMap Call.index).length = s.calls.length := by
    refine List.filterMap_length_eq_length.2 fun call hcall => ?_
    obtain ⟨i, t, -, rfl⟩ := hentry call hcall
    rfl
  rw [hlen] at htickets
  have htaken : ∀ i, s.taken i = ((List.range s.calls.length).map
      (ticket c (healthyTransports healthy ts).length)).count i := by
    intro i
    rw [← htickets.count_eq, List.count_filterMap]
    exact List.countP_congr fun call _ => by rw [decide_eq_true_iff, beq_iff_eq]
  have heven : ∀ i < (healthyTransports healthy ts).length,
      ∀ j < (healthyTransports healthy ts).length, s.taken i ≤ s.taken j + 1 := by
    intro i hi j hj
    have hi := count_ticket hi hwrap
    have hj := count_ticket hj hwrap
    rw [htaken, htaken]
    split_ifs at hi hj <;> omega
  have hexact : ∀ k, s.calls.length = k * (healthyTransports healthy ts).length →
      ∀ i < (healthyTransports healthy ts).length, s.taken i = k := by
    intro k hk i hi
    have hcount := count_ticket hi hwrap
    rw [← htaken, hk, Nat.add_mul_div_right _ _ hpos, Nat.add_mul_mod_self_right] at hcount
    omega
  refine ⟨hentry, heven, hexact, fun hnodup t ht u hu => ?_, fun hnodup k hk t ht => ?_⟩
  · obtain ⟨i, hi, rfl⟩ := List.getElem_of_mem ht
    obtain ⟨j, hj, rfl⟩ := List.getElem_of_mem hu
    rw [returned_eq_taken hnodup hi hentry, returned_eq_taken hnodup hj hentry]
    exact heven i hi j hj
  · obtain ⟨i, hi, rfl⟩ := List.getElem_of_mem ht
    rw [returned_eq_taken hnodup hi hentry]
    exact hexact k hk i hi

/-- Three callers that read the flags at the same time, from a counter of one: the
    first and the last transport are returned once and twice. -/
theorem fair_threeCallers : Fair (fun t => t != 1) [0, 1, 2]
    (⟨roundRobin 0#2, [.returned [0, 2] (some 1) (.ok 2), .returned [0, 2] (some 0) (.ok 0),
      .returned [0, 2] (some 1) (.ok 2)]⟩ : Callers 2 ℕ) :=
  fair (fun t => t != 1) [0, 1, 2] 1#2
    ([.call, .call, .call] ++ (List.replicate 4 [.step 0 0, .step 1 0, .step 2 0]).flatten ++
      [.step 2 0, .step 1 0, .step 0 0]) _ (by decide) rfl (by decide) (by decide)

end Callers

end Router

end Houdinny
