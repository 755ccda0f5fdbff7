import Houdinny.Lib.Run
import Houdinny.Router

/-!
# Picks in progress

`Router.pick` as the sequence of its accesses to shared memory, which other tasks can come
between: the health flags, which `healthy_transports` reads one after the other, and the
counter, which is read and advanced at once.

* `Call`: where a pick is, with its local variables: it filters, it has taken an index, or
  it has returned. A pick that would index out of range, or divide by zero, is at `panicked`.
* `Call.step`: its next step, at the flags and the counter of the moment.
* `Call.Sound`: what holds of a pick wherever it is. What it returns is read off the list
  that it has filtered itself, whatever has become of the pool since.

A pick never panics, and it advances the counter exactly if it returns a transport
(`Call.Sound.step`). A pick that nothing comes between is `Router.pick` (`run_call`).
-/

namespace Houdinny

namespace Router

variable {w : ℕ} {α : Type}

/-- A pick in progress, with its local variables. -/
inductive Call (α : Type)
  /-- `healthy_transports` has `rest` still to read. -/
  | filtering (kept rest : List α)
  /-- The counter has been read and advanced, the list not indexed yet. -/
  | indexing (healthy : List α) (idx : ℕ)
  /-- The pick has returned; the index is what the debug event records. -/
  | returned (healthy : List α) (index : Option ℕ) (result : Except Error α)
  /-- An index was out of range, or a remainder by zero. -/
  | panicked
  deriving DecidableEq

/-- The remainder, which panics on a divisor of zero. -/
def rem (a n : ℕ) : Option ℕ := if n = 0 then none else some (a % n)

/-- Choose from the filtered list, `draw` being what the random generator comes
    up with: the router after it, and how the pick goes on. -/
def choose (draw : ℕ) (healthy : List α) : Router w → Router w × Call α
  | random =>
    match healthy[draw % healthy.length]? with
    | some chosen => (random, .returned healthy none (.ok chosen))
    | none => (random, .returned healthy none (.error .noHealthyTunnels))
  | roundRobin counter =>
    if healthy.isEmpty then
      (roundRobin counter, .returned healthy none (.error .noHealthyTunnels))
    else match rem counter.toNat healthy.length with
      | some idx => (roundRobin (counter + 1#w), .indexing healthy idx)
      | none => (roundRobin (counter + 1#w), .panicked)

namespace Call

/-- The next step of a pick, at the health flags and the counter of the moment. -/
def step (healthy : α → Bool) (draw : ℕ) (r : Router w) : Call α → Option (Router w × Call α)
  | filtering kept (t :: rest) =>
    some (r, filtering (if healthy t then kept ++ [t] else kept) rest)
  | filtering kept [] => some (r.choose draw kept)
  | indexing kept idx =>
    match kept[idx]? with
    | some chosen => some (r, returned kept (some idx) (.ok chosen))
    | none => some (r, panicked)
  | returned .. => none
  | panicked => none

/-- Has the pick advanced the counter, if there is one? -/
def advanced : Call α → Bool
  | filtering .. => false
  | indexing .. => true
  | returned _ _ (.ok _) => true
  | returned _ _ (.error _) => false
  | panicked => false

/-- The pick has not panicked, and will not: all it has read, and has still to
    read, has the property `P`, and what it returns comes from the list it has
    filtered. -/
def Sound (P : α → Prop) : Call α → Prop
  | filtering kept rest => ∀ t ∈ kept ++ rest, P t
  | indexing kept idx => idx < kept.length ∧ ∀ t ∈ kept, P t
  | returned kept _ (.ok t) => t ∈ kept ∧ ∀ t ∈ kept, P t
  | returned kept _ (.error e) => e = .noHealthyTunnels ∧ kept = []
  | panicked => False

end Call

/-- The router after `n` picks that returned a transport. -/
def advance (n : ℕ) : Router w → Router w
  | random => random
  | roundRobin counter => roundRobin (counter + BitVec.ofNat w n)

/-- No pick, no change. -/
theorem advance_zero (r : Router w) : r.advance 0 = r := by
  cases r with
  | random => rfl
  | roundRobin counter => exact congrArg roundRobin counter.add_zero

/-- The counter counts the picks together, whether it has wrapped between them or not. -/
theorem advance_add (m n : ℕ) (r : Router w) : (r.advance m).advance n = r.advance (m + n) := by
  cases r with
  | random => rfl
  | roundRobin counter => rw [advance, advance, advance, BitVec.add_assoc, BitVec.ofNat_add]

/-- All that choosing can do. -/
theorem choose_cases (draw : ℕ) (kept : List α) (r : Router w) :
    (kept = [] ∧ r.choose draw kept = (r, .returned kept none (.error .noHealthyTunnels))) ∨
    (∃ t ∈ kept, r = random ∧ r.choose draw kept = (r, .returned kept none (.ok t))) ∨
    ∃ counter, r = roundRobin counter ∧ counter.toNat % kept.length < kept.length ∧
      r.choose draw kept = (r.advance 1, .indexing kept (counter.toNat % kept.length)) := by
  rcases Nat.eq_zero_or_pos kept.length with hzero | hpos
  · obtain rfl := List.length_eq_zero_iff.1 hzero
    exact .inl ⟨rfl, by cases r <;> rfl⟩
  · cases r with
    | random =>
      have hlt := Nat.mod_lt draw hpos
      refine .inr (.inl ⟨kept.get ⟨_, hlt⟩, List.get_mem _ _, rfl, ?_⟩)
      rw [choose, List.getElem?_eq_getElem hlt]
      rfl
    | roundRobin counter =>
      refine .inr (.inr ⟨counter, rfl, Nat.mod_lt _ hpos, ?_⟩)
      have hne : kept.isEmpty = false := List.isEmpty_eq_false_iff.2 (List.length_pos_iff.1 hpos)
      rw [choose, hne, rem, if_neg hpos.ne']
      rfl

/-- The number of picks that have advanced the counter, after a step of one. -/
theorem countP_set {β : Type} {q : β → Bool} {l : List β} {k : ℕ} {a b : β} (hk : l[k]? = some a)
    (hle : (q a).toNat ≤ (q b).toNat) :
    (l.set k b).countP q = l.countP q + ((q b).toNat - (q a).toNat) := by
  obtain ⟨hlt, rfl⟩ := List.getElem?_eq_some_iff.1 hk
  have hpos : (q l[k]).toNat ≤ l.countP q := by
    by_cases hq : q l[k]
    · exact hq ▸ List.countP_pos_iff.2 ⟨_, List.getElem_mem hlt, hq⟩
    · rw [Bool.eq_false_iff.2 hq]
      exact Nat.zero_le _
  have hite : ∀ c : Bool, (if c = true then 1 else 0) = c.toNat := fun c => by cases c <;> rfl
  rw [List.countP_set hlt, hite, hite]
  omega

/-- What a filter has kept after it has read one more flag. -/
theorem mem_of_mem_keep {b : Bool} {kept : List α} {t u : α}
    (h : u ∈ if b then kept ++ [t] else kept) : u ∈ kept ∨ (b = true ∧ u = t) := by
  by_cases hb : b = true
  · rw [if_pos hb] at h
    exact (List.mem_append.1 h).imp_right fun h => ⟨hb, List.mem_singleton.1 h⟩
  · rw [if_neg hb] at h
    exact .inl h

namespace Call

variable {healthy : α → Bool} {draw : ℕ} {r r' : Router w} {c c' : Call α}

/-- A step of a sound pick is sound, so it does not panic; it advances the
    counter exactly if the pick had not advanced it before and has after it. -/
theorem Sound.step {P : α → Prop} (h : c.Sound P) (hs : c.step healthy draw r = some (r', c')) :
    c'.Sound P ∧ c.advanced.toNat ≤ c'.advanced.toNat ∧
      r' = r.advance (c'.advanced.toNat - c.advanced.toNat) := by
  cases c with
  | filtering kept rest =>
    cases rest with
    | cons t rest =>
      obtain ⟨rfl, rfl⟩ := Prod.mk.inj (Option.some.inj hs)
      refine ⟨fun u hu => h u (List.mem_append.2 ?_), le_rfl, r.advance_zero.symm⟩
      rcases List.mem_append.1 hu with hu | hu
      · exact (mem_of_mem_keep hu).imp_right fun ⟨_, hut⟩ => hut ▸ List.mem_cons_self
      · exact .inr (List.mem_cons_of_mem _ hu)
    | nil =>
      -- The list is complete: a random choice draws from it at once, while the round-robin
      -- counter is advanced before the place in the list is read.
      have hkept : ∀ t ∈ kept, P t := fun t ht => h t (List.mem_append_left _ ht)
      obtain ⟨rfl, hc⟩ | ⟨t, ht, rfl, hc⟩ | ⟨counter, rfl, hlt, hc⟩ := r.choose_cases draw kept
      · obtain ⟨rfl, rfl⟩ := Prod.mk.inj (hc.symm.trans (Option.some.inj hs))
        exact ⟨⟨rfl, rfl⟩, le_rfl, r.advance_zero.symm⟩
      · obtain ⟨rfl, rfl⟩ := Prod.mk.inj (hc.symm.trans (Option.some.inj hs))
        exact ⟨⟨ht, hkept⟩, Nat.zero_le _, rfl⟩
      · obtain ⟨rfl, rfl⟩ := Prod.mk.inj (hc.symm.trans (Option.some.inj hs))
        exact ⟨⟨hlt, hkept⟩, Nat.zero_le _, rfl⟩
  | indexing kept idx =>
    obtain ⟨hlt, hkept⟩ := h
    rw [Call.step, List.getElem?_eq_getElem hlt] at hs
    obtain ⟨rfl, rfl⟩ := Prod.mk.inj (Option.some.inj hs)
    exact ⟨⟨List.getElem_mem hlt, hkept⟩, le_rfl, r.advance_zero.symm⟩
  | returned kept index result => exact absurd hs (by simp [Call.step])
  | panicked => exact h.elim

/-! ## Picks that nothing comes between -/

/-- A filter that reads one flag in each step keeps what `List.filter` keeps, if
    the flags stay as they are. -/
theorem run_filter (healthy : α → Bool) {σ ε : Type*} {step : σ → ε → Option σ}
    {f : List α → List α → σ}
    (h : ∀ kept t rest e, step (f kept (t :: rest)) e =
      some (f (if healthy t then kept ++ [t] else kept) rest))
    (kept rest : List α) (e : ε) (es : List ε) :
    Run.run step (f kept rest) (List.replicate rest.length e ++ es) =
      Run.run step (f (kept ++ rest.filter healthy) []) es := by
  induction rest generalizing kept with
  | nil => rw [List.filter_nil, List.append_nil]; rfl
  | cons t rest ih =>
    rw [List.length_cons, List.replicate_succ, List.cons_append, Run.run_cons, h,
      Option.bind_some, ih, List.filter_cons]
    by_cases ht : healthy t
    · rw [if_pos ht, if_pos ht, List.append_assoc, List.singleton_append]
    · rw [if_neg ht, if_neg ht]

/-- The steps of a pick, and the router with it. -/
def stepWith (healthy : α → Bool) (s : Router w × Call α) (draw : ℕ) :
    Option (Router w × Call α) :=
  s.2.step healthy draw s.1

/-- Without interruption, a pick filters as `Router.healthyTransports` does. -/
theorem run_filtering (healthy : α → Bool) (r : Router w) (ts : List α) (draw : ℕ)
    (draws : List ℕ) :
    Run.run (stepWith healthy) (r, filtering [] ts) (List.replicate ts.length draw ++ draws) =
      Run.run (stepWith healthy) (r, filtering (healthyTransports healthy ts) []) draws :=
  run_filter healthy (f := fun kept rest => (r, filtering kept rest)) (fun _ _ _ _ => rfl) [] ts
    draw draws

/-- A pick that runs without interruption returns what `Router.pick` returns, and
    leaves the router as `Router.pick` does. -/
theorem run_call (healthy : α → Bool) (draw : ℕ) (ts : List α) (r : Router w) :
    ∃ draws index, Run.run (stepWith healthy) (r, filtering [] ts) draws =
      some ((r.pick healthy draw ts).2,
        returned (healthyTransports healthy ts) index (r.pick healthy draw ts).1) := by
  -- All transports are read, then one is chosen, by the counter in one more step.
  cases r with
  | random =>
    refine ⟨List.replicate ts.length draw ++ [draw], none, ?_⟩
    rw [run_filtering, pick]
    change some (choose draw _ random) = _
    rw [choose]
    rcases (healthyTransports healthy ts)[draw % (healthyTransports healthy ts).length]?
    · rfl
    · rfl
  | roundRobin counter =>
    rcases Nat.eq_zero_or_pos (healthyTransports healthy ts).length with hzero | hpos
    · have hnil := List.length_eq_zero_iff.1 hzero
      refine ⟨List.replicate ts.length draw ++ [draw], none, ?_⟩
      rw [run_filtering, pick, hnil]
      rfl
    · have hlt := Nat.mod_lt counter.toNat hpos
      have hne := List.isEmpty_eq_false_iff.2 (List.length_pos_iff.1 hpos)
      refine ⟨List.replicate ts.length draw ++ [draw, draw],
        some (counter.toNat % (healthyTransports healthy ts).length), ?_⟩
      rw [run_filtering, pick, List.getElem?_eq_getElem hlt, Run.run_cons]
      change (some (choose draw _ (roundRobin counter))).bind _ = _
      rw [choose, hne, rem, if_neg hpos.ne', Option.bind_some, Run.run_cons]
      change (Call.step healthy draw _ (indexing _ _)).bind _ = _
      rw [Call.step, List.getElem?_eq_getElem hlt]
      rfl

end Call

end Router

end Houdinny
