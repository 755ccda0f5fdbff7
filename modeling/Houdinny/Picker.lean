import Houdinny.Pool
import Houdinny.Router.Call

/-!
# The picker

The closure that the proxy server calls for each request: it takes the healthy transports of
the pool, and has the router pick one of them. Here it is modelled with all that may run next
to it:

* other picks, each at a step of its own (`Pick.step`). A pick holds the lock of the pool
  while it reads the health flags of a copy of the list, and then reads them once more in the
  router, which filters again;
* `Pool::add` and `Pool::remove`, which wait for the lock in their order. While one of them
  waits, a pick does not get the lock, and goes on with no transports at all;
* `Transport::close`, which drops a health flag before it returns, as other events may at any
  time.

Whatever the order of their steps, a pick returns a transport that was in the pool when the
pick looked at it, and that was not closed when the pick began; it fails only if it has found
none that is healthy, and it never panics (`World.Safe`, `World.safe`). What carries this is
that flags only drop: what has been found up by the second filter has been so ever since the
pick began (`World.Inv`).

A pick that nothing comes between is `Router.pick` on the healthy transports of the pool
(`Pick.run_pick`).
-/

namespace Houdinny

namespace Picker

open Router

variable {w : ℕ} {τ : Type}

/-- A call that writes the pool. -/
inductive Write (τ : Type)
  | add (t : τ)
  | remove (id : Text)

/-- What is written, when it is the turn of the call. -/
def Write.apply (id : τ → Text) : Write τ → Pool τ → Pool τ
  | add t, p => p.add t
  | remove i, p => (p.remove id i).1

/-- How far a call of the picker has come. -/
inductive Phase (τ : Type)
  /-- It has been called, and has not tried to lock the pool yet. -/
  | called
  /-- `filter_healthy` holds the lock, and has `rest` still to read. -/
  | reading (kept rest : List τ)
  /-- The router picks. -/
  | routing (call : Call τ)

/-- A call of the picker, with what was so when it began, and when it looked at
    the pool. -/
structure Pick (τ : Type) where
  /-- The transports whose `close` had returned before the pick began. -/
  closedBefore : List τ
  /-- The pool when the lock was taken: nothing, if a writer had it. -/
  snapshot : List τ
  phase : Phase τ

/-- The pool, the transports and the router, and the calls in progress. -/
structure World (w : ℕ) (τ : Type) where
  pool : Pool τ
  /-- The calls that wait for the lock of the pool to write, in order: the first
      has it once there are no readers. -/
  writers : List (Write τ)
  healthy : τ → Bool
  /-- The transports whose flag a `close` has dropped that has not returned. -/
  closing : List τ
  /-- The transports a `close` of which has returned. -/
  closed : List τ
  router : Router w
  picks : List (Pick τ)

/-- What can happen. -/
inductive Event (τ : Type)
  /-- `Pool::add` or `Pool::remove` is called, and waits for the lock. -/
  | write (op : Write τ)
  /-- The first writer gets the lock, writes, and releases it. -/
  | written
  /-- The health flag of a transport drops. -/
  | drop (t : τ)
  /-- `Transport::close` is called, and drops the flag. -/
  | close (t : τ)
  /-- A `Transport::close` returns. -/
  | closed (t : τ)
  /-- The picker is called. -/
  | call
  /-- The `k`-th pick takes its next step. -/
  | step (k draw : ℕ)

/-- The pick holds the lock of the pool, for reading. -/
def Pick.isReading (p : Pick τ) : Bool :=
  match p.phase with
  | .reading .. => true
  | _ => false

/-- The next step of a pick: the router and the pick after it. -/
def Pick.step (s : World w τ) (draw : ℕ) (p : Pick τ) : Option (Router w × Pick τ) :=
  match p.phase with
  | .called =>
    -- A writer that holds the lock, or is the next to, makes `try_read` fail.
    if s.writers.isEmpty then
      some (s.router, ⟨p.closedBefore, s.pool.transports, .reading [] s.pool.transports⟩)
    else some (s.router, ⟨p.closedBefore, [], .routing (.filtering [] [])⟩)
  | .reading kept (t :: rest) =>
    some (s.router, { p with phase := .reading (if s.healthy t then kept ++ [t] else kept) rest })
  | .reading kept [] => some (s.router, { p with phase := .routing (.filtering [] kept) })
  | .routing c => (c.step s.healthy draw s.router).map fun (r, c) =>
    (r, { p with phase := .routing c })

namespace World

variable [DecidableEq τ] (id : τ → Text)

/-- What an event does. -/
def step (s : World w τ) : Event τ → Option (World w τ)
  | .write op => some { s with writers := s.writers ++ [op] }
  | .written =>
    match s.writers with
    | [] => none
    | op :: writers =>
      if s.picks.any Pick.isReading then none
      else some { s with pool := op.apply id s.pool, writers := writers }
  | .drop t => some { s with healthy := Function.update s.healthy t false }
  | .close t =>
    some { s with healthy := Function.update s.healthy t false, closing := t :: s.closing }
  | .closed t =>
    if t ∈ s.closing then
      some { s with closing := s.closing.erase t, closed := t :: s.closed }
    else none
  | .call => some { s with picks := s.picks ++ [⟨s.closed, [], .called⟩] }
  | .step k draw =>
    match s.picks[k]? with
    | none => none
    | some p => (p.step s draw).map fun (r, p) => { s with router := r, picks := s.picks.set k p }

/-- The pool, the health flags and the router, and nothing in progress. -/
def start (pool : Pool τ) (healthy : τ → Bool) (router : Router w) : World w τ :=
  ⟨pool, [], healthy, [], [], router, []⟩

end World

/-- Has the pick advanced the counter, if there is one? -/
def Pick.advanced (p : Pick τ) : Bool :=
  match p.phase with
  | .routing c => c.advanced
  | _ => false

/-- The pick has returned, after it had filtered `kept` out of the list. -/
def Pick.Returned (p : Pick τ) (kept : List τ) (result : Except Error τ) : Prop :=
  ∃ index, p.phase = .routing (.returned kept index result)

/-- What the picks must be and do, the router having been `r` when the first of
    them began. -/
structure World.Safe (r : Router w) (s : World w τ) : Prop where
  /-- A transport returned was in the pool when the pick looked at it, and not
      closed when the pick began. -/
  live : ∀ p ∈ s.picks, ∀ kept t, p.Returned kept (.ok t) → t ∈ p.snapshot ∧ t ∉ p.closedBefore
  /-- No index is out of range, and no divisor is zero. -/
  no_panic : ∀ p ∈ s.picks, p.phase ≠ .routing .panicked
  /-- The pick fails exactly if the list that the router has filtered is empty. -/
  fails : ∀ p ∈ s.picks, ∀ kept result, p.Returned kept result →
    (result = .error .noHealthyTunnels ↔ kept = []) ∧ ∀ e, result = .error e → kept = []
  /-- So it does if the pool was empty, or its lock held by a writer. -/
  empty : ∀ p ∈ s.picks, p.snapshot = [] → ∀ kept result, p.Returned kept result →
    result = .error .noHealthyTunnels
  /-- The counter has advanced once for each pick that has returned a transport,
      or is about to, and for no other pick. -/
  counter : s.router = r.advance (s.picks.countP Pick.advanced)

/-! ## Safety -/

/-- What a pick has kept was in the pool, and not closed before it began. -/
def Pick.Sound (p : Pick τ) : Prop :=
  match p.phase with
  | .called => True
  | .reading kept rest =>
    (∀ t ∈ kept, t ∈ p.snapshot ∧ t ∉ p.closedBefore) ∧ ∀ t ∈ rest, t ∈ p.snapshot
  | .routing c => c.Sound fun t => t ∈ p.snapshot ∧ t ∉ p.closedBefore

/-- The invariant: flags of closed transports are down, and the picks are sound. -/
structure World.Inv (r : Router w) (s : World w τ) : Prop where
  down : ∀ t, t ∈ s.closing ∨ t ∈ s.closed → s.healthy t = false
  sound : ∀ p ∈ s.picks, p.Sound ∧ ∀ t ∈ p.closedBefore, t ∈ s.closed
  counter : s.router = r.advance (s.picks.countP Pick.advanced)

/-- A step of a sound pick is sound, if the flags of what was closed before it
    began are down; it advances the counter exactly if the pick had not advanced
    it before and has after it. -/
theorem Pick.Sound.step {s : World w τ} {draw : ℕ} {r : Router w} {p p' : Pick τ} (h : p.Sound)
    (hdown : ∀ t ∈ p.closedBefore, s.healthy t = false) (hs : p.step s draw = some (r, p')) :
    (p'.Sound ∧ p'.closedBefore = p.closedBefore) ∧ p.advanced.toNat ≤ p'.advanced.toNat ∧
      r = s.router.advance (p'.advanced.toNat - p.advanced.toNat) := by
  obtain ⟨closedBefore, snapshot, phase⟩ := p
  have hzero : s.router = s.router.advance 0 := s.router.advance_zero.symm
  cases phase with
  | called =>
    rw [Pick.step] at hs
    by_cases hw : s.writers.isEmpty
    · rw [if_pos hw] at hs
      obtain ⟨rfl, rfl⟩ := Prod.mk.inj (Option.some.inj hs)
      exact ⟨⟨⟨fun t ht => absurd ht List.not_mem_nil, fun t ht => ht⟩, rfl⟩, le_rfl, hzero⟩
    · rw [if_neg hw] at hs
      obtain ⟨rfl, rfl⟩ := Prod.mk.inj (Option.some.inj hs)
      exact ⟨⟨fun t ht => absurd ht List.not_mem_nil, rfl⟩, le_rfl, hzero⟩
  | reading kept rest =>
    cases rest with
    | cons t rest =>
      obtain ⟨rfl, rfl⟩ := Prod.mk.inj (Option.some.inj hs)
      refine ⟨⟨⟨fun u hu => ?_, fun u hu => h.2 u (List.mem_cons_of_mem _ hu)⟩, rfl⟩, le_rfl, hzero⟩
      -- A flag that is up is not that of a transport closed before.
      rcases mem_of_mem_keep hu with hu | ⟨hup, rfl⟩
      · exact h.1 u hu
      · refine ⟨h.2 u List.mem_cons_self, fun hclosed => ?_⟩
        rw [hdown u hclosed] at hup
        exact absurd hup (by decide)
    | nil =>
      obtain ⟨rfl, rfl⟩ := Prod.mk.inj (Option.some.inj hs)
      exact ⟨⟨fun t ht => h.1 t ht, rfl⟩, le_rfl, hzero⟩
  | routing c =>
    obtain ⟨⟨r', c'⟩, hc, heq⟩ := Option.map_eq_some_iff.1 hs
    obtain ⟨rfl, rfl⟩ := Prod.mk.inj heq
    obtain ⟨hsound, hadvance⟩ := Call.Sound.step h hc
    exact ⟨⟨hsound, rfl⟩, hadvance⟩

variable {id : τ → Text} {r : Router w} {s s' : World w τ}

/-- The invariant makes the picks safe. -/
theorem World.safe_of_inv (h : s.Inv r) : s.Safe r := by
  have hreturned : ∀ p ∈ s.picks, ∀ kept result, p.Returned kept result → ∃ index,
      Call.Sound (fun t => t ∈ p.snapshot ∧ t ∉ p.closedBefore) (.returned kept index result) := by
    rintro ⟨closedBefore, snapshot, _⟩ hp kept result ⟨index, rfl⟩
    exact ⟨index, (h.sound _ hp).1⟩
  refine ⟨fun p hp kept t hreturn => ?_, fun p hp hphase => ?_, fun p hp kept result hreturn => ?_,
    fun p hp hempty kept result hreturn => ?_, h.counter⟩
  · obtain ⟨_, ht, hkept⟩ := hreturned p hp kept _ hreturn
    exact hkept t ht
  · have hsound := (h.sound p hp).1
    rw [Pick.Sound, hphase] at hsound
    exact hsound
  · obtain ⟨_, hsound⟩ := hreturned p hp kept result hreturn
    rcases result with e | t
    · obtain ⟨rfl, rfl⟩ := hsound
      exact ⟨iff_of_true rfl rfl, fun _ _ => rfl⟩
    · exact ⟨iff_of_false (by simp) (List.ne_nil_of_mem hsound.1), fun e he => absurd he (by simp)⟩
  · obtain ⟨_, hsound⟩ := hreturned p hp kept result hreturn
    rcases result with e | t
    · exact congrArg _ hsound.1
    · -- Nothing can be returned from an empty pool.
      have ht := (hsound.2 t hsound.1).1
      rw [hempty] at ht
      exact absurd ht List.not_mem_nil

variable [DecidableEq τ]

/-- Flags only drop, and a `close` has dropped the flag before it returns. -/
theorem World.Inv.of_drop (h : s.Inv r) {t : τ} {closing : List τ}
    (hclosing : ∀ u ∈ closing, u = t ∨ u ∈ s.closing) :
    World.Inv r { s with healthy := Function.update s.healthy t false, closing := closing } := by
  refine ⟨fun u hu => ?_, h.sound, h.counter⟩
  by_cases hut : u = t
  · exact hut ▸ Function.update_self ..
  · have hdown := h.down u (hu.imp_left fun hu => (hclosing u hu).resolve_left hut)
    exact (Function.update_of_ne hut ..).trans hdown

/-- Every event keeps the invariant. -/
theorem World.Inv.step (h : s.Inv r) {e : Event τ} (hs : s.step id e = some s') : s'.Inv r := by
  cases e with
  | write op =>
    obtain rfl := Option.some.inj hs
    exact ⟨h.down, h.sound, h.counter⟩
  | written =>
    rw [World.step] at hs
    split at hs
    · exact absurd hs (by simp)
    · split_ifs at hs
      obtain rfl := Option.some.inj hs
      exact ⟨h.down, h.sound, h.counter⟩
  | drop t =>
    obtain rfl := Option.some.inj hs
    exact h.of_drop fun u hu => .inr hu
  | close t =>
    obtain rfl := Option.some.inj hs
    exact h.of_drop fun u hu => List.mem_cons.1 hu
  -- A transport whose `close` returns has been down since it began.
  | closed t =>
    rw [World.step] at hs
    split_ifs at hs with ht
    obtain rfl := Option.some.inj hs
    refine ⟨fun u hu => h.down u ?_, fun p hp => ?_, h.counter⟩
    · rcases hu with hu | hu
      · exact .inl (List.mem_of_mem_erase hu)
      · rcases List.mem_cons.1 hu with rfl | hu
        · exact .inl ht
        · exact .inr hu
    · exact ⟨(h.sound p hp).1, fun u hu => List.mem_cons_of_mem _ ((h.sound p hp).2 u hu)⟩
  -- The new pick notes what is closed by now, and has not advanced the counter.
  | call =>
    obtain rfl := Option.some.inj hs
    refine ⟨h.down, fun p hp => ?_, ?_⟩
    · rcases List.mem_append.1 hp with hp | hp
      · exact h.sound p hp
      · obtain rfl := List.mem_singleton.1 hp
        exact ⟨trivial, fun u hu => hu⟩
    · exact h.counter.trans (by rw [List.countP_append]; rfl)
  -- What was closed when the pick began has been down ever since, so its step keeps it apart.
  | step k draw =>
    rw [World.step] at hs
    split at hs
    · exact absurd hs (by simp)
    · next p hk =>
      obtain ⟨⟨r', p'⟩, hp', rfl⟩ := Option.map_eq_some_iff.1 hs
      obtain ⟨hsound, hbefore⟩ := h.sound p (List.mem_of_getElem? hk)
      have hdown : ∀ t ∈ p.closedBefore, s.healthy t = false :=
        fun t ht => h.down t (.inr (hbefore t ht))
      obtain ⟨⟨hsound', hclosed⟩, hle, hr'⟩ := hsound.step hdown hp'
      refine ⟨h.down, fun q hq => ?_, ?_⟩
      · rcases List.mem_or_eq_of_mem_set hq with hq | rfl
        · exact h.sound q hq
        · exact ⟨hsound', fun t ht => hbefore t (hclosed ▸ ht)⟩
      · change r' = r.advance ((s.picks.set k p').countP Pick.advanced)
        rw [countP_set hk hle, ← advance_add, ← h.counter, hr']

/-- In every state of every run, whatever the pool, the health flags, the strategy and the
    counter that it starts with, the picks are safe: what they return was in the pool when they
    looked at it, and not closed when they began, and none of them panics, whatever comes
    between its steps. -/
theorem World.safe (id : τ → Text) (pool : Pool τ) (healthy : τ → Bool) (r : Router w)
    (es : List (Event τ)) :
    Run.Always (World.step id) (World.Safe r) (start pool healthy r) es := by
  have hinv : (start pool healthy r).Inv r :=
    ⟨fun t ht => absurd ht (by simp [start]), fun p hp => absurd hp List.not_mem_nil,
      r.advance_zero.symm⟩
  exact (Run.always_of_inv (fun s e t hs hst => hs.step hst) hinv).mono
    fun s hs => World.safe_of_inv hs

/-! ## Picks that nothing comes between -/

/-- The steps of a pick, and the router with it, while the rest of the world stays as it is. -/
def Pick.stepIn (s : World w τ) (x : Router w × Pick τ) (draw : ℕ) : Option (Router w × Pick τ) :=
  x.2.step { s with router := x.1 } draw

omit [DecidableEq τ] in
/-- The first filter, without interruption, is `Pool::healthy_transports_sync`, and
    the router filters and picks from what it returns. -/
theorem Pick.run_reading (s : World w τ) (closedBefore : List τ) :
    ∃ draws snapshot, ∀ draws', Run.run (Pick.stepIn s)
        (s.router, ⟨closedBefore, [], .called⟩) (draws ++ draws') =
      Run.run (Pick.stepIn s) (s.router, ⟨closedBefore, snapshot, .routing (.filtering []
        (s.pool.healthyTransportsSync s.healthy (!s.writers.isEmpty)))⟩) draws' := by
  by_cases hw : s.writers.isEmpty
  · refine ⟨0 :: (List.replicate s.pool.transports.length 0 ++ [0]), s.pool.transports,
      fun draws' => ?_⟩
    let reading (kept rest : List τ) : Router w × Pick τ :=
      (s.router, ⟨closedBefore, s.pool.transports, .reading kept rest⟩)
    have hkeep : ∀ kept t rest (draw : ℕ), Pick.stepIn s (reading kept (t :: rest)) draw =
        some (reading (if s.healthy t then kept ++ [t] else kept) rest) := fun _ _ _ _ => rfl
    have hfilter := Call.run_filter s.healthy hkeep [] s.pool.transports 0 (0 :: draws')
    rw [List.cons_append, List.append_assoc, Run.run_cons, Pick.stepIn, Pick.step, if_pos hw]
    refine hfilter.trans ?_
    rw [hw]
    rfl
  · refine ⟨[0], [], fun draws' => ?_⟩
    rw [Bool.eq_false_iff.2 hw, List.singleton_append, Run.run_cons, Pick.stepIn, Pick.step,
      if_neg hw]
    rfl

omit [DecidableEq τ] in
/-- Then the steps are those of the router's own pick. -/
theorem Pick.run_routing (s : World w τ) (closedBefore snapshot : List τ) (x : Router w × Call τ)
    (draws : List ℕ) :
    Run.run (Pick.stepIn s) (x.1, ⟨closedBefore, snapshot, .routing x.2⟩) draws =
      (Run.run (Call.stepWith s.healthy) x draws).map fun y =>
        (y.1, ⟨closedBefore, snapshot, .routing y.2⟩) := by
  induction draws generalizing x with
  | nil => rfl
  | cons draw draws ih =>
    have hstep : Pick.stepIn s (x.1, ⟨closedBefore, snapshot, .routing x.2⟩) draw =
        (Call.stepWith s.healthy x draw).map fun y =>
          (y.1, ⟨closedBefore, snapshot, .routing y.2⟩) := rfl
    rw [Run.run_cons, Run.run_cons, hstep]
    rcases Call.stepWith s.healthy x draw with _ | y
    · rfl
    · exact ih y

omit [DecidableEq τ] in
/-- A pick that runs without interruption returns what `Router.pick` returns on the healthy
    transports of the pool, and leaves the router as that does. -/
theorem Pick.run_pick (s : World w τ) (closedBefore : List τ) (draw : ℕ) : ∃ draws p,
    Run.run (Pick.stepIn s) (s.router, ⟨closedBefore, [], .called⟩) draws =
      some ((s.router.pick s.healthy draw
        (s.pool.healthyTransportsSync s.healthy (!s.writers.isEmpty))).2, p) ∧
    p.Returned (healthyTransports s.healthy
        (s.pool.healthyTransportsSync s.healthy (!s.writers.isEmpty)))
      (s.router.pick s.healthy draw
        (s.pool.healthyTransportsSync s.healthy (!s.writers.isEmpty))).1 := by
  obtain ⟨reading, snapshot, hreading⟩ := Pick.run_reading s closedBefore
  obtain ⟨routing, index, hrouting⟩ := Call.run_call s.healthy draw
    (s.pool.healthyTransportsSync s.healthy (!s.writers.isEmpty)) s.router
  refine ⟨reading ++ routing, ⟨closedBefore, snapshot, .routing (.returned _ index _)⟩, ?_, index,
    rfl⟩
  rw [hreading, Pick.run_routing s closedBefore snapshot (s.router, _), hrouting]
  rfl

end Picker

end Houdinny
