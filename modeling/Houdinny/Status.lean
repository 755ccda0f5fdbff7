import Houdinny.Lib.Run
import Houdinny.Pool
import Mathlib.Logic.Relation

/-!
# Status responses

The responses that report the state of the pool: `tool_health_check`, and the listings of
`tool_pool_status` and `pool_body`, which do the same. Each is put together of several reads:

* a health check takes the lock twice, for the number of transports (`len`), and then for the
  transports (`all`), of which it counts the healthy ones;
* a listing takes the lock once, but reads the health flag of each transport twice: in a first
  pass to count those that are up, and in a second one to show them.

Between the reads of a call, transports may be added and removed, and flags may drop
(`World.step`). So a response need not be consistent (`Response.Consistent`): a listing may
count a transport as healthy that it shows as down (`not_consistent_closed`), and a health
check may count more healthy transports than there are.

* All responses of a run are consistent if none is returned by a listing between the two
  passes of which a flag has dropped, or by a health check between the two looks of which more
  transports came into the pool than were taken out (`consistent_of_eachStep`).
* A listing that was disturbed so is never consistent, and neither is such a health check,
  unless it has found a transport down (`eachStep_of_consistent`): one that is down makes up
  for one that came.
* A call that nothing comes between returns what there is (`Call.runs_poolStatus`,
  `Call.runs_healthCheck`).
-/

namespace Houdinny

namespace Status

variable {τ : Type}

/-! ## Responses -/

/-- A single tunnel entry in a listing. -/
structure TunnelEntry where
  id : Text
  label : Text
  protocol : Text
  /-- Whether the tunnel is currently healthy. -/
  healthy : Bool
  deriving DecidableEq

/-- Pool status response. -/
structure PoolResponse where
  /-- Total number of transports in the pool. -/
  total : ℕ
  /-- Number of healthy transports. -/
  healthy : ℕ
  /-- Per-tunnel details. -/
  tunnels : List TunnelEntry
  deriving DecidableEq

/-- Response of a health check. -/
structure HealthCheck where
  status : Text
  version : Text
  tunnelsTotal : ℕ
  tunnelsHealthy : ℕ
  deriving DecidableEq

/-- What a call returns, of either kind. -/
inductive Response
  | health (r : HealthCheck)
  | pool (r : PoolResponse)
  deriving DecidableEq

/-- The numbers fit, and those of a listing are those of the tunnels that it shows. -/
def Response.Consistent : Response → Prop
  | health r => r.tunnelsHealthy ≤ r.tunnelsTotal
  | pool r =>
    r.healthy ≤ r.total ∧ r.total = r.tunnels.length ∧ r.healthy = r.tunnels.countP (·.healthy)

/-- The version of the crate. -/
def version : Text := "0.1.0".toList

/-! ## Calls -/

/-- The calls, by what they are to return. -/
inductive Kind
  /-- `tool_health_check` -/
  | healthCheck
  /-- `tool_pool_status`, or `pool_body` -/
  | poolStatus
  deriving DecidableEq

/-- How far a call has come. -/
inductive Phase (τ : Type)
  /-- It has been called, and has not looked at the pool yet. -/
  | called (kind : Kind)
  /-- A health check has taken the number of transports. -/
  | counted (total : ℕ)
  /-- It has found `healthy` transports, and has `rest` still to read. -/
  | checking (total healthy : ℕ) (rest : List τ)
  /-- A listing has counted those of `read`, and has `rest` still to read. -/
  | counting (healthy : ℕ) (read rest : List τ)
  /-- A listing of `all` shows `tunnels`, and has `rest` still to read again. -/
  | listing (all : List τ) (healthy : ℕ) (tunnels : List TunnelEntry) (rest : List τ)
  | returned (r : Response)

/-- A call, with what has come between its reads. -/
structure Call (τ : Type) where
  phase : Phase τ
  /-- The transports that came into the pool between the two looks of a health check. -/
  added : ℕ
  /-- Those that were taken out between them. -/
  removed : ℕ
  /-- Those that the health check has found down. -/
  down : ℕ
  /-- A flag has dropped between the two reads of it by a listing. -/
  dropped : Bool

/-- A call that is made now. -/
def Call.new (kind : Kind) : Call τ := ⟨.called kind, 0, 0, 0, false⟩

/-- The pool, the health flags, and the calls in progress. -/
structure World (τ : Type) where
  pool : Pool τ
  healthy : τ → Bool
  calls : List (Call τ)

/-- What can happen. -/
inductive Event (τ : Type)
  /-- `Pool::add` has the lock. -/
  | add (t : τ)
  /-- `Pool::remove` has the lock. -/
  | remove (id : Text)
  /-- `Transport::close` drops the flag. -/
  | close (t : τ)
  | call (kind : Kind)
  /-- The `k`-th call takes its next step. -/
  | step (k : ℕ)

namespace Call

variable (id label protocol : τ → Text)

/-- The next step of a call: it takes the lock of the pool once, or reads one flag, or
    returns. -/
def step (s : World τ) (c : Call τ) : Option (Call τ) :=
  match c.phase with
  | .called .healthCheck => some { c with phase := .counted s.pool.len }
  | .called .poolStatus => some { c with phase := .counting 0 [] s.pool.all }
  | .counted total => some { c with phase := .checking total 0 s.pool.all }
  | .checking total healthy (t :: rest) =>
    if s.healthy t then some { c with phase := .checking total (healthy + 1) rest }
    else some { c with phase := .checking total healthy rest, down := c.down + 1 }
  | .checking total healthy [] =>
    some { c with phase := .returned (.health ⟨"ok".toList, version, total, healthy⟩) }
  | .counting healthy read (t :: rest) =>
    some { c with
      phase := .counting (if s.healthy t then healthy + 1 else healthy) (read ++ [t]) rest }
  | .counting healthy read [] => some { c with phase := .listing read healthy [] read }
  | .listing all healthy tunnels (t :: rest) =>
    some { c with
      phase := .listing all healthy (tunnels ++ [⟨id t, label t, protocol t, s.healthy t⟩]) rest }
  | .listing all healthy tunnels [] =>
    some { c with phase := .returned (.pool ⟨all.length, healthy, tunnels⟩) }
  | .returned _ => none

/-- The call, after transports came into the pool, and were taken out. -/
def onWrite (added removed : ℕ) (c : Call τ) : Call τ :=
  match c.phase with
  | .counted _ => { c with added := c.added + added, removed := c.removed + removed }
  | _ => c

variable [DecidableEq τ]

/-- Has a listing read the flag of `t`, and is it to read it again? -/
def isBetween (t : τ) (c : Call τ) : Bool :=
  match c.phase with
  | .counting _ read _ => t ∈ read
  | .listing _ _ _ rest => t ∈ rest
  | _ => false

/-- The call, after the flag of `t` has dropped. -/
def onDrop (t : τ) (c : Call τ) : Call τ := { c with dropped := c.dropped || c.isBetween t }

/-- What came between the reads of a call that is about to return did not matter. -/
def Undisturbed (c : Call τ) : Prop :=
  match c.phase with
  | .checking _ _ [] => c.added ≤ c.removed
  | .listing _ _ _ [] => c.dropped = false
  | _ => True

instance : (c : Call τ) → Decidable c.Undisturbed
  | ⟨.checking _ _ [], added, removed, _, _⟩ => inferInstanceAs (Decidable (added ≤ removed))
  | ⟨.listing _ _ _ [], _, _, _, dropped⟩ => inferInstanceAs (Decidable (dropped = false))
  | ⟨.checking _ _ (_ :: _), _, _, _, _⟩ | ⟨.listing _ _ _ (_ :: _), _, _, _, _⟩
  | ⟨.called _, _, _, _, _⟩ | ⟨.counted _, _, _, _, _⟩ | ⟨.counting _ _ _, _, _, _, _⟩
  | ⟨.returned _, _, _, _, _⟩ => .isTrue trivial

end Call

namespace World

variable [DecidableEq τ] (id label protocol : τ → Text)

/-- What an event does. -/
def step (s : World τ) : Event τ → Option (World τ)
  | .add t => some { s with pool := s.pool.add t, calls := s.calls.map (Call.onWrite 1 0) }
  | .remove i =>
    let pool := (s.pool.remove id i).1
    some { s with pool := pool, calls := s.calls.map (Call.onWrite 0 (s.pool.len - pool.len)) }
  | .close t =>
    some { s with
      healthy := Function.update s.healthy t false
      calls := if s.healthy t then s.calls.map (Call.onDrop t) else s.calls }
  | .call kind => some { s with calls := s.calls ++ [.new kind] }
  | .step k =>
    match s.calls[k]? with
    | none => none
    | some c => (c.step id label protocol s).map fun c => { s with calls := s.calls.set k c }

/-- The pool and the health flags, and no calls. -/
def start (pool : Pool τ) (healthy : τ → Bool) : World τ := ⟨pool, healthy, []⟩

/-- All responses that have been returned are consistent. -/
def Consistent (s : World τ) : Prop :=
  ∀ c ∈ s.calls, ∀ r, c.phase = .returned r → r.Consistent

/-- The event lets no call return that was disturbed. -/
def Undisturbed (s : World τ) : Event τ → Prop
  | .step k => ∀ c ∈ s.calls[k]?, c.Undisturbed
  | _ => True

omit [DecidableEq τ] in
/-- No health check has found a transport down. -/
def FoundUp (s : World τ) : Prop := ∀ c ∈ s.calls, c.down = 0

instance (s : World τ) : (e : Event τ) → Decidable (s.Undisturbed e)
  | .step k => inferInstanceAs (Decidable (∀ c ∈ s.calls[k]?, c.Undisturbed))
  | .add _ | .remove _ | .close _ | .call _ => .isTrue trivial

end World

/-! ## What a response will say -/

/-- A listing that has counted `healthy` transports is to find `n` of them up, or fewer, if
    a flag has dropped. -/
def Meets (dropped : Bool) (n healthy : ℕ) : Prop := if dropped then n < healthy else n = healthy

/-- A transport that is counted, and is to be found up once more. -/
theorem Meets.succ {dropped : Bool} {n healthy : ℕ} (h : Meets dropped n healthy) :
    Meets dropped (n + 1) (healthy + 1) := by
  cases dropped
  · exact congrArg (· + 1) h
  · exact Nat.succ_lt_succ h

/-- The invariant of a call: it accounts for all transports that it has seen, or will see. -/
def Call.Inv (s : World τ) (c : Call τ) : Prop :=
  match c.phase with
  | .called _ => c.added = 0 ∧ c.removed = 0 ∧ c.down = 0 ∧ c.dropped = false
  | .counted total => s.pool.len + c.removed = total + c.added ∧ c.down = 0
  | .checking total healthy rest => rest.length + healthy + c.down + c.removed = total + c.added
  | .counting healthy read _ => Meets c.dropped (read.countP s.healthy) healthy
  | .listing all healthy tunnels rest =>
    all.length = tunnels.length + rest.length ∧
      Meets c.dropped (tunnels.countP (·.healthy) + rest.countP s.healthy) healthy
  | .returned r => r.Consistent

section

variable {id label protocol : τ → Text} {s : World τ} {c c' : Call τ}

/-- A step keeps the invariant, unless the call returns and was disturbed. -/
theorem Call.Inv.step (h : c.Inv s) (hs : c.step id label protocol s = some c')
    (hG : c.Undisturbed) : c'.Inv s := by
  obtain ⟨phase, added, removed, down, dropped⟩ := c
  cases phase with
  | called kind =>
    obtain ⟨rfl, rfl, rfl, rfl⟩ := h
    cases kind with
    | healthCheck =>
      obtain rfl := Option.some.inj hs
      exact ⟨rfl, rfl⟩
    | poolStatus =>
      obtain rfl := Option.some.inj hs
      exact rfl
  | counted total =>
    obtain ⟨hlen, rfl⟩ := h
    obtain rfl := Option.some.inj hs
    exact hlen
  -- Each transport that was listed is still to be read, or was found up or down; the pool may
  -- have got some since it was counted, and lost some.
  | checking total healthy rest =>
    have hcount : rest.length + healthy + down + removed = total + added := h
    cases rest with
    | nil =>
      obtain rfl := Option.some.inj hs
      -- The call returns, and is not disturbed: no more transports were listed than were
      -- counted.
      have hle : added ≤ removed := hG
      change healthy ≤ total
      rw [List.length_nil] at hcount
      omega
    | cons t rest =>
      change (if s.healthy t then _ else _) = some c' at hs
      rw [List.length_cons] at hcount
      by_cases hup : s.healthy t
      · rw [if_pos hup] at hs
        obtain rfl := Option.some.inj hs
        change rest.length + (healthy + 1) + down + removed = total + added
        omega
      · rw [if_neg hup] at hs
        obtain rfl := Option.some.inj hs
        change rest.length + healthy + (down + 1) + removed = total + added
        omega
  | counting healthy read rest =>
    cases rest with
    | nil =>
      obtain rfl := Option.some.inj hs
      refine ⟨(Nat.zero_add _).symm, ?_⟩
      rw [List.countP_nil, Nat.zero_add]
      exact h
    | cons t rest =>
      obtain rfl := Option.some.inj hs
      have hmeets : Meets dropped (read.countP s.healthy) healthy := h
      change Meets dropped ((read ++ [t]).countP s.healthy) _
      rw [List.countP_append, List.countP_singleton]
      by_cases hup : s.healthy t
      · rw [if_pos hup, if_pos hup]
        exact hmeets.succ
      · rw [if_neg hup, if_neg hup]
        exact hmeets
  -- A flag that drops between the two reads of a transport may be counted as healthy and then
  -- listed as down; the invariant says by how much the two may differ.
  | listing all healthy tunnels rest =>
    obtain ⟨hlength, hmeets⟩ := h
    cases rest with
    | nil =>
      obtain rfl := Option.some.inj hs
      obtain rfl : dropped = false := hG
      have heq : tunnels.countP (·.healthy) = healthy := hmeets
      refine ⟨?_, hlength, heq.symm⟩
      change healthy ≤ all.length
      rw [← heq, hlength]
      exact List.countP_le_length
    | cons t rest =>
      obtain rfl := Option.some.inj hs
      refine ⟨?_, ?_⟩
      · rw [hlength, List.length_append, List.length_cons, List.length_singleton]
        omega
      · rw [List.countP_cons, ← Nat.add_assoc] at hmeets
        rw [List.countP_append, List.countP_singleton, Nat.add_right_comm]
        exact hmeets
  | returned r => exact absurd hs (by simp [Call.step])

/-- A call that was disturbed returns what is not consistent, if it has found no transport
    down. -/
theorem Call.Inv.not_consistent (h : c.Inv s) (hs : c.step id label protocol s = some c')
    (hdown : c'.down = 0) (hG : ¬c.Undisturbed) :
    ∃ r, c'.phase = .returned r ∧ ¬r.Consistent := by
  obtain ⟨phase, added, removed, down, dropped⟩ := c
  cases phase with
  | checking total healthy rest =>
    cases rest with
    | nil =>
      obtain rfl := Option.some.inj hs
      obtain rfl : down = 0 := hdown
      have hcount : 0 + healthy + 0 + removed = total + added := h
      have hgt : ¬added ≤ removed := hG
      -- No transport was found down, so all that were listed count as healthy, and they are
      -- more than the total.
      refine ⟨_, rfl, fun hle : healthy ≤ total => ?_⟩
      omega
    | cons t rest => exact absurd trivial hG
  | listing all healthy tunnels rest =>
    cases rest with
    | nil =>
      obtain rfl := Option.some.inj hs
      -- The flag that dropped was counted, and is not shown.
      obtain rfl : dropped = true := by simpa using (show ¬dropped = false from hG)
      have hlt : tunnels.countP (·.healthy) < healthy := h.2
      exact ⟨_, rfl, fun hr => absurd hr.2.2 hlt.ne'⟩
    | cons t rest => exact absurd trivial hG
  | _ => exact absurd trivial hG

end

/-! ## What comes between the reads -/

section

variable {s : World τ} {c : Call τ}

/-- The calls account for what is written to the pool. -/
theorem Call.Inv.onWrite (h : c.Inv s) {pool : Pool τ} {added removed : ℕ}
    (hlen : pool.len + removed = s.pool.len + added) :
    (c.onWrite added removed).Inv { s with pool := pool } := by
  obtain ⟨phase, a, r, down, dropped⟩ := c
  cases phase with
  | counted total =>
    obtain ⟨hcount, hdown⟩ := h
    refine ⟨?_, hdown⟩
    change pool.len + (r + removed) = total + (a + added)
    change s.pool.len + r = total + a at hcount
    omega
  | _ => exact h

variable [DecidableEq τ] {t : τ}

/-- A flag that drops takes all occurrences of the transport with it. -/
theorem countP_update (hup : s.healthy t = true) (l : List τ) :
    l.countP (Function.update s.healthy t false) + l.count t = l.countP s.healthy := by
  induction l with
  | nil => rfl
  | cons u l ih =>
    by_cases hut : u = t
    · subst hut
      simp [hup]
      omega
    · simp [List.countP_cons, hut]
      omega

/-- So does a listing that is between its two reads of it. -/
theorem Meets.onDrop {dropped : Bool} {l : List τ} {k healthy : ℕ}
    (h : Meets dropped (k + l.countP s.healthy) healthy) (hup : s.healthy t = true) :
    Meets (dropped || decide (t ∈ l)) (k + l.countP (Function.update s.healthy t false))
      healthy := by
  have hcount := countP_update hup l
  by_cases ht : t ∈ l
  · have hpos := List.count_pos_iff.2 ht
    have hle : k + l.countP s.healthy ≤ healthy := by
      cases dropped
      · exact le_of_eq h
      · exact le_of_lt h
    rw [decide_eq_true ht, Bool.or_true]
    change _ < healthy
    omega
  · rw [List.count_eq_zero_of_not_mem ht, Nat.add_zero] at hcount
    rw [decide_eq_false ht, Bool.or_false, hcount]
    exact h

/-- A flag that drops keeps the invariant: a listing that is between its two reads of it has
    been disturbed. -/
theorem Call.Inv.onDrop (h : c.Inv s) (hup : s.healthy t = true) :
    (c.onDrop t).Inv { s with healthy := Function.update s.healthy t false } := by
  obtain ⟨phase, added, removed, down, dropped⟩ := c
  cases phase with
  | called kind =>
    obtain ⟨hadded, hremoved, hdown, rfl⟩ := h
    exact ⟨hadded, hremoved, hdown, rfl⟩
  | counted total => exact h
  | checking total healthy rest => exact h
  | counting healthy read rest =>
    have hmeets : Meets dropped (0 + read.countP s.healthy) healthy := (Nat.zero_add _).symm ▸ h
    have hdrop := hmeets.onDrop hup
    rw [Nat.zero_add] at hdrop
    exact hdrop
  | listing all healthy tunnels rest => exact ⟨h.1, Meets.onDrop h.2 hup⟩
  | returned r => exact h

end

/-! ## Runs -/

section

variable [DecidableEq τ] {id label protocol : τ → Text} {s s' : World τ} {e : Event τ}

/-- The invariant: that of all calls. -/
def World.Inv (s : World τ) : Prop := ∀ c ∈ s.calls, c.Inv s

omit [DecidableEq τ] in
/-- What has been returned accounts for all transports, so it is consistent. -/
theorem World.consistent_of_inv (h : s.Inv) : s.Consistent := by
  rintro c hc r hphase
  have hinv := h c hc
  rw [Call.Inv, hphase] at hinv
  exact hinv

/-- Every event keeps the invariant, unless it lets a call return that was disturbed. -/
theorem World.Inv.step (h : s.Inv) (hs : s.step id label protocol e = some s')
    (hG : s.Undisturbed e) : s'.Inv := by
  cases e with
  | add t =>
    obtain rfl := Option.some.inj hs
    refine List.forall_mem_map.2 fun c hc => (h c hc).onWrite ?_
    exact List.length_append
  | remove i =>
    obtain rfl := Option.some.inj hs
    refine List.forall_mem_map.2 fun c hc => (h c hc).onWrite ?_
    have hle : (s.pool.remove id i).1.len ≤ s.pool.len := List.length_filter_le ..
    exact Nat.add_sub_of_le hle
  | close t =>
    obtain rfl := Option.some.inj hs
    by_cases hup : s.healthy t
    · change ∀ c ∈ (if s.healthy t then _ else _), _
      rw [if_pos hup]
      exact List.forall_mem_map.2 fun c hc => (h c hc).onDrop hup
    · -- The flag was down before.
      have hsame : Function.update s.healthy t false = s.healthy := by
        rw [← Bool.eq_false_iff.2 hup, Function.update_eq_self]
      change ∀ c ∈ (if s.healthy t then _ else _), _
      rw [if_neg hup, hsame]
      exact h
  | call kind =>
    obtain rfl := Option.some.inj hs
    intro c hc
    rcases List.mem_append.1 hc with hc | hc
    · exact h c hc
    · obtain rfl := List.mem_singleton.1 hc
      exact ⟨rfl, rfl, rfl, rfl⟩
  | step k =>
    rw [World.step] at hs
    split at hs
    · exact absurd hs (by simp)
    · next c hk =>
      obtain ⟨c', hc', rfl⟩ := Option.map_eq_some_iff.1 hs
      intro d hd
      rcases List.mem_or_eq_of_mem_set hd with hd | rfl
      · exact h d hd
      · exact (h c (List.mem_of_getElem? hk)).step hc' (hG c hk)

/-- An event that lets a disturbed call return leads to a response that is not consistent,
    unless a health check has found a transport down. -/
theorem World.Inv.not_consistent (h : s.Inv) (hs : s.step id label protocol e = some s')
    (hG : ¬s.Undisturbed e) : ¬(s'.Consistent ∧ s'.FoundUp) := by
  rintro ⟨hcons, hup⟩
  cases e with
  | step k =>
    obtain ⟨c, hk, hc⟩ : ∃ c, s.calls[k]? = some c ∧ ¬c.Undisturbed := by
      simpa [World.Undisturbed] using hG
    rw [World.step, hk] at hs
    obtain ⟨c', hc', rfl⟩ := Option.map_eq_some_iff.1 hs
    have hmem : c' ∈ s.calls.set k c' := List.mem_set (List.getElem?_eq_some_iff.1 hk).1 c'
    obtain ⟨r, hphase, hr⟩ :=
      (h c (List.mem_of_getElem? hk)).not_consistent hc' (hup c' hmem) hc
    exact hr (hcons c' hmem r hphase)
  | _ => exact hG trivial

omit [DecidableEq τ] in
/-- There are no calls at first. -/
theorem World.inv_start (pool : Pool τ) (healthy : τ → Bool) : (World.start pool healthy).Inv :=
  fun _ hc => absurd hc List.not_mem_nil

end

/-- Whatever the pool and the health flags at first: in every run in which no call returns that
    was disturbed, all responses are consistent. Between the steps of a call, flags may drop,
    and the pool may be changed, as long as it does not grow while a health check reads it, and
    no flag drops while a listing is made. -/
theorem consistent_of_eachStep [DecidableEq τ] (id label protocol : τ → Text) (pool : Pool τ)
    (healthy : τ → Bool) (es : List (Event τ))
    (h : Run.EachStep (World.step id label protocol) World.Undisturbed (.start pool healthy) es) :
    Run.Always (World.step id label protocol) World.Consistent (.start pool healthy) es :=
  (Run.always_of_eachStep (fun _ _ _ hinv hs hG => hinv.step hs hG) (World.inv_start pool healthy)
    h).mono fun _ => World.consistent_of_inv

/-- A health check that has counted one transport, before it was taken out and another one
    came. -/
def replacedBetween : List (Event Unit) :=
  [.call .healthCheck, .step 0, .remove [], .add (), .step 0, .step 0, .step 0]

/-- It is consistent still. -/
theorem consistent_replacedBetween : Run.Always (World.step (fun _ => []) (fun _ => []) fun _ => [])
    World.Consistent (.start ⟨[()]⟩ fun _ => true) replacedBetween :=
  consistent_of_eachStep _ _ _ _ _ _ (by decide)

/-- Where no health check finds a transport down, no call has returned that was disturbed, if
    all responses are consistent. -/
theorem eachStep_of_consistent [DecidableEq τ] (id label protocol : τ → Text) (pool : Pool τ)
    (healthy : τ → Bool) (es : List (Event τ))
    (h : Run.Always (World.step id label protocol) (fun s => s.Consistent ∧ s.FoundUp)
      (.start pool healthy) es) :
    Run.EachStep (World.step id label protocol) World.Undisturbed (.start pool healthy) es :=
  Run.eachStep_of_always (fun _ _ _ hinv hs hG => hinv.step hs hG)
    (fun _ _ _ hinv hs hG => hinv.not_consistent hs hG) (World.inv_start pool healthy) h

/-- A transport is closed after a listing has counted it, and before it is shown. -/
def closedBetween : List (Event Unit) :=
  [.call .poolStatus, .step 0, .step 0, .step 0, .close (), .step 0, .step 0]

/-- The listing says that there is one healthy transport, and shows none. -/
theorem not_consistent_closed : ¬∀ (pool : Pool Unit) (healthy : Unit → Bool)
    (es : List (Event Unit)), Run.Always (World.step (fun _ => []) (fun _ => []) fun _ => [])
      World.Consistent (.start pool healthy) es := by
  intro h
  have hlast := (h ⟨[()]⟩ (fun _ => true) closedBetween).last rfl
  have hshown := (hlast _ List.mem_cons_self _ rfl).2.2
  exact absurd hshown (by decide)

/-! ## Calls that nothing comes between -/

section

variable (id label protocol : τ → Text) (healthy : τ → Bool)

/-- The entry of a transport, with its health flag as it is. -/
def entry (t : τ) : TunnelEntry := ⟨id t, label t, protocol t, healthy t⟩

/-- The listing of a pool that nothing changes meanwhile. -/
def poolResponse (p : Pool τ) : PoolResponse where
  total := p.all.length
  healthy := p.all.countP healthy
  tunnels := p.all.map (entry id label protocol healthy)

/-- The health check of such a pool. -/
def healthCheck (p : Pool τ) : HealthCheck where
  status := "ok".toList
  version := version
  tunnelsTotal := p.len
  tunnelsHealthy := p.all.countP healthy

/-- A call runs to `c'`, with the pool and the flags as they are. -/
def Call.Runs (s : World τ) : Call τ → Call τ → Prop :=
  Relation.ReflTransGen fun c c' => c.step id label protocol s = some c'

/-- One step more, at the front. -/
theorem Call.Runs.head {id label protocol : τ → Text} {s : World τ} {c c' c'' : Call τ}
    (h : c.step id label protocol s = some c')
    (hrun : Runs id label protocol s c' c'') : Runs id label protocol s c c'' :=
  Relation.ReflTransGen.head h hrun

variable (s : World τ)

/-- A health check counts those that are up, one after the other. -/
theorem Call.runs_checking (total h : ℕ) (rest : List τ) (c : Call τ) :
    ∃ down, Runs id label protocol s { c with phase := .checking total h rest }
      { c with phase := .checking total (h + rest.countP s.healthy) [], down := down } := by
  induction rest generalizing h c with
  | nil => exact ⟨c.down, .refl⟩
  | cons t rest ih =>
    by_cases hup : s.healthy t
    · obtain ⟨down, hrun⟩ := ih (h + 1) c
      rw [List.countP_cons_of_pos hup, Nat.add_comm _ 1, ← Nat.add_assoc]
      exact ⟨down, .head (if_pos hup) hrun⟩
    · obtain ⟨down, hrun⟩ := ih h { c with down := c.down + 1 }
      rw [List.countP_cons_of_neg hup]
      exact ⟨down, .head (if_neg hup) hrun⟩

/-- So does a listing, in its first pass. -/
theorem Call.runs_counting (h : ℕ) (read rest : List τ) (c : Call τ) :
    Runs id label protocol s { c with phase := .counting h read rest }
      { c with phase := .counting (h + rest.countP s.healthy) (read ++ rest) [] } := by
  induction rest generalizing h read with
  | nil =>
    rw [List.append_nil]
    exact .refl
  | cons t rest ih =>
    have hrun := ih (if s.healthy t then h + 1 else h) (read ++ [t])
    have hcount : (if s.healthy t then h + 1 else h) + rest.countP s.healthy =
        h + (t :: rest).countP s.healthy := by
      rw [List.countP_cons]
      split_ifs <;> omega
    rw [List.append_assoc, List.singleton_append, hcount] at hrun
    exact .head rfl hrun

/-- In its second pass it shows them. -/
theorem Call.runs_listing (all : List τ) (h : ℕ) (tunnels : List TunnelEntry) (rest : List τ)
    (c : Call τ) : Runs id label protocol s { c with phase := .listing all h tunnels rest }
      { c with phase :=
        .listing all h (tunnels ++ rest.map (entry id label protocol s.healthy)) [] } := by
  induction rest generalizing tunnels with
  | nil =>
    rw [List.map_nil, List.append_nil]
    exact .refl
  | cons t rest ih =>
    have hrun := ih (tunnels ++ [entry id label protocol s.healthy t])
    rw [List.append_assoc, List.singleton_append] at hrun
    exact .head rfl hrun

/-- A listing that nothing comes between returns that of the pool. -/
theorem Call.runs_poolStatus (c : Call τ) : Runs id label protocol s
    { c with phase := .called .poolStatus }
    { c with phase := .returned (.pool (poolResponse id label protocol s.healthy s.pool)) } := by
  have hcounting : Runs id label protocol s { c with phase := .called .poolStatus }
      { c with phase := .counting (s.pool.all.countP s.healthy) s.pool.all [] } := by
    have hrun := runs_counting id label protocol s 0 [] s.pool.all c
    rw [Nat.zero_add] at hrun
    exact .head rfl hrun
  have hlisting := runs_listing id label protocol s s.pool.all
    (s.pool.all.countP s.healthy) [] s.pool.all c
  exact hcounting.trans (.head rfl (hlisting.trans (.head rfl .refl)))

/-- So does a health check. -/
theorem Call.runs_healthCheck (c : Call τ) : ∃ down, Runs id label protocol s
    { c with phase := .called .healthCheck }
    { c with phase := .returned (.health (healthCheck s.healthy s.pool)), down := down } := by
  obtain ⟨down, hrun⟩ := runs_checking id label protocol s s.pool.len 0 s.pool.all c
  rw [Nat.zero_add] at hrun
  exact ⟨down, .head rfl (.head rfl (hrun.trans (.head rfl .refl)))⟩

end

end Status

end Houdinny
