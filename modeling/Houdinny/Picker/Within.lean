import Houdinny.Proxy.Connections

/-!
# What picks return

Health flags only drop, and the pool grows only by what is added to it. So picks return what
was in the pool and up at some time, or was added since. This is stated once, for a property
`Q` of transports and for flags `up` that the flags never exceed:

* `Pick.Within`: all that a pick has kept is in `Q` and was up, and all that it has still to
  read is in `Q`;
* `World.Within`: so is the pool, what waits to be added to it, and every pick, other than
  picks that have begun before, which are left out by their index.

Every event keeps it if what is added is in `Q` (`World.Within.step`), and so does every run
of the proxy server, where the connections then go through such transports only
(`within_of_run`, `connects_within`). `Houdinny.Startup.Serving` takes for `Q` what was built
at startup, and `Houdinny.Mcp.Revocation` what does not have a given identifier.
-/

namespace Houdinny

namespace Picker

open Router

variable {w : ℕ} {τ : Type} {Q : τ → Prop} {up : τ → Bool} {old : ℕ → Prop}

/-- What the pick has still to read is in `Q`, and what it has kept was up, too. -/
def Pick.Within (Q : τ → Prop) (up : τ → Bool) (p : Pick τ) : Prop :=
  match p.phase with
  | .called => True
  | .reading kept rest => (∀ t ∈ kept, Q t ∧ up t = true) ∧ ∀ t ∈ rest, Q t
  | .routing c => c.Sound fun t => Q t ∧ up t = true

/-- The pool stays within `Q`, and the flags below `up`; so do the picks, other than those
    with an index in `old`. -/
structure World.Within (Q : τ → Prop) (up : τ → Bool) (old : ℕ → Prop) (s : World w τ) :
    Prop where
  pool : ∀ t ∈ s.pool.transports, Q t
  writers : ∀ t, .add t ∈ s.writers → Q t
  healthy : ∀ t, s.healthy t = true → up t = true
  picks : ∀ i p, s.picks[i]? = some p → old i ∨ p.Within Q up

variable {s s' : World w τ}

/-- A pick reads from the pool, and keeps what is up at the time. -/
theorem Pick.Within.step {p p' : Pick τ} {draw : ℕ} {r : Router w} (h : p.Within Q up)
    (hpool : ∀ t ∈ s.pool.transports, Q t) (hhealthy : ∀ t, s.healthy t = true → up t = true)
    (hs : p.step s draw = some (r, p')) : p'.Within Q up := by
  obtain ⟨closedBefore, snapshot, phase⟩ := p
  cases phase with
  | called =>
    rw [Pick.step] at hs
    split_ifs at hs
    · obtain ⟨-, rfl⟩ := Prod.mk.inj (Option.some.inj hs)
      exact ⟨fun t ht => absurd ht List.not_mem_nil, hpool⟩
    · obtain ⟨-, rfl⟩ := Prod.mk.inj (Option.some.inj hs)
      exact fun t ht => absurd ht List.not_mem_nil
  | reading kept rest =>
    cases rest with
    | cons t rest =>
      obtain ⟨-, rfl⟩ := Prod.mk.inj (Option.some.inj hs)
      refine ⟨fun u hu => ?_, fun u hu => h.2 u (List.mem_cons_of_mem _ hu)⟩
      rcases mem_of_mem_keep hu with hu | ⟨hup, rfl⟩
      · exact h.1 u hu
      · exact ⟨h.2 u List.mem_cons_self, hhealthy u hup⟩
    -- The guard is given back, and the router gets what was kept.
    | nil =>
      obtain ⟨-, rfl⟩ := Prod.mk.inj (Option.some.inj hs)
      exact fun t ht => h.1 t ht
  | routing c =>
    obtain ⟨⟨r', c'⟩, hc, heq⟩ := Option.map_eq_some_iff.1 hs
    obtain ⟨-, rfl⟩ := Prod.mk.inj heq
    exact (Call.Sound.step h hc).1

/-- A pick returns what it is within. -/
theorem Pick.Within.result {p : Pick τ} (h : p.Within Q up) {t : τ} (hp : p.result = some (.ok t)) :
    Q t ∧ up t = true := by
  obtain ⟨kept, index, hphase⟩ := Pick.result_eq_some.1 hp
  rw [Pick.Within, hphase] at h
  exact h.2 t h.1

variable [DecidableEq τ] {id : τ → Text}

/-- A flag that drops is below all that it was below before. -/
theorem World.Within.of_drop (h : s.Within Q up old) (t : τ) {closing : List τ} :
    World.Within Q up old
      { s with healthy := Function.update s.healthy t false, closing := closing } := by
  refine ⟨h.pool, h.writers, fun u hu => h.healthy u ?_, h.picks⟩
  by_cases hut : u = t
  · subst hut
    exact absurd hu (by simp)
  · exact (Function.update_of_ne hut ..).symm.trans hu

/-- Every event keeps the pool within `Q`, if what is added is. -/
theorem World.Within.step (h : s.Within Q up old) {e : Event τ} (hs : s.step id e = some s')
    (hadd : ∀ t, e = .write (.add t) → Q t) : s'.Within Q up old := by
  cases e with
  | write op =>
    obtain rfl := Option.some.inj hs
    refine ⟨h.pool, fun t ht => ?_, h.healthy, h.picks⟩
    rcases List.mem_append.1 ht with ht | ht
    · exact h.writers t ht
    · exact hadd t (congrArg _ (List.mem_singleton.1 ht).symm)
  -- The first of those waiting writes: what it adds has been in `Q` since it began to wait.
  | written =>
    rw [World.step] at hs
    split at hs
    · exact absurd hs (by simp)
    · next op writers hwriters =>
      split_ifs at hs
      obtain rfl := Option.some.inj hs
      have hrest : ∀ t, .add t ∈ writers → Q t := fun t ht =>
        h.writers t (hwriters ▸ List.mem_cons_of_mem _ ht)
      refine ⟨fun t ht => ?_, hrest, h.healthy, h.picks⟩
      cases op with
      | add u =>
        rcases List.mem_append.1 ht with ht | ht
        · exact h.pool t ht
        · obtain rfl := List.mem_singleton.1 ht
          exact h.writers t (hwriters ▸ List.mem_cons_self)
      | remove i => exact h.pool t (List.mem_of_mem_filter ht)
  -- Flags drop, so they stay within `up`.
  | drop t =>
    obtain rfl := Option.some.inj hs
    exact h.of_drop t
  | close t =>
    obtain rfl := Option.some.inj hs
    exact h.of_drop t
  | closed t =>
    rw [World.step] at hs
    split_ifs at hs
    obtain rfl := Option.some.inj hs
    exact ⟨h.pool, h.writers, h.healthy, h.picks⟩
  | call =>
    obtain rfl := Option.some.inj hs
    refine ⟨h.pool, h.writers, h.healthy, fun i p hp => ?_⟩
    rw [List.getElem?_append] at hp
    split_ifs at hp
    · exact h.picks i p hp
    · exact .inr (List.mem_singleton.1 (List.mem_of_getElem? hp) ▸ trivial)
  -- Only the pick that takes the step changes.
  | step k draw =>
    rw [World.step] at hs
    split at hs
    · exact absurd hs (by simp)
    · next p hk =>
      obtain ⟨⟨r, p'⟩, hp', rfl⟩ := Option.map_eq_some_iff.1 hs
      refine ⟨h.pool, h.writers, h.healthy, fun i q hq => ?_⟩
      rw [List.getElem?_set] at hq
      split_ifs at hq with hki
      · obtain rfl := hki
        obtain rfl := Option.some.inj hq
        exact (h.picks k p hk).imp_right fun hp => hp.step h.pool h.healthy hp'
      · exact h.picks i q hq

end Picker

namespace Proxy.ProxyServer

variable {w : ℕ} {τ : Type} [DecidableEq τ] {id : τ → Text} {casing : Text.CaseMapping}
  {envs : ℕ → Env τ} {Q : τ → Prop} {up : τ → Bool} {old : ℕ → Prop} {r : Router w}
  {s s' : ProxyServer w τ}

/-- The pool of the server stays within `Q` in every run, if what is added is. -/
theorem within_of_run {es : List (Event τ)} (h : s.core.Within Q up old)
    (hadded : ∀ t ∈ added es, Q t)
    (hrun : Run.run (ProxyServer.step id casing envs) s es = some s') :
    s'.core.Within Q up old := by
  have hstep : ∀ (s : ProxyServer w τ), ∀ e ∈ es, ∀ s', s.core.Within Q up old →
      s.step id casing envs e = some s' → s'.core.Within Q up old := by
    intro s e he s' hs hs'
    rcases core_of_step hs' with hcore | ⟨e', he', hcore⟩
    · exact hcore ▸ hs
    · refine hs.step he' fun t ht => hadded t (List.mem_filterMap.2 ⟨e, he, ?_⟩)
      rcases hcore with rfl | rfl
      · rw [ht]
        rfl
      · exact absurd ht (by simp)
  exact Run.run_inv (P := fun s : ProxyServer w τ => s.core.Within Q up old) hstep h hrun

omit [DecidableEq τ] in
/-- So do its connections, other than those with an old pick. -/
theorem Inv.connects_within (h : s.Inv casing envs r) (hwithin : s.core.Within Q up old)
    {c : Conn τ} (hc : c ∈ s.conns) {q : τ × Text × UInt16}
    (hq : q ∈ c.server.session.connects) :
    ∃ i, c.pick = some i ∧ (old i ∨ Q q.1 ∧ up q.1 = true) := by
  obtain ⟨k, hk⟩ := List.getElem?_of_mem hc
  have hconn := h.conns k c hk
  obtain ⟨i, p, hpick, hp, hresult⟩ := hconn.result _ (hconn.result_of_mem_connects hq)
  exact ⟨i, hpick, (hwithin.picks i p hp).imp_right fun hp => hp.result hresult⟩

end Proxy.ProxyServer

end Houdinny
