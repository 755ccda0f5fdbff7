import Houdinny.Proxy.Connections
import Houdinny.Router.Fairness

/-!
# Balance

While the pool and the health flags stay as they are, the picks of a proxy are, for its
router, callers that pick from the healthy transports of the pool (`World.callers_of_step`).
So round robin spreads the connections evenly, whatever the order of their steps: the numbers
of connections through two transports differ by one at most, and by those that still wait
for their pick (`ProxyServer.balanced_of_run`).

The fairness is that of `Router.Fairness`, and this module is a refinement down to it.
`Pick.atRouter` is a pick as a caller, and `World.callers` are all of them: a pick that still
filters the pool is a caller that has not begun, and one that filters in the router reads
flags which are all up. Then the callers of a run of the server are those of a run of the
router (`exists_callers_run`), the connections through a transport are counted by the indices
that the callers have taken (`countP_index`), and the numbers of those differ by one at most
(`Inv.taken_le`).
-/

namespace Houdinny

namespace Router.Callers

variable {w : ℕ} {α : Type} {healthy : α → Bool} {ts : List α} {c : BitVec w} {s : Callers w α}

/-- Also while picks are in progress, no index is taken more often than others. -/
theorem Inv.taken_le (h : Inv healthy ts c s) (hwrap : c.toNat + s.calls.length ≤ 2 ^ w)
    {i j : ℕ} (hi : i < (healthyTransports healthy ts).length)
    (hj : j < (healthyTransports healthy ts).length) : s.taken i ≤ s.taken j + 1 := by
  have htaken : ∀ i, s.taken i = ((List.range (s.calls.filterMap Call.index).length).map
      (ticket c (healthyTransports healthy ts).length)).count i := by
    intro i
    rw [← h.tickets.count_eq, List.count_filterMap]
    exact List.countP_congr fun call _ => by rw [decide_eq_true_iff, beq_iff_eq]
  have hle : (s.calls.filterMap Call.index).length ≤ s.calls.length := List.length_filterMap_le ..
  have hcount {i : ℕ} (hi : i < (healthyTransports healthy ts).length) := count_ticket hi
    ((Nat.add_le_add_left hle c.toNat).trans hwrap)
  have hi := hcount hi
  have hj := hcount hj
  rw [htaken, htaken]
  split_ifs at hi hj <;> omega

end Router.Callers

namespace Picker

open Router

variable {w : ℕ} {τ : Type}

/-- A pick as the router sees it, which filters the transports `H`: it has not begun while
    the pool is filtered. -/
def Pick.atRouter (H : List τ) (p : Pick τ) : Call τ :=
  match p.phase with
  | .routing c => c
  | _ => .filtering [] H

/-- The picks as the router sees them. -/
def World.callers (H : List τ) (s : World w τ) : Callers w τ :=
  ⟨s.router, s.picks.map (Pick.atRouter H)⟩

/-- The pool and the flags are still those at the start, and what the picks keep is healthy. -/
structure World.Calm (ts : List τ) (healthy : τ → Bool) (s : World w τ) : Prop where
  pool : s.pool.transports = ts
  writers : s.writers = []
  flags : s.healthy = healthy
  reading : ∀ p ∈ s.picks, ∀ kept rest, p.phase = .reading kept rest →
    kept ++ healthyTransports healthy rest = healthyTransports healthy ts

/-- Nothing happens to the pool and to the transports. -/
def Event.Calm : Event τ → Prop
  | .call | .step .. => True
  | _ => False

instance : DecidablePred (Event.Calm (τ := τ))
  | .call | .step .. => .isTrue trivial
  | .write _ | .written | .drop _ | .close _ | .closed _ => .isFalse id

variable {ts : List τ} {healthy : τ → Bool} {s s' : World w τ}

/-- A step of a pick is one of a caller, or is not seen by the router. -/
theorem Pick.atRouter_of_step (h : s.Calm ts healthy) {p p' : Pick τ} {draw : ℕ} {r : Router w}
    (hp : p ∈ s.picks) (hs : p.step s draw = some (r, p')) :
    (∀ kept rest, p'.phase = .reading kept rest →
      kept ++ healthyTransports healthy rest = healthyTransports healthy ts) ∧
    ((r = s.router ∧ p'.atRouter (healthyTransports healthy ts) =
        p.atRouter (healthyTransports healthy ts)) ∨
      (p.atRouter (healthyTransports healthy ts)).step healthy draw s.router =
        some (r, p'.atRouter (healthyTransports healthy ts))) := by
  have hreading := h.reading p hp
  obtain ⟨closedBefore, snapshot, phase⟩ := p
  cases phase with
  | called =>
    rw [Pick.step, h.writers] at hs
    obtain ⟨rfl, rfl⟩ := Prod.mk.inj (Option.some.inj hs)
    refine ⟨fun kept rest hphase => ?_, .inl ⟨rfl, rfl⟩⟩
    obtain ⟨rfl, rfl⟩ := Phase.reading.inj hphase
    rw [h.pool, List.nil_append]
  -- While the pick filters the pool, the router has not seen it; what is kept and what is still
  -- to be read are the healthy transports.
  | reading kept rest =>
    have hkept := hreading kept rest rfl
    cases rest with
    | cons t rest =>
      obtain ⟨rfl, rfl⟩ := Prod.mk.inj (Option.some.inj hs)
      refine ⟨fun kept' rest' hphase => ?_, .inl ⟨rfl, rfl⟩⟩
      obtain ⟨rfl, rfl⟩ := Phase.reading.inj hphase
      rw [h.flags, ← hkept, healthyTransports, healthyTransports, List.filter_cons]
      split_ifs
      · rw [List.append_assoc, List.singleton_append]
      · rfl
    | nil =>
      obtain ⟨rfl, rfl⟩ := Prod.mk.inj (Option.some.inj hs)
      refine ⟨fun _ _ hphase => absurd hphase (by simp), .inl ⟨rfl, ?_⟩⟩
      exact congrArg (Call.filtering []) ((List.append_nil kept).symm.trans hkept)
  -- From here on a step of the pick is one of the call in the router.
  | routing c =>
    obtain ⟨⟨r', c'⟩, hc, heq⟩ := Option.map_eq_some_iff.1 hs
    obtain ⟨rfl, rfl⟩ := Prod.mk.inj heq
    exact ⟨fun _ _ hphase => absurd hphase (by simp), .inr (h.flags ▸ hc)⟩

/-- A step of the picker is one of the callers of its router, or is not seen there. -/
theorem World.callers_of_step [DecidableEq τ] {id : τ → Text} {e : Event τ}
    (h : s.Calm ts healthy) (he : e.Calm) (hs : s.step id e = some s') : s'.Calm ts healthy ∧
      (s'.callers (healthyTransports healthy ts) = s.callers (healthyTransports healthy ts) ∨
        ∃ e', (s.callers (healthyTransports healthy ts)).step healthy
          (healthyTransports healthy ts) e' =
            some (s'.callers (healthyTransports healthy ts))) := by
  cases e with
  -- A new pick is a new caller.
  | call =>
    obtain rfl := Option.some.inj hs
    refine ⟨⟨h.pool, h.writers, h.flags, fun p hp => ?_⟩, .inr ⟨.call, ?_⟩⟩
    · rcases List.mem_append.1 hp with hp | hp
      · exact h.reading p hp
      · obtain rfl := List.mem_singleton.1 hp
        exact fun _ _ hphase => absurd hphase (by simp)
    · rw [World.callers, World.callers, List.map_append]
      rfl
  | step k draw =>
    rw [World.step] at hs
    split at hs
    · exact absurd hs (by simp)
    · next p hk =>
      obtain ⟨⟨r, p'⟩, hp', rfl⟩ := Option.map_eq_some_iff.1 hs
      obtain ⟨hreading, hrouter⟩ := Pick.atRouter_of_step h (List.mem_of_getElem? hk) hp'
      have hcall : (s.picks.map (Pick.atRouter (healthyTransports healthy ts)))[k]? =
          some (p.atRouter (healthyTransports healthy ts)) := by
        rw [List.getElem?_map, hk, Option.map_some]
      refine ⟨⟨h.pool, h.writers, h.flags, fun q hq => ?_⟩, ?_⟩
      · rcases List.mem_or_eq_of_mem_set hq with hq | rfl
        · exact h.reading q hq
        · exact hreading
      rw [World.callers, World.callers, List.map_set]
      rcases hrouter with ⟨rfl, hsame⟩ | hstep
      · refine .inl ?_
        obtain ⟨hlt, hget⟩ := List.getElem?_eq_some_iff.1 hcall
        rw [hsame, ← hget, List.set_getElem_self]
      · refine .inr ⟨.step k draw, ?_⟩
        rw [Callers.step, hcall]
        dsimp only
        rw [hstep]
        rfl
  | _ => exact he.elim

/-- What a pick has returned is the entry of its index. -/
theorem World.index_of_result {H : List τ} {c : BitVec w}
    (h : Callers.Inv healthy H c (s.callers H)) {p : Pick τ} (hp : p ∈ s.picks)
    {result : Except Error τ} (hresult : p.result = some result) : ∃ i t,
      (p.atRouter H).index = some i ∧ (healthyTransports healthy H)[i]? = some t ∧
        result = .ok t := by
  obtain ⟨kept, index, hphase⟩ := Pick.result_eq_some.1 hresult
  have hrouter : p.atRouter H = .returned kept index result := by rw [Pick.atRouter, hphase]
  obtain ⟨-, i, t, rfl, ht, rfl⟩ := hrouter ▸ h.sound _ (List.mem_map_of_mem hp)
  exact ⟨i, t, by rw [hrouter]; rfl, ht, rfl⟩

end Picker

namespace Proxy

open Router

variable {w : ℕ} {τ : Type}

/-- The connection goes through this transport. -/
def Conn.through [DecidableEq τ] (t : τ) (c : Conn τ) : Bool :=
  c.server.session.connects.any (·.1 = t)

/-- It waits for its pick. -/
def Conn.waits (c : Conn τ) : Bool := c.pick.isSome && c.result.isNone

namespace ProxyServer

/-- Nothing happens to the pool and to the transports. -/
def Event.Calm : Event τ → Prop
  | .core e => e.Calm
  | _ => True

instance : DecidablePred (Event.Calm (τ := τ))
  | .core e => inferInstanceAs (Decidable e.Calm)
  | .accept | .on .. | .call _ | .picked _ => .isTrue trivial

variable [DecidableEq τ] {id : τ → Text} {casing : Text.CaseMapping} {envs : ℕ → Env τ}
  {pool : Pool τ} {healthy : τ → Bool} {c : BitVec w} {s : ProxyServer w τ}
  {es : List (Event τ)}

/-- The router sees callers that pick from the healthy transports. -/
theorem exists_callers_run (hcalm : ∀ e ∈ es, e.Calm)
    (hrun : Run.run (ProxyServer.step id casing envs) (start pool healthy (.roundRobin c)) es =
      some s) :
    ∃ es', Run.run (Callers.step healthy (healthyTransports healthy pool.transports))
      ⟨.roundRobin c, []⟩ es' =
        some (s.core.callers (healthyTransports healthy pool.transports)) := by
  have hstart : (start pool healthy (.roundRobin c)).core.Calm pool.transports healthy :=
    ⟨rfl, rfl, rfl, fun p hp => absurd hp List.not_mem_nil⟩
  have hstep : ∀ (s : ProxyServer w τ), ∀ e ∈ es, ∀ s',
      s.core.Calm pool.transports healthy → s.step id casing envs e = some s' →
        s'.core.Calm pool.transports healthy ∧
          (s'.core.callers (healthyTransports healthy pool.transports) =
              s.core.callers (healthyTransports healthy pool.transports) ∨
            ∃ e', (s.core.callers (healthyTransports healthy pool.transports)).step healthy
              (healthyTransports healthy pool.transports) e' =
                some (s'.core.callers (healthyTransports healthy pool.transports))) := by
    intro s e he s' hs hs'
    -- A step of the proxy is one of its picks, or none of the picker's business.
    rcases core_of_step hs' with hcore | ⟨e', he', hcore⟩
    · rw [hcore]
      exact ⟨hs, .inl rfl⟩
    · refine Picker.World.callers_of_step hs ?_ he'
      rcases hcore with rfl | rfl
      · exact hcalm _ he
      · trivial
  exact Run.exists_run_of_simulates
    (P := fun s : ProxyServer w τ => s.core.Calm pool.transports healthy) hstep hstart hrun

section

variable {r : Router w} {H : List τ} (hinv : s.Inv casing envs r)
  (hcallers : Callers.Inv healthy H c (s.core.callers H))

include hinv

omit [DecidableEq τ] in
/-- There are as many connections whose pick has taken an index as there are such callers. -/
theorem countP_index (i : ℕ) : s.conns.countP (fun c => c.pick.any fun n => s.core.picks[n]?.any
    fun p => (p.atRouter H).index = some i) = (s.core.callers H).taken i := by
  rw [hinv.countP_pick, Callers.taken, Picker.World.callers, List.countP_map]
  rfl

include hcallers

/-- Those that go through a transport have taken its index. -/
theorem countP_through_le (hnodup : (healthyTransports healthy H).Nodup) {i : ℕ}
    (hi : i < (healthyTransports healthy H).length) :
    s.conns.countP (Conn.through (healthyTransports healthy H)[i]) ≤
      (s.core.callers H).taken i := by
  rw [← countP_index hinv]
  refine List.countP_mono_left fun c hc hthrough => ?_
  obtain ⟨k, hk⟩ := List.getElem?_of_mem hc
  have hconn := hinv.conns k c hk
  obtain ⟨q, hq, heq⟩ := List.any_eq_true.1 hthrough
  obtain ⟨n, p, hpick, hp, hresult⟩ := hconn.result _ (hconn.result_of_mem_connects hq)
  obtain ⟨j, t, hindex, hj, hok⟩ :=
    Picker.World.index_of_result hcallers (List.mem_of_getElem? hp) hresult
  obtain ⟨hj, rfl⟩ := List.getElem?_eq_some_iff.1 hj
  have hji : j = i :=
    hnodup.getElem_inj_iff.1 ((Except.ok.inj hok).symm.trans (of_decide_eq_true heq))
  rw [hpick, Option.any_some, hp, Option.any_some, hindex, hji, decide_eq_true_iff]

/-- Those that have taken its index go through it, or wait for their pick to return it. -/
theorem taken_le_countP {i : ℕ} (hi : i < (healthyTransports healthy H).length) :
    (s.core.callers H).taken i ≤
      s.conns.countP (Conn.through (healthyTransports healthy H)[i]) +
        s.conns.countP Conn.waits := by
  rw [← countP_index hinv, List.countP_eq_countP_filter_add _ _
    (Conn.through (healthyTransports healthy H)[i])]
  refine Nat.add_le_add ?_ ?_
  · rw [List.countP_eq_length_filter (p := Conn.through _)]
    exact List.countP_le_length
  · -- Those that do not go through the transport have taken its index without a result yet: a
    -- result would be the entry of the index.
    refine le_trans (List.countP_mono_left fun c hc hindex => ?_)
      (List.filter_sublist.countP_le (p := Conn.waits))
    obtain ⟨hc, hthrough⟩ := List.mem_filter.1 hc
    obtain ⟨n, hpick, hn⟩ := (Option.any_eq_true ..).1 hindex
    obtain ⟨p, hp, hindex⟩ := (Option.any_eq_true ..).1 hn
    obtain ⟨k, hk⟩ := List.getElem?_of_mem hc
    have hconn := hinv.conns k c hk
    rcases hresult : c.result with _ | result
    · rw [Conn.waits, hpick, hresult]
      rfl
    · obtain ⟨n', p', hpick', hp', hresult'⟩ := hconn.result result hresult
      obtain rfl := Option.some.inj (hpick.symm.trans hpick')
      obtain rfl := Option.some.inj (hp.symm.trans hp')
      obtain ⟨j, t, hj, ht, rfl⟩ :=
        Picker.World.index_of_result hcallers (List.mem_of_getElem? hp) hresult'
      obtain rfl := Option.some.inj ((of_decide_eq_true hindex).symm.trans hj)
      obtain ⟨_, rfl⟩ := List.getElem?_eq_some_iff.1 ht
      obtain ⟨q, hq, heq⟩ := List.mem_map.1 (hconn.made _ hresult)
      have hyes : c.through (healthyTransports healthy H)[i] = true :=
        List.any_eq_true.2 ⟨q, hq, decide_eq_true heq⟩
      rw [hyes] at hthrough
      exact absurd hthrough (by decide)

end

/-- While the pool and the flags stay as they are, round robin spreads the connections evenly,
    as long as the counter does not wrap. -/
theorem balanced_of_run (hnodup : pool.transports.Nodup) (hcalm : ∀ e ∈ es, e.Calm)
    (hrun : Run.run (ProxyServer.step id casing envs) (start pool healthy (.roundRobin c)) es =
      some s) (hwrap : c.toNat + s.conns.length ≤ 2 ^ w) {t u : τ}
    (ht : t ∈ healthyTransports healthy pool.transports)
    (hu : u ∈ healthyTransports healthy pool.transports) :
    s.conns.countP (Conn.through t) ≤
      s.conns.countP (Conn.through u) + s.conns.countP Conn.waits + 1 := by
  have hinv : s.Inv casing envs (.roundRobin c) :=
    Run.run_inv (fun s _ _ s' hs hs' => hs.step hs') (inv_start _ _ _) hrun
  obtain ⟨es', hes'⟩ := exists_callers_run hcalm hrun
  -- The router filters once more what the picker has filtered already.
  have hself : healthyTransports healthy (healthyTransports healthy pool.transports) =
      healthyTransports healthy pool.transports := by
    rw [healthyTransports, healthyTransports, List.filter_filter]
    simp
  generalize hH : healthyTransports healthy pool.transports = H at *
  have hnodupH : H.Nodup := hH ▸ hnodup.filter _
  rw [← hself] at ht hu hnodupH
  obtain ⟨i, hi, rfl⟩ := List.getElem_of_mem ht
  obtain ⟨j, hj, rfl⟩ := List.getElem_of_mem hu
  have hcallers := Callers.inv_of_run (Nat.zero_lt_of_lt hi) hes'
  have hlen : (s.core.callers H).calls.length ≤ s.conns.length := by
    rw [Picker.World.callers, List.length_map, ← List.length_range (n := s.core.picks.length),
      ← hinv.own.length_eq]
    exact List.length_filterMap_le ..
  -- The numbers of connections are compared with the numbers of indices taken.
  calc s.conns.countP (Conn.through (healthyTransports healthy H)[i])
      ≤ (s.core.callers H).taken i := countP_through_le hinv hcallers hnodupH hi
    _ ≤ (s.core.callers H).taken j + 1 := hcallers.taken_le (by omega) hi hj
    _ ≤ s.conns.countP (Conn.through (healthyTransports healthy H)[j]) +
        s.conns.countP Conn.waits + 1 := Nat.succ_le_succ (taken_le_countP hinv hcallers hj)

/-- Three connections, the first of which has its pick last. -/
def spreadEvents : List (Event ℕ) :=
  askEvents 0 ++ askEvents 1 ++ askEvents 2 ++ List.replicate 8 (.core (.step 1 0)) ++
    [.picked 1] ++ List.replicate 8 (.core (.step 2 0)) ++ [.picked 2] ++
    List.replicate 8 (.core (.step 0 0))

/-- One goes through either of two transports, and the third still waits for its pick. -/
theorem balanced_spreadEvents : ∃ s : ProxyServer 64 ℕ,
    Run.run (ProxyServer.step (fun _ => []) .ascii fun _ => quietEnv)
      (start ⟨[0, 1]⟩ (fun _ => true) (.roundRobin 0)) spreadEvents = some s ∧
    s.conns.map (fun c => c.server.session.connects.map Prod.fst) = [[], [0], [1]] ∧
    s.conns.countP (Conn.through 0) ≤
      s.conns.countP (Conn.through 1) + s.conns.countP Conn.waits + 1 := by
  have hthrough : (Run.run (ProxyServer.step (w := 64) (fun _ => []) .ascii fun _ => quietEnv)
      (start ⟨[0, 1]⟩ (fun _ => true) (.roundRobin 0)) spreadEvents).map (fun s =>
        s.conns.map fun c => c.server.session.connects.map Prod.fst) =
      some [[], [0], [1]] := by decide +kernel
  obtain ⟨s, hs, hmap⟩ := Option.map_eq_some_iff.1 hthrough
  have hlen : s.conns.length = 3 := by
    have hlength := congrArg List.length hmap
    rwa [List.length_map] at hlength
  exact ⟨s, hs, hmap, balanced_of_run (by decide) (by decide) hs (by rw [hlen]; decide)
    (by decide) (by decide)⟩

end ProxyServer

end Proxy

end Houdinny
