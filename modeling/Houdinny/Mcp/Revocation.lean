import Houdinny.Mcp.Removal
import Houdinny.Picker.Within

/-!
# Revoking tunnels

The MCP server shares its pool with the proxy. Once it has removed a tunnel, and for as long
as no other with its identifier is added, no pick returns it that had not looked at the pool
before. So the connections that still go through it are some of those whose pick was under
way at that time, and had it in its copy of the pool:

* `Revoked`: no tunnel with the identifier is in the pool, or waits to be added; and a
  connection goes through one only if its pick is among those that were there at the removal,
  and had seen the tunnel (`World.Seen`);
* `revoked_of_run`: every run keeps this, in which no tunnel with the identifier is added
  again;
* `revoked_of_removes`: a valid request of `pool_remove`, at its turn at the pool, brings it
  about, and replies so. No request adds tunnels.

A pick looks at the pool once (`Pick.Seen.step`), so that what it had seen at the removal is
what it will have seen ever after: that is what makes the exception to the revocation one that
shrinks.
-/

namespace Houdinny

namespace Picker

variable {w : ℕ} {τ : Type}

/-- The pick has looked at the pool, and seen these transports there. -/
def Pick.Seen (snapshot : List τ) (p : Pick τ) : Prop := p.phase ≠ .called ∧ p.snapshot = snapshot

variable {snapshot : List τ} {s s' : World w τ}

/-- A pick looks at the pool once. -/
theorem Pick.Seen.step {p p' : Pick τ} {draw : ℕ} {r : Router w} (h : p.Seen snapshot)
    (hs : p.step s draw = some (r, p')) : p'.Seen snapshot := by
  obtain ⟨closedBefore, _, phase⟩ := p
  obtain ⟨hphase, rfl⟩ := h
  cases phase with
  | called => exact absurd rfl hphase
  | reading kept rest =>
    cases rest with
    | cons t rest =>
      obtain ⟨-, rfl⟩ := Prod.mk.inj (Option.some.inj hs)
      exact ⟨by simp, rfl⟩
    | nil =>
      obtain ⟨-, rfl⟩ := Prod.mk.inj (Option.some.inj hs)
      exact ⟨by simp, rfl⟩
  | routing c =>
    obtain ⟨⟨r', c'⟩, hc, heq⟩ := Option.map_eq_some_iff.1 hs
    obtain ⟨-, rfl⟩ := Prod.mk.inj heq
    exact ⟨by simp, rfl⟩

/-- The pick with this index has seen these transports. -/
def World.Seen (snapshot : List τ) (i : ℕ) (s : World w τ) : Prop :=
  ∃ p, s.picks[i]? = some p ∧ p.Seen snapshot

/-- What a pick has seen, it has seen after any event. -/
theorem World.Seen.step [DecidableEq τ] {id : τ → Text} {e : Event τ} {i : ℕ}
    (h : s.Seen snapshot i) (hs : s.step id e = some s') : s'.Seen snapshot i := by
  obtain ⟨p, hi, hp⟩ := h
  rcases picks_of_step hs with ⟨-, _, hpicks⟩ | ⟨-, hpicks⟩ | ⟨k, _, q, _, q', -, hk, hq, hpicks⟩
  · exact ⟨p, by rw [hpicks, List.getElem?_append_left (List.getElem?_eq_some_iff.1 hi).1, hi], hp⟩
  · exact ⟨p, by rw [hpicks, hi], hp⟩
  · by_cases hki : k = i
    · subst hki
      obtain rfl := Option.some.inj (hk.symm.trans hi)
      have hlt := (List.getElem?_eq_some_iff.1 hi).1
      exact ⟨q', by rw [hpicks, List.getElem?_set_self hlt], hp.step hq⟩
    · exact ⟨p, by rw [hpicks, List.getElem?_set_ne hki, hi], hp⟩

end Picker

namespace Proxy.ProxyServer

variable {w : ℕ} {τ : Type} [DecidableEq τ] {id : τ → Text} {casing : Text.CaseMapping}
  {envs : ℕ → Env τ} {s s' : ProxyServer w τ}

/-- So it is in every run of the server. -/
theorem seen_of_run {es : List (Event τ)} {snapshot : List τ} {i : ℕ}
    (h : s.core.Seen snapshot i)
    (hrun : Run.run (ProxyServer.step id casing envs) s es = some s') :
    s'.core.Seen snapshot i := by
  have hstep : ∀ (s : ProxyServer w τ), ∀ e ∈ es, ∀ s', s.core.Seen snapshot i →
      s.step id casing envs e = some s' → s'.core.Seen snapshot i := by
    intro s e _ s' hs hs'
    rcases core_of_step hs' with hcore | ⟨e', he', -⟩
    · exact hcore ▸ hs
    · exact hs.step he'
  exact Run.run_inv (P := fun s : ProxyServer w τ => s.core.Seen snapshot i) hstep h hrun

end Proxy.ProxyServer

namespace Mcp

open Text Json
open Proxy (ProxyServer Env)
open Proxy.ProxyServer (added askEvents quietEnv)

variable {ν τ : Type} {w : ℕ} {f : Format ν} {tr : Traits τ} {request x : Text}

/-- The tunnels with an identifier are revoked, the picks having been those of `before`. -/
structure Revoked (id : τ → Text) (x : Text) (before : Picker.World w τ) (s : ProxyServer w τ) :
    Prop where
  pool : ∀ t ∈ s.core.pool.transports, id t ≠ x
  /-- What goes through one of them was picked by who had seen it before. -/
  connects : ∀ c ∈ s.conns, ∀ q ∈ c.server.session.connects, id q.1 = x →
    ∃ i snapshot, c.pick = some i ∧ before.Seen snapshot i ∧ q.1 ∈ snapshot

variable [DecidableEq τ] {casing : CaseMapping} {envs : ℕ → Env τ} {r : Router w}
  {pool : Pool τ} {healthy : τ → Bool} {s₀ s₁ s : ProxyServer w τ}
  {es es' : List (ProxyServer.Event τ)} {ops : List (Picker.Write τ)}

omit [DecidableEq τ] in
/-- What a valid call of `pool_remove` does, and replies. -/
theorem handleRequest_of_removes {server : McpServer τ} (h : Removes f request x) :
    ∃ reply, handleRequest f tr server request =
      (⟨(server.pool.remove tr.id x).1⟩, f.print reply) ∧
        Tells reply (if ∃ t ∈ server.pool.transports, tr.id t = x then removedText x
          else notFoundText x) := by
  obtain ⟨id, hrespond⟩ := @respond_of_removes ν τ f tr server request x h
  refine ⟨_, by rw [handleRequest, hrespond], tells_toolResult.2 ?_⟩
  have hiff : (server.pool.remove tr.id x).2 = true ↔
      ∃ t ∈ server.pool.transports, tr.id t = x := by
    rw [remove_snd, ne_eq, Pool.remove, List.filter_eq_self]
    simp
  exact if_congr hiff rfl rfl

/-- What is gone remains so, but for what was seen before. -/
theorem revoked_of_run {id : τ → Text} (h₀ : s₀.Inv casing envs r)
    (hpool : ∀ t ∈ s₀.core.pool.transports, id t ≠ x)
    (hwriters : ∀ t, .add t ∈ s₀.core.writers → id t ≠ x) (hadded : ∀ t ∈ added es, id t ≠ x)
    (hrun : Run.run (ProxyServer.step id casing envs) s₀ es = some s) :
    Revoked id x s₀.core s := by
  have hinv : s.Inv casing envs r :=
    Run.run_inv (fun s _ _ s' hs hs' => hs.step hs') h₀ hrun
  have hwithin₀ : s₀.core.Within (id · ≠ x) (fun _ => true)
      fun i => ∃ snapshot, s₀.core.Seen snapshot i := by
    refine ⟨hpool, hwriters, fun _ _ => rfl, fun i p hi => ?_⟩
    -- A pick that has not taken its snapshot yet will take one without the tunnel; the others
    -- have theirs.
    by_cases hphase : p.phase = .called
    · refine .inr ?_
      rw [Picker.Pick.Within, hphase]
      trivial
    · exact .inl ⟨p.snapshot, p, hi, hphase, rfl⟩
  have hwithin := ProxyServer.within_of_run hwithin₀ hadded hrun
  refine ⟨hwithin.pool, fun c hc q hq hx => ?_⟩
  obtain ⟨i, hpick, ⟨snapshot, hseen⟩ | ⟨hne, -⟩⟩ := hinv.connects_within hwithin hc hq
  · refine ⟨i, snapshot, hpick, hseen, ?_⟩
    obtain ⟨p, hp, -, hsnapshot⟩ := ProxyServer.seen_of_run hseen hrun
    have hisolated : s.Isolated id casing envs r := hinv.isolated
    obtain ⟨i', p', hpick', hp', hmem, -⟩ := hisolated.live c hc q hq
    obtain rfl := Option.some.inj (hpick.symm.trans hpick')
    obtain rfl := Option.some.inj (hp.symm.trans hp')
    exact hsnapshot ▸ hmem
  · exact absurd hx hne

/-- Once `pool_remove` has had its turn, and has replied, the tunnels with its identifier are
    revoked, in every run that adds no other. -/
theorem revoked_of_removes (hrequest : Removes f request x)
    (hes : Run.run (ProxyServer.step tr.id casing envs) (.start pool healthy r) es = some s₀)
    (hturn : s₀.core.writers = .remove x :: ops)
    (hwritten : s₀.step tr.id casing envs (.core .written) = some s₁)
    (hops : ∀ t, .add t ∈ ops → tr.id t ≠ x) (hadded : ∀ t ∈ added es', tr.id t ≠ x)
    (hes' : Run.run (ProxyServer.step tr.id casing envs) s₁ es' = some s) :
    (∃ reply, handleRequest f tr ⟨s₀.core.pool⟩ request = (⟨s₁.core.pool⟩, f.print reply) ∧
      Tells reply (if ∃ t ∈ s₀.core.pool.transports, tr.id t = x then removedText x
        else notFoundText x)) ∧ Revoked tr.id x s₁.core s := by
  have hinv : s₁.Inv casing envs r := (Run.run_inv (fun s _ _ s' hs hs' => hs.step hs')
    (ProxyServer.inv_start pool healthy r) hes).step hwritten
  obtain ⟨-, hact⟩ := ProxyServer.step_eq_some hwritten
  obtain ⟨core, hcore, rfl⟩ := Option.map_eq_some_iff.1 hact
  rw [Picker.World.step, hturn] at hcore
  dsimp only at hcore
  split_ifs at hcore
  obtain rfl := Option.some.inj hcore
  refine ⟨handleRequest_of_removes hrequest, revoked_of_run hinv (fun t ht => ?_) hops hadded hes'⟩
  exact of_decide_eq_true (List.mem_filter.1 ht).2

/-! ### A tunnel that is removed under a pick -/

/-- `{"method":"tools/call","params":{"name":"pool_remove","arguments":{"id":"a"}}}` -/
def removeLine : Text :=
  ("\x7b\"method\":\"tools/call\",\"params\":\x7b\"name\":\"pool_remove\"," ++
    "\"arguments\":\x7b\"id\":\"a\"\x7d\x7d\x7d").toList

/-- A library, as far as this line is concerned. -/
def removeFormat : Format ℤ where
  parse s := if s = removeLine then
      some (object [("method".toList, string "tools/call".toList),
        ("params".toList, object [("name".toList, string "pool_remove".toList),
          ("arguments".toList, object [("id".toList, string "a".toList)])])])
    else none
  print _ := []
  ofInt n := n

/-- The line is a valid request. -/
theorem removes_removeLine : Removes removeFormat removeLine "a".toList :=
  ⟨_, _, _, rfl, rfl, rfl, rfl, rfl, rfl, rfl⟩

/-- Tunnels that are their identifiers. -/
def namedTraits : Traits Text := ⟨id, id, fun _ => [], fun _ => true⟩

/-- The first pick has seen the tunnel, and waits for the router. -/
def beforeRemoval : List (ProxyServer.Event Text) :=
  askEvents 0 ++ List.replicate 3 (.core (.step 0 0)) ++ [.core (.write (.remove "a".toList))]

/-- It goes on, and there is another. -/
def afterRemoval : List (ProxyServer.Event Text) :=
  List.replicate 2 (.core (.step 0 0)) ++ [.picked 0] ++ askEvents 1 ++
    List.replicate 3 (.core (.step 1 0)) ++ [.picked 1]

deriving instance DecidableEq for Picker.Write

/-- The first connection goes through the tunnel still, and the second does not. -/
theorem revoked_afterRemoval : ∃ s₀ s₁ s : ProxyServer 64 Text,
    Run.run (ProxyServer.step namedTraits.id .ascii fun _ => quietEnv)
      (.start ⟨["a".toList]⟩ namedTraits.healthy .random) beforeRemoval = some s₀ ∧
    s₀.step namedTraits.id .ascii (fun _ => quietEnv) (.core .written) = some s₁ ∧
    Run.run (ProxyServer.step namedTraits.id .ascii fun _ => quietEnv) s₁ afterRemoval = some s ∧
    s.conns.map (fun c => c.server.session.connects.map Prod.fst) = [["a".toList], []] ∧
    Revoked namedTraits.id "a".toList s₁.core s := by
  let step := ProxyServer.step (w := 64) namedTraits.id .ascii fun _ => quietEnv
  have hturn : (Run.run step (.start ⟨["a".toList]⟩ namedTraits.healthy .random)
      beforeRemoval).map (fun s => s.core.writers) = some [.remove "a".toList] := by decide +kernel
  have hconnects : (Run.run step (.start ⟨["a".toList]⟩ namedTraits.healthy .random)
      (beforeRemoval ++ .core .written :: afterRemoval)).map (fun s => s.conns.map fun c =>
        c.server.session.connects.map Prod.fst) = some [["a".toList], []] := by decide +kernel
  obtain ⟨s, hs, hthrough⟩ := Option.map_eq_some_iff.1 hconnects
  obtain ⟨s₀, hes, hs⟩ := Option.bind_eq_some_iff.1 ((Run.run_append ..).symm.trans hs)
  obtain ⟨s₁, hwritten, hes'⟩ := Option.bind_eq_some_iff.1 hs
  have hops : s₀.core.writers = [.remove "a".toList] := by
    rw [hes] at hturn
    exact Option.some.inj hturn
  exact ⟨s₀, s₁, s, hes, hwritten, hes', hthrough, (revoked_of_removes removes_removeLine hes hops
    hwritten (fun t ht => absurd ht List.not_mem_nil) (by decide) hes').2⟩

end Mcp

end Houdinny
