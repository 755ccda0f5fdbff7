import Houdinny.Picker.Within
import Houdinny.Proxy.Connections
import Houdinny.Startup.Health

/-!
# Serving

The proxy that `main` runs: its connections share the pool of the transports that were built
of the configuration. Nobody provisions a transport any more, so health flags only drop.
Whatever happens in a run, a connection goes through a transport that was added to the pool
while it ran, or that was built of a tunnel that needs no provisioning
(`ProxyServer.connects_of_run`).

A transport may be in the pool twice, with a flag of its own each time, so the pool has the
transports with their numbers (`Served`). What picks return is known from `Picker.Within`,
for any property of transports that those of the pool and those added have; here it is that
they were built of a tunnel, or added.
-/

namespace Houdinny

/-! ## The proxy -/

/-- The transports of the pool, with their numbers: the flag of each is its own. -/
abbrev Served := Transport × ℕ

/-- The proxy, as it is started: with the transports of the configuration. -/
def startServer (w : ℕ) (f : Features) (torClient : ℕ → Except Text Unit) (config : Config) :
    Proxy.ProxyServer w Served :=
  .start (.new (buildTransports f torClient config.tunnel).zipIdx) (fun t => t.1.healthy)
    (config.proxy.strategy.buildRouter w)

/-- The identifier of a transport. -/
def Served.id (t : Served) : Text := t.1.id

namespace Proxy.ProxyServer

variable {w : ℕ} {f : Features} {torClient : ℕ → Except Text Unit} {config : Config}
  {casing : Text.CaseMapping} {envs : ℕ → Env Served} {es : List (Event Served)}
  {s : ProxyServer w Served}

/-- The transports of the connections were in the pool at first, and up, or were added. -/
theorem mem_of_mem_connects
    (hrun : Run.run (ProxyServer.step Served.id casing envs) (startServer w f torClient config) es =
      some s)
    {c : Conn Served} (hc : c ∈ s.conns) {q : Served × Text × UInt16}
    (hq : q ∈ c.server.session.connects) : q.1 ∈ added es ∨
      q.1.1 ∈ buildTransports f torClient config.tunnel ∧ q.1.1.healthy = true := by
  -- The pool only ever has what was built, and what was added.
  let Q (t : Served) : Prop := t ∈ (buildTransports f torClient config.tunnel).zipIdx ∨ t ∈ added es
  have hstart : (startServer w f torClient config).core.Within Q (fun t => t.1.healthy)
      fun _ => False :=
    { pool := fun t ht => .inl ht
      writers := fun t ht => absurd ht List.not_mem_nil
      healthy := fun t ht => ht
      picks := fun i p hp => absurd hp (by simp [startServer, start, Picker.World.start]) }
  have hinv : s.Inv casing envs (config.proxy.strategy.buildRouter w) :=
    Run.run_inv (fun s _ _ s' hs hs' => hs.step hs') (inv_start _ _ _) hrun
  obtain ⟨i, -, hold | ⟨hmem | hadded, hhealthy⟩⟩ :=
    hinv.connects_within (within_of_run hstart (fun t ht => .inr ht) hrun) hc hq
  · exact hold.elim
  · exact .inr ⟨List.mem_of_getElem? (List.mem_zipIdx_iff_getElem?.1 hmem), hhealthy⟩
  · exact .inl hadded

/-- In every run of the proxy, a connection goes through a transport that was added while it
    ran, or that was built of a tunnel that needs no provisioning. -/
theorem connects_of_run
    (hrun : Run.run (ProxyServer.step Served.id casing envs) (startServer w f torClient config) es =
      some s)
    {c : Conn Served} (hc : c ∈ s.conns) {q : Served × Text × UInt16}
    (hq : q ∈ c.server.session.connects) : q.1 ∈ added es ∨
      ∃ p ∈ config.tunnel.zipIdx, p.1.StartsHealthy f (torClient p.2) ∧
        Built f (torClient p.2) p.1 q.1.1 := by
  refine (mem_of_mem_connects hrun hc hq).imp_right fun ⟨hmem, hhealthy⟩ => ?_
  obtain ⟨tunnel, htunnel, hbuild⟩ := List.mem_flatMap.1 hmem
  have hbuilt := TunnelConfig.mem_buildTransport.1 hbuild
  exact ⟨tunnel, htunnel, ⟨TunnelConfig.usable_of_built hbuilt, hbuilt.healthy_iff.1 hhealthy⟩,
    hbuilt⟩

/-- A CONNECT request, up to the call of `connect`. -/
def connectEvents : List (Event Served) :=
  askEvents 0 ++ List.replicate 5 (.core (.step 0 0)) ++ [.picked 0]

/-- The tunnel of a SOCKS5 proxy. -/
def socksConfig : Config := .fromTunnelUrls ["socks5://127.0.0.1:1080".toList]

/-- It goes through the tunnel of the configuration. -/
theorem connects_connectEvents : ∃ (s : ProxyServer 64 Served) (c : Conn Served)
    (q : Served × Text × UInt16),
    Run.run (ProxyServer.step Served.id .ascii fun _ => quietEnv)
      (startServer 64 allFeatures (fun _ => .ok ()) socksConfig) connectEvents = some s ∧
    c ∈ s.conns ∧ q ∈ c.server.session.connects ∧ (q.1 ∈ added connectEvents ∨
      ∃ p ∈ socksConfig.tunnel.zipIdx, p.1.StartsHealthy allFeatures (.ok ()) ∧
        Built allFeatures (.ok ()) p.1 q.1.1) := by
  have hconnects : (Run.run (ProxyServer.step Served.id .ascii fun _ => quietEnv)
      (startServer 64 allFeatures (fun _ => .ok ()) socksConfig) connectEvents).map
        (fun s => (s.conns.flatMap fun c => c.server.session.connects).map Prod.snd) =
      some [("a".toList, 1)] := by decide +kernel
  obtain ⟨s, hs, hmap⟩ := Option.map_eq_some_iff.1 hconnects
  have hmem : ("a".toList, (1 : UInt16)) ∈
      (s.conns.flatMap fun c => c.server.session.connects).map Prod.snd := by
    rw [hmap]
    exact List.mem_singleton_self _
  obtain ⟨q, hq, -⟩ := List.mem_map.1 hmem
  obtain ⟨c, hc, hq⟩ := List.mem_flatMap.1 hq
  exact ⟨s, c, q, hs, hc, hq, connects_of_run hs hc hq⟩

end Proxy.ProxyServer

end Houdinny
