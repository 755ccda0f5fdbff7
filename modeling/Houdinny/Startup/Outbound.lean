import Houdinny.Startup.Serving
import Houdinny.Transport.Calls

/-!
# What goes out

The proxy itself neither looks up the name of a destination nor connects to it: in every run,
whatever the network does, each call that a connection makes is to the proxy of a tunnel of
the configuration, or to the Tor network (`ProxyServer.outbound_of_run`).

`TunnelConfig.Toward` says what such a call is, by protocol, in terms of the tunnel as it is
configured: the address of an HTTP proxy is the one of its URL, without the credentials, or
the bare one. A WireGuard tunnel has no case in it, as its transport does nothing before it is
provisioned, which nobody does after startup.

The result joins three others: through which transports connections go (`Startup.Serving`),
of which tunnel these were built (`Built`), and what calls a transport makes
(`Transport.Calls`).
-/

namespace Houdinny

open Text Program

/-- A call to where the tunnel is. -/
inductive TunnelConfig.Toward {σ : Type} (tunnel : TunnelConfig) (addr : Text) (port : UInt16) :
    Call σ → Prop
  | socks5 {proxy : Text} : tunnel.protocol = "socks5".toList → tunnel.address = some proxy →
    Toward tunnel addr port (.socksConnect proxy addr port)
  /-- The proxy is the one in the URL that the address is. -/
  | httpUrl {address : Text} {transport : HttpProxyTransport} :
    tunnel.protocol = "http-proxy".toList → tunnel.address = some address →
    TunnelConfig.isUrl address = true →
    HttpProxyTransport.fromUrl address tunnel.labelOr = .ok transport →
    Toward tunnel addr port (.tcpConnect transport.proxyAddr)
  /-- Without a scheme, the address is that of the proxy. -/
  | httpBare {address : Text} : tunnel.protocol = "http-proxy".toList →
    tunnel.address = some address → TunnelConfig.isUrl address = false →
    Toward tunnel addr port (.tcpConnect address)
  | tor : tunnel.protocol = "tor".toList → Toward tunnel addr port (.torConnect addr port)

/-! ## One call -/

section

variable {σ : Type} {f : Features} {torClient : Except Text Unit} {tunnel : TunnelConfig}
  {t : Transport} {platform : Platform} {addr : Text} {port : UInt16} {calls : Calls σ}
  {c : Call σ}

/-- A transport that is healthy from the start only calls where its tunnel is. -/
theorem Built.toward (hbuilt : Built f torClient tunnel t) (hhealthy : t.healthy = true)
    (h : Permitted platform addr port t calls c) : tunnel.Toward addr port c := by
  cases hbuilt with
  | socks5 hp _ ha =>
    cases h
    exact .socks5 hp ha
  | wireguard => exact absurd hhealthy (by simp [Transport.healthy, WireGuardTransport.new])
  | httpUrl hp ha hurl hok =>
    cases h
    exact .httpUrl hp ha hurl hok
  | httpBare hp ha hurl =>
    cases h
    exact .httpBare hp ha hurl
  | sentinel => exact absurd hhealthy (by simp [Transport.healthy, SentinelTransport.new])
  | tor hp =>
    cases h
    exact .tor hp

end

/-! ## Every call -/

namespace Proxy.ProxyServer

variable {w : ℕ} {f : Features} {torClient : ℕ → Except Text Unit} {config : Config}
  {casing : Text.CaseMapping} {envs : ℕ → Env Served} {es : List (Event Served)}
  {s : ProxyServer w Served}

/-- In every run of the proxy, whatever the network does, the calls by which a connection is
    made are to where a tunnel of the configuration is, unless it is made through a transport
    that was added. -/
theorem outbound_of_run
    (hrun : Run.run (ProxyServer.step Served.id casing envs) (startServer w f torClient config) es =
      some s)
    {c : Conn Served} (hc : c ∈ s.conns) {q : Served × Text × UInt16}
    (hq : q ∈ c.server.session.connects) {σ : Type} (sys : System σ) : q.1 ∈ added es ∨
      ∃ tunnel ∈ config.tunnel, ∀ call ∈ (q.1.1.connect sys q.2.1 q.2.2 []).2,
        tunnel.Toward q.2.1 q.2.2 call.1 := by
  refine (mem_of_mem_connects hrun hc hq).imp_right fun ⟨hmem, hhealthy⟩ => ?_
  obtain ⟨p, hp, hbuild⟩ := List.mem_flatMap.1 hmem
  refine ⟨p.1, List.fst_mem_of_mem_zipIdx hp, fun call hcall => ?_⟩
  obtain ⟨before, after, hsplit⟩ := List.append_of_mem hcall
  have hconfined := Transport.ensures_connect q.1.1 sys q.2.1 q.2.2 [] ⟨obeys_nil, trivial⟩
  exact (TunnelConfig.mem_buildTransport.1 hbuild).toward hhealthy
    (hconfined.obeys before call.1 call.2 after hsplit)

/-- A network where nobody answers. -/
def silent : System Unit where
  platform := .linux
  answers := fun _ => fun
    | .pathExists _ => false
    | .ifNameToIndex _ => .error []
    | .toSocketAddrs _ => .error []
    | .socket _ => .error []
    | .bindDevice .. => .error []
    | .boundIf .. => false
    | .lastOsError => []
    | .setNonblocking _ => .error []
    | .connect .. => .failed []
    | .fromStd _ => .error []
    | .writable _ => .error []
    | .takeError _ => .error []
    | .socksConnect .. => .error []
    | .tcpConnect _ => .error []
    | .torBootstrap => .error []
    | .torConnect .. => .error []
  writeAll _ s := (.error [], s)
  readU8 s := (.error [], s)
  base64 := id

/-- A connection is made through the tunnel of the configuration. -/
theorem outbound_connectEvents : ∃ (s : ProxyServer 64 Served) (c : Conn Served)
    (q : Served × Text × UInt16),
    Run.run (ProxyServer.step Served.id .ascii fun _ => quietEnv)
      (startServer 64 allFeatures (fun _ => .ok ()) socksConfig) connectEvents = some s ∧
    c ∈ s.conns ∧ q ∈ c.server.session.connects ∧ (q.1 ∈ added connectEvents ∨
      ∃ tunnel ∈ socksConfig.tunnel, ∀ call ∈ (q.1.1.connect silent q.2.1 q.2.2 []).2,
        tunnel.Toward q.2.1 q.2.2 call.1) := by
  have hconnects : (Run.run (ProxyServer.step Served.id .ascii fun _ => quietEnv)
      (startServer 64 allFeatures (fun _ => .ok ()) socksConfig) connectEvents).any
        (fun s => s.conns.any fun c => !c.server.session.connects.isEmpty) = true := by
    decide +kernel
  obtain ⟨s, hrun, hany⟩ := (Option.any_eq_true _ _).1 hconnects
  obtain ⟨c, hc, hne⟩ := List.any_eq_true.1 hany
  obtain ⟨q, hq⟩ := List.exists_mem_of_ne_nil c.server.session.connects (by simpa using hne)
  exact ⟨s, c, q, hrun, hc, hq, outbound_of_run hrun hc hq silent⟩

end Proxy.ProxyServer

end Houdinny
