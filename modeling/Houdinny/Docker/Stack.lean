import Houdinny.Docker.Addresses
import Houdinny.Docker.Loads
import Houdinny.Docker.Start
import Houdinny.Startup.Serving
import Houdinny.Startup.Strategy

/-!
# The stack at work

From `houdinny start` to the traffic of the agents: where `start` succeeds, the proxy of its
stack gets the configuration that was written, puts a SOCKS5 transport for every VPN into its
pool, each with an identifier of its own, and in every run of it a connection goes through
one of these, to the address of a VPN's service in the compose file (`start_serves`).

This is for files that are loaded as they were meant: the strategy has one of the two names
of a configuration file, the names of the countries need no escapes, and none of them has the
start of a reference. `Container` is what joins the two programs: the container of the proxy
runs with the file that `start` has written.

* `loadConfig_stack` and `effectiveConfig_stack`: what the proxy loads, and runs with. It is
  not quite the file, as the command line of the container sets the strategy back to its
  default.
* `buildTransports_stack` and `nodup_ids`: the pool.
* `serves_stack`: the pool in a run, by what is known of connections in general
  (`ProxyServer.mem_of_mem_connects`).
-/

namespace Houdinny.Docker

open Text Toml

/-- The configuration that the proxy of a stack runs with. -/
def stackConfig (casing : CaseMapping) (countries : List Text) (port : UInt16) : Config where
  proxy := ⟨"0.0.0.0:".toList ++ ofNat port.toNat, .transparent, .random⟩
  docker := default
  tunnel := countries.zipIdx.map fun p => vpnTunnel casing (p.2 + 1) p.1

/-- The transport through the VPN number `n`. -/
def vpnTransport (casing : CaseMapping) (n : ℕ) (country : Text) : Transport :=
  .socks5 (.new (vpnAddress n ++ ":1080".toList) (vpnLabel casing n country))

/-- The container of the proxy, with the file that is mounted into it. -/
structure Container (os : Os) (files : Files) : Prop where
  present : os.pathExists "/etc/houdinny/tunnels.toml".toList = true
  mounted : (os.readFile "/etc/houdinny/tunnels.toml".toList).toOption = files.lookup tunnelsName

variable {crate : TomlCrate} {casing : CaseMapping} {countries : List Text} {strategy : Text}
  {port : UInt16} {v : Strategy} {os : Os} {w : ℕ} {f : Features}
  {torClient : ℕ → Except Text Unit}

/-! ## Startup -/

/-- What is generated is loaded as it was meant. -/
theorem parseToml_generateTunnelsConfig (port : UInt16) (hcrate : crate.Follows)
    (hcasing : casing.KeepsAscii) (hstrategy : Plain strategy)
    (hdecode : Strategy.decode (.string strategy) = some v)
    (hplain : ∀ country ∈ countries, Plain (trim country)) :
    Config.parseToml crate (generateTunnelsConfig casing countries strategy port) =
      .ok { stackConfig casing countries port with
        proxy := ⟨"0.0.0.0:".toList ++ ofNat port.toNat, .transparent, v⟩ } := by
  have hload := parseToml_blocks hcrate (lines_proxyDoc hstrategy port)
    (decode_proxyEntries hdecode) (fun p _ => describes_tunnelPairs casing (p.2 + 1) p.1)
    ((plain_tunnels hcasing).2 hplain)
  rwa [← generateTunnelsConfig_eq_append] at hload

/-- No reference begins in a file where a text is pasted between quotes exactly if none does in
    that text or in what follows, for none begins in the file before. -/
theorem unreferring_paste {front before pasted rest : Text} (hfront : '$' ∉ front)
    (hbefore : '$' ∉ before) :
    Unreferring (front ++ (before ++ pasted ++ "\"\n".toList) ++ rest) ↔
      Unreferring pasted ∧ Unreferring rest := by
  have hcut : front ++ (before ++ pasted ++ "\"\n".toList) ++ rest =
      (front ++ before) ++ (pasted ++ '"' :: ("\n".toList ++ rest)) := by
    rw [show "\"\n".toList = '"' :: "\n".toList from rfl]
    generalize "\n".toList = newline
    simp only [List.append_assoc, List.cons_append]
  rw [hcut, Unreferring, pair_infix_append_iff (List.not_mem_append hfront hbefore),
    pair_infix_append_cons_iff (by decide) (by decide), pair_infix_append_iff (by decide), not_or]
  rfl

/-- The label of a VPN ends in the name of its country. -/
theorem vpnLabel_eq_append (casing : CaseMapping) (n : ℕ) (country : Text) :
    vpnLabel casing n country =
      "vpn-".toList ++ ofNat n ++ "-".toList ++ resolveCountry casing country := rfl

/-- No reference begins in the block of a tunnel, unless one does in the country. -/
theorem unreferring_tunnel (n : ℕ) (country rest : Text) :
    Unreferring ("\n[[tunnel]]\nprotocol = \"socks5\"\n".toList ++
        ("address = \"".toList ++ vpnAddress n ++ ":1080\"\n".toList) ++
        ("label = \"".toList ++ vpnLabel casing n country ++ "\"\n".toList) ++ rest) ↔
      Unreferring (resolveCountry casing country) ∧ Unreferring rest := by
  -- Nothing but the country may have a dollar.
  have hdigits (n : ℕ) : '$' ∉ ofNat n := notMem_ofNat (by decide) n
  have hheader : '$' ∉ "\n[[tunnel]]\nprotocol = \"socks5\"\n".toList := by decide
  have haddress : '$' ∉ "address = \"".toList := by decide
  have hhost : '$' ∉ "172.20.0.".toList := by decide
  have hport : '$' ∉ ":1080\"\n".toList := by decide
  have hlabel : '$' ∉ "label = \"".toList := by decide
  have hvpn : '$' ∉ "vpn-".toList := by decide
  have hdash : '$' ∉ "-".toList := by decide
  have haddr : '$' ∉ vpnAddress n := List.not_mem_append hhost (hdigits _)
  have hfront := List.not_mem_append hheader
    (List.not_mem_append (List.not_mem_append haddress haddr) hport)
  have hbefore := List.not_mem_append hlabel
    (List.not_mem_append (List.not_mem_append hvpn (hdigits n)) hdash)
  rw [vpnLabel_eq_append, ← List.append_assoc "label = \"".toList]
  exact unreferring_paste hfront hbefore

/-- No reference begins in the configuration exactly if none does in what is pasted into it. -/
theorem unreferring_generateTunnelsConfig (casing : CaseMapping) (countries : List Text)
    (strategy : Text) (port : UInt16) :
    Unreferring (generateTunnelsConfig casing countries strategy port) ↔
      Unreferring strategy ∧
        ∀ country ∈ countries, Unreferring (resolveCountry casing country) := by
  -- The blocks are looked at one after another.
  have htunnels (l : List (Text × ℕ)) : Unreferring (l.flatMap fun p =>
      "\n[[tunnel]]\nprotocol = \"socks5\"\n".toList ++
        ("address = \"".toList ++ vpnAddress (p.2 + 1) ++ ":1080\"\n".toList) ++
        ("label = \"".toList ++ vpnLabel casing (p.2 + 1) p.1 ++ "\"\n".toList)) ↔
      ∀ p ∈ l, Unreferring (resolveCountry casing p.1) := by
    induction l with
    | nil => exact iff_of_true (by simp [Unreferring]) fun p hp => absurd hp List.not_mem_nil
    | cons p l ih =>
      rw [List.flatMap_cons, unreferring_tunnel, List.forall_mem_cons]
      exact and_congr_right' ih
  have hcountries : (∀ country ∈ countries, Unreferring (resolveCountry casing country)) ↔
      ∀ p ∈ countries.zipIdx, Unreferring (resolveCountry casing p.1) := by
    conv_lhs => rw [← List.zipIdx_map_fst 0 countries]
    exact List.forall_mem_map
  -- The lines before the tunnels have no dollar, but for the strategy.
  have hbanner : '$' ∉ '#' :: banner := by decide
  have hproxy : '$' ∉ "\n\n[proxy]\n".toList := by decide
  have hlisten : '$' ∉ "listen = \"0.0.0.0:".toList := by decide
  have hend : '$' ∉ "\"\n".toList := by decide
  have hmode : '$' ∉ "mode = \"transparent\"\n".toList := by decide
  have hname : '$' ∉ "strategy = \"".toList := by decide
  have hdigits : '$' ∉ ofNat port.toNat := notMem_ofNat (by decide) _
  have hfront := List.not_mem_append (List.not_mem_append (List.not_mem_append hbanner hproxy)
    (List.not_mem_append (List.not_mem_append hlisten hdigits) hend)) hmode
  rw [hcountries, ← htunnels]
  exact unreferring_paste hfront hname

/-- The proxy loads the file that was written, where no reference begins in it. -/
theorem loadConfig_stack {files : Files} (hos : Container os files)
    (hfiles : files.lookup tunnelsName =
      some (generateTunnelsConfig casing countries strategy port))
    (hreference : Unreferring (generateTunnelsConfig casing countries strategy port)) :
    loadConfig crate os containerCommand.cli =
      (Config.parseToml crate (generateTunnelsConfig casing countries strategy port)).mapError
        (.context ("failed to load config from ".toList ++
          "/etc/houdinny/tunnels.toml".toList)) := by
  have hread : os.readFile "/etc/houdinny/tunnels.toml".toList =
      .ok (generateTunnelsConfig casing countries strategy port) := by
    -- The file is mounted into the container, so reading it does not fail.
    have hmounted := hos.mounted.trans hfiles
    rcases hfile : os.readFile "/etc/houdinny/tunnels.toml".toList with e | content
    · rw [hfile] at hmounted
      exact absurd hmounted (by simp [Except.toOption])
    · rw [hfile] at hmounted
      exact congrArg _ (Option.some.inj hmounted)
  have hpath : effectivePath os containerCommand.cli.config = "/etc/houdinny/tunnels.toml".toList :=
    if_pos hos.present
  have hcli : containerCommand.cli.tunnels = none := rfl
  rw [loadConfig, hcli]
  dsimp only
  rw [hpath, Config.fromFile_of_readFile hread, resolveEnvVars_of_unreferring hreference]

/-- The proxy takes the strategy of its command line, not that of the file. -/
theorem effectiveConfig_stack {files : Files} (hos : Container os files)
    (hfiles : files.lookup tunnelsName =
      some (generateTunnelsConfig casing countries strategy port))
    (hreference : Unreferring (generateTunnelsConfig casing countries strategy port))
    (hload : Config.parseToml crate (generateTunnelsConfig casing countries strategy port) =
      .ok { stackConfig casing countries port with
        proxy := ⟨"0.0.0.0:".toList ++ ofNat port.toNat, .transparent, v⟩ }) :
    effectiveConfig casing crate os containerCommand.cli =
      .ok (stackConfig casing countries port) := by
  have hstrategy : containerCommand.cli.strategy = "random".toList := rfl
  have hlisten : containerCommand.cli.listen = none := rfl
  rw [effectiveConfig, loadConfig_stack hos hfiles hreference, hload]
  change overrideConfig casing containerCommand.cli _ = _
  rw [overrideConfig, hstrategy, fromName_random, hlisten]
  rfl

/-! ## The pool -/

/-- A SOCKS5 tunnel with an address and a label has one transport. -/
theorem buildTransport_socksTunnel (hf : f.socks5 = true) (address label : Text)
    (client : Except Text Unit) :
    (socksTunnel address label).buildTransport f client = [.socks5 (.new address label)] := by
  have hprotocol : (socksTunnel address label).protocol = "socks5".toList := rfl
  rw [TunnelConfig.buildTransport, if_pos hprotocol, TunnelConfig.buildSocks5, if_pos hf]
  rfl

/-- Of SOCKS5 tunnels, the transports are built in order. -/
theorem buildTransports_socks (hf : f.socks5 = true) (l : List (Text × Text)) :
    buildTransports f torClient (l.map fun p => socksTunnel p.1 p.2) =
      l.map fun p => .socks5 (.new p.1 p.2) := by
  have hbuild : (fun p : (Text × Text) × ℕ =>
      (socksTunnel p.1.1 p.1.2).buildTransport f (torClient p.2)) =
        fun p => [.socks5 (.new p.1.1 p.1.2)] :=
    funext fun p => buildTransport_socksTunnel hf _ _ _
  rw [buildTransports, List.zipIdx_map, List.flatMap_map]
  change l.zipIdx.flatMap (fun p => (socksTunnel p.1.1 p.1.2).buildTransport f (torClient p.2)) = _
  rw [hbuild, ← List.map_eq_flatMap]
  conv_rhs => rw [← List.zipIdx_map_fst 0 l, List.map_map]
  rfl

/-- The addresses and labels of the VPNs. -/
def vpnEndpoints (casing : CaseMapping) (countries : List Text) : List (Text × Text) :=
  countries.zipIdx.map fun p =>
    (vpnAddress (p.2 + 1) ++ ":1080".toList, vpnLabel casing (p.2 + 1) p.1)

/-- Each VPN has a transport. -/
theorem buildTransports_stack (casing : CaseMapping) (countries : List Text) (port : UInt16)
    (torClient : ℕ → Except Text Unit) (hf : f.socks5 = true) :
    buildTransports f torClient (stackConfig casing countries port).tunnel =
      countries.zipIdx.map fun p => vpnTransport casing (p.2 + 1) p.1 := by
  have htunnel : (stackConfig casing countries port).tunnel =
      (vpnEndpoints casing countries).map fun p => socksTunnel p.1 p.2 := by
    rw [vpnEndpoints, List.map_map]
    rfl
  rw [htunnel, buildTransports_socks hf, vpnEndpoints, List.map_map]
  rfl

/-- The number of a VPN is in the identifier of its transport. -/
theorem eq_of_id_vpnTransport {n n' : ℕ} {country country' : Text}
    (h : (vpnTransport casing n country).id = (vpnTransport casing n' country').id) : n = n' := by
  have hdash : ∀ k, '-' ∉ ofNat k := notMem_ofNat (by decide)
  have hlabel : "socks5-".toList ++ vpnLabel casing n country =
      "socks5-".toList ++ vpnLabel casing n' country' := h
  have hvpn (k : ℕ) (c : Text) :
      vpnLabel casing k c = "vpn-".toList ++ (ofNat k ++ '-' :: resolveCountry casing c) :=
    (vpnLabel_eq_append casing k c).trans
      ((List.append_assoc ("vpn-".toList ++ ofNat k) "-".toList _).trans (List.append_assoc ..))
  have hcut := List.append_cancel_left hlabel
  rw [hvpn, hvpn] at hcut
  exact ofNat_injective (cut_inj (hdash n) (hdash n') (List.append_cancel_left hcut)).1

/-- The transports of a stack have different identifiers. -/
theorem nodup_ids (casing : CaseMapping) (countries : List Text) :
    ((countries.zipIdx.map fun p => vpnTransport casing (p.2 + 1) p.1).map Transport.id).Nodup := by
  have hnodup : countries.zipIdx.Nodup := by
    refine List.Nodup.of_map Prod.snd ?_
    rw [List.zipIdx_map_snd]
    exact List.nodup_range'
  rw [List.map_map]
  refine hnodup.map_on fun p hp q hq hid => ?_
  have hnumber : p.2 = q.2 := Nat.succ_injective (eq_of_id_vpnTransport hid)
  refine Prod.ext (Option.some.inj ?_) hnumber
  rw [← List.mem_zipIdx_iff_getElem?.1 hp, ← List.mem_zipIdx_iff_getElem?.1 hq, hnumber]

/-! ## Traffic -/

/-- A stack that was brought up has a VPN. -/
theorem vpn_ne_nil_of_start {toYaml : ComposeFile → Text} {m : Machine} {cfg : DockerConfig}
    {tokenOverride : Option Text} {noWait : Bool}
    (h : (start toYaml casing m cfg tokenOverride port strategy noWait).result = some (.ok ())) :
    cfg.vpn ≠ [] := by
  intro hnil
  have hempty : cfg.vpn.isEmpty = true := by rw [hnil]; rfl
  rw [start, bringUp, if_pos hempty] at h
  exact absurd h (by simp only [Option.some.injEq, reduceCtorEq, not_false_eq_true])

/-- The proxy of a stack with these services starts, with a transport of its own for every
    VPN, and in every run a connection goes to the address of the service of one of them, or
    through a transport that was added since. -/
structure Serves (w : ℕ) (casing : CaseMapping) (f : Features) (torClient : ℕ → Except Text Unit)
    (config : Config) (services : Services) (vpns : ℕ) : Prop where
  starts : ∃ picker : Picker w, serve w f torClient config = .ok picker ∧
    picker.pool.transports.length = vpns ∧ (picker.pool.transports.map Transport.id).Nodup
  throughVpn : ∀ (envs : ℕ → Proxy.Env Served) (es : List (Proxy.ProxyServer.Event Served))
    (s : Proxy.ProxyServer w Served),
    Run.run (Proxy.ProxyServer.step Served.id casing envs) (startServer w f torClient config) es =
      some s →
    ∀ c ∈ s.conns, ∀ q ∈ c.server.session.connects, q.1 ∈ Proxy.ProxyServer.added es ∨
      ∃ n country service, services[vpnName n]? = some service ∧
        service.address = some (vpnAddress n) ∧ q.1.1 = vpnTransport casing n country

/-- A proxy that runs with the configuration of a stack serves through its VPNs. -/
theorem serves_stack (w : ℕ) (casing : CaseMapping) (port : UInt16)
    (torClient : ℕ → Except Text Unit) (hf : f.socks5 = true) (hne : countries ≠ []) :
    Serves w casing f torClient (stackConfig casing countries port)
      (composeFile casing countries port).services countries.length := by
  have hbuilt := buildTransports_stack casing countries port torClient hf
  have hlength : (buildTransports f torClient (stackConfig casing countries port).tunnel).length =
      countries.length := by
    rw [hbuilt, List.length_map, List.length_zipIdx]
  have hnonempty : (buildTransports f torClient
      (stackConfig casing countries port).tunnel).isEmpty = false := by
    rw [List.isEmpty_eq_false_iff, ← List.length_pos_iff, hlength]
    exact List.length_pos_iff.2 hne
  have hserve : serve w f torClient (stackConfig casing countries port) =
      .ok ⟨.new (buildTransports f torClient (stackConfig casing countries port).tunnel),
        Strategy.buildRouter w .random⟩ := if_neg (by rw [hnonempty]; decide)
  refine ⟨⟨_, hserve, hlength, ?_⟩, ?_⟩
  · change (List.map Transport.id (buildTransports f torClient _)).Nodup
    rw [hbuilt]
    exact nodup_ids casing countries
  · intro envs es s hrun c hc q hq
    -- A connection goes through a transport of the pool, and each of these was built for a VPN.
    refine (Proxy.ProxyServer.mem_of_mem_connects hrun hc hq).imp_right fun ⟨hmem, _⟩ => ?_
    rw [hbuilt] at hmem
    obtain ⟨⟨country, i⟩, hi, heq⟩ := List.mem_map.1 hmem
    have hservice := (getElem?_services casing countries port _ _).2
      (.inl ⟨i, country, List.mem_zipIdx_iff_getElem?.1 hi, rfl, rfl⟩)
    exact ⟨i + 1, country, _, hservice, address_vpnService .., heq.symm⟩

/-- Where `start` succeeds, its proxy gets the configuration that was written, and serves: it
    starts with a transport for each VPN, and in every run each connection goes through one of
    them, to the address of a service in the compose file. This is for a file that is loaded as
    it was meant, under the conditions of `loadsBack_iff`, and in which no reference begins. -/
theorem start_serves (toYaml : ComposeFile → Text) (m : Machine) (cfg : DockerConfig)
    (tokenOverride : Option Text) (port : UInt16) (strategy : Text) (hcrate : crate.Follows)
    (hcasing : casing.KeepsAscii)
    (hf : f.socks5 = true) (hv : Strategy.fromName casing strategy = .ok v)
    (hname : strategy = "random".toList ∨ strategy = "round-robin".toList)
    (hplain : ∀ country ∈ cfg.vpn.map VpnConfig.country, Plain (trim country))
    (hreference : Unreferring
      (generateTunnelsConfig casing (cfg.vpn.map VpnConfig.country) strategy port))
    (hstart : (start toYaml casing m cfg tokenOverride port strategy false).result = some (.ok ()))
    (hos : Container os (start toYaml casing m cfg tokenOverride port strategy false).files) :
    ∃ config, effectiveConfig casing crate os containerCommand.cli = .ok config ∧
      Serves w casing f torClient config
        (composeFile casing (cfg.vpn.map VpnConfig.country) port).services cfg.vpn.length := by
  obtain ⟨wait, -, -, hstarted⟩ := start_ok hstart
  have hfiles : (start toYaml casing m cfg tokenOverride port strategy false).files.lookup
      tunnelsName = some (generateTunnelsConfig casing (cfg.vpn.map VpnConfig.country) strategy
        port) := by
    rw [hstarted]
    rfl
  -- The conditions on the countries and the strategy are all about how the file is read.
  have hload := parseToml_generateTunnelsConfig port hcrate hcasing
    (plain_of_fromName hcasing hv) (decode_of_fromName hv hname) hplain
  have hne : cfg.vpn.map VpnConfig.country ≠ [] :=
    mt List.map_eq_nil_iff.1 (vpn_ne_nil_of_start hstart)
  have hserves := serves_stack w casing port torClient hf hne
  rw [List.length_map] at hserves
  exact ⟨_, effectiveConfig_stack hos hfiles hreference hload, hserves⟩

/-- A stack with one VPN, that is connected at once. -/
theorem start_serves_one : ∃ config,
    effectiveConfig .ascii readerCrate containerOs containerCommand.cli = .ok config ∧
      Serves 64 .ascii allFeatures (fun _ => .ok ()) config
        (composeFile .ascii ["us".toList] 8080).services 1 :=
  start_serves (fun _ => []) (workingMachine fun _ => connectedAnswers) (configOf ["us"])
    (some ['t']) 8080 "round-robin".toList readerCrate_follows ascii_keepsAscii
    rfl rfl (.inr rfl) (by decide) (unreferring_of_notMem (by decide)) rfl ⟨rfl, rfl⟩

end Houdinny.Docker
