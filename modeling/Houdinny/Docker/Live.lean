import Houdinny.Docker.Stack

/-!
# Live tunnels

Where some VPNs of a stack connect and others do not, `start` succeeds with those that do,
and restarts the proxy "with available tunnels". But the proxy then loads the configuration
that was written before any VPN was polled, with a tunnel for every country, and a SOCKS5
transport is healthy from the start. So all that it loads is live only if every VPN has
connected, or if the file is refused, as it is for a strategy that is no name of a
configuration file (`routesLive_iff`).

That is for a file in which the countries and the strategy are read as they were given
(`Verbatim`). Where they need escapes, or refer to the environment, they may bring in tunnels
of any kind.

The result is put together from three that are elsewhere: what the proxy of a stack loads
(`Docker.Stack`), that `start` has written all files before the polling (`start_ok`), and
which VPNs are connected when the polling has returned (`state_waitForHealthy`).
-/

namespace Houdinny.Docker

open Text Toml

/-- The strategy and the names of the countries are read from the file as they were given:
    they need no escapes, and no reference begins in them. -/
structure Verbatim (casing : CaseMapping) (strategy : Text) (countries : List Text) : Prop where
  strategy_plain : Plain strategy
  strategy_unreferring : Unreferring strategy
  country_plain : ∀ country ∈ countries, Plain (trim country)
  country_unreferring : ∀ country ∈ countries, Unreferring (resolveCountry casing country)

/-- Of the configuration that is loaded, if any is, every tunnel is to a VPN that is
    connected. -/
def RoutesLive (loaded : Except Failure Config) (states : List VpnState) : Prop :=
  ∀ config, loaded = .ok config → ∀ tunnel ∈ config.tunnel, ∃ n,
    tunnel.address = some (vpnAddress (n + 1) ++ ":1080".toList) ∧ states[n]? = some .connected

/-- The strategy has a name that a configuration file takes. -/
def Named (strategy : Text) : Prop :=
  strategy = "random".toList ∨ strategy = "round-robin".toList

variable {crate : TomlCrate} {casing : CaseMapping} {countries : List Text} {strategy : Text}
  {port : UInt16} {os : Os} {files : Files} {states : List VpnState}

/-- No reference begins in such a file. -/
theorem Verbatim.unreferring (h : Verbatim casing strategy countries) (port : UInt16) :
    Unreferring (generateTunnelsConfig casing countries strategy port) :=
  (unreferring_generateTunnelsConfig casing countries strategy port).2
    ⟨h.strategy_unreferring, h.country_unreferring⟩

/-! ## What is loaded -/

/-- The tunnels of a stack belong to the VPNs in turn, so all of these must be connected. -/
theorem routesLive_stackConfig (casing : CaseMapping) (countries : List Text) (port : UInt16)
    (states : List VpnState) : RoutesLive (.ok (stackConfig casing countries port)) states ↔
      ∀ i < countries.length, states[i]? = some .connected := by
  constructor
  · intro h i hi
    have hmem : (countries[i], i) ∈ countries.zipIdx :=
      List.mem_zipIdx_iff_getElem?.2 (List.getElem?_eq_getElem hi)
    obtain ⟨n, hn, hstate⟩ := h _ rfl _ (List.mem_map_of_mem hmem)
    -- The address tells the number of the VPN.
    have haddress :
        vpnAddress (i + 1) ++ ":1080".toList = vpnAddress (n + 1) ++ ":1080".toList :=
      Option.some.inj hn
    have hnumber := vpnAddress_injective (List.append_cancel_right haddress)
    exact Nat.succ_injective hnumber ▸ hstate
  · rintro h _ ⟨⟩ tunnel htunnel
    obtain ⟨⟨country, i⟩, hmem, rfl⟩ := List.mem_map.1 htunnel
    have hi := List.mem_zipIdx_iff_getElem?.1 hmem
    exact ⟨i, rfl, h i (List.getElem?_eq_some_iff.1 hi).1⟩

/-- A file with another strategy is refused. -/
theorem not_loaded_of_not_named (hcrate : crate.Follows) (hos : Container os files)
    (hfiles : files.lookup tunnelsName =
      some (generateTunnelsConfig casing countries strategy port))
    (h : Verbatim casing strategy countries) (hnamed : ¬Named strategy) (config : Config) :
    effectiveConfig casing crate os containerCommand.cli ≠ .ok config := by
  intro hconfig
  rw [effectiveConfig, loadConfig_stack hos hfiles (h.unreferring port)] at hconfig
  rcases hload : Config.parseToml crate (generateTunnelsConfig casing countries strategy port) with
    e | file
  · rw [hload] at hconfig
    exact absurd hconfig (by rintro ⟨⟩)
  · have hdecode := strategy_of_parseToml hcrate h.strategy_plain hload
    exact hnamed ((strategy_decode_eq_some.1 hdecode).imp And.left And.left)

/-- What the proxy of a stack loads routes to live VPNs only, exactly if it is refused, or all
    VPNs are connected. -/
theorem routesLive_container (hcrate : crate.Follows) (hcasing : casing.KeepsAscii)
    (hos : Container os files) (hfiles : files.lookup tunnelsName =
      some (generateTunnelsConfig casing countries strategy port))
    (h : Verbatim casing strategy countries) :
    RoutesLive (effectiveConfig casing crate os containerCommand.cli) states ↔
      ¬Named strategy ∨ ∀ i < countries.length, states[i]? = some .connected := by
  by_cases hnamed : Named strategy
  · obtain ⟨v, hdecode⟩ : ∃ v, Strategy.decode (.string strategy) = some v := by
      rcases hnamed with hrandom | hrobin
      · exact ⟨.random, strategy_decode_eq_some.2 (.inl ⟨hrandom, rfl⟩)⟩
      · exact ⟨.roundRobin, strategy_decode_eq_some.2 (.inr ⟨hrobin, rfl⟩)⟩
    have hload := parseToml_generateTunnelsConfig port hcrate hcasing h.strategy_plain hdecode
      h.country_plain
    rw [effectiveConfig_stack hos hfiles (h.unreferring port) hload, routesLive_stackConfig,
      or_iff_right (not_not.2 hnamed)]
  · exact iff_of_true (fun config hconfig =>
      absurd hconfig (not_loaded_of_not_named hcrate hos hfiles h hnamed config)) (.inl hnamed)

/-- Whatever the stack, the poll outcomes and the timeout: where `start` succeeds with a file
    that is read as it was given, its proxy loads tunnels to live VPNs only exactly if the file
    is refused, or every VPN connects in time. Both are conditions on what `start` is given, and
    on what the containers answer. -/
theorem routesLive_iff (toYaml : ComposeFile → Text) (crate : TomlCrate) (casing : CaseMapping)
    (m : Machine) (cfg : DockerConfig) (tokenOverride : Option Text) (port : UInt16)
    (strategy : Text) (os : Os) (hcrate : crate.Follows) (hcasing : casing.KeepsAscii)
    (hstart : (start toYaml casing m cfg tokenOverride port strategy false).result = some (.ok ()))
    (hos : Container os (start toYaml casing m cfg tokenOverride port strategy false).files)
    (hfile : Verbatim casing strategy (cfg.vpn.map VpnConfig.country)) :
    ∃ w, (start toYaml casing m cfg tokenOverride port strategy false).wait = some w ∧
      (RoutesLive (effectiveConfig casing crate os containerCommand.cli) w.states ↔
        ¬Named strategy ∨ ∀ i < cfg.vpn.length, Connects casing m.rounds i) := by
  obtain ⟨w, hw, hdone, hstarted⟩ := start_ok hstart
  rw [hstarted] at hos ⊢
  refine ⟨w, rfl, ?_⟩
  rw [routesLive_container hcrate hcasing hos rfl hfile, List.length_map]
  subst hw
  -- The states are those of a polling that has returned, in which a VPN is connected exactly if
  -- it connects in some round.
  refine or_congr_right (forall₂_congr fun i hi => state_waitForHealthy ?_ ?_)
  · rw [hdone]
    exact Option.some_ne_none _
  · rw [List.length_map]
    exact hi

/-! ## Partial pools -/

/-- With the only VPN connected, the proxy routes through a live VPN, and that is all that it
    has. -/
theorem routesLive_one : ∃ w, (start (fun _ => []) .ascii
    (workingMachine fun _ => connectedAnswers) (configOf ["us"]) (some ['t']) 8080
    "round-robin".toList false).wait = some w ∧
      RoutesLive (effectiveConfig .ascii readerCrate containerOs containerCommand.cli)
        w.states := by
  have hfile : Verbatim .ascii "round-robin".toList ((configOf ["us"]).vpn.map VpnConfig.country) :=
    ⟨by decide, by decide, by decide, by decide⟩
  obtain ⟨w, hw, hlive⟩ := routesLive_iff (fun _ => []) readerCrate .ascii
    (workingMachine fun _ => connectedAnswers) (configOf ["us"]) (some ['t']) 8080
    "round-robin".toList containerOs readerCrate_follows ascii_keepsAscii rfl ⟨rfl, rfl⟩ hfile
  refine ⟨w, hw, hlive.2 (.inr fun i _ => ⟨[], _, [], rfl, rfl, ?_⟩)⟩
  exact fun r hr => absurd hr List.not_mem_nil

/-- A container with these contents mounted. -/
def mount (content : Text) : Os where
  env _ := none
  readFile path :=
    if path = "/etc/houdinny/tunnels.toml".toList then .ok content
    else .error "No such file or directory (os error 2)".toList
  pathExists path := path = "/etc/houdinny/tunnels.toml".toList

/-- With the second of two VPNs stopped, `start` succeeds, and the proxy loads a tunnel to the
    stopped one. -/
theorem not_routesLive_stopped : ¬∀ (toYaml : ComposeFile → Text) (crate : TomlCrate)
    (casing : CaseMapping) (m : Machine) (cfg : DockerConfig) (tokenOverride : Option Text)
    (port : UInt16) (strategy : Text) (os : Os) (w : Wait), crate.Follows → casing.KeepsAscii →
    (start toYaml casing m cfg tokenOverride port strategy false).result = some (.ok ()) →
    Container os (start toYaml casing m cfg tokenOverride port strategy false).files →
    (start toYaml casing m cfg tokenOverride port strategy false).wait = some w →
    RoutesLive (effectiveConfig casing crate os containerCommand.cli) w.states := by
  intro h
  let content := generateTunnelsConfig .ascii ["us".toList, "de".toList] "random".toList 8080
  have hfile : Verbatim .ascii "random".toList ["us".toList, "de".toList] :=
    ⟨by decide, by decide, by decide, by decide⟩
  have hlive := h (fun _ => []) readerCrate .ascii
    (workingMachine fun i => if i = 0 then connectedAnswers else stoppedAnswers)
    (configOf ["us", "de"]) (some ['t']) 8080 "random".toList (mount content) _ readerCrate_follows
    ascii_keepsAscii rfl ⟨rfl, rfl⟩ rfl
  have hlookup : [(tunnelsName, content)].lookup tunnelsName = some content := rfl
  have hall := (routesLive_container readerCrate_follows ascii_keepsAscii ⟨rfl, rfl⟩ hlookup
    hfile).1 hlive
  rcases hall with hnamed | hstates
  · -- The strategy is a name of the file, so the file is loaded, with a tunnel to the second
    -- VPN.
    exact hnamed (.inl rfl)
  · exact absurd (hstates 1 (by decide)) (by decide)

end Houdinny.Docker
