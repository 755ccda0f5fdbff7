import Houdinny.Docker
import Houdinny.Startup

/-!
# The effective strategy

The command line overrides the strategy of the config file, whether it gives one
or not: where it does not, the default of its option is `random`. So no command
line without a strategy has the proxy rotate (`not_rotates_of_start`), and the
command of the generated Docker stack, which has the strategy in the config file,
does not (`not_governed_container`).

What it is to rotate is said of the router that is started (`Rotates`, in `Router`), by what it
returns over a sequence of picks, and not of the name of a strategy. A proxy that has started
rotates exactly if its effective strategy is round robin (`rotates_iff_of_serve`).
-/

namespace Houdinny

open Text

variable {casing : CaseMapping} {crate : TomlCrate} {os : Os} {w : ℕ} {f : Features}
  {torClient : ℕ → Except Text Unit}

/-- The strategy that is the default of the option. -/
theorem fromName_random (casing : CaseMapping) :
    Strategy.fromName casing "random".toList = .ok .random := by
  have hlower : casing.toLowercase "random".toList = "random".toList := by
    rw [casing.lower_ascii _ (by decide)]
    rfl
  rw [Strategy.fromName, hlower]
  rfl

/-- Without a strategy on the command line, the effective one is `random`. -/
theorem strategy_of_overrideConfig {c : CommandLine} {config config' : Config}
    (hnone : c.strategy = none) (h : overrideConfig casing c.cli config = .ok config') :
    config'.proxy.strategy = .random := by
  have hcli : c.cli.strategy = "random".toList := by rw [CommandLine.cli, hnone]; rfl
  rw [overrideConfig, hcli, fromName_random] at h
  exact Except.ok.inj h ▸ rfl

/-- The router is that of the configured strategy. -/
theorem router_of_serve {config : Config} {picker : Picker w}
    (h : serve w f torClient config = .ok picker) :
    picker.router = config.proxy.strategy.buildRouter w := by
  simp only [serve] at h
  split_ifs at h
  exact Except.ok.inj h ▸ rfl

/-- A proxy that has started rotates exactly if that is its effective strategy. -/
theorem rotates_iff_of_serve {config : Config} {picker : Picker w} (hw : 0 < w)
    (h : serve w f torClient config = .ok picker) :
    picker.router.Rotates ↔ config.proxy.strategy = .roundRobin := by
  rw [router_of_serve h, Router.rotates_buildRouter_iff hw]

/-- A proxy started without a strategy on the command line does not rotate, although its config
    file asks for it: as many picks as there are transports may return one of them twice. -/
theorem not_rotates_of_start (casing : CaseMapping) (crate : TomlCrate) (os : Os) (w : ℕ)
    (f : Features) (torClient : ℕ → Except Text Unit) (c : CommandLine) (file config : Config)
    (picker : Picker w) (hw : 0 < w) (hnone : c.strategy = none)
    (hload : loadConfig crate os c.cli = .ok file) (hfile : file.proxy.strategy = .roundRobin)
    (hconfig : effectiveConfig casing crate os c.cli = .ok config)
    (hserve : serve w f torClient config = .ok picker) :
    ¬picker.router.Rotates ∧ config.proxy.strategy ≠ file.proxy.strategy := by
  rw [effectiveConfig, hload] at hconfig
  have hrandom := strategy_of_overrideConfig hnone hconfig
  rw [rotates_iff_of_serve hw hserve, hrandom, hfile]
  exact ⟨by decide, by decide⟩

/-! ## The Docker stack -/

/-- The files of the container of the proxy, for one country. -/
def containerOs : Os where
  env _ := none
  readFile path :=
    if path = "/etc/houdinny/tunnels.toml".toList then
      .ok (Docker.generateTunnelsConfig .ascii ["us".toList] "round-robin".toList 8080)
    else .error "No such file or directory (os error 2)".toList
  pathExists path := path = "/etc/houdinny/tunnels.toml".toList

/-- The command line of the container. -/
def containerCommand : CommandLine := ⟨some "/etc/houdinny/tunnels.toml".toList, none, none, none⟩

/-- The configuration that is generated. -/
def containerConfig : Config where
  proxy := ⟨"0.0.0.0:8080".toList, .transparent, .roundRobin⟩
  docker := default
  tunnel := [{ TunnelConfig.ofProtocol "socks5".toList with
    label := some "vpn-1-United_States".toList
    address := some "172.20.0.11:1080".toList }]

/-- The container loads what was generated. -/
theorem loadConfig_container :
    loadConfig fragmentCrate containerOs containerCommand.cli = .ok containerConfig := by
  have hd : (Docker.tunnelsDoc .ascii ["us".toList] "round-robin".toList 8080).WellFormed := by
    decide
  have hdollar : '$' ∉
      Docker.generateTunnelsConfig .ascii ["us".toList] "round-robin".toList 8080 := by
    decide
  have hfile : Config.fromFile fragmentCrate containerOs "/etc/houdinny/tunnels.toml".toList =
      .ok containerConfig := by
    rw [Config.fromFile_of_readFile rfl, resolveEnvVars_of_notMem hdollar,
      Docker.generateTunnelsConfig_eq_render]
    exact Config.parseToml_render fragmentCrate_conforms hd rfl
  have hpath : effectivePath containerOs containerCommand.cli.config =
      "/etc/houdinny/tunnels.toml".toList := rfl
  have hcli : containerCommand.cli.tunnels = none := rfl
  rw [loadConfig, hcli]
  simp only [hpath, hfile]
  rfl

/-- The configuration that the container runs with. -/
def runningConfig : Config :=
  { containerConfig with proxy := ⟨"0.0.0.0:8080".toList, .transparent, .random⟩ }

/-- Its command line overrides the strategy. -/
theorem effectiveConfig_container :
    effectiveConfig .ascii fragmentCrate containerOs containerCommand.cli = .ok runningConfig := by
  rw [effectiveConfig, loadConfig_container]
  rfl

/-- The proxy of the container does not rotate. -/
theorem not_rotates_container : ∃ picker : Picker 64,
    serve 64 allFeatures (fun _ => .ok ()) runningConfig = .ok picker ∧
      ¬picker.router.Rotates :=
  ⟨_, rfl, (not_rotates_of_start .ascii fragmentCrate containerOs 64 allFeatures
    (fun _ => .ok ()) containerCommand containerConfig runningConfig _ (by decide) rfl
    loadConfig_container rfl effectiveConfig_container rfl).1⟩

/-- With the command of the Docker stack, the configured strategy does not
    govern routing. -/
theorem not_governed_container : containerCommand.args = Docker.houdinnyCommand ∧
    ¬∀ (casing : CaseMapping) (crate : TomlCrate) (os : Os) (f : Features)
      (torClient : ℕ → Except Text Unit) (c : CommandLine) (file config : Config)
      (picker : Picker 64), c.strategy = none → loadConfig crate os c.cli = .ok file →
      file.proxy.strategy = .roundRobin → effectiveConfig casing crate os c.cli = .ok config →
      serve 64 f torClient config = .ok picker → picker.router.Rotates := by
  refine ⟨rfl, fun h => ?_⟩
  have hrotates := h .ascii fragmentCrate containerOs allFeatures (fun _ => .ok ())
    containerCommand containerConfig runningConfig _ rfl loadConfig_container rfl
    effectiveConfig_container rfl
  exact Router.not_rotates_random (by decide) hrotates

end Houdinny
