import Houdinny.Config.Dotenv
import Houdinny.Config.Environment
import Houdinny.Docker.Agreement
import Houdinny.Startup

/-!
# The token

The token of the VPNs goes from the configuration, which the command line overrides
(`loadStartConfig`), through `start` into a new `.env` file, from where docker compose
puts it into the environment of each container, and where the next run of the program
finds it.

The `.env` file is written anew, with nothing but the token, which is loaded again if
it fits on a line (`loadDotenv_start`). There is one token for all VPNs, and it is
looked for in different places: with countries on the command line, only the first
entry is asked for it (`nordToken_countries_iff`), and what each container gets is its
own token exactly if all entries have the same (`ownTokens_iff`).

* `lookup_start_files`: where a run of `start` has written the `.env` file, it is the one
  that was generated, and the compose file was written before.
* `loadDotenv_withFiles`: the next run loads this file, whatever there was before.
* `overrideVpns`: the configuration as the command line changes it.
* `receivedTokens`: what docker compose puts into a container. How it substitutes variables
  is not known here; `Usable` is what is asked of it, for the tokens in question.
-/

namespace Houdinny

open Text

/-- The machine, with files that were written. -/
def Os.withFiles (os : Os) (files : Docker.Files) : Os where
  env := os.env
  readFile path := match files.lookup path with
    | some content => .ok content
    | none => os.readFile path
  pathExists path := (files.lookup path).isSome || os.pathExists path

/-- A file that was written is read. -/
theorem Os.readFile_withFiles {os : Os} {files : Docker.Files} {path content : Text}
    (h : files.lookup path = some content) :
    (os.withFiles files).readFile path = .ok content := by
  simp only [withFiles, h]

namespace Docker

/-- The file that the token is written to. -/
def envName : Text := ".env".toList

/-- The variable that has the token. -/
def tokenName : Text := "NORD_TOKEN".toList

variable {toYaml : ComposeFile → Text} {casing : CaseMapping} {m : Machine} {cfg : DockerConfig}
  {tokenOverride : Option Text} {port : UInt16} {strategy : Text} {noWait : Bool} {os : Os}
  {env : Text → Option Text} {t : Text}

/-! ## The files written -/

/-- Files are written up to some point. -/
theorem writeFiles_initial (m : Machine) (files : Files) : (writeFiles m files).1 <+: files := by
  induction files with
  | nil => exact List.nil_prefix
  | cons file files ih =>
    rw [writeFiles]
    split_ifs
    · exact List.cons_prefix_cons.2 ⟨rfl, ih⟩
    · exact List.nil_prefix

/-- `start` writes the first of the files of the stack. -/
theorem start_files_initial :
    (start toYaml casing m cfg tokenOverride port strategy noWait).files <+:
      stackFiles toYaml casing (cfg.vpn.map VpnConfig.country) (nordToken cfg tokenOverride)
        strategy port := by
  have hup : (bringUp toYaml casing m cfg tokenOverride port strategy).1 <+:
      stackFiles toYaml casing (cfg.vpn.map VpnConfig.country) (nordToken cfg tokenOverride)
        strategy port := by
    -- Until the files are written, each error leaves none of them.
    rw [bringUp]
    split
    · exact List.nil_prefix
    split
    · exact List.nil_prefix
    split
    · exact List.nil_prefix
    split
    · exact List.nil_prefix
    have hwrite := writeFiles_initial m (stackFiles toYaml casing (cfg.vpn.map VpnConfig.country)
      (nordToken cfg tokenOverride) strategy port)
    split
    · next hfiles => rwa [hfiles] at hwrite
    next hfiles =>
      rw [hfiles] at hwrite
      split
      · exact hwrite
      · split <;> exact hwrite
  rw [start]
  split
  · next hfiles => rwa [hfiles] at hup
  · next hfiles =>
    rw [hfiles] at hup
    split <;> exact hup

/-- The `.env` file that `start` writes, and the compose file, which it writes before. -/
theorem lookup_start_files
    (h : ((start toYaml casing m cfg tokenOverride port strategy noWait).files.lookup
      envName).isSome) :
    (start toYaml casing m cfg tokenOverride port strategy noWait).files.lookup envName =
        some (generateEnv (nordToken cfg tokenOverride)) ∧
      (start toYaml casing m cfg tokenOverride port strategy noWait).files.lookup
        "docker-compose.yml".toList =
          some (generateDockerCompose toYaml casing (cfg.vpn.map VpnConfig.country) port) := by
  have hfiles := @start_files_initial toYaml casing m cfg tokenOverride port strategy noWait
  revert h hfiles
  generalize (start toYaml casing m cfg tokenOverride port strategy noWait).files = files
  intro h hfiles
  rcases files with _ | ⟨compose, _ | ⟨dotenv, files⟩⟩
  · exact absurd h (by decide)
  · obtain ⟨rfl, -⟩ := List.cons_prefix_cons.1 hfiles
    exact absurd h Bool.false_ne_true
  · obtain ⟨rfl, htail⟩ := List.cons_prefix_cons.1 hfiles
    obtain ⟨rfl, -⟩ := List.cons_prefix_cons.1 htail
    exact ⟨rfl, rfl⟩

/-! ## Loading the token -/

/-- The first line of the file sets the token, to the first line of it. -/
theorem run_generateEnv (env : Text → Option Text) (t : Text) :
    ∃ first rest, t ++ ['\n'] = first ++ '\n' :: rest ∧ '\n' ∉ first ∧
      Run.run loadLine env (lines (generateEnv t)) =
        (setVar env tokenName (trim first)).bind fun env => Run.run loadLine env (lines rest) := by
  -- The token may have newlines of its own: the first line ends at the first one.
  have hnewline : '\n' ∈ t ++ ['\n'] := List.mem_append_right t List.mem_cons_self
  obtain ⟨first, rest, ht, hfirst⟩ := List.eq_append_cons_of_mem hnewline
  refine ⟨first, rest, ht, hfirst, ?_⟩
  have hline : '\n' ∉ tokenName ++ '=' :: first := by
    rw [List.mem_append, List.mem_cons, not_or, not_or]
    exact ⟨by decide, by decide, hfirst⟩
  have hcontent : generateEnv t = tokenName ++ '=' :: first ++ '\n' :: rest := by
    rw [List.append_assoc, List.cons_append, ← ht]
    rfl
  have hload : ∀ env, loadLine env (stripReturn (tokenName ++ '=' :: first)) =
      setVar env tokenName (trim first) := by
    intro env
    rw [← loadLine_trim, trim_stripReturn, loadLine_trim, loadLine_assign (by decide),
      if_neg (by decide)]
    rfl
  rw [hcontent, lines_append_cons hline, Run.run_cons, hload]

/-- A token that fits on a line is bound, without the white space around it, and nothing
    else is. -/
theorem run_generateEnv_of_notMem (hnewline : '\n' ∉ t) (hnull : '\x00' ∉ t)
    (env : Text → Option Text) : Run.run loadLine env (lines (generateEnv t)) =
      some (Function.update env tokenName (some (trim t))) := by
  obtain ⟨first, rest, ht, hfirst, hrun⟩ := run_generateEnv env t
  obtain ⟨rfl, rfl⟩ := cut_inj hnewline hfirst ht
  have hset : Settable tokenName (trim t) :=
    ⟨by decide, by decide, by decide, fun hmem => hnull ((mem_trim (by decide)).1 hmem)⟩
  rw [hrun, setVar_eq_some hset]
  rfl

/-- The token that is bound in the end, was bound by a line. -/
theorem bindable_of_run {env' : Text → Option Text}
    (h : Run.run loadLine env (lines (generateEnv t)) = some env') :
    ∀ v, env' tokenName = some v → Bindable v := by
  obtain ⟨first, rest, -, hfirst, hrun⟩ := run_generateEnv env t
  obtain ⟨env₁, hset, h⟩ := Option.bind_eq_some_iff.1 (hrun.symm.trans h)
  rw [setVar] at hset
  split_ifs at hset with hsettable
  obtain rfl := Option.some.inj hset
  refine @Run.run_inv _ _ _ (fun env => ∀ v, env tokenName = some v → Bindable v) _ _ _
    (fun env line hmem env' henv hload => ?_) ?_ h
  · exact bindable_of_loadLine (notMem_of_mem_lines hmem) henv hload
  · intro v hv
    rw [Function.update_self] at hv
    exact Option.some.inj hv ▸ hsettable.bindable hfirst

/-- The next run loads what `start` has generated, whatever was there before. -/
theorem loadDotenv_withFiles (os : Os) (env : Text → Option Text)
    (h : ((start toYaml casing m cfg tokenOverride port strategy noWait).files.lookup
      envName).isSome) :
    loadDotenv (os.withFiles (start toYaml casing m cfg tokenOverride port strategy noWait).files)
        envName env =
      Run.run loadLine env (lines (generateEnv (nordToken cfg tokenOverride))) := by
  rw [loadDotenv, Os.readFile_withFiles (lookup_start_files h).1]

/-- The next run loads exactly the token, if it fits on a line and has no white space around it.
    The variables that the file set before are not set any more: all that is loaded is the
    token, since the file is written anew and the old one is not read. -/
theorem loadDotenv_start (toYaml : ComposeFile → Text) (casing : CaseMapping) (m : Machine)
    (cfg : DockerConfig) (tokenOverride : Option Text) (port : UInt16) (strategy : Text)
    (noWait : Bool) (os : Os) (env : Text → Option Text)
    (h : ((start toYaml casing m cfg tokenOverride port strategy noWait).files.lookup
      envName).isSome) :
    ((∃ env', loadDotenv (os.withFiles
        (start toYaml casing m cfg tokenOverride port strategy noWait).files) envName env =
          some env' ∧ env' tokenName = some (nordToken cfg tokenOverride)) ↔
      Bindable (nordToken cfg tokenOverride)) ∧
    ('\n' ∉ nordToken cfg tokenOverride → '\x00' ∉ nordToken cfg tokenOverride →
      loadDotenv (os.withFiles
        (start toYaml casing m cfg tokenOverride port strategy noWait).files) envName env =
          some (Function.update env tokenName (some (trim (nordToken cfg tokenOverride))))) := by
  rw [loadDotenv_withFiles os env h]
  refine ⟨⟨?_, fun ht => ⟨_, run_generateEnv_of_notMem ht.newline ht.null env, ?_⟩⟩,
    fun hnewline hnull => run_generateEnv_of_notMem hnewline hnull env⟩
  · rintro ⟨env', hrun, hv⟩
    exact bindable_of_run hrun _ hv
  · rw [Function.update_self, ht.trimmed]

/-- A configuration with entries that have these tokens. -/
def tokensConfig (tokens : List (Option Text)) : DockerConfig :=
  ⟨true, tokens.map fun token => ⟨"nordvpn".toList, token, "us".toList⟩⟩

/-- A short token, over a file that set another variable. -/
theorem loadDotenv_start_one :
    loadDotenv ((dotenvOs "OTHER=1\n".toList).withFiles (start (fun _ => []) .ascii
      (workingMachine fun _ => connectedAnswers) (tokensConfig [some "t".toList]) none 8080
        "random".toList true).files) envName (fun _ => none) =
      some (Function.update (fun _ => none) tokenName (some "t".toList)) :=
  (loadDotenv_start (fun _ => []) .ascii (workingMachine fun _ => connectedAnswers)
    (tokensConfig [some "t".toList]) none 8080 "random".toList true (dotenvOs "OTHER=1\n".toList)
      (fun _ => none) (by decide)).2 (by decide) (by decide)

/-- A variable that the file set before is lost. -/
theorem not_updates_dotenv : ¬∀ (toYaml : ComposeFile → Text) (casing : CaseMapping) (m : Machine)
    (cfg : DockerConfig) (tokenOverride : Option Text) (port : UInt16) (strategy : Text)
    (noWait : Bool) (os : Os) (env env₁ env₂ : Text → Option Text),
    ((start toYaml casing m cfg tokenOverride port strategy noWait).files.lookup envName).isSome →
    loadDotenv os envName env = some env₁ →
    loadDotenv (os.withFiles (start toYaml casing m cfg tokenOverride port strategy noWait).files)
      envName env = some env₂ →
    env₂ tokenName = some (nordToken cfg tokenOverride) ∧
      ∀ key, key ≠ tokenName → env₂ key = env₁ key := by
  intro h
  have hbefore : loadDotenv (dotenvOs "OTHER=1\n".toList) envName (fun _ => none) =
      some (Function.update (fun _ => none) "OTHER".toList (some "1".toList)) := rfl
  have hfiles : ((start (fun _ => []) .ascii (workingMachine fun _ => connectedAnswers)
      (tokensConfig [some "t".toList]) none 8080 "random".toList true).files.lookup
        envName).isSome := by decide
  have hafter := (loadDotenv_withFiles (dotenvOs "OTHER=1\n".toList) (fun _ => none) hfiles).trans
    (@run_generateEnv_of_notMem "t".toList (by decide) (by decide) _)
  have hkept := (h _ _ _ _ _ _ _ _ _ _ _ _ hfiles hbefore hafter).2 "OTHER".toList (by decide)
  exact absurd hkept (by decide)

/-! ## Overrides -/

/-- The token of the first entry. -/
def firstToken (cfg : DockerConfig) : Option Text := cfg.vpn.head?.bind VpnConfig.token

/-- The docker configuration, overridden by the command line. Countries rebuild the list of
    VPNs from scratch. -/
def overrideVpns (cfg : DockerConfig) (nordToken : Option Text) (countries : Option (List Text)) :
    DockerConfig :=
  match countries with
  | some cliCountries =>
    let token := nordToken.or (firstToken cfg)
    ⟨true, cliCountries.map fun c => ⟨"nordvpn".toList, token, c⟩⟩
  | none => match nordToken with
    | some tok => { cfg with vpn := cfg.vpn.map fun vpn => { vpn with token := some tok } }
    | none => cfg

/-- The port, which may also come from the address that the proxy listens on. -/
def effectivePort (config : Config) (port : Option UInt16) : UInt16 :=
  port.getD <| ((rsplitOnce ':' config.proxy.listen).bind fun p =>
    (parseUnsigned 65535 p.2).map UInt16.ofNat).getD 8080

/-- The configuration of `start-docker` before the overrides. A config file is not needed,
    if everything is on the command line. -/
def startConfig (crate : TomlCrate) (os : Os) (configPath : Text) (nordToken : Option Text)
    (countries : Option (List Text)) : Except Failure Config :=
  if os.pathExists configPath then
    (Config.fromFile crate os configPath).mapError
      (.context ("failed to load config from ".toList ++ configPath))
  else if nordToken.isSome && countries.isSome then .ok ⟨default, default, []⟩
  else .error (.bail ("config file '".toList ++ configPath ++ ("' not found.\nEither create it " ++
    "(see houdinny.toml.example) or pass --nord-token + --countries flags.").toList))

/-- Load configuration for the `start` command, applying CLI overrides. -/
def loadStartConfig (crate : TomlCrate) (os : Os) (configPath : Text) (nordToken : Option Text)
    (countries : Option (List Text)) (port : Option UInt16) :
    Except Failure (Config × DockerConfig × UInt16) :=
  match startConfig crate os configPath nordToken countries with
  | .error e => .error e
  | .ok config =>
    let listen := match port with
      | some port => "127.0.0.1:".toList ++ ofNat port.toNat
      | none => config.proxy.listen
    .ok ({ config with proxy := { config.proxy with listen := listen } },
      overrideVpns config.docker nordToken countries, effectivePort config port)

/-- The countries are rebuilt with the token of the first entry. -/
theorem nordToken_countries (cfg : DockerConfig) (countries : List Text) :
    nordToken (overrideVpns cfg none (some countries)) none =
      if countries = [] then [] else (firstToken cfg).getD [] := by
  have hvpn : (overrideVpns cfg none (some countries)).vpn.findSome? VpnConfig.token =
      countries.findSome? fun _ => firstToken cfg := List.findSome?_map
  rw [nordToken, Option.none_or, hvpn]
  rcases countries with _ | ⟨country, countries⟩
  · rfl
  · rw [if_neg (by simp), List.findSome?_cons]
    rcases firstToken cfg with _ | token
    · rw [List.findSome?_eq_none_iff.2 fun _ _ => rfl]
    · rfl

/-- A token of the first entry is the first token. -/
theorem nordToken_of_firstToken {token : Text} (h : firstToken cfg = some token) :
    nordToken cfg none = token := by
  rw [nordToken, Option.none_or]
  rcases hvpn : cfg.vpn with _ | ⟨vpn, vpns⟩
  · rw [firstToken, hvpn] at h
    exact absurd h (by simp)
  · rw [firstToken, hvpn] at h
    rw [List.findSome?_cons, show vpn.token = some token from h]
    rfl

/-- With countries on the command line, the token is the same as without, exactly if the first
    entry has one, or there is none: the entries are rebuilt with the token of the first, and
    those of the others are lost with them. -/
theorem nordToken_countries_iff (crate : TomlCrate) (os : Os) (configPath : Text)
    (countries : List Text) (port : Option UInt16) (config : Config) (cfg : DockerConfig)
    (effective : UInt16)
    (h : loadStartConfig crate os configPath none none port = .ok (config, cfg, effective)) :
    ∃ cfg', loadStartConfig crate os configPath none (some countries) port =
        .ok (config, cfg', effective) ∧
      (nordToken cfg' none = nordToken cfg none ↔
        countries ≠ [] ∧ (firstToken cfg).isSome ∨
          cfg.vpn.findSome? VpnConfig.token ∈ [none, some []]) := by
  have hconfig : startConfig crate os configPath none (some countries) =
      startConfig crate os configPath none none := by
    rw [startConfig, startConfig]
    rfl
  rw [loadStartConfig] at h
  rcases hstart : startConfig crate os configPath none none with e | c
  · rw [hstart] at h
    exact absurd h (by simp)
  rw [hstart] at h
  obtain ⟨rfl, hcfg, rfl⟩ : _ ∧ _ ∧ _ := by simpa only [Except.ok.injEq, Prod.mk.injEq] using h
  refine ⟨overrideVpns c.docker none (some countries), ?_, ?_⟩
  · rw [loadStartConfig, hconfig, hstart]
  obtain rfl : c.docker = cfg := hcfg
  -- Without a token on the command line, the first one that is configured is taken.
  have hempty : c.docker.vpn.findSome? VpnConfig.token ∈ [none, some []] ↔
      nordToken c.docker none = [] := by
    rw [nordToken, Option.none_or]
    rcases c.docker.vpn.findSome? VpnConfig.token with _ | token <;> simp
  rw [nordToken_countries, hempty]
  rcases hfirst : firstToken c.docker with _ | token
  · -- The first entry has no token: the token is empty then, with countries as without.
    have hnone : (if countries = [] then [] else (none : Option Text).getD []) = [] := by
      split_ifs <;> rfl
    rw [hnone, eq_comm]
    simp
  · rw [nordToken_of_firstToken hfirst]
    by_cases hcountries : countries = [] <;> simp [hcountries, eq_comm]

/-- A file with two entries, of which the second has a token. -/
def secondToken : Text := ("[[docker.vpn]]\nprovider = \"nordvpn\"\ncountry = \"us\"\n" ++
  "[[docker.vpn]]\nprovider = \"nordvpn\"\ntoken = \"t\"\ncountry = \"de\"\n").toList

/-- What is loaded from it. -/
def secondTokenConfig : DockerConfig :=
  ⟨false, [⟨"nordvpn".toList, none, "us".toList⟩, ⟨"nordvpn".toList, some "t".toList, "de".toList⟩]⟩

/-- The file is loaded, and the command line replaces its entries. -/
theorem loadStartConfig_secondToken (path : Text) (countries : Option (List Text)) :
    loadStartConfig readerCrate (dotenvOs secondToken) path none countries none =
      .ok (⟨default, secondTokenConfig, []⟩, overrideVpns secondTokenConfig none countries,
        8080) := by
  have hresolve : resolveEnvVars (dotenvOs secondToken).env secondToken = secondToken :=
    resolveEnvVars_of_notMem (by decide +kernel)
  have hread : (dotenvOs secondToken).readFile path = .ok secondToken := rfl
  have hfile : Config.fromFile readerCrate (dotenvOs secondToken) path =
      .ok ⟨default, secondTokenConfig, []⟩ := by
    rw [Config.fromFile_of_readFile hread, hresolve]
    decide +kernel
  have hexists : (dotenvOs secondToken).pathExists path = true := rfl
  rw [loadStartConfig, startConfig, if_pos hexists, hfile]
  rfl

/-- With a country on the command line, the token is lost. -/
theorem nordToken_countries_iff_second : ∃ cfg',
    loadStartConfig readerCrate (dotenvOs secondToken) "houdinny.toml".toList none
        (some ["us".toList]) none = .ok (⟨default, secondTokenConfig, []⟩, cfg', 8080) ∧
      nordToken cfg' none ≠ nordToken secondTokenConfig none := by
  obtain ⟨cfg', hload, hiff⟩ := nordToken_countries_iff readerCrate (dotenvOs secondToken)
    "houdinny.toml".toList ["us".toList] none _ _ _ (loadStartConfig_secondToken _ none)
  exact ⟨cfg', hload, fun h => absurd (hiff.1 h) (by decide)⟩

/-- The token of the second entry is lost: without countries on the command line it is found,
    and with one it is not. -/
theorem not_nordToken_countries : ¬∀ (crate : TomlCrate) (os : Os) (configPath : Text)
    (countries : List Text) (port : Option UInt16) (config config' : Config)
    (cfg cfg' : DockerConfig) (effective effective' : UInt16),
    loadStartConfig crate os configPath none none port = .ok (config, cfg, effective) →
    loadStartConfig crate os configPath none (some countries) port =
      .ok (config', cfg', effective') → nordToken cfg' none = nordToken cfg none := by
  intro h
  have hsame := h _ _ _ _ _ _ _ _ _ _ _ (loadStartConfig_secondToken "houdinny.toml".toList none)
    (loadStartConfig_secondToken "houdinny.toml".toList (some ["us".toList]))
  exact absurd hsame (by decide)

/-! ## Containers -/

section

variable (substitute : Text → Text → Text)

/-- A token that `start` accepts, and that docker compose puts in the place of a reference
    to it, when it is in the `.env` file. -/
structure Usable (t : Text) : Prop where
  ne_nil : t ≠ []
  resolved : ¬"$\x7b".toList <:+: t
  substituted : substitute (generateEnv t) (reference tokenName) = t

/-- The values of `TOKEN` that the container of the VPN number `n` gets: docker compose
    substitutes the variables of the `.env` file. -/
def receivedTokens (c : ComposeFile) (dotenv : Text) (n : ℕ) : Option (List Text) :=
  c.services[vpnName n]?.map fun s => (s.variable "TOKEN".toList).map (substitute dotenv)

/-- The container of each entry gets the token of the entry. -/
def OwnTokens (c : ComposeFile) (dotenv : Text) (cfg : DockerConfig) : Prop :=
  ∀ i vpn t, cfg.vpn[i]? = some vpn → vpn.token = some t →
    receivedTokens substitute c dotenv (i + 1) = some [t]

end

variable {substitute : Text → Text → Text}

/-- Every container gets the token of the `.env` file. -/
theorem receivedTokens_eq {i : ℕ} {vpn : VpnConfig} (hi : cfg.vpn[i]? = some vpn)
    (ht : Usable substitute t) : receivedTokens substitute
      (composeFile casing (cfg.vpn.map VpnConfig.country) port) (generateEnv t) (i + 1) =
        some [t] := by
  have hcountry : (cfg.vpn.map VpnConfig.country)[i]? = some vpn.country := by
    rw [List.getElem?_map, hi]
    rfl
  have htoken : (vpnService casing (i + 1) vpn.country).variable "TOKEN".toList =
      [reference tokenName] := variable_vpnService (i + 1) vpn.country (by decide)
  rw [receivedTokens, (getElem?_services casing _ port _ _).2 (.inl ⟨i, _, hcountry, rfl, rfl⟩),
    Option.map_some, htoken, List.map_singleton, ht.substituted]

/-- With usable tokens, each container gets its own exactly if all of them are the same, as the
    compose file has one variable for all, and the `.env` file one token. -/
theorem ownTokens_iff (toYaml : ComposeFile → Text) (casing : CaseMapping) (m : Machine)
    (cfg : DockerConfig) (port : UInt16) (strategy : Text) (noWait : Bool)
    (substitute : Text → Text → Text)
    (hwritten : ((start toYaml casing m cfg none port strategy noWait).files.lookup
      envName).isSome)
    (husable : ∀ vpn ∈ cfg.vpn, ∃ t, vpn.token = some t ∧ Usable substitute t) :
    ∃ dotenv,
      (start toYaml casing m cfg none port strategy noWait).files.lookup envName = some dotenv ∧
      (start toYaml casing m cfg none port strategy noWait).files.lookup
        "docker-compose.yml".toList =
          some (generateDockerCompose toYaml casing (cfg.vpn.map VpnConfig.country) port) ∧
      (OwnTokens substitute (composeFile casing (cfg.vpn.map VpnConfig.country) port) dotenv cfg ↔
        ∀ vpn ∈ cfg.vpn, ∀ vpn' ∈ cfg.vpn, vpn.token = vpn'.token) := by
  obtain ⟨hdotenv, hcompose⟩ := lookup_start_files hwritten
  refine ⟨_, hdotenv, hcompose, ?_⟩
  rcases hvpn : cfg.vpn with _ | ⟨first, rest⟩
  · refine iff_of_true (fun i vpn t hi => ?_) (by simp)
    rw [hvpn] at hi
    exact absurd hi (by simp)
  have hmem : first ∈ cfg.vpn := hvpn ▸ List.mem_cons_self
  obtain ⟨t₀, hfirst, ht₀⟩ := husable first hmem
  have htoken : nordToken cfg none = t₀ := by
    refine nordToken_of_firstToken ?_
    rw [firstToken, hvpn]
    exact hfirst
  rw [htoken, ← hvpn]
  constructor
  · -- What the containers get is the first token.
    intro hown
    have hsame : ∀ vpn ∈ cfg.vpn, vpn.token = some t₀ := by
      intro vpn hvpn
      obtain ⟨t, ht, -⟩ := husable vpn hvpn
      obtain ⟨i, hi⟩ := List.mem_iff_getElem?.1 hvpn
      have hreceived := (hown i vpn t hi ht).symm.trans (receivedTokens_eq hi ht₀)
      rw [ht, List.singleton_inj.1 (Option.some.inj hreceived)]
    exact fun vpn hvpn vpn' hvpn' => (hsame vpn hvpn).trans (hsame vpn' hvpn').symm
  · intro hsame i vpn t hi ht
    have heq := hsame vpn (List.mem_of_getElem? hi) first hmem
    rw [ht, hfirst] at heq
    rw [receivedTokens_eq hi ht₀, Option.some.inj heq]

/-- Substitution by the variables that the program itself would load. -/
def substituteLoaded (dotenv value : Text) : Text :=
  match Run.run loadLine (fun _ => none) (lines dotenv) with
  | some env => resolveEnvVars env value
  | none => value

/-- One of the tokens of the example. -/
theorem usable_a : Usable substituteLoaded "a".toList := ⟨by decide, by decide, by decide⟩

/-- The other one. -/
theorem usable_b : Usable substituteLoaded "b".toList := ⟨by decide, by decide, by decide⟩

/-- Two entries with the same token. -/
theorem ownTokens_iff_same : OwnTokens substituteLoaded
    (composeFile .ascii ["us".toList, "us".toList] 8080) (generateEnv "a".toList)
      (tokensConfig [some "a".toList, some "a".toList]) := by
  have husable : ∀ vpn ∈ (tokensConfig [some "a".toList, some "a".toList]).vpn,
      ∃ t, vpn.token = some t ∧ Usable substituteLoaded t := by
    intro vpn hvpn
    refine ⟨"a".toList, ?_, usable_a⟩
    revert vpn
    decide
  obtain ⟨dotenv, hdotenv, -, hown⟩ := ownTokens_iff (fun _ => []) .ascii
    (workingMachine fun _ => connectedAnswers) (tokensConfig [some "a".toList, some "a".toList])
    8080 "random".toList true substituteLoaded (by decide) husable
  obtain rfl : generateEnv "a".toList = dotenv := Option.some.inj hdotenv
  exact hown.2 (by decide)

/-- The container of the second entry gets the token of the first. -/
theorem not_ownTokens : ¬∀ (toYaml : ComposeFile → Text) (casing : CaseMapping) (m : Machine)
    (cfg : DockerConfig) (port : UInt16) (strategy : Text) (noWait : Bool)
    (substitute : Text → Text → Text) (dotenv : Text),
    (∀ vpn ∈ cfg.vpn, ∃ t, vpn.token = some t ∧ Usable substitute t) →
    (start toYaml casing m cfg none port strategy noWait).files.lookup envName = some dotenv →
    OwnTokens substitute (composeFile casing (cfg.vpn.map VpnConfig.country) port) dotenv cfg := by
  intro h
  have husable : ∀ vpn ∈ (tokensConfig [some "a".toList, some "b".toList]).vpn,
      ∃ t, vpn.token = some t ∧ Usable substituteLoaded t := by
    intro vpn hvpn
    rcases List.mem_cons.1 hvpn with rfl | hvpn
    · exact ⟨_, rfl, usable_a⟩
    · rw [List.mem_singleton.1 hvpn]
      exact ⟨_, rfl, usable_b⟩
  have hown := h (fun _ => []) .ascii (workingMachine fun _ => connectedAnswers) _ 8080
    "random".toList true _ _ husable rfl 1 _ "b".toList rfl rfl
  have hreceived := hown.symm.trans (@receivedTokens_eq .ascii
    (tokensConfig [some "a".toList, some "b".toList]) 8080 "a".toList _ 1 _ rfl usable_a)
  exact absurd hreceived (by decide)

end Docker

end Houdinny
