import Houdinny.Picker
import Houdinny.Transport

/-!
# Startup

What `main` does before it serves: it gets a configuration, overrides it by the
command line (`effectiveConfig`), builds the transports of the tunnels
(`buildTransports`), and puts them into a pool behind a router (`serve`). The picker
is modelled here as it works while nothing comes between its steps
(`Picker.run_pick`).

The protocols that were compiled in are `Features`. The Tor client of a tunnel
may or may not be created, by the number of the tunnel in the list. Log lines,
the startup banner and the listening socket are left out.

What `buildTransport` makes of a tunnel is stated once, by protocol (`Built`): there is one
constructor for each branch in which something is built, with what the branch has asked for.
The other modules go by the constructors (`mem_buildTransport`) and leave the functions alone.
A tunnel is `usable` if anything is built of it, and the first of its transports is then known
(`exists_built`).

The modules below this one each follow one thing through startup: the strategy
(`Startup.Strategy`), the credentials of a URL (`Startup.ProxyUrl`), health
(`Startup.Health`), and identifiers (`Startup.Identity`). `Startup.Serving` and
`Startup.Outbound` go on to the runs of the proxy that was started.
-/

namespace Houdinny

/-- The protocols compiled in. -/
structure Features where
  socks5 : Bool
  wireguard : Bool
  tor : Bool
  deriving DecidableEq

/-- All protocols, compiled in. -/
def allFeatures : Features := ⟨true, true, true⟩

/-! ## Transports -/

namespace TunnelConfig

/-- The label, or the one that all tunnels without one share. -/
def labelOr (t : TunnelConfig) : Text := t.label.getD "(unlabelled)".toList

/-- Number of Tor circuits to maintain. -/
def circuitsOr (t : TunnelConfig) : ℕ := (t.circuits.getD 3).toNat

/-- A SOCKS5 tunnel needs an address. -/
def buildSocks5 (f : Features) (t : TunnelConfig) : List Transport :=
  if f.socks5 then match t.address with
    | some address => [.socks5 (.new address t.labelOr)]
    | none => []
  else []

/-- A WireGuard tunnel needs the interface that someone has set up for it. -/
def buildWireguard (f : Features) (t : TunnelConfig) : List Transport :=
  if f.wireguard then match t.interface with
    | some interface => [.wireguard (.new interface t.labelOr)]
    | none => []
  else []

/-- The address may be a full URL, or a bare `host:port`. -/
def isUrl (address : Text) : Bool :=
  "http://".toList.isPrefixOf address || "https://".toList.isPrefixOf address

/-- An HTTP proxy needs an address, which may be a URL. -/
def buildHttpProxy (t : TunnelConfig) : List Transport :=
  match t.address with
  | some address =>
    if isUrl address then match HttpProxyTransport.fromUrl address t.labelOr with
      | .ok transport => [.httpProxy transport]
      | .error _ => []
    else [.httpProxy (.new address none t.labelOr)]
  | none => []

/-- A Sentinel tunnel needs a node, a deposit and a wallet key; it has a default for the
    denomination. -/
def buildSentinel (t : TunnelConfig) : List Transport :=
  match t.node, t.deposit, t.walletKey with
  | some node, some deposit, some walletKey =>
    [.sentinel (.new node (t.denom.getD "udvpn".toList) deposit walletKey t.labelOr)]
  | _, _, _ => []

/-- A Tor tunnel has a transport for each circuit, if there is a client. -/
def buildTor (f : Features) (torClient : Except Text Unit) (t : TunnelConfig) : List Transport :=
  if f.tor then match createTorPool torClient t.circuitsOr t.labelOr with
    | .ok torTransports => torTransports.map .tor
    | .error _ => []
  else []

/-- Build the transports of a tunnel: none, if it is skipped. -/
def buildTransport (f : Features) (torClient : Except Text Unit) (t : TunnelConfig) :
    List Transport :=
  if t.protocol = "socks5".toList then t.buildSocks5 f
  else if t.protocol = "wireguard".toList then t.buildWireguard f
  else if t.protocol = "http-proxy".toList then t.buildHttpProxy
  else if t.protocol = "sentinel".toList then t.buildSentinel
  else if t.protocol = "tor".toList then t.buildTor f torClient
  else []

end TunnelConfig

/-- Build transports from tunnel configurations. -/
def buildTransports (f : Features) (torClient : ℕ → Except Text Unit)
    (tunnels : List TunnelConfig) : List Transport :=
  tunnels.zipIdx.flatMap fun p => p.1.buildTransport f (torClient p.2)

/-! ## Configuration -/

/-- The options that a command line gives. -/
structure CommandLine where
  config : Option Text
  listen : Option Text
  tunnels : Option (List Text)
  strategy : Option Text
  deriving DecidableEq

/-- The parsed command line: what it gives, and the defaults of the options. -/
structure Cli where
  config : Text
  listen : Option Text
  tunnels : Option (List Text)
  strategy : Text
  deriving DecidableEq

/-- The options that are not given have the defaults that are declared for them. -/
def CommandLine.cli (c : CommandLine) : Cli where
  config := c.config.getD "houdinny.toml".toList
  listen := c.listen
  tunnels := c.tunnels
  strategy := c.strategy.getD "random".toList

/-- The arguments that give the options. -/
def CommandLine.args (c : CommandLine) : List Text :=
  (c.config.toList.flatMap fun path => ["-c".toList, path]) ++
    (c.listen.toList.flatMap fun addr => ["-l".toList, addr]) ++
    (c.tunnels.toList.flatMap fun urls => ["-t".toList, ",".toList.intercalate urls]) ++
    c.strategy.toList.flatMap fun name => ["-s".toList, name]

/-- A reason for which the proxy does not start. -/
inductive Failure
  | context (msg : Text) (cause : Error)
  | bail (msg : Text)
  deriving DecidableEq

section

variable (casing : Text.CaseMapping) (crate : TomlCrate) (os : Os)

/-- The config file: it falls back to `tunnels.toml`. -/
def effectivePath (configPath : Text) : Text :=
  if os.pathExists configPath then configPath
  else if os.pathExists "tunnels.toml".toList then "tunnels.toml".toList
  else configPath

/-- The configuration before the overrides. -/
def loadConfig (cli : Cli) : Except Failure Config :=
  match cli.tunnels with
  | some urls => .ok (.fromTunnelUrls urls)
  | none =>
    let path := effectivePath os cli.config
    (Config.fromFile crate os path).mapError
      (.context ("failed to load config from ".toList ++ path))

/-- CLI overrides. -/
def overrideConfig (cli : Cli) (config : Config) : Except Failure Config :=
  match Strategy.fromName casing cli.strategy with
  | .error e => .error (.context ("invalid strategy: ".toList ++ cli.strategy) e)
  | .ok strategy =>
    let listen := cli.listen.getD config.proxy.listen
    .ok { config with proxy := { config.proxy with listen := listen, strategy := strategy } }

/-- The configuration that the proxy runs with. -/
def effectiveConfig (cli : Cli) : Except Failure Config :=
  match loadConfig crate os cli with
  | .error e => .error e
  | .ok config => overrideConfig casing cli config

end

/-! ## Serving -/

/-- The picker closure: the pool and the router. -/
structure Picker (w : ℕ) where
  pool : Pool Transport
  router : Router w

/-- What a call of the picker returns while nobody writes to the pool. -/
def Picker.pick {w : ℕ} (p : Picker w) (draw : ℕ) : Except Error Transport :=
  (p.router.pick Transport.healthy draw
    (p.pool.healthyTransportsSync Transport.healthy false)).1

/-- It is what a pick returns that nothing comes between. -/
theorem Picker.run_pick {w : ℕ} (p : Picker w) (draw : ℕ) : ∃ draws router kept q,
    Run.run (Pick.stepIn (.start p.pool Transport.healthy p.router))
      (p.router, ⟨[], [], .called⟩) draws = some (router, q) ∧ q.Returned kept (p.pick draw) := by
  obtain ⟨draws, q, hrun, hreturned⟩ :=
    Pick.run_pick (World.start p.pool Transport.healthy p.router) [] draw
  exact ⟨draws, _, _, q, hrun, hreturned⟩

/-- Build the transports, the pool and the router. -/
def serve (w : ℕ) (f : Features) (torClient : ℕ → Except Text Unit) (config : Config) :
    Except Failure (Picker w) :=
  let transports := buildTransports f torClient config.tunnel
  if transports.isEmpty then
    .error (.bail ("cannot start proxy with no usable transports. ".toList ++
      "Add tunnels via -t/--tunnels or a config file.".toList))
  else .ok ⟨.new transports, config.proxy.strategy.buildRouter w⟩

/-! ## What is built -/

/-- What is built of a tunnel. -/
inductive Built (f : Features) (torClient : Except Text Unit) (t : TunnelConfig) :
    Transport → Prop
  | socks5 {address : Text} (hp : t.protocol = "socks5".toList) (hf : f.socks5 = true)
    (ha : t.address = some address) : Built f torClient t (.socks5 (.new address t.labelOr))
  | wireguard {interface : Text} (hp : t.protocol = "wireguard".toList) (hf : f.wireguard = true)
    (hi : t.interface = some interface) :
    Built f torClient t (.wireguard (.new interface t.labelOr))
  | httpUrl {address : Text} {transport : HttpProxyTransport}
    (hp : t.protocol = "http-proxy".toList) (ha : t.address = some address)
    (hurl : TunnelConfig.isUrl address = true)
    (hok : HttpProxyTransport.fromUrl address t.labelOr = .ok transport) :
    Built f torClient t (.httpProxy transport)
  | httpBare {address : Text} (hp : t.protocol = "http-proxy".toList)
    (ha : t.address = some address) (hurl : TunnelConfig.isUrl address = false) :
    Built f torClient t (.httpProxy (.new address none t.labelOr))
  | sentinel {node deposit walletKey : Text} (hp : t.protocol = "sentinel".toList)
    (hn : t.node = some node) (hd : t.deposit = some deposit)
    (hw : t.walletKey = some walletKey) :
    Built f torClient t
      (.sentinel (.new node (t.denom.getD "udvpn".toList) deposit walletKey t.labelOr))
  | tor {k : ℕ} (hp : t.protocol = "tor".toList) (hf : f.tor = true) (hc : torClient = .ok ())
    (hk : k < t.circuitsOr) : Built f torClient t (.tor (.new t.labelOr k))

variable {f : Features} {torClient : Except Text Unit} {t : TunnelConfig} {x : Transport}

namespace TunnelConfig

/-- What is built of a SOCKS5 tunnel. -/
theorem mem_buildSocks5 : x ∈ t.buildSocks5 f ↔
    f.socks5 = true ∧ ∃ a, t.address = some a ∧ x = .socks5 (.new a t.labelOr) := by
  rw [buildSocks5]
  split_ifs with hf <;> rcases t.address <;> simp [hf]

/-- What is built of a WireGuard tunnel. -/
theorem mem_buildWireguard : x ∈ t.buildWireguard f ↔
    f.wireguard = true ∧ ∃ i, t.interface = some i ∧ x = .wireguard (.new i t.labelOr) := by
  rw [buildWireguard]
  split_ifs with hf <;> rcases t.interface <;> simp [hf]

/-- What is built of a tunnel through an HTTP proxy. -/
theorem mem_buildHttpProxy : x ∈ t.buildHttpProxy ↔ ∃ a, t.address = some a ∧
    (isUrl a = true ∧ (∃ h, HttpProxyTransport.fromUrl a t.labelOr = .ok h ∧ x = .httpProxy h) ∨
      isUrl a = false ∧ x = .httpProxy (.new a none t.labelOr)) := by
  rw [buildHttpProxy]
  rcases t.address with _ | a
  · simp
  · by_cases hurl : isUrl a = true
    · rcases hok : HttpProxyTransport.fromUrl a t.labelOr <;> simp [hurl, hok]
    · simp [hurl]

/-- What is built of a Sentinel tunnel. -/
theorem mem_buildSentinel : x ∈ t.buildSentinel ↔ ∃ n d k, t.node = some n ∧
    t.deposit = some d ∧ t.walletKey = some k ∧
    x = .sentinel (.new n (t.denom.getD "udvpn".toList) d k t.labelOr) := by
  rw [buildSentinel]
  rcases t.node <;> rcases t.deposit <;> rcases t.walletKey <;> simp

/-- What is built of a Tor tunnel. -/
theorem mem_buildTor : x ∈ t.buildTor f torClient ↔ f.tor = true ∧ torClient = .ok () ∧
    ∃ k < t.circuitsOr, x = .tor (.new t.labelOr k) := by
  rw [buildTor]
  split_ifs with hf
  · rcases torClient with e | u
    · simp [createTorPool]
    · simp [createTorPool, hf, eq_comm]
  · simp [hf]

/-- The transports of a tunnel, by protocol. -/
theorem mem_buildTransport : x ∈ t.buildTransport f torClient ↔ Built f torClient t x := by
  constructor
  · intro h
    -- One branch for each protocol, in the order in which the source looks at them.
    rw [buildTransport] at h
    split_ifs at h with h₁ h₂ h₃ h₄ h₅
    · obtain ⟨hf, a, ha, rfl⟩ := mem_buildSocks5.1 h
      exact .socks5 h₁ hf ha
    · obtain ⟨hf, i, hi, rfl⟩ := mem_buildWireguard.1 h
      exact .wireguard h₂ hf hi
    · obtain ⟨a, ha, ⟨hurl, y, hok, rfl⟩ | ⟨hurl, rfl⟩⟩ := mem_buildHttpProxy.1 h
      · exact .httpUrl h₃ ha hurl hok
      · exact .httpBare h₃ ha hurl
    · obtain ⟨n, d, k, hn, hd, hk, rfl⟩ := mem_buildSentinel.1 h
      exact .sentinel h₄ hn hd hk
    · obtain ⟨hf, hc, k, hk, rfl⟩ := mem_buildTor.1 h
      exact .tor h₅ hf hc hk
    · exact absurd h List.not_mem_nil
  · intro h
    cases h with
    | socks5 hp hf ha =>
      rw [buildTransport, if_pos hp]
      exact mem_buildSocks5.2 ⟨hf, _, ha, rfl⟩
    | wireguard hp hf hi =>
      rw [buildTransport, hp, if_neg (by decide), if_pos rfl]
      exact mem_buildWireguard.2 ⟨hf, _, hi, rfl⟩
    | httpUrl hp ha hurl hok =>
      rw [buildTransport, hp, if_neg (by decide), if_neg (by decide), if_pos rfl]
      exact mem_buildHttpProxy.2 ⟨_, ha, .inl ⟨hurl, _, hok, rfl⟩⟩
    | httpBare hp ha hurl =>
      rw [buildTransport, hp, if_neg (by decide), if_neg (by decide), if_pos rfl]
      exact mem_buildHttpProxy.2 ⟨_, ha, .inr ⟨hurl, rfl⟩⟩
    | sentinel hp hn hd hw =>
      rw [buildTransport, hp, if_neg (by decide), if_neg (by decide), if_neg (by decide),
        if_pos rfl]
      exact mem_buildSentinel.2 ⟨_, _, _, hn, hd, hw, rfl⟩
    | tor hp hf hc hk =>
      rw [buildTransport, hp, if_neg (by decide), if_neg (by decide), if_neg (by decide),
        if_neg (by decide), if_pos rfl]
      exact mem_buildTor.2 ⟨hf, hc, _, hk, rfl⟩

/-- The tunnel has what its protocol needs, and is not skipped. -/
def usable (f : Features) (torClient : Except Text Unit) (t : TunnelConfig) : Bool :=
  if t.protocol = "socks5".toList then f.socks5 && t.address.isSome
  else if t.protocol = "wireguard".toList then f.wireguard && t.interface.isSome
  else if t.protocol = "http-proxy".toList then t.address.any fun address =>
    !isUrl address || (HttpProxyTransport.fromUrl address t.labelOr).isOk
  else if t.protocol = "sentinel".toList then
    t.node.isSome && t.deposit.isSome && t.walletKey.isSome
  else if t.protocol = "tor".toList then f.tor && torClient.isOk && decide (0 < t.circuitsOr)
  else false

/-- A tunnel is usable if anything is built of it. -/
theorem usable_of_built (h : Built f torClient t x) : t.usable f torClient = true := by
  cases h with
  | socks5 hp hf ha => simp [usable, hp, hf, ha]
  | wireguard hp hf hi => simp [usable, hp, hf, hi]
  | httpUrl hp ha hurl hok => simp [usable, hp, ha, hurl, hok, Except.isOk, Except.toBool]
  | httpBare hp ha hurl => simp [usable, hp, ha, hurl]
  | sentinel hp hn hd hw => simp [usable, hp, hn, hd, hw]
  | tor hp hf hc hk =>
    have hpos : 0 < t.circuitsOr := by omega
    simp [usable, hp, hf, hc, hpos, Except.isOk, Except.toBool]

/-- The first of the transports of a usable tunnel. -/
theorem exists_built (h : t.usable f torClient = true) :
    ∃ x, Built f torClient t x ∧
      (t.protocol = "tor".toList → x = .tor (.new t.labelOr 0)) := by
  rw [usable] at h
  split_ifs at h with h₁ h₂ h₃ h₄ h₅
  · obtain ⟨hf, ha⟩ := Bool.and_eq_true_iff.1 h
    obtain ⟨a, ha⟩ := Option.isSome_iff_exists.1 ha
    exact ⟨_, .socks5 h₁ hf ha, fun hp => absurd (h₁.symm.trans hp) (by decide)⟩
  · obtain ⟨hf, hi⟩ := Bool.and_eq_true_iff.1 h
    obtain ⟨i, hi⟩ := Option.isSome_iff_exists.1 hi
    exact ⟨_, .wireguard h₂ hf hi, fun hp => absurd (h₂.symm.trans hp) (by decide)⟩
  · obtain ⟨a, ha, h⟩ := (Option.any_eq_true _ _).1 h
    have htor (x : Transport) (hp : t.protocol = "tor".toList) : x = .tor (.new t.labelOr 0) :=
      absurd (h₃.symm.trans hp) (by decide)
    rcases hurl : isUrl a with _ | _
    · exact ⟨_, .httpBare h₃ ha hurl, htor _⟩
    · -- The address is a URL: the tunnel is usable only if it can be parsed.
      rcases hok : HttpProxyTransport.fromUrl a t.labelOr with e | y
      · simp [hurl, hok, Except.isOk, Except.toBool] at h
      · exact ⟨_, .httpUrl h₃ ha hurl hok, htor _⟩
  · obtain ⟨⟨hn, hd⟩, hw⟩ : (t.node.isSome = true ∧ t.deposit.isSome = true) ∧
        t.walletKey.isSome = true := by simpa using h
    obtain ⟨n, hn⟩ := Option.isSome_iff_exists.1 hn
    obtain ⟨d, hd⟩ := Option.isSome_iff_exists.1 hd
    obtain ⟨k, hw⟩ := Option.isSome_iff_exists.1 hw
    exact ⟨_, .sentinel h₄ hn hd hw, fun hp => absurd (h₄.symm.trans hp) (by decide)⟩
  · obtain ⟨⟨hf, hc⟩, hpos⟩ : (f.tor = true ∧ torClient.isOk = true) ∧ 0 < t.circuitsOr := by
      simpa using h
    rcases torClient with e | u
    · exact absurd hc (by simp [Except.isOk, Except.toBool])
    · exact ⟨_, .tor h₅ hf rfl hpos, fun _ => rfl⟩

end TunnelConfig

end Houdinny
