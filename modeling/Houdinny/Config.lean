import Houdinny.Error
import Houdinny.Lib.Toml

/-!
# Configuration

A configuration comes from a TOML file, in which `${NAME}` stands for an
environment variable (`Config.fromFile`), or from tunnel URLs on the command
line (`Config.fromTunnelUrls`).

The TOML library is a parameter (`TomlCrate`): it parses a document to its
value, and words its refusals. What makes a value a configuration is determined
by the fields of the structures and their serde attributes, and modelled here
(`Config.decode`): a field is required, optional, or has a default, and fields
that are not known are ignored.

* `Config`, `ProxyConfig`, `DockerConfig`, `VpnConfig` and `TunnelConfig` are the structures
  of the source, with a `decode` for each, which says the attributes of its fields in
  `required`, `optional` and `defaulted`.
* `resolveEnvVars` replaces the references in the text of a file, before it is parsed.
* `Os` is what the program asks of its surroundings: the files and the environment.
* `TomlCrate.Conforms` says of the library that it parses the documents of the fragment of
  `Lib.Toml` to their values. That the library follows all of TOML is
  `TomlCrate.Follows`, in `Config.Environment`.

The modules below this one are about files to which tunnels are added (`Config.Append`),
about references (`Config.References`, `Config.Environment`), and about the `.env` file
(`Config.Dotenv`).
-/

namespace Houdinny

/-! ## Data model -/

/-- Proxy operating mode. -/
inductive ProxyMode
  | transparent
  | mitm
  deriving DecidableEq

/-- Tunnel selection strategy used by the router. -/
inductive Strategy
  | random
  | roundRobin
  deriving DecidableEq

/-- Proxy server configuration. -/
structure ProxyConfig where
  listen : Text
  mode : ProxyMode
  strategy : Strategy
  deriving DecidableEq

/-- A single Docker-managed VPN container configuration. -/
structure VpnConfig where
  provider : Text
  token : Option Text
  country : Text
  deriving DecidableEq

/-- Docker-managed VPN configuration section. -/
structure DockerConfig where
  enabled : Bool
  vpn : List VpnConfig
  deriving DecidableEq

/-- Configuration for a single tunnel. -/
structure TunnelConfig where
  protocol : Text
  label : Option Text
  address : Option Text
  endpoint : Option Text
  privateKey : Option Text
  publicKey : Option Text
  dns : Option Text
  interface : Option Text
  circuits : Option UInt32
  rotateInterval : Option Text
  node : Option Text
  denom : Option Text
  deposit : Option Text
  walletKey : Option Text
  deriving DecidableEq

/-- A tunnel of which nothing but the protocol is given. -/
def TunnelConfig.ofProtocol (protocol : Text) : TunnelConfig where
  protocol := protocol
  label := none
  address := none
  endpoint := none
  privateKey := none
  publicKey := none
  dns := none
  interface := none
  circuits := none
  rotateInterval := none
  node := none
  denom := none
  deposit := none
  walletKey := none

/-- Top-level configuration. -/
structure Config where
  proxy : ProxyConfig
  docker : DockerConfig
  tunnel : List TunnelConfig
  deriving DecidableEq

/-- The address to listen on, if none is given. -/
def defaultListen : Text := "127.0.0.1:8080".toList

instance : Inhabited ProxyMode := ⟨.transparent⟩

instance : Inhabited Strategy := ⟨.random⟩

instance : Inhabited ProxyConfig := ⟨defaultListen, default, default⟩

instance : Inhabited DockerConfig := ⟨false, []⟩

/-- Parse a strategy name from a CLI flag value. -/
def Strategy.fromName (casing : Text.CaseMapping) (name : Text) : Except Error Strategy :=
  let other := casing.toLowercase name
  if other = "random".toList then .ok .random
  else if other ∈ ["round-robin".toList, "roundrobin".toList, "rr".toList] then .ok .roundRobin
  else .error (.config ("unknown strategy: ".toList ++ other))

/-! ## Decoding -/

namespace Decode

open Toml

/-- A string. -/
def string : Value → Option Text
  | .string s => some s
  | _ => none

/-- A boolean. -/
def bool : Value → Option Bool
  | .boolean b => some b
  | _ => none

/-- An integer that is a `u32`. -/
def u32 : Value → Option UInt32
  | .integer n => if 0 ≤ n ∧ n < 4294967296 then some (UInt32.ofNat n.toNat) else none
  | _ => none

/-- An array, each element of which is decoded. -/
def array {α : Type} (decode : Value → Option α) : Value → Option (List α)
  | .array vs => vs.mapM decode
  | _ => none

/-- A table, by its entries. -/
def table {α : Type} (decode : Table → Option α) : Value → Option α
  | .table t => decode t
  | _ => none

/-- An enumeration without data, by its name, which may also be the only key of
    a table, with nothing in it. -/
def unit {α : Type} (variants : List (Text × α)) : Value → Option α
  | .string name | .table [(name, .table [])] | .table [(name, .array [])] => variants.lookup name
  | _ => none

/-- A field that must be there. -/
def required {α : Type} (t : Table) (key : Text) (decode : Value → Option α) : Option α :=
  (t.lookup key).bind decode

/-- A field that need not be there. -/
def optional {α : Type} (t : Table) (key : Text) (decode : Value → Option α) : Option (Option α) :=
  match t.lookup key with
  | none => some none
  | some v => (decode v).map some

/-- A field with a default. -/
def defaulted {α : Type} (t : Table) (key : Text) (d : α) (decode : Value → Option α) : Option α :=
  match t.lookup key with
  | none => some d
  | some v => decode v

end Decode

open Decode

/-- A mode, by its name. -/
def ProxyMode.decode : Toml.Value → Option ProxyMode :=
  unit [("transparent".toList, .transparent), ("mitm".toList, .mitm)]

/-- A strategy, by its name. The other names that the command line takes are not among them. -/
def Strategy.decode : Toml.Value → Option Strategy :=
  unit [("random".toList, .random), ("round-robin".toList, .roundRobin)]

/-- All the fields of `[proxy]` have defaults. -/
def ProxyConfig.decode (t : Toml.Table) : Option ProxyConfig := do
  return {
    listen := ← defaulted t "listen".toList defaultListen string
    mode := ← defaulted t "mode".toList default ProxyMode.decode
    strategy := ← defaulted t "strategy".toList default Strategy.decode }

/-- A `[[docker.vpn]]` needs its provider and its country. -/
def VpnConfig.decode (t : Toml.Table) : Option VpnConfig := do
  return {
    provider := ← required t "provider".toList string
    token := ← optional t "token".toList string
    country := ← required t "country".toList string }

/-- All the fields of `[docker]` have defaults. -/
def DockerConfig.decode (t : Toml.Table) : Option DockerConfig := do
  return {
    enabled := ← defaulted t "enabled".toList false bool
    vpn := ← defaulted t "vpn".toList [] (array (table VpnConfig.decode)) }

/-- A `[[tunnel]]` needs nothing but its protocol. -/
def TunnelConfig.decode (t : Toml.Table) : Option TunnelConfig := do
  return {
    protocol := ← required t "protocol".toList string
    label := ← optional t "label".toList string
    address := ← optional t "address".toList string
    endpoint := ← optional t "endpoint".toList string
    privateKey := ← optional t "private_key".toList string
    publicKey := ← optional t "public_key".toList string
    dns := ← optional t "dns".toList string
    interface := ← optional t "interface".toList string
    circuits := ← optional t "circuits".toList u32
    rotateInterval := ← optional t "rotate_interval".toList string
    node := ← optional t "node".toList string
    denom := ← optional t "denom".toList string
    deposit := ← optional t "deposit".toList string
    walletKey := ← optional t "wallet_key".toList string }

/-- The configuration that the value of a document is. -/
def Config.decode (t : Toml.Table) : Option Config := do
  return {
    proxy := ← defaulted t "proxy".toList default (table ProxyConfig.decode)
    docker := ← defaulted t "docker".toList default (table DockerConfig.decode)
    tunnel := ← defaulted t "tunnel".toList [] (array (table TunnelConfig.decode)) }

/-- A value with nothing but tunnels. -/
theorem Config.decode_tunnels {vs : List Toml.Value} {tunnels : List TunnelConfig}
    (h : vs.mapM (table TunnelConfig.decode) = some tunnels) :
    decode [("tunnel".toList, .array vs)] = some ⟨default, default, tunnels⟩ := by
  have htunnel : defaulted [("tunnel".toList, .array vs)] "tunnel".toList []
      (array (table TunnelConfig.decode)) = some tunnels := h
  rw [decode, htunnel]
  rfl

/-! ## Environment variables -/

/-- The text that a reference `${name}` becomes. -/
def resolveReference (env : Text → Option Text) (name : Text) : Text :=
  if name.isEmpty then ['$', '{', '}'] else (env name).getD (['$', '{'] ++ name ++ ['}'])

/-- `resolveEnvVars`, within a reference of which `name` was collected, or
    outside of any. -/
def resolveFrom (env : Text → Option Text) : Option Text → Text → Text
  | none, [] => []
  | none, '$' :: '{' :: rest => resolveFrom env (some []) rest
  | none, ch :: rest => ch :: resolveFrom env none rest
  | some name, [] => ['$', '{'] ++ name
  | some name, c :: rest =>
    if c = '}' then resolveReference env name ++ resolveFrom env none rest
    else resolveFrom env (some (name ++ [c])) rest

/-- Resolve `${VAR_NAME}` references in a string from environment variables. -/
def resolveEnvVars (env : Text → Option Text) (input : Text) : Text := resolveFrom env none input

/-- No reference begins in the text. -/
def Unreferring (s : Text) : Prop := ¬['$', '{'] <:+: s

instance (s : Text) : Decidable (Unreferring s) := inferInstanceAs (Decidable (¬_))

/-- A text without references stays as it is. -/
theorem resolveEnvVars_of_unreferring {env : Text → Option Text} {input : Text}
    (h : Unreferring input) : resolveEnvVars env input = input := by
  rw [resolveEnvVars]
  induction input with
  | nil => rfl
  | cons ch rest ih =>
    rw [Unreferring, List.infix_cons_iff, not_or] at h
    rw [resolveFrom, ih h.2]
    rintro rest rfl rfl
    exact h.1 (List.prefix_append ['$', '{'] rest)

/-- A text without dollars has no references. -/
theorem unreferring_of_notMem {s : Text} (h : '$' ∉ s) : Unreferring s :=
  fun hpair => h (hpair.subset List.mem_cons_self)

/-- A text without dollars stays as it is. -/
theorem resolveEnvVars_of_notMem {env : Text → Option Text} {input : Text} (h : '$' ∉ input) :
    resolveEnvVars env input = input := resolveEnvVars_of_unreferring (unreferring_of_notMem h)

/-! ## Constructors -/

/-- What the program asks of the operating system. -/
structure Os where
  /-- The environment, with the variables of the `.env` file. -/
  env : Text → Option Text
  readFile : Text → Except IoError Text
  pathExists : Text → Bool

/-- The TOML library. -/
structure TomlCrate where
  parse : Text → Except Text Toml.Table
  /-- The message for a document whose value is no configuration. -/
  refusal : Text → Text

/-- The library parses the documents of the fragment to their values. -/
def TomlCrate.Conforms (crate : TomlCrate) : Prop :=
  ∀ d : Toml.Doc, d.WellFormed → crate.parse d.render = .ok d.value

namespace Config

/-- Parse configuration from a TOML string. -/
def parseToml (crate : TomlCrate) (s : Text) : Except Error Config :=
  match crate.parse s with
  | .error e => .error (.config ("invalid TOML: ".toList ++ e))
  | .ok t => match Config.decode t with
    | some config => .ok config
    | none => .error (.config ("invalid TOML: ".toList ++ crate.refusal s))

/-- Load configuration from a TOML file on disk. -/
def fromFile (crate : TomlCrate) (os : Os) (path : Text) : Except Error Config :=
  match os.readFile path with
  | .error e =>
    .error (.config ("failed to read ".toList ++ path ++ ": ".toList ++ e))
  | .ok contents => parseToml crate (resolveEnvVars os.env contents)

/-- A file that can be read is parsed. -/
theorem fromFile_of_readFile {crate : TomlCrate} {os : Os} {path contents : Text}
    (h : os.readFile path = .ok contents) :
    fromFile crate os path = parseToml crate (resolveEnvVars os.env contents) := by
  rw [fromFile, h]

/-- A document of the fragment is parsed to the configuration that its value is. -/
theorem parseToml_render {crate : TomlCrate} {d : Toml.Doc} {config : Config}
    (hcrate : crate.Conforms) (hd : d.WellFormed) (h : decode d.value = some config) :
    parseToml crate d.render = .ok config := by
  rw [parseToml, hcrate d hd]
  simp only [h]

/-- Parse a tunnel URL like `socks5://127.0.0.1:1080` into
    `("socks5", "127.0.0.1:1080")`. -/
def parseTunnelUrl (url : Text) : Text × Text :=
  match Text.splitOnce "://".toList url with
  | some (scheme, rest) => (scheme, rest)
  | none => ("socks5".toList, url)

/-- The tunnel of the URL number `i`. -/
def tunnelOfUrl (url : Text) (i : ℕ) : TunnelConfig where
  protocol := (parseTunnelUrl url).1
  label := some ("cli-".toList ++ Text.ofNat i)
  address := some (parseTunnelUrl url).2
  endpoint := none
  privateKey := none
  publicKey := none
  dns := none
  interface := none
  circuits := none
  rotateInterval := none
  node := none
  denom := none
  deposit := none
  walletKey := none

/-- Build a `Config` from CLI tunnel URLs. -/
def fromTunnelUrls (urls : List Text) : Config where
  proxy := default
  docker := default
  tunnel := urls.zipIdx.map fun p => tunnelOfUrl p.1 p.2

end Config

/-- The library that parses the documents of the fragment, and no other. -/
def fragmentCrate : TomlCrate where
  parse s := match Toml.read s with
    | some d => .ok d.value
    | none => .error "TOML parse error".toList
  refusal _ := "invalid configuration".toList

/-- It parses the documents of the fragment to their values. -/
theorem fragmentCrate_conforms : fragmentCrate.Conforms := fun d hd => by
  have hread : Toml.read d.render = some d := Toml.read_eq_some_iff.2 ⟨hd, rfl⟩
  simp only [fragmentCrate, hread]

end Houdinny
