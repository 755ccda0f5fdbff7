import Houdinny.Config
import Houdinny.Lib.Toml.Values

/-!
# The fields of a configuration

A configuration is decoded field by field: the strings of a document that are
the values of string fields (`Field`) are found again in the configuration, and
nothing else depends on them (`Field.decode_eq_map`).

A `Field` is the listening address, a field of one of the VPNs, or a field of one of the
tunnels. It has a path in documents (`Field.path`), and is read from a configuration
(`Field.get`) and replaced in one (`Field.set`). That two documents differ in the string at
this path, and nowhere else, is `Value.Differ` of `Lib.Toml.Values`.

The proofs go down the path. A section with the field in it is decoded as before but for the
field (`decode_proxy`, `decode_docker`, `array_eq_map`), and the other sections are decoded
from the same values (`defaulted_congr`). At the end of the path, the fields of a tunnel or
of a VPN are looked at one by one (`bind_eq_map_bind`, `some_bind_eq_map_bind`).
-/

namespace Houdinny

open Toml Decode

/-! ## String fields -/

/-- The string fields of a tunnel. -/
inductive TunnelField
  | protocol
  | label
  | address
  | endpoint
  | privateKey
  | publicKey
  | dns
  | interface
  | rotateInterval
  | node
  | denom
  | deposit
  | walletKey
  deriving DecidableEq

namespace TunnelField

/-- The key of the field in a `[[tunnel]]`. -/
def key : TunnelField → Text
  | protocol => "protocol".toList
  | label => "label".toList
  | address => "address".toList
  | endpoint => "endpoint".toList
  | privateKey => "private_key".toList
  | publicKey => "public_key".toList
  | dns => "dns".toList
  | interface => "interface".toList
  | rotateInterval => "rotate_interval".toList
  | node => "node".toList
  | denom => "denom".toList
  | deposit => "deposit".toList
  | walletKey => "wallet_key".toList

/-- The value of the field, if it has one. -/
def get : TunnelField → TunnelConfig → Option Text
  | protocol, c => some c.protocol
  | label, c => c.label
  | address, c => c.address
  | endpoint, c => c.endpoint
  | privateKey, c => c.privateKey
  | publicKey, c => c.publicKey
  | dns, c => c.dns
  | interface, c => c.interface
  | rotateInterval, c => c.rotateInterval
  | node, c => c.node
  | denom, c => c.denom
  | deposit, c => c.deposit
  | walletKey, c => c.walletKey

/-- The tunnel with another value of the field. -/
def set (f : TunnelField) (s : Text) (c : TunnelConfig) : TunnelConfig :=
  match f with
  | protocol => { c with protocol := s }
  | label => { c with label := some s }
  | address => { c with address := some s }
  | endpoint => { c with endpoint := some s }
  | privateKey => { c with privateKey := some s }
  | publicKey => { c with publicKey := some s }
  | dns => { c with dns := some s }
  | interface => { c with interface := some s }
  | rotateInterval => { c with rotateInterval := some s }
  | node => { c with node := some s }
  | denom => { c with denom := some s }
  | deposit => { c with deposit := some s }
  | walletKey => { c with walletKey := some s }

/-- The value that was set is there. -/
theorem get_set (f : TunnelField) (s : Text) (c : TunnelConfig) : f.get (f.set s c) = some s := by
  cases f <;> rfl

/-- All string fields. -/
def all : List TunnelField :=
  [protocol, label, address, endpoint, privateKey, publicKey, dns, interface, rotateInterval, node,
    denom, deposit, walletKey]

/-- There is no other string field. -/
theorem mem_all (f : TunnelField) : f ∈ all := by
  cases f <;> decide

/-- No key of a tunnel is used twice. -/
theorem nodup_keys : ("circuits".toList :: all.map key).Nodup := by
  decide

/-- A key is that of one field. -/
theorem key_injective : Function.Injective key := fun f g =>
  List.inj_on_of_nodup_map (List.nodup_cons.1 nodup_keys).2 (mem_all f) (mem_all g)

/-- The only field that is no string has a key of its own. -/
theorem circuits_ne_key (f : TunnelField) : "circuits".toList ≠ f.key := fun h =>
  (List.nodup_cons.1 nodup_keys).1 (h ▸ List.mem_map_of_mem (mem_all f))

end TunnelField

/-- A required field depends on its own entry only. -/
theorem required_congr {α : Type} {t t' : Table} {key : Text} (h : t'.lookup key = t.lookup key)
    (decode : Value → Option α) : required t' key decode = required t key decode := by
  rw [required, required, h]

/-- So does an optional one. -/
theorem optional_congr {α : Type} {t t' : Table} {key : Text} (h : t'.lookup key = t.lookup key)
    (decode : Value → Option α) : Decode.optional t' key decode = Decode.optional t key decode := by
  rw [Decode.optional, Decode.optional, h]

/-- A required string is the one that is there. -/
theorem required_string {t : Table} {key s : Text} (h : t.lookup key = some (.string s)) :
    required t key string = some s := by
  rw [required, h]
  rfl

/-- So is an optional one. -/
theorem optional_string {t : Table} {key s : Text} (h : t.lookup key = some (.string s)) :
    Decode.optional t key string = some (some s) := by
  rw [Decode.optional, h]
  rfl

/-- Two decodings are the same up to `g` if they go on so from the same value, -/
theorem bind_eq_map_bind {α β : Type} {x : Option α} {F G : α → Option β} {g : β → β}
    (h : ∀ a, F a = (G a).map g) : (x >>= F) = (x >>= G).map g := by
  cases x
  · rfl
  · exact h _

/-- or from two values that are known. -/
theorem some_bind_eq_map_bind {α β : Type} {a b : α} {F G : α → Option β} {g : β → β}
    (h : F a = (G b).map g) : (some a >>= F) = (some b >>= G).map g := h

/-- What a tunnel is decoded from. -/
theorem TunnelConfig.decode_eq (t : Table) : decode t = do
    return {
      protocol := ← required t TunnelField.protocol.key string
      label := ← Decode.optional t TunnelField.label.key string
      address := ← Decode.optional t TunnelField.address.key string
      endpoint := ← Decode.optional t TunnelField.endpoint.key string
      privateKey := ← Decode.optional t TunnelField.privateKey.key string
      publicKey := ← Decode.optional t TunnelField.publicKey.key string
      dns := ← Decode.optional t TunnelField.dns.key string
      interface := ← Decode.optional t TunnelField.interface.key string
      circuits := ← Decode.optional t "circuits".toList u32
      rotateInterval := ← Decode.optional t TunnelField.rotateInterval.key string
      node := ← Decode.optional t TunnelField.node.key string
      denom := ← Decode.optional t TunnelField.denom.key string
      deposit := ← Decode.optional t TunnelField.deposit.key string
      walletKey := ← Decode.optional t TunnelField.walletKey.key string } := rfl

/-- A tunnel with another string as the value of a field. -/
theorem TunnelField.decode_eq_map (f : TunnelField) {t t' : Table} {s u : Text}
    (h : t.lookup f.key = some (.string s)) (h' : t'.lookup f.key = some (.string u))
    (hne : ∀ j, j ≠ f.key → t'.lookup j = t.lookup j) :
    TunnelConfig.decode t' = (TunnelConfig.decode t).map (f.set u) := by
  have hfield {g : TunnelField} (hg : g ≠ f) : t'.lookup g.key = t.lookup g.key :=
    hne _ fun hkey => hg (key_injective hkey)
  have hcircuits := optional_congr (hne _ f.circuits_ne_key) u32
  rw [TunnelConfig.decode_eq, TunnelConfig.decode_eq]
  -- All lookups but that of the field are the same.
  cases f <;>
    simp (disch := decide) only [required_string h, required_string h', optional_string h,
      optional_string h', required_congr (hfield _), optional_congr (hfield _), hcircuits] <;>
    repeat' first
      | refine bind_eq_map_bind fun _ => ?_
      | rfl
      | refine some_bind_eq_map_bind ?_

/-- The string fields of a VPN. -/
inductive VpnField
  | provider
  | token
  | country
  deriving DecidableEq

namespace VpnField

/-- The key of the field in a `[[docker.vpn]]`. -/
def key : VpnField → Text
  | provider => "provider".toList
  | token => "token".toList
  | country => "country".toList

/-- The value of the field, if it has one. -/
def get : VpnField → VpnConfig → Option Text
  | provider, c => some c.provider
  | token, c => c.token
  | country, c => some c.country

/-- The VPN with another value of the field. -/
def set (f : VpnField) (s : Text) (c : VpnConfig) : VpnConfig :=
  match f with
  | provider => { c with provider := s }
  | token => { c with token := some s }
  | country => { c with country := s }

/-- The value that was set is there. -/
theorem get_set (f : VpnField) (s : Text) (c : VpnConfig) : f.get (f.set s c) = some s := by
  cases f <;> rfl

/-- A key is that of one field. -/
theorem key_injective : Function.Injective key := fun f g h => by
  have hall : ∀ f ∈ [provider, token, country], ∀ g ∈ [provider, token, country],
      f.key = g.key → f = g := by decide
  exact hall f (by cases f <;> decide) g (by cases g <;> decide) h

/-- A VPN with another string as the value of a field. -/
theorem decode_eq_map (f : VpnField) {t t' : Table} {s u : Text}
    (h : t.lookup f.key = some (.string s)) (h' : t'.lookup f.key = some (.string u))
    (hne : ∀ j, j ≠ f.key → t'.lookup j = t.lookup j) :
    VpnConfig.decode t' = (VpnConfig.decode t).map (f.set u) := by
  -- The entries of the other fields are the same in both tables.
  have hfield {g : VpnField} (hg : g ≠ f) : t'.lookup g.key = t.lookup g.key :=
    hne _ fun hkey => hg (key_injective hkey)
  have hdecode (t : Table) : VpnConfig.decode t = do
      return {
        provider := ← required t VpnField.provider.key string
        token := ← Decode.optional t VpnField.token.key string
        country := ← required t VpnField.country.key string } := rfl
  rw [hdecode, hdecode]
  cases f <;>
    simp (disch := decide) only [required_string h, required_string h', optional_string h,
      optional_string h', required_congr (hfield _), optional_congr (hfield _)] <;>
    repeat' first
      | refine bind_eq_map_bind fun _ => ?_
      | rfl
      | refine some_bind_eq_map_bind ?_

end VpnField

/-- The string fields of a configuration. -/
inductive Field
  | listen
  | vpn (i : ℕ) (f : VpnField)
  | tunnel (i : ℕ) (f : TunnelField)
  deriving DecidableEq

namespace Field

/-- Where the field is in a document. -/
def path : Field → List Seg
  | listen => [.key "proxy".toList, .key "listen".toList]
  | vpn i f => [.key "docker".toList, .key "vpn".toList, .idx i, .key f.key]
  | tunnel i f => [.key "tunnel".toList, .idx i, .key f.key]

/-- The value of the field, if it has one. -/
def get : Field → Config → Option Text
  | listen, config => some config.proxy.listen
  | vpn i f, config => config.docker.vpn[i]?.bind f.get
  | tunnel i f, config => config.tunnel[i]?.bind f.get

/-- The configuration with another value of the field. -/
def set (f : Field) (s : Text) (config : Config) : Config :=
  match f with
  | listen => { config with proxy := { config.proxy with listen := s } }
  | vpn i f =>
    { config with docker := { config.docker with vpn := config.docker.vpn.modify i (f.set s) } }
  | tunnel i f => { config with tunnel := config.tunnel.modify i (f.set s) }

end Field

/-- A field that is there does not take its default. -/
theorem defaulted_of_lookup {α : Type} {t : Table} {key : Text} {v : Value}
    (h : t.lookup key = some v) (d : α) (decode : Value → Option α) :
    defaulted t key d decode = decode v := by
  rw [defaulted, h]

/-- A field with a default depends on its own entry only. -/
theorem defaulted_congr {α : Type} {t t' : Table} {key : Text} (h : t'.lookup key = t.lookup key)
    (d : α) (decode : Value → Option α) : defaulted t' key d decode = defaulted t key d decode := by
  rw [defaulted, defaulted, h]

/-- A list with an element for which a function has another result. -/
theorem mapM_append_cons {α β : Type} {g : α → Option β} {φ : β → β} {x x' : α}
    (h : g x' = (g x).map φ) (l r : List α) :
    (l ++ x' :: r).mapM g = ((l ++ x :: r).mapM g).map fun bs => bs.modify l.length φ := by
  induction l with
  | nil =>
    rw [List.nil_append, List.nil_append, List.mapM_cons, List.mapM_cons, h]
    rcases g x with _ | b
    · rfl
    · rcases r.mapM g with _ | bs <;> rfl
  | cons a l ih =>
    rw [List.cons_append, List.cons_append, List.mapM_cons, List.mapM_cons, ih]
    rcases g a with _ | b
    · rfl
    · rcases (l ++ x :: r).mapM g with _ | bs <;> rfl

namespace Field

/-- An array with another string as the value of a field of an element. -/
theorem array_eq_map {α : Type} {decode : Table → Option α} {key s u : Text} {φ : α → α} {i : ℕ}
    (hdecode : ∀ {t t' : Table}, t.lookup key = some (.string s) →
      t'.lookup key = some (.string u) → (∀ j, j ≠ key → t'.lookup j = t.lookup j) →
      decode t' = (decode t).map φ) {v v' : Value}
    (h : Value.Differ s u [.idx i, .key key] v v') :
    array (table decode) v' = (array (table decode) v).map fun as => as.modify i φ := by
  cases h with
  | @item _ l r v v' h =>
    cases h with
    | @entry _ _ tb tb' _ _ hk hk' hne h =>
      cases h
      have helem : table decode (.table tb') = (table decode (.table tb)).map φ :=
        hdecode hk hk' hne
      exact mapM_append_cons helem l r

/-- A `[proxy]` with another listening address. -/
theorem decode_proxy {t t' : Table} {s u : Text} (h : t.lookup "listen".toList = some (.string s))
    (h' : t'.lookup "listen".toList = some (.string u))
    (hne : ∀ j, j ≠ "listen".toList → t'.lookup j = t.lookup j) :
    ProxyConfig.decode t' = (ProxyConfig.decode t).map fun c => { c with listen := u } := by
  have hmode := defaulted_congr (hne "mode".toList (by decide)) default ProxyMode.decode
  have hstrategy := defaulted_congr (hne "strategy".toList (by decide)) default Strategy.decode
  rw [ProxyConfig.decode, ProxyConfig.decode, defaulted_of_lookup h, defaulted_of_lookup h', hmode,
    hstrategy]
  simp only [string, Option.map_bind, Function.comp_def, Option.bind_eq_bind, Option.bind_some]
  rfl

/-- A `[docker]` with another string as the value of a field of a VPN. -/
theorem decode_docker {t t' : Table} {s u : Text} {i : ℕ} {f : VpnField} {v v' : Value}
    (h : t.lookup "vpn".toList = some v) (h' : t'.lookup "vpn".toList = some v')
    (hne : ∀ j, j ≠ "vpn".toList → t'.lookup j = t.lookup j)
    (hdiff : Value.Differ s u [.idx i, .key f.key] v v') : DockerConfig.decode t' =
      (DockerConfig.decode t).map fun c => { c with vpn := c.vpn.modify i (f.set u) } := by
  have henabled := defaulted_congr (hne "enabled".toList (by decide)) false bool
  rw [DockerConfig.decode, DockerConfig.decode, henabled, defaulted_of_lookup h,
    defaulted_of_lookup h', array_eq_map f.decode_eq_map hdiff]
  simp only [Option.map_bind, Function.comp_def, Option.bind_eq_bind, Option.bind_map]
  rfl

/-- A configuration with another string as the value of a field. -/
theorem decode_eq_map (f : Field) {t t' : Table} {s u : Text}
    (h : Value.Differ s u f.path (.table t) (.table t')) :
    Config.decode t' = (Config.decode t).map (f.set u) := by
  have hproxy (hne : t'.lookup "proxy".toList = t.lookup "proxy".toList) :=
    defaulted_congr hne default (table ProxyConfig.decode)
  have hdocker (hne : t'.lookup "docker".toList = t.lookup "docker".toList) :=
    defaulted_congr hne default (table DockerConfig.decode)
  have htunnel (hne : t'.lookup "tunnel".toList = t.lookup "tunnel".toList) :=
    defaulted_congr hne [] (array (table TunnelConfig.decode))
  rw [Config.decode, Config.decode]
  cases f with
  -- In each case the path is followed by inversion on how the documents differ: the section on
  -- the path is the one that differs, and the other two are the same.
  | listen =>
    obtain _ | ⟨hk, hk', hne, ⟨⟩ | @⟨_, _, tb, tb', _, _, hl, hl', hlne, ⟨⟩⟩⟩ := h
    have hsection : table ProxyConfig.decode (.table tb') =
        (table ProxyConfig.decode (.table tb)).map fun c => { c with listen := u } :=
      decode_proxy hl hl' hlne
    rw [hdocker (hne _ (by decide)), htunnel (hne _ (by decide)), defaulted_of_lookup hk,
      defaulted_of_lookup hk', hsection]
    simp only [Option.map_bind, Function.comp_def, Option.bind_eq_bind, Option.bind_map]
    rfl
  | vpn i f =>
    obtain _ | ⟨hk, hk', hne, ⟨⟩ | @⟨_, _, tb, tb', _, _, hv, hv', hvne, hdiff⟩⟩ := h
    have hsection : table DockerConfig.decode (.table tb') =
        (table DockerConfig.decode (.table tb)).map fun c =>
          { c with vpn := c.vpn.modify i (f.set u) } := decode_docker hv hv' hvne hdiff
    rw [hproxy (hne _ (by decide)), htunnel (hne _ (by decide)), defaulted_of_lookup hk,
      defaulted_of_lookup hk', hsection]
    simp only [Option.map_bind, Function.comp_def, Option.bind_eq_bind, Option.bind_map]
    rfl
  | tunnel i f =>
    obtain _ | ⟨hk, hk', hne, hdiff⟩ := h
    rw [hproxy (hne _ (by decide)), hdocker (hne _ (by decide)), defaulted_of_lookup hk,
      defaulted_of_lookup hk', array_eq_map f.decode_eq_map hdiff]
    simp only [Option.map_bind, Function.comp_def, Option.bind_eq_bind, Option.bind_map]
    rfl

end Field

/-- A configuration is decoded section by section. -/
theorem Config.decode_eq_some {t : Table} {config : Config} : Config.decode t = some config ↔
    defaulted t "proxy".toList default (table ProxyConfig.decode) = some config.proxy ∧
    defaulted t "docker".toList default (table DockerConfig.decode) = some config.docker ∧
    defaulted t "tunnel".toList [] (array (table TunnelConfig.decode)) = some config.tunnel := by
  obtain ⟨proxy, docker, tunnel⟩ := config
  simp only [Config.decode, Option.bind_eq_bind, Option.bind_eq_some_iff]
  constructor
  · rintro ⟨p, hp, d, hd, ts, hts, heq⟩
    obtain ⟨rfl, rfl, rfl⟩ := Config.mk.inj (Option.some.inj heq)
    exact ⟨hp, hd, hts⟩
  · rintro ⟨hp, hd, hts⟩
    exact ⟨proxy, hp, docker, hd, tunnel, hts, rfl⟩

/-- As many elements are decoded as there are. -/
theorem length_of_mapM {α β : Type} {g : α → Option β} {l : List α} {bs : List β}
    (h : l.mapM g = some bs) : bs.length = l.length := by
  induction l generalizing bs with
  | nil => exact Option.some.inj h ▸ rfl
  | cons a l ih =>
    simp only [List.mapM_cons, Option.bind_eq_bind, Option.bind_eq_some_iff] at h
    obtain ⟨b, -, bs', hbs', heq⟩ := h
    rw [← Option.some.inj heq, List.length_cons, ih hbs', List.length_cons]

namespace Field

/-- The elements of an array are decoded one by one. -/
theorem lt_of_array {α : Type} {decode : Value → Option α} {s u : Text} {i : ℕ}
    {rest : List Seg} {v v' : Value} {as : List α} (h : Value.Differ s u (.idx i :: rest) v v')
    (hv : array decode v = some as) : i < as.length := by
  cases h with
  | @item _ l r v v' h =>
    rw [length_of_mapM hv, List.length_append, List.length_cons]
    omega

/-- An element that setting a field to its value leaves as it is, has that value. -/
theorem get_of_modify {α : Type} {get : α → Option Text} {set : α → α} {s : Text}
    (hget : ∀ a, get (set a) = some s) {as : List α} {i : ℕ} (hi : i < as.length)
    (h : as.modify i set = as) : as[i]?.bind get = some s := by
  rw [← h, List.getElem?_modify_eq, List.getElem?_eq_getElem hi]
  exact hget _

/-- What is at the place of a field in a document, is the value of the field. -/
theorem get_of_decode (f : Field) {t : Table} {s : Text} {config : Config}
    (h : Value.Differ s s f.path (.table t) (.table t)) (hc : Config.decode t = some config) :
    f.get config = some s := by
  -- Setting the field to the string does not change the configuration.
  have hset : f.set s config = config := by
    have heq := f.decode_eq_map h
    rw [hc] at heq
    exact (Option.some.inj heq).symm
  rw [Config.decode_eq_some] at hc
  cases f with
  | listen => exact congrArg some (congrArg (·.proxy.listen) hset).symm
  | vpn i f =>
    obtain _ | ⟨hk, -, -, ⟨⟩ | @⟨_, _, tb, _, _, _, hv, -, -, hdiff⟩⟩ := h
    have hdocker : DockerConfig.decode tb = some config.docker := by
      rw [defaulted_of_lookup hk] at hc
      exact hc.2.1
    simp only [DockerConfig.decode, Option.bind_eq_bind, Option.bind_eq_some_iff] at hdocker
    obtain ⟨enabled, -, vpn, hvpn, heq⟩ := hdocker
    rw [defaulted_of_lookup hv] at hvpn
    have hlt := lt_of_array hdiff hvpn
    rw [show vpn = config.docker.vpn from congrArg DockerConfig.vpn (Option.some.inj heq)] at hlt
    exact get_of_modify (f.get_set s) hlt (congrArg (·.docker.vpn) hset)
  | tunnel i f =>
    obtain _ | ⟨hk, -, -, hdiff⟩ := h
    rw [defaulted_of_lookup hk] at hc
    exact get_of_modify (f.get_set s) (lt_of_array hdiff hc.2.2) (congrArg Config.tunnel hset)

end Field

end Houdinny
