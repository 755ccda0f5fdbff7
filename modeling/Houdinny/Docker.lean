import Std.Data.TreeMap.Lemmas
import Houdinny.Config

/-!
# The Docker stack

What is generated for a list of countries: the compose file, with one service
for each VPN and one for the proxy (`composeFile`), and the tunnels that the
proxy is configured with (`generateTunnelsConfig`). The services are looked up by
name in `getElem?_services`, and the configuration is the rendering of a TOML
document (`generateTunnelsConfig_eq_render`).

The library that writes the compose file as YAML is a parameter, so the compose file is
what it is given: services by name, in a map, as in the source. Services are inserted one
after another, and one with a name that is already there would replace the other. That
none does is `pairwise_vpnName`.

The numbers of the VPNs start at one, and the text of a country goes through
`resolveCountry`, into the environment of the service as well as into the label of the
tunnel. It is not escaped anywhere.

What follows from the two files is in the modules below this one: the addresses
(`Docker.Addresses`), what is loaded (`Docker.Loads`), whether the files agree
(`Docker.Agreement`), and what the stack does once it is up (`Docker.Stack`, `Docker.Live`).
-/

namespace Houdinny.Docker

open Text

/-! ## The compose file -/

/-- How the image of a service is built. -/
structure Build where
  context : Text
  dockerfile : Text
  deriving DecidableEq

/-- The health check of a service. -/
structure Healthcheck where
  test : List Text
  interval : Text
  timeout : Text
  retries : UInt32
  startPeriod : Text
  deriving DecidableEq

/-- A service's place in a network. -/
structure NetworkConfig where
  ipv4Address : Text
  deriving DecidableEq

/-- The networks of a service, by name. -/
abbrev Networks := Std.TreeMap Text NetworkConfig

/-- A service. Dependencies on other services are never generated. -/
structure Service where
  build : Option Build
  containerName : Option Text
  capAdd : Option (List Text)
  sysctls : Option (List Text)
  environment : Option (List Text)
  healthcheck : Option Healthcheck
  networks : Option Networks
  ports : Option (List Text)
  volumes : Option (List Text)
  command : Option (List Text)

/-- A network: its driver, and the subnets of its addresses. -/
structure Network where
  driver : Text
  /-- The subnets of its `ipam` configuration. -/
  subnets : List Text
  deriving DecidableEq

/-- The services, by name. -/
abbrev Services := Std.TreeMap Text Service

/-- A compose file. -/
structure ComposeFile where
  services : Services
  networks : Std.TreeMap Text Network

/-- Map short country codes to the full names NordVPN expects. -/
def countryMap : List (Text × Text) :=
  [("us", "United_States"), ("de", "Germany"), ("jp", "Japan"), ("kr", "South_Korea"),
    ("gb", "United_Kingdom"), ("uk", "United_Kingdom"), ("fr", "France"), ("nl", "Netherlands"),
    ("ca", "Canada"), ("au", "Australia"), ("ch", "Switzerland"), ("se", "Sweden"),
    ("sg", "Singapore"), ("hk", "Hong_Kong"), ("in", "India"), ("br", "Brazil"), ("it", "Italy"),
    ("es", "Spain"), ("pl", "Poland"), ("at", "Austria"), ("no", "Norway"), ("dk", "Denmark"),
    ("fi", "Finland"), ("ie", "Ireland"), ("nz", "New_Zealand"), ("mx", "Mexico"),
    ("za", "South_Africa"), ("ro", "Romania"), ("cz", "Czech_Republic"), ("tw", "Taiwan")].map
    fun p => (p.1.toList, p.2.toList)

/-- A word with its first letter in upper case, and the others in lower case. -/
def capitalise (casing : CaseMapping) : Text → Text
  | [] => []
  | first :: rest => casing.toUppercase [first] ++ casing.toLowercase rest

/-- Resolve a user-supplied country string to the NordVPN CONNECT value. -/
def resolveCountry (casing : CaseMapping) (input : Text) : Text :=
  let lower := casing.toLowercase (trim input)
  if '_' ∈ lower ∨ 3 < (encodeUtf8 lower).length then
    "_".toList.intercalate (((trim input).splitOn '_').map (capitalise casing))
  else (countryMap.lookup lower).getD (trim input)

/-- The network of the stack. -/
def netName : Text := "houdinny-net".toList

/-- A service's place in the network of the stack. -/
def netAt (ip : Text) : Networks := (∅ : Networks).insert netName ⟨ip⟩

/-- The name of the service of the VPN number `n`. -/
def vpnName (n : ℕ) : Text := "vpn-".toList ++ ofNat n

/-- The address of the VPN number `n`. -/
def vpnAddress (n : ℕ) : Text := "172.20.0.".toList ++ ofNat (10 + n)

/-- The service of the VPN number `n`. -/
def vpnService (casing : CaseMapping) (n : ℕ) (country : Text) : Service where
  build := some ⟨"./docker".toList, "Dockerfile.vpn".toList⟩
  containerName := some ("houdinny-vpn-".toList ++ ofNat n)
  capAdd := some ["NET_ADMIN".toList, "NET_RAW".toList]
  sysctls := some ["net.ipv6.conf.all.disable_ipv6=1".toList]
  environment := some
    ["TOKEN=$\x7bNORD_TOKEN\x7d".toList,
      "CONNECT=".toList ++ resolveCountry casing country, "TECHNOLOGY=NordLynx".toList,
      "WHITELIST_SUBNET=172.20.0.0/16".toList, "NETWORK=172.20.0.0/16".toList]
  healthcheck := some {
    test := ["CMD-SHELL".toList,
      "nordvpn status | grep -qi connected && nc -z 127.0.0.1 1080".toList]
    interval := "10s".toList
    timeout := "5s".toList
    retries := 18
    startPeriod := "60s".toList }
  networks := some (netAt (vpnAddress n))
  ports := none
  volumes := none
  command := none

/-- The name of the proxy's service. -/
def houdinnyName : Text := "houdinny".toList

/-- The command of the proxy's service. -/
def houdinnyCommand : List Text := ["-c".toList, "/etc/houdinny/tunnels.toml".toList]

/-- The service of the proxy. -/
def houdinnyService (port : UInt16) : Service where
  build := some ⟨".".toList, "Dockerfile".toList⟩
  containerName := some "houdinny".toList
  capAdd := none
  sysctls := none
  environment := none
  healthcheck := none
  networks := some (netAt "172.20.0.20".toList)
  ports := some [ofNat port.toNat ++ ":".toList ++ ofNat port.toNat]
  volumes := some ["./tunnels.docker.toml:/etc/houdinny/tunnels.toml:ro".toList]
  command := some houdinnyCommand

/-- The services of the VPNs, each at the place of its country. -/
def vpnServices (casing : CaseMapping) (countries : List (Text × ℕ)) (services : Services) :
    Services :=
  countries.foldl (fun services p =>
    services.insert (vpnName (p.2 + 1)) (vpnService casing (p.2 + 1) p.1)) services

/-- The compose file for N countries. -/
def composeFile (casing : CaseMapping) (countries : List Text) (port : UInt16) : ComposeFile where
  services := (vpnServices casing countries.zipIdx ∅).insert houdinnyName (houdinnyService port)
  networks := (∅ : Std.TreeMap Text Network).insert netName
    ⟨"bridge".toList, ["172.20.0.0/16".toList]⟩

/-- Generate docker-compose.yml content for N countries. -/
def generateDockerCompose (toYaml : ComposeFile → Text) (casing : CaseMapping)
    (countries : List Text) (port : UInt16) : Text :=
  "# Auto-generated by `houdinny start`\n\n".toList ++ toYaml (composeFile casing countries port)

/-! ## The tunnels of the proxy -/

/-- The label of the tunnel through the VPN number `n`. -/
def vpnLabel (casing : CaseMapping) (n : ℕ) (country : Text) : Text :=
  "vpn-".toList ++ ofNat n ++ "-".toList ++ resolveCountry casing country

/-- What the comment on the first line says. -/
def banner : Text := " Auto-generated by `houdinny start` — do not edit manually.".toList

/-- Generate tunnels.docker.toml content for N countries. -/
def generateTunnelsConfig (casing : CaseMapping) (countries : List Text) (strategy : Text)
    (port : UInt16) : Text :=
  '#' :: banner ++ "\n\n[proxy]\n".toList ++
    ("listen = \"0.0.0.0:".toList ++ ofNat port.toNat ++ "\"\n".toList) ++
    "mode = \"transparent\"\n".toList ++
    ("strategy = \"".toList ++ strategy ++ "\"\n".toList) ++
    countries.zipIdx.flatMap fun p =>
      "\n[[tunnel]]\nprotocol = \"socks5\"\n".toList ++
        ("address = \"".toList ++ vpnAddress (p.2 + 1) ++ ":1080\"\n".toList) ++
        ("label = \"".toList ++ vpnLabel casing (p.2 + 1) p.1 ++ "\"\n".toList)

/-- The pairs of the tunnel through the VPN number `n`. -/
def tunnelPairs (casing : CaseMapping) (n : ℕ) (country : Text) : Toml.Pairs :=
  [("protocol".toList, "socks5".toList), ("address".toList, vpnAddress n ++ ":1080".toList),
    ("label".toList, vpnLabel casing n country)]

/-- The document that is generated, up to the tunnels. -/
def proxyDoc (strategy : Text) (port : UInt16) : Toml.Doc :=
  [.comment banner, .blank, .table "proxy".toList,
    .pair "listen".toList ("0.0.0.0:".toList ++ ofNat port.toNat),
    .pair "mode".toList "transparent".toList, .pair "strategy".toList strategy]

/-- The document that is generated. -/
def tunnelsDoc (casing : CaseMapping) (countries : List Text) (strategy : Text) (port : UInt16) :
    Toml.Doc :=
  proxyDoc strategy port ++ (countries.zipIdx.map fun p => tunnelPairs casing (p.2 + 1) p.1).flatMap
    (Toml.Doc.block "tunnel".toList)

/-- The block of a tunnel, line by line. -/
theorem render_tunnelPairs (casing : CaseMapping) (n : ℕ) (country : Text) :
    (Toml.Doc.block "tunnel".toList (tunnelPairs casing n country)).render =
      "\n[[tunnel]]\nprotocol = \"socks5\"\n".toList ++
      ("address = \"".toList ++ vpnAddress n ++ ":1080\"\n".toList) ++
      ("label = \"".toList ++ vpnLabel casing n country ++ "\"\n".toList) := by
  simp only [Toml.Doc.block, tunnelPairs, List.map_cons, List.map_nil, Toml.Doc.render_cons,
    Toml.Line.render, List.append_assoc]
  generalize vpnAddress n = address
  generalize vpnLabel casing n country = label
  rfl

/-- The lines before the tunnels. -/
theorem render_proxyDoc (strategy : Text) (port : UInt16) : (proxyDoc strategy port).render =
    '#' :: banner ++ "\n\n[proxy]\n".toList ++
      ("listen = \"0.0.0.0:".toList ++ ofNat port.toNat ++ "\"\n".toList) ++
      "mode = \"transparent\"\n".toList ++
      ("strategy = \"".toList ++ strategy ++ "\"\n".toList) := by
  rw [proxyDoc]
  generalize banner = comment
  generalize ofNat port.toNat = digits
  simp only [Toml.Doc.render_cons, Toml.Line.render, List.append_assoc]
  rfl

/-- The configuration generated is the rendering of its document. -/
theorem generateTunnelsConfig_eq_render (casing : CaseMapping) (countries : List Text)
    (strategy : Text) (port : UInt16) : generateTunnelsConfig casing countries strategy port =
      (tunnelsDoc casing countries strategy port).render := by
  rw [tunnelsDoc, Toml.Doc.render_append, render_proxyDoc, generateTunnelsConfig]
  rw [Toml.Doc.render, List.flatMap_assoc, List.flatMap_map]
  congr 2
  funext p
  exact (render_tunnelPairs casing (p.2 + 1) p.1).symm

/-! ## Looking up services -/

/-- What is found after inserting entries of different keys. -/
theorem getElem?_foldl_insert {α β : Type} {key : α → Text} {value : α → β} {l : List α}
    (h : l.Pairwise fun p q => key p ≠ key q) (m : Std.TreeMap Text β) (a : Text) (b : β) :
    (l.foldl (fun m p => m.insert (key p) (value p)) m)[a]? = some b ↔
      (∃ p ∈ l, key p = a ∧ value p = b) ∨ (∀ p ∈ l, key p ≠ a) ∧ m[a]? = some b := by
  induction l generalizing m with
  | nil => simp
  | cons p l ih =>
    rw [List.pairwise_cons] at h
    rw [List.foldl_cons, ih h.2, Std.TreeMap.getElem?_insert, List.forall_mem_cons]
    simp only [List.exists_mem_cons_iff, Std.LawfulEqOrd.compare_eq_iff_eq]
    by_cases hk : key p = a
    · -- No later entry has the key, so this one is not overwritten.
      have hfresh : ∀ q ∈ l, key q ≠ a := fun q hq hqa => h.1 q hq (hk.trans hqa.symm)
      have hnone : ¬∃ q ∈ l, key q = a ∧ value q = b := fun ⟨q, hq, hqa, _⟩ => hfresh q hq hqa
      rw [if_pos hk, or_iff_right hnone, and_iff_right hfresh, Option.some.injEq]
      constructor
      · exact fun hv => .inl (.inl ⟨hk, hv⟩)
      · rintro ((⟨_, hv⟩ | hv) | ⟨⟨hne, _⟩, _⟩)
        · exact hv
        · exact absurd hv hnone
        · exact absurd hk hne
    · simp [hk]

/-- Inserting entries of different keys that are not there merges none of them. -/
theorem size_foldl_insert {α β : Type} {key : α → Text} {value : α → β} {l : List α}
    (h : l.Pairwise fun p q => key p ≠ key q) {m : Std.TreeMap Text β}
    (hm : ∀ p ∈ l, m.contains (key p) = false) :
    (l.foldl (fun m p => m.insert (key p) (value p)) m).size = m.size + l.length := by
  induction l generalizing m with
  | nil => rfl
  | cons p l ih =>
    rw [List.pairwise_cons] at h
    rw [List.forall_mem_cons] at hm
    have hfresh : ∀ q ∈ l, (m.insert (key p) (value p)).contains (key q) = false := by
      intro q hq
      rw [Std.TreeMap.contains_insert, hm.2 q hq, Bool.or_false, beq_eq_false_iff_ne]
      exact fun hcompare => h.1 q hq (Std.LawfulEqOrd.compare_eq_iff_eq.1 hcompare)
    rw [List.foldl_cons, ih h.2 hfresh, Std.TreeMap.size_insert, hm.1, if_neg Bool.false_ne_true,
      List.length_cons]
    omega

/-- Services of different numbers have different names. -/
theorem vpnName_injective : Function.Injective vpnName := fun _ _ h =>
  ofNat_injective (List.append_cancel_left h)

/-- None of them has the name of the proxy. -/
theorem vpnName_ne_houdinnyName (n : ℕ) : vpnName n ≠ houdinnyName := by
  intro h
  have hhead : some 'v' = some 'h' := congrArg List.head? h
  exact absurd hhead (by decide)

/-- The services of the VPNs have different names. -/
theorem pairwise_vpnName (countries : List Text) :
    countries.zipIdx.Pairwise fun p q => vpnName (p.2 + 1) ≠ vpnName (q.2 + 1) := by
  have hidx : (countries.zipIdx.map Prod.snd).Nodup := by
    rw [List.zipIdx_map_snd]
    exact List.nodup_range'
  rw [List.Nodup, List.pairwise_map] at hidx
  exact hidx.imp fun hne heq => hne (Nat.succ_injective (vpnName_injective heq))

/-- The services of a compose file: the VPN of each country, and the proxy. -/
theorem getElem?_services (casing : CaseMapping) (countries : List Text) (port : UInt16)
    (name : Text) (s : Service) :
    (composeFile casing countries port).services[name]? = some s ↔
      (∃ n country, countries[n]? = some country ∧ name = vpnName (n + 1) ∧
        s = vpnService casing (n + 1) country) ∨
      name = houdinnyName ∧ s = houdinnyService port := by
  rw [composeFile, Std.TreeMap.getElem?_insert, vpnServices]
  simp only [Std.LawfulEqOrd.compare_eq_iff_eq]
  split_ifs with hname
  · -- The proxy is inserted last, and so found under its name first.
    subst hname
    have hvpn : ¬∃ n country, countries[n]? = some country ∧ houdinnyName = vpnName (n + 1) ∧
        s = vpnService casing (n + 1) country :=
      fun ⟨n, _, _, hn, _⟩ => vpnName_ne_houdinnyName (n + 1) hn.symm
    rw [or_iff_right hvpn, Option.some.injEq, and_iff_right rfl, eq_comm]
  · have hempty : ¬((∀ p ∈ countries.zipIdx, vpnName (p.2 + 1) ≠ name) ∧
        (∅ : Services)[name]? = some s) := fun h => by simp at h
    have hproxy : ¬(name = houdinnyName ∧ s = houdinnyService port) := fun h => hname h.1.symm
    -- Any other service was inserted by the loop over the countries.
    rw [getElem?_foldl_insert (pairwise_vpnName countries), or_iff_left hempty, or_iff_left hproxy]
    constructor
    · rintro ⟨p, hp, rfl, rfl⟩
      exact ⟨p.2, p.1, List.mem_zipIdx_iff_getElem?.1 hp, rfl, rfl⟩
    · rintro ⟨n, country, hn, rfl, rfl⟩
      exact ⟨(country, n), List.mem_zipIdx_iff_getElem?.2 hn, rfl, rfl⟩

end Houdinny.Docker
