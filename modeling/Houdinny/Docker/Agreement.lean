import Houdinny.Docker.Addresses
import Houdinny.Docker.Loads
import Houdinny.Docker.Start

/-!
# Compose file, configuration and poller

The compose file, the configuration of the proxy and the polling of the containers
are each made by a loop of its own over the countries, which numbers them and builds
names and addresses from the numbers. For the `n`-th country, the first has a service
`vpn-n` (no two of them merge), the second a tunnel through its address, and the
third polls its container (`Agreement`).

The numbers never drift. But the configuration is a text, and what counts of it is what
TOML reads: a country is pasted between quotes as it is, and one with a quote may bring in
tunnels of its own, so that the `n`-th tunnel is no longer that of the `n`-th country
(`not_agrees_injected`). Where the strategy needs no escapes, the three agree exactly if no
country does (`agrees_iff_plain`).

* `Joined` is what is asked for one country: the values in its service, the tunnel at its
  place, and the name under which the poller asks for its container.
* `Agreement` adds what is asked of the stack as a whole: the number of services and of
  tunnels, that no other container is asked for, and that the published port is the one the
  proxy listens on.
* `Reads` is the configuration as the reader of TOML takes it, where nothing needs escapes.
  All of the agreement follows from it (`Reads.agreement`).

For the other direction, a country that needs escapes is not read as the label of its tunnel
(`eq_label_of_not_plain`).
-/

namespace Houdinny.Docker

open Text Toml

/-- The values of an environment variable of a service. -/
def Service.variable (s : Service) (name : Text) : List Text :=
  (s.environment.getD []).filterMap fun entry => entry.dropPrefix? (name ++ "=".toList)

/-- The host in an address, without its port. -/
def hostPart (address : Text) : Option Text := (rsplitOnce ':' address).map Prod.fst

/-- The port in an address. -/
def portPart (address : Text) : Option Text := (rsplitOnce ':' address).map Prod.snd

/-- The ports of a service's container that are published. -/
def Service.containerPorts (s : Service) : List Text :=
  (s.ports.getD []).filterMap portPart

/-- In every round, the VPN at place `i` is polled under the name of this container,
    as long as it is waiting: its state is what that poll makes of it, and the
    commands of that poll are run. -/
def PolledAs (casing : CaseMapping) (i : ℕ) (container : Text) : Prop :=
  ∀ (round : Round) (w : Wait), w.states[i]? = some .waiting →
    (w.pollAll casing round).states[i]? = some (poll casing container (round.answers i)).1 ∧
      (poll casing container (round.answers i)).2 <:+: (w.pollAll casing round).commands

/-- The service, the tunnel and the polling of the country at place `i` belong together. -/
def Joined (casing : CaseMapping) (c : ComposeFile) (t : Table) (i : ℕ) (country : Text) :
    Prop :=
  ∃ (s : Service) (container : Text) (tunnel : Table) (address : Text),
    c.services[vpnName (i + 1)]? = some s ∧ s.containerName = some container ∧
    PolledAs casing i container ∧ s.variable "CONNECT".toList = [resolveCountry casing country] ∧
    (elementsAt t tunnelKey)[i]? = some (.table tunnel) ∧
    stringOf tunnel "address".toList = some address ∧ s.address = hostPart address ∧
    stringOf tunnel "label".toList = some (vpnLabel casing (i + 1) country)

/-- The compose file, the configuration `t` as it is read, and the poller agree on these
    countries. -/
structure Agreement (casing : CaseMapping) (countries : List Text) (c : ComposeFile)
    (t : Table) : Prop where
  size : c.services.size = countries.length + 1
  tunnels : (elementsAt t tunnelKey).length = countries.length
  joined : ∀ i country, countries[i]? = some country → Joined casing c t i country
  /-- No container but those of the services is polled, whatever these answer. -/
  polled : ∀ rounds, ∀ command ∈ (waitForHealthy casing countries rounds).commands,
    command = restartCommand ∨ ∃ i < countries.length, ∃ s container,
      c.services[vpnName (i + 1)]? = some s ∧ s.containerName = some container ∧
      container ∈ command
  /-- The proxy's container is published at the port where the proxy listens. -/
  published : ∃ s port proxy listen, c.services[houdinnyName]? = some s ∧
    s.containerPorts = [port] ∧ t.lookup "proxy".toList = some (.table proxy) ∧
    stringOf proxy "listen".toList = some listen ∧ portPart listen = some port

/-- The configuration that is generated is TOML, and agrees with the compose file and the
    poller. -/
def Agrees (crate : TomlCrate) (casing : CaseMapping) (countries : List Text) (strategy : Text)
    (port : UInt16) : Prop :=
  ∃ t, crate.parse (generateTunnelsConfig casing countries strategy port) = .ok t ∧
    Agreement casing countries (composeFile casing countries port) t

variable {crate : TomlCrate} {casing : CaseMapping} {countries : List Text} {strategy : Text}
  {port : UInt16} {t : Table}

/-! ## The compose file -/

/-- One service for each VPN, and one for the proxy. -/
theorem size_services (casing : CaseMapping) (countries : List Text) (port : UInt16) :
    (composeFile casing countries port).services.size = countries.length + 1 := by
  have hvpns : (vpnServices casing countries.zipIdx ∅).size = countries.length := by
    rw [vpnServices, size_foldl_insert (pairwise_vpnName countries) fun p _ => by simp,
      Std.TreeMap.size_emptyc, List.length_zipIdx, Nat.zero_add]
  have hfresh : (vpnServices casing countries.zipIdx ∅).contains houdinnyName = false := by
    rw [Std.TreeMap.contains_eq_isSome_getElem?, Option.isSome_eq_false_iff,
      Option.isNone_iff_eq_none, Option.eq_none_iff_forall_ne_some]
    intro s hs
    rw [vpnServices, getElem?_foldl_insert (pairwise_vpnName countries)] at hs
    rcases hs with ⟨p, _, hname, _⟩ | ⟨_, hs⟩
    · exact vpnName_ne_houdinnyName (p.2 + 1) hname
    · simp at hs
  rw [composeFile, Std.TreeMap.size_insert, hfresh, if_neg Bool.false_ne_true, hvpns]

/-- The environment variables of a VPN. -/
def vpnVariables (casing : CaseMapping) (country : Text) : List (Text × Text) :=
  [("TOKEN".toList, "$\x7bNORD_TOKEN\x7d".toList),
    ("CONNECT".toList, resolveCountry casing country), ("TECHNOLOGY".toList, "NordLynx".toList),
    ("WHITELIST_SUBNET".toList, "172.20.0.0/16".toList),
    ("NETWORK".toList, "172.20.0.0/16".toList)]

/-- The variables of a VPN are those of its list, one line each. -/
theorem variable_vpnService (n : ℕ) (country : Text) {name : Text} (hname : '=' ∉ name) :
    (vpnService casing n country).variable name =
      (vpnVariables casing country).filterMap fun p => if p.1 = name then some p.2 else none := by
  have hentries : (vpnService casing n country).environment =
      some ((vpnVariables casing country).map fun p => p.1 ++ '=' :: p.2) := by
    simp [vpnService, vpnVariables]
  have hnames : ∀ p ∈ vpnVariables casing country, '=' ∉ p.1 := by
    simp only [vpnVariables, List.forall_mem_cons]
    decide
  rw [Service.variable, hentries, Option.getD_some, List.filterMap_map]
  exact List.filterMap_congr fun p hp => dropPrefix?_append_cons p.2 (hnames p hp) hname

/-! ## The configuration -/

/-- The blocks of the tunnels. -/
def tunnelBlocks (casing : CaseMapping) (countries : List Text) : List Pairs :=
  countries.zipIdx.map fun p => tunnelPairs casing (p.2 + 1) p.1

/-- The block at a place is that of the country there. -/
theorem getElem?_tunnelBlocks {i : ℕ} {country : Text} (h : countries[i]? = some country) :
    (tunnelBlocks casing countries)[i]? = some (tunnelPairs casing (i + 1) country) := by
  rw [tunnelBlocks, List.getElem?_map, List.getElem?_zipIdx, h, Nat.zero_add]
  rfl

/-- Each of them is the block of a tunnel. -/
theorem block_of_mem_tunnelBlocks {p : Pairs} (h : p ∈ tunnelBlocks casing countries) :
    Block p := by
  obtain ⟨q, -, rfl⟩ := List.mem_map.1 h
  exact (describes_tunnelPairs casing (q.2 + 1) q.1).block

/-- Their strings need no escapes exactly if the countries need none. -/
theorem plain_tunnelBlocks (hcasing : casing.KeepsAscii) :
    (∀ p ∈ tunnelBlocks casing countries, ∀ kv ∈ p, Plain kv.2) ↔
      ∀ country ∈ countries, Plain (trim country) := by
  rw [tunnelBlocks, List.forall_mem_map]
  exact plain_tunnels hcasing

/-- What is read of the configuration: the proxy's section, and a tunnel for each country. -/
structure Reads (casing : CaseMapping) (countries : List Text) (strategy : Text) (port : UInt16)
    (t : Table) : Prop where
  tunnels : elementsAt t tunnelKey = (tunnelBlocks casing countries).map fun p =>
    .table (tableOf p)
  proxy : t.lookup "proxy".toList = some (.table
    [("listen".toList, .string ("0.0.0.0:".toList ++ ofNat port.toNat)),
      ("mode".toList, .string "transparent".toList), ("strategy".toList, .string strategy)])

/-- Where no string needs escapes, the configuration is read so. -/
theorem exists_reads (hcrate : crate.Follows) (hcasing : casing.KeepsAscii)
    (hstrategy : Plain strategy) (hplain : ∀ country ∈ countries, Plain (trim country)) :
    ∃ t, crate.parse (generateTunnelsConfig casing countries strategy port) = .ok t ∧
      Reads casing countries strategy port t := by
  obtain ⟨t, ht, helements, helse⟩ := parse_blocks (lines_proxyDoc hstrategy port) (by decide)
    (fun p hp => block_of_mem_tunnelBlocks hp) ((plain_tunnelBlocks hcasing).2 hplain)
  rw [tunnelBlocks, ← generateTunnelsConfig_eq_append] at ht
  exact ⟨t, (hcrate _ t).2 ht, helements, helse "proxy".toList (by decide)⟩

/-- The tunnel at the place of a country is its own. -/
theorem Reads.exists_tunnel (h : Reads casing countries strategy port t) {i : ℕ}
    {country : Text} (hi : countries[i]? = some country) :
    (elementsAt t tunnelKey)[i]? =
      some (.table (tableOf (tunnelPairs casing (i + 1) country))) := by
  rw [h.tunnels, List.getElem?_map, getElem?_tunnelBlocks hi]
  rfl

/-- The host of an address is what comes before its port. -/
theorem rsplitOnce_port {host digits : Text} (h : ':' ∉ digits) :
    rsplitOnce ':' (host ++ ":".toList ++ digits) = some (host, digits) := by
  rw [List.append_assoc]
  exact rsplitOnce_append host h

/-! ## The poller -/

/-- A VPN that is waiting is polled under the name of its container. -/
theorem polledAs_containerName (casing : CaseMapping) (i : ℕ) :
    PolledAs casing i (containerName (i + 1)) := by
  intro round w hi
  have hidx : w.states.zipIdx[i]? = some (.waiting, i) := by
    rw [List.getElem?_zipIdx, hi, Nat.zero_add]
    rfl
  constructor
  · rw [getElem?_pollAll, hi, Option.map_some, poll_fst]
    rfl
  · refine List.IsInfix.trans ?_ (List.suffix_append _ _).isInfix
    have hmem := List.mem_map_of_mem (f := fun p : VpnState × ℕ =>
      if p.1.isResolved then (p.1, [])
      else poll casing (containerName (p.2 + 1)) (round.answers p.2)) (List.mem_of_getElem? hidx)
    exact List.infix_of_mem_flatten (List.mem_map_of_mem hmem)

/-- The commands of a poll are about its container. -/
theorem mem_of_mem_poll {container : Text} {a : Answers} {command : Command}
    (h : command ∈ (poll casing container a).2) : container ∈ command := by
  rw [poll] at h
  split_ifs at h
  all_goals
    simp only [List.mem_cons, List.not_mem_nil, or_false] at h
    rcases h with rfl | rfl | rfl | rfl
  all_goals simp [inspectCommand, logsCommand, statusCommand, whitelistCommand, microsocksCommand]

/-- The command is a restart, or about the container of one of `n` VPNs. -/
def AboutVpn (n : ℕ) (command : Command) : Prop :=
  command = restartCommand ∨ ∃ i < n, containerName (i + 1) ∈ command

/-- A round of polling runs commands about the containers of the VPNs only. -/
theorem aboutVpn_of_mem_pollAll {round : Round} {w : Wait} {command : Command}
    (h : command ∈ (w.pollAll casing round).commands) :
    command ∈ w.commands ∨ AboutVpn w.states.length command := by
  refine (List.mem_append.1 h).imp_right fun h => ?_
  obtain ⟨_, hpolled, hcommand⟩ := List.mem_flatMap.1 h
  obtain ⟨p, hp, rfl⟩ := List.mem_map.1 hpolled
  have hlt := (List.getElem?_eq_some_iff.1 (List.mem_zipIdx_iff_getElem?.1 hp)).1
  split_ifs at hcommand
  · exact absurd hcommand List.not_mem_nil
  · exact .inr ⟨p.2, hlt, mem_of_mem_poll hcommand⟩

/-- So does the whole loop, which at its end may restart the proxy. -/
theorem aboutVpn_of_mem_waitFrom {rounds : List Round} {w : Wait} {command : Command}
    (h : command ∈ (waitFrom casing rounds w).commands) :
    command ∈ w.commands ∨ AboutVpn w.states.length command := by
  induction rounds generalizing w with
  | nil => exact .inl h
  | cons round rounds ih =>
    -- A round leaves the number of the VPNs as it is, so the containers are the same all along.
    have hlen := length_pollAll casing round w
    rw [waitFrom] at h
    split_ifs at h
    · rw [Wait.finish] at h
      split_ifs at h
      · exact aboutVpn_of_mem_pollAll h
      · rcases List.mem_append.1 h with h | h
        · exact aboutVpn_of_mem_pollAll h
        · exact .inr (.inl (List.mem_singleton.1 h))
    · rcases ih h with h | h
      · exact aboutVpn_of_mem_pollAll h
      · exact .inr (hlen ▸ h)

/-! ## Agreement -/

/-- The service, the tunnel and the polling of each country belong together. -/
theorem Reads.joined (hreads : Reads casing countries strategy port t) {i : ℕ} {country : Text}
    (h : countries[i]? = some country) :
    Joined casing (composeFile casing countries port) t i country := by
  have hport : ':' ∉ "1080".toList := by decide
  have hhost : hostPart (vpnAddress (i + 1) ++ ":1080".toList) = some (vpnAddress (i + 1)) :=
    congrArg (Option.map Prod.fst) (rsplitOnce_append (vpnAddress (i + 1)) hport)
  refine ⟨vpnService casing (i + 1) country, containerName (i + 1), _,
    vpnAddress (i + 1) ++ ":1080".toList, (getElem?_services ..).2 (.inl ⟨i, country, h, rfl, rfl⟩),
    rfl, polledAs_containerName casing i, variable_vpnService (i + 1) country (by decide),
    hreads.exists_tunnel h, ?_, ?_, ?_⟩
  · rw [stringOf_tableOf]
    rfl
  · rw [address_vpnService, hhost]
  · rw [stringOf_tableOf]
    rfl

/-- What is read where no string needs escapes, agrees with the compose file and the poller. -/
theorem Reads.agreement (h : Reads casing countries strategy port t) :
    Agreement casing countries (composeFile casing countries port) t where
  size := size_services ..
  tunnels := by rw [h.tunnels, List.length_map, tunnelBlocks, List.length_map, List.length_zipIdx]
  joined i country hi := h.joined hi
  polled rounds command hcommand := by
    rcases aboutVpn_of_mem_waitFrom hcommand with hnone | habout | ⟨i, hi, habout⟩
    · exact absurd hnone List.not_mem_nil
    · exact .inl habout
    · rw [List.length_replicate] at hi
      exact .inr ⟨i, hi, _, _, (getElem?_services ..).2
        (.inl ⟨i, _, List.getElem?_eq_getElem hi, rfl, rfl⟩), rfl, habout⟩
  published := by
    have hdigits : ':' ∉ ofNat port.toNat := notMem_ofNat (by decide) _
    refine ⟨houdinnyService port, ofNat port.toNat, _, "0.0.0.0:".toList ++ ofNat port.toNat,
      (getElem?_services ..).2 (.inr ⟨rfl, rfl⟩), ?_, h.proxy, rfl, ?_⟩
    · -- The same port is published, and listened on within the container.
      have hpart : portPart (ofNat port.toNat ++ ":".toList ++ ofNat port.toNat) =
          some (ofNat port.toNat) := congrArg (Option.map Prod.snd) (rsplitOnce_port hdigits)
      change List.filterMap portPart [_] = _
      rw [List.filterMap_cons_some hpart, List.filterMap_nil]
    · have hhost : "0.0.0.0:".toList = "0.0.0.0".toList ++ ":".toList := by decide
      rw [hhost]
      exact congrArg (Option.map Prod.snd) (rsplitOnce_port hdigits)

/-- The only string of a tunnel that may need escapes is its label. -/
theorem eq_label_of_not_plain {n : ℕ} {country : Text} {kv : Text × Text}
    (h : kv ∈ tunnelPairs casing n country) (hplain : ¬Plain kv.2) :
    kv = ("label".toList, vpnLabel casing n country) := by
  have haddress : Plain (vpnAddress n ++ ":1080".toList) :=
    .append (.append (by decide) (plain_ofNat _)) (by decide)
  simp only [tunnelPairs, List.mem_cons, List.not_mem_nil, or_false] at h
  rcases h with rfl | rfl | rfl
  · exact absurd (by decide : Plain "socks5".toList) hplain
  · exact absurd haddress hplain
  · rfl

/-- For a strategy that needs no escapes, the three agree exactly if no country needs any, up to
    white space around it. The number of a country is the same in the compose file, in the
    configuration and in the polling, and so is what is built of it. -/
theorem agrees_iff_plain (crate : TomlCrate) (casing : CaseMapping) (countries : List Text)
    (strategy : Text) (port : UInt16) (hcrate : crate.Follows) (hcasing : casing.KeepsAscii)
    (hstrategy : Plain strategy) :
    Agrees crate casing countries strategy port ↔
      ∀ country ∈ countries, Plain (trim country) := by
  constructor
  · rintro ⟨t, ht, hagreement⟩
    rw [hcrate, generateTunnelsConfig_eq_append] at ht
    refine (plain_tunnelBlocks hcasing).1 (plain_of_parse_blocks (lines_proxyDoc hstrategy port)
      (by decide) (fun p hp => block_of_mem_tunnelBlocks hp) ht fun i p hi => ?_)
    -- The label is found as it was written, and nothing else may need escapes.
    rw [tunnelBlocks, List.getElem?_map] at hi
    obtain ⟨⟨country, j⟩, hzip, rfl⟩ := Option.map_eq_some_iff.1 hi
    rw [List.getElem?_zipIdx, Nat.zero_add] at hzip
    obtain ⟨_, hcountry, heq⟩ := Option.map_eq_some_iff.1 hzip
    obtain ⟨rfl, rfl⟩ := Prod.mk.inj heq
    obtain ⟨-, -, tunnel, -, -, -, -, -, htunnel, -, -, hlabel⟩ := hagreement.joined _ _ hcountry
    refine ⟨tunnel, by rwa [List.length_nil, Nat.zero_add], fun kv hkv hnot => ?_⟩
    rw [eq_label_of_not_plain hkv hnot]
    exact hlabel
  · intro hplain
    obtain ⟨t, ht, hreads⟩ := exists_reads hcrate hcasing hstrategy hplain
    exact ⟨t, ht, hreads.agreement⟩

/-- For two countries, the three agree: each has a service, a tunnel through its address, and a
    container that is polled. -/
theorem agrees_twoCountries :
    Agrees readerCrate .ascii ["us".toList, "de".toList] "random".toList 8080 :=
  (agrees_iff_plain readerCrate .ascii _ _ 8080 readerCrate_follows ascii_keepsAscii
    (by decide)).2 (by decide)

/-- A country with a quote, after which there is another tunnel. -/
def injectedCountry : Text :=
  "us\"\n[[tunnel]]\nprotocol = \"socks5\"\naddress = \"10.0.0.1:1080\"\nlabel = \"x".toList

/-- The address of a tunnel, as it is read. -/
def addressOf : Value → Option Text
  | .table tunnel => stringOf tunnel "address".toList
  | _ => none

/-- The second tunnel that is read from the file is then not that of the second country, but the
    one that was written within the name of the first. -/
theorem not_agrees_injected : ¬∀ (crate : TomlCrate) (casing : CaseMapping)
    (countries : List Text) (strategy : Text) (port : UInt16), crate.Follows →
    casing.KeepsAscii → Plain strategy → Agrees crate casing countries strategy port := by
  intro h
  obtain ⟨t, ht, hagreement⟩ := h readerCrate .ascii [injectedCountry, "de".toList]
    "random".toList 8080 readerCrate_follows ascii_keepsAscii (by decide)
  have haddress : (Toml.parse (generateTunnelsConfig .ascii [injectedCountry, "de".toList]
      "random".toList 8080)).map (fun t => (elementsAt t tunnelKey)[1]?.map addressOf) =
        some (some (some "10.0.0.1:1080".toList)) := by
    decide +kernel
  rw [(readerCrate_follows _ t).1 ht] at haddress
  obtain ⟨s, -, tunnel, address, hs, -, -, -, htunnel, hfound, hhost, -⟩ :=
    hagreement.joined 1 "de".toList rfl
  rw [Option.map_some, htunnel] at haddress
  obtain rfl : address = "10.0.0.1:1080".toList :=
    Option.some.inj (hfound.symm.trans (Option.some.inj (Option.some.inj haddress)))
  -- The second service is at the address of its own number.
  obtain ⟨n, country, -, hname, rfl⟩ | ⟨hname, -⟩ := (getElem?_services ..).1 hs
  · obtain rfl : n = 1 := (Nat.succ_injective (vpnName_injective hname)).symm
    rw [address_vpnService] at hhost
    exact absurd hhost (by decide)
  · exact vpnName_ne_houdinnyName _ hname

end Houdinny.Docker
