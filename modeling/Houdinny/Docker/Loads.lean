import Houdinny.Config.Append
import Houdinny.Docker

/-!
# Loading the generated configuration

The configuration that is generated for the proxy is loaded with the strategy that
was asked for, the port, and a tunnel for each of the countries, exactly if the
strategy is given by the name that it has in a configuration file, and the names of
the countries need no escapes (`loadsBack_iff`).

The command line takes other names for strategies, and the generated configuration
has them as they were given. The two sets of names are compared in
`strategy_decode_eq_some` and `decode_of_fromName`: a name of a configuration file means the
same on the command line, where there are more of them, in any case.

A name of a country needs escapes exactly if what the user gave does
(`plain_resolveCountry`): the map of short codes has plain names only, and a change of case
brings in no quote, no backslash and no control character, nor takes one out (`KeepsAscii`).
-/

namespace Houdinny.Docker

open Text Toml Decode

/-- What is generated is loaded with the strategy `v`, the port, and one SOCKS5 tunnel
    for each of the countries, in order. -/
def LoadsBack (crate : TomlCrate) (casing : CaseMapping) (countries : List Text) (strategy : Text)
    (port : UInt16) (v : Strategy) : Prop :=
  ∃ config, Config.parseToml crate (generateTunnelsConfig casing countries strategy port) =
      .ok config ∧
    config.proxy.strategy = v ∧ config.proxy.listen = "0.0.0.0:".toList ++ ofNat port.toNat ∧
    config.tunnel.map (fun c => (c.protocol, c.address, c.label)) = countries.zipIdx.map fun p =>
      ("socks5".toList, some (vpnAddress (p.2 + 1) ++ ":1080".toList),
        some (vpnLabel casing (p.2 + 1) p.1))

variable {crate : TomlCrate} {casing : CaseMapping} {countries : List Text} {strategy : Text}
  {port : UInt16} {v : Strategy} {config : Config}

/-! ## Names of countries -/

/-- Words that are joined by underscores need escapes exactly if one of them does. -/
theorem plain_intercalate {ws : List Text} :
    Plain ("_".toList.intercalate ws) ↔ ∀ w ∈ ws, Plain w := by
  induction ws with
  | nil => simp [Plain]
  | cons w ws ih =>
    rcases ws with _ | ⟨w', ws⟩
    · simp
    · have hbar : Plain "_".toList := by decide
      rw [List.intercalate_cons_cons, plain_append, plain_append, ih, and_iff_left hbar,
        ← List.forall_mem_cons]

/-- A word needs escapes exactly if it does with another case. -/
theorem plain_capitalise (hcasing : casing.KeepsAscii) (w : Text) :
    Plain (capitalise casing w) ↔ Plain w := by
  cases w with
  | nil => rfl
  | cons c w =>
    rw [capitalise, plain_append, plain_toUppercase hcasing, plain_toLowercase hcasing]
    exact plain_append.symm

/-- A name needs escapes exactly if what the user gave does, up to white space around it. -/
theorem plain_resolveCountry (hcasing : casing.KeepsAscii) (country : Text) :
    Plain (resolveCountry casing country) ↔ Plain (trim country) := by
  simp only [resolveCountry]
  split_ifs
  · rw [plain_intercalate, List.forall_mem_map]
    simp only [plain_capitalise hcasing]
    rw [← plain_intercalate]
    exact iff_of_eq (congrArg Plain (List.intercalate_splitOn '_'))
  · rcases hlookup : countryMap.lookup (casing.toLowercase (trim country)) with _ | full
    · rfl
    · -- The codes that are known are plain, and so are their names.
      have hall : ∀ p ∈ countryMap, Plain p.1 ∧ Plain p.2 := by decide +kernel
      obtain ⟨l, r, hmem, -⟩ := List.lookup_eq_some_iff.1 hlookup
      obtain ⟨hcode, hfull⟩ := hall _ (hmem ▸ List.mem_append_right _ List.mem_cons_self)
      exact iff_of_true hfull ((plain_toLowercase hcasing).1 hcode)

/-! ## Names of strategies -/

/-- The names of strategies on the command line need no escapes. -/
theorem plain_of_fromName (hcasing : casing.KeepsAscii)
    (h : Strategy.fromName casing strategy = .ok v) : Plain strategy := by
  rw [← plain_toLowercase hcasing]
  simp only [Strategy.fromName] at h
  split_ifs at h with hrandom hrobin
  · rw [hrandom]
    decide
  · have hall : ∀ name ∈ ["round-robin".toList, "roundrobin".toList, "rr".toList], Plain name := by
      decide
    exact hall _ hrobin

/-- The names of strategies in a configuration file. -/
theorem strategy_decode_eq_some : Strategy.decode (.string strategy) = some v ↔
    strategy = "random".toList ∧ v = .random ∨
      strategy = "round-robin".toList ∧ v = .roundRobin := by
  change List.lookup strategy _ = some v ↔ _
  rw [List.lookup_cons, List.lookup_cons, List.lookup_nil]
  by_cases hrandom : strategy = "random".toList
  · subst hrandom
    cases v <;> decide
  · rw [beq_false_of_ne hrandom]
    by_cases hrobin : strategy = "round-robin".toList
    · subst hrobin
      cases v <;> decide
    · rw [beq_false_of_ne hrobin]
      refine iff_of_false (by simp) ?_
      rintro (⟨h, -⟩ | ⟨h, -⟩)
      · exact hrandom h
      · exact hrobin h

/-- A name of a configuration file means the same on the command line. -/
theorem decode_of_fromName (h : Strategy.fromName casing strategy = .ok v)
    (hname : strategy = "random".toList ∨ strategy = "round-robin".toList) :
    Strategy.decode (.string strategy) = some v := by
  have hascii : ∀ name ∈ ["random".toList, "round-robin".toList],
      Ascii name ∧ name.map Char.toLower = name := by decide +kernel
  have hmem : strategy ∈ ["random".toList, "round-robin".toList] := by simpa using hname
  obtain ⟨hs, hsame⟩ := hascii strategy hmem
  have hlower : casing.toLowercase strategy = strategy := (casing.lower_ascii _ hs).trans hsame
  rw [Strategy.fromName, hlower] at h
  rw [strategy_decode_eq_some]
  rcases hname with rfl | rfl
  · exact .inl ⟨rfl, (Except.ok.inj h).symm⟩
  · exact .inr ⟨rfl, (Except.ok.inj h).symm⟩

/-! ## Reading -/

/-- What is read of the lines before the tunnels. -/
def proxyEntries (strategy : Text) (port : UInt16) : Entries :=
  [("proxy".toList, .table .header
    [("listen".toList, .value (.string ("0.0.0.0:".toList ++ ofNat port.toNat))),
      ("mode".toList, .value (.string "transparent".toList)),
      ("strategy".toList, .value (.string strategy))])]

/-- The lines before the tunnels are read as two sections. -/
theorem lines_proxyDoc (h : Plain strategy) (port : UInt16) :
    Lines tunnelKey (proxyDoc strategy port).render (.table .header (proxyEntries strategy port))
      [] := by
  have habsent : tunnelKey ∉ (proxyEntries strategy port).map Prod.fst := by
    rw [proxyEntries, List.map_singleton, List.mem_singleton]
    exact show tunnelKey ≠ "proxy".toList by decide
  refine lines_render (d := ⟨.table .header (proxyEntries strategy port), [.key "proxy".toList],
    []⟩) ?_ rfl (.absent habsent)
  simp only [List.forall_mem_cons]
  exact ⟨by decide, trivial, by decide, ⟨by decide, plain_append.2 ⟨by decide, plain_ofNat _⟩⟩,
    by decide, ⟨by decide, h⟩, fun _ h => absurd h List.not_mem_nil⟩

/-- The sections before the tunnels are decoded if the strategy has a name of a
    configuration file. -/
theorem decode_proxyEntries (h : Strategy.decode (.string strategy) = some v) :
    Config.decode (entriesToTable (proxyEntries strategy port)) =
      some ⟨⟨"0.0.0.0:".toList ++ ofNat port.toNat, .transparent, v⟩, default, []⟩ := by
  rw [proxyEntries]
  generalize "0.0.0.0:".toList ++ ofNat port.toNat = listen
  have hproxy : ProxyConfig.decode [("listen".toList, .string listen),
      ("mode".toList, .string "transparent".toList), ("strategy".toList, .string strategy)] =
        (Strategy.decode (.string strategy)).map fun v => ⟨listen, .transparent, v⟩ := by
    have hlookup : List.lookup "strategy".toList [("listen".toList, Value.string listen),
        ("mode".toList, .string "transparent".toList), ("strategy".toList, .string strategy)] =
          some (.string strategy) := rfl
    rw [ProxyConfig.decode, defaulted_of_lookup hlookup]
    rcases Strategy.decode (.string strategy) with _ | v <;> rfl
  rw [h] at hproxy
  exact Config.decode_eq_some.2 ⟨hproxy, rfl, rfl⟩

/-- The strategy of a configuration is decoded of its name. -/
theorem strategy_of_decode {t : Table} {s : Text}
    (h : Value.Differ s s [.key "proxy".toList, .key "strategy".toList] (.table t) (.table t))
    (hc : Config.decode t = some config) :
    Strategy.decode (.string s) = some config.proxy.strategy := by
  obtain _ | ⟨hk, -, -, ⟨⟩ | @⟨_, _, tb, _, _, _, hs, -, -, ⟨⟩⟩⟩ := h
  have hproxy := (Config.decode_eq_some.1 hc).1
  rw [defaulted_of_lookup hk] at hproxy
  simp only [table, ProxyConfig.decode, Option.bind_eq_bind, Option.bind_eq_some_iff] at hproxy
  obtain ⟨listen, -, mode, -, v, hv, heq⟩ := hproxy
  rw [defaulted_of_lookup hs] at hv
  rw [hv]
  exact congrArg some (congrArg ProxyConfig.strategy (Option.some.inj heq))

/-- What is loaded has the strategy of the name that was written. -/
theorem strategy_of_parseToml (hcrate : crate.Follows) (h : Plain strategy)
    (hc : Config.parseToml crate (generateTunnelsConfig casing countries strategy port) =
      .ok config) : Strategy.decode (.string strategy) = some config.proxy.strategy := by
  have hat : StringAt strategy [.key "proxy".toList, .key "strategy".toList]
      (.table .header (proxyEntries strategy port)) := by
    refine .entry (l := []) List.not_mem_nil (.entry (l := [_, _]) ?_ .here)
    change "strategy".toList ∉ ["listen".toList, "mode".toList]
    decide
  rw [generateTunnelsConfig_eq_render, tunnelsDoc, Doc.render_append, hcrate.parseToml_eq_ok] at hc
  obtain ⟨t, ht, hdecode⟩ := hc
  obtain ⟨es, hes, rfl⟩ := Option.map_eq_some_iff.1 ht
  obtain ⟨kind, hat'⟩ := (lines_proxyDoc h port).stringAt hat hes
  exact strategy_of_decode hat'.toValue hdecode

/-! ## Tunnels -/

/-- The tunnel through the VPN number `n`. -/
def vpnTunnel (casing : CaseMapping) (n : ℕ) (country : Text) : TunnelConfig :=
  socksTunnel (vpnAddress n ++ ":1080".toList) (vpnLabel casing n country)

/-- The block of a tunnel describes it. -/
theorem describes_tunnelPairs (casing : CaseMapping) (n : ℕ) (country : Text) :
    Describes (tunnelPairs casing n country) (vpnTunnel casing n country) :=
  describes_socksPairs _ _

/-- The strings of a tunnel need no escapes if the name of the country does not. -/
theorem plain_tunnelPairs (hcasing : casing.KeepsAscii) (n : ℕ) (country : Text) :
    (∀ kv ∈ tunnelPairs casing n country, Plain kv.2) ↔ Plain (trim country) := by
  have haddress : Plain (vpnAddress n ++ ":1080".toList) :=
    .append (.append (by decide) (plain_ofNat _)) (by decide)
  have hlabel : Plain ("vpn-".toList ++ ofNat n ++ "-".toList) :=
    .append (.append (by decide) (plain_ofNat _)) (by decide)
  calc (∀ kv ∈ tunnelPairs casing n country, Plain kv.2)
      ↔ Plain (vpnAddress n ++ ":1080".toList) ∧ Plain (vpnLabel casing n country) :=
        plain_socksPairs
    _ ↔ Plain ("vpn-".toList ++ ofNat n ++ "-".toList) ∧ Plain (resolveCountry casing country) :=
        (and_iff_right haddress).trans plain_append
    _ ↔ Plain (trim country) :=
        (and_iff_right hlabel).trans (plain_resolveCountry hcasing country)

/-- The strings of all tunnels need no escapes if the names of the countries do not. -/
theorem plain_tunnels (hcasing : casing.KeepsAscii) :
    (∀ p ∈ countries.zipIdx, ∀ kv ∈ tunnelPairs casing (p.2 + 1) p.1, Plain kv.2) ↔
      ∀ country ∈ countries, Plain (trim country) := by
  simp only [plain_tunnelPairs hcasing]
  constructor
  · intro h country hcountry
    obtain ⟨n, hn⟩ := List.mem_iff_getElem?.1 hcountry
    exact h (country, n) (List.mem_zipIdx_iff_getElem?.2 hn)
  · exact fun h p hp => h p.1 (List.fst_mem_of_mem_zipIdx hp)

/-- The blocks of the tunnels follow the lines before them. -/
theorem generateTunnelsConfig_eq_append (casing : CaseMapping) (countries : List Text)
    (strategy : Text) (port : UInt16) : generateTunnelsConfig casing countries strategy port =
      (proxyDoc strategy port).render ++ Doc.render ((countries.zipIdx.map fun p =>
        tunnelPairs casing (p.2 + 1) p.1).flatMap (Doc.block tunnelKey)) := by
  rw [generateTunnelsConfig_eq_render, tunnelsDoc, Doc.render_append]
  rfl

/-- The strings of a tunnel that is loaded as it should be, are those that were written. -/
theorem get_of_mem_tunnelPairs {c : TunnelConfig} {n : ℕ} {country value : Text}
    (h : (c.protocol, c.address, c.label) = ("socks5".toList,
      some (vpnAddress n ++ ":1080".toList), some (vpnLabel casing n country))) {f : TunnelField}
    (hf : (f.key, value) ∈ tunnelPairs casing n country) : f.get c = some value := by
  simp only [Prod.mk.injEq] at h
  obtain ⟨hprotocol, haddress, hlabel⟩ := h
  simp only [tunnelPairs, List.mem_cons, Prod.mk.injEq, List.not_mem_nil, or_false] at hf
  rcases hf with ⟨hkey, rfl⟩ | ⟨hkey, rfl⟩ | ⟨hkey, rfl⟩
  · obtain rfl : f = .protocol := TunnelField.key_injective hkey
    exact congrArg some hprotocol
  · obtain rfl : f = .address := TunnelField.key_injective hkey
    exact haddress
  · obtain rfl : f = .label := TunnelField.key_injective hkey
    exact hlabel

/-- What is generated is loaded back exactly if the strategy has the name of a configuration
    file, and no name of a country needs escapes. The strategy is any that the command line
    takes, the countries are any texts, and the library is any that follows TOML 1.0. -/
theorem loadsBack_iff (crate : TomlCrate) (casing : CaseMapping) (countries : List Text)
    (strategy : Text) (port : UInt16) (v : Strategy) (hcrate : crate.Follows)
    (hcasing : casing.KeepsAscii) (hv : Strategy.fromName casing strategy = .ok v) :
    LoadsBack crate casing countries strategy port v ↔
      (strategy = "random".toList ∨ strategy = "round-robin".toList) ∧
        ∀ country ∈ countries, Plain (trim country) := by
  have hplain := plain_of_fromName hcasing hv
  have hlines := lines_proxyDoc hplain port
  have hdescribes : ∀ p ∈ countries.zipIdx, Describes (tunnelPairs casing (p.2 + 1) p.1)
      (vpnTunnel casing (p.2 + 1) p.1) := fun p _ => describes_tunnelPairs casing (p.2 + 1) p.1
  rw [← plain_tunnels hcasing]
  constructor
  · rintro ⟨config, hc, hstrategy, -, htunnel⟩
    have hdecode := strategy_of_parseToml hcrate hplain hc
    refine ⟨(strategy_decode_eq_some.1 hdecode).imp And.left And.left, ?_⟩
    rw [generateTunnelsConfig_eq_append] at hc
    refine plain_of_parseToml hcrate hlines (decode_proxyEntries hdecode) hdescribes hc ?_
    -- The tunnels are as they should be.
    intro i p hp f value hf _
    have hsummary := congrArg (·[i]?) htunnel
    simp only [List.getElem?_map, hp, Option.map_some] at hsummary
    obtain ⟨c, hget, hc⟩ := Option.map_eq_some_iff.1 hsummary
    change config.tunnel[0 + i]?.bind f.get = _
    rw [Nat.zero_add, hget]
    exact get_of_mem_tunnelPairs hc hf
  · rintro ⟨hname, htunnels⟩
    have hload := parseToml_blocks hcrate hlines (decode_proxyEntries (decode_of_fromName hv hname))
      hdescribes htunnels
    rw [← generateTunnelsConfig_eq_append] at hload
    refine ⟨_, hload, rfl, rfl, ?_⟩
    rw [List.nil_append, List.map_map]
    rfl

/-- A configuration for one country, which is loaded as it was meant. -/
theorem loadsBack_iff_germany :
    LoadsBack readerCrate .ascii ["de".toList] "round-robin".toList 8080 .roundRobin :=
  (loadsBack_iff readerCrate .ascii _ _ 8080 .roundRobin readerCrate_follows ascii_keepsAscii
    rfl).2 ⟨.inr rfl, by decide⟩

/-- The short name of a strategy, `rr`, is none in a configuration file: the file that is
    generated for it is refused. -/
theorem not_loadsBack_rr : ¬∀ (crate : TomlCrate) (casing : CaseMapping) (countries : List Text)
    (strategy : Text) (port : UInt16) (v : Strategy), crate.Follows → casing.KeepsAscii →
    Strategy.fromName casing strategy = .ok v →
    LoadsBack crate casing countries strategy port v := by
  intro h
  obtain ⟨config, hc, -⟩ := h readerCrate .ascii ["de".toList] "rr".toList 8080 .roundRobin
    readerCrate_follows ascii_keepsAscii rfl
  have hdecode := strategy_of_parseToml readerCrate_follows (by decide) hc
  exact Option.some_ne_none _ hdecode.symm

end Houdinny.Docker
