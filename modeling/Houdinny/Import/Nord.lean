import Houdinny.Startup

/-!
# Importing NordVPN servers

`generateToml` writes one `[[tunnel]]` block for every server that was fetched.
The text is the rendering of a TOML document (`generateToml_eq_render`), which is
well-formed if the strings of the servers need no escapes (`wellFormed_nordDoc`),
and its value is a configuration with a WireGuard tunnel for every server
(`decode_nordDoc`). The blocks have all that an interface could be set up from,
but name none.

So the file is loaded as it was meant (`parseToml_generateToml`), and yet no transport is
built of it: a WireGuard tunnel without an interface is skipped
(`buildTransports_serverTunnel`). What an import is for is `Imported`, and for no key and no
servers is it so (`not_imported`).

The TOML library need only parse the documents of the fragment here
(`TomlCrate.Conforms`), as the generated text is one of them.

Fields of the API's answers that are not read are left out.
-/

namespace Houdinny.Nord

open Text

/-- A pair of a technology's metadata. -/
structure TechMetadata where
  name : Text
  value : Text
  deriving DecidableEq

/-- A technology that a server supports, with its metadata. -/
structure Technology where
  identifier : Text
  metadata : List TechMetadata
  deriving DecidableEq

/-- A country. -/
structure Country where
  code : Text
  deriving DecidableEq

/-- Where a server is. -/
structure Location where
  country : Country
  deriving DecidableEq

/-- A recommended server entry. -/
structure ServerEntry where
  name : Text
  hostname : Text
  /-- The server's IP address (used as the WireGuard endpoint). -/
  station : Text
  technologies : List Technology
  locations : List Location
  deriving DecidableEq

/-- Extract the WireGuard public key from a server's technology metadata. -/
def extractWireguardPublicKey (server : ServerEntry) : Except Text Text :=
  let found := server.technologies.findSome? fun tech =>
    if tech.identifier = "wireguard_udp".toList then
      tech.metadata.find? (·.name = "public_key".toList)
    else none
  match found with
  | some entry => .ok entry.value
  | none => .error ("server ".toList ++ server.name ++ " (".toList ++ server.hostname ++
      ") has no wireguard_udp public key in metadata".toList)

/-- The country code of a server. -/
def countryCode (casing : CaseMapping) (server : ServerEntry) : Text :=
  match server.locations.head? with
  | some l => casing.toLowercase l.country.code
  | none => "xx".toList

/-- The label of the tunnel to a server. -/
def label (casing : CaseMapping) (server : ServerEntry) : Text :=
  "nord-".toList ++ countryCode casing server ++ "-".toList ++ server.name

/-- The TOML block of a server. -/
def serverBlock (casing : CaseMapping) (privateKey : Text) (server : ServerEntry) :
    Except Text Text :=
  match extractWireguardPublicKey server with
  | .error e => .error e
  | .ok publicKey => .ok ("\n[[tunnel]]\nprotocol = \"wireguard\"\n".toList ++
      ("endpoint = \"".toList ++ server.station ++ ":51820\"\n".toList) ++
      ("private_key = \"".toList ++ privateKey ++ "\"\n".toList) ++
      ("public_key = \"".toList ++ publicKey ++ "\"\n".toList) ++
      "address = \"10.5.0.2/32\"\ndns = \"103.86.96.100\"\n".toList ++
      ("label = \"".toList ++ label casing server ++ "\"\n".toList))

/-- Generate TOML `[[tunnel]]` blocks for the fetched servers. -/
def generateToml (casing : CaseMapping) (privateKey : Text) (servers : List ServerEntry) :
    Except Text Text :=
  (servers.mapM (serverBlock casing privateKey)).map fun blocks =>
    "# Generated by: houdinny import nord\n".toList ++ blocks.flatten

/-! ## The document -/

/-- The public key of a server that has one. -/
def publicKey (server : ServerEntry) : Text :=
  match extractWireguardPublicKey server with
  | .ok publicKey => publicKey
  | .error _ => []

/-- The pairs of the block of a server. -/
def serverPairs (casing : CaseMapping) (privateKey : Text) (server : ServerEntry) : Toml.Pairs :=
  [("protocol".toList, "wireguard".toList), ("endpoint".toList, server.station ++ ":51820".toList),
    ("private_key".toList, privateKey), ("public_key".toList, publicKey server),
    ("address".toList, "10.5.0.2/32".toList), ("dns".toList, "103.86.96.100".toList),
    ("label".toList, label casing server)]

/-- The document that is generated. -/
def nordDoc (casing : CaseMapping) (privateKey : Text) (servers : List ServerEntry) : Toml.Doc :=
  .comment " Generated by: houdinny import nord".toList ::
    (servers.map (serverPairs casing privateKey)).flatMap (Toml.Doc.block "tunnel".toList)

variable {casing : CaseMapping} {privateKey text : Text} {server : ServerEntry}
  {servers : List ServerEntry}

/-- The block of a server is the rendering of its pairs. -/
theorem serverBlock_eq_render {block : Text}
    (h : serverBlock casing privateKey server = .ok block) :
    block = (Toml.Doc.block "tunnel".toList (serverPairs casing privateKey server)).render := by
  rw [serverBlock] at h
  split at h
  · exact absurd h (by simp)
  · next pk hpk =>
    obtain rfl := Except.ok.inj h
    have hkey : publicKey server = pk := by rw [publicKey, hpk]
    simp only [Toml.Doc.block, serverPairs, hkey, List.map_cons, List.map_nil,
      Toml.Doc.render_cons, Toml.Line.render, List.append_assoc]
    generalize label casing server = l
    rfl

/-- The blocks of all servers are the rendering of their documents. -/
theorem flatten_eq_render {blocks : List Text}
    (h : servers.mapM (serverBlock casing privateKey) = .ok blocks) :
    blocks.flatten = Toml.Doc.render
      ((servers.map (serverPairs casing privateKey)).flatMap (Toml.Doc.block "tunnel".toList)) := by
  induction servers generalizing blocks with
  | nil =>
    obtain rfl := Except.ok.inj h
    rfl
  | cons server servers ih =>
    rw [List.mapM_cons] at h
    rcases hblock : serverBlock casing privateKey server with e | block
    · exact absurd (hblock ▸ h) (by simp [bind, Except.bind])
    · rcases hblocks : servers.mapM (serverBlock casing privateKey) with e | rest
      · exact absurd (hblocks ▸ hblock ▸ h) (by simp [bind, Except.bind])
      · rw [hblock, hblocks] at h
        obtain rfl : block :: rest = blocks := Except.ok.inj h
        rw [List.flatten_cons, List.map_cons, List.flatMap_cons, Toml.Doc.render_append,
          serverBlock_eq_render hblock, ih hblocks]

/-- What is generated is the rendering of the document. -/
theorem generateToml_eq_render (h : generateToml casing privateKey servers = .ok text) :
    text = (nordDoc casing privateKey servers).render := by
  rw [generateToml] at h
  rcases hblocks : servers.mapM (serverBlock casing privateKey) with e | blocks
  · exact absurd (hblocks ▸ h) (by simp [Except.map])
  · rw [hblocks] at h
    obtain rfl := Except.ok.inj h
    calc "# Generated by: houdinny import nord\n".toList ++ blocks.flatten
        = (Toml.Line.comment " Generated by: houdinny import nord".toList).render ++
            '\n' :: blocks.flatten := rfl
      _ = (nordDoc casing privateKey servers).render := by
        rw [nordDoc, Toml.Doc.render_cons, flatten_eq_render hblocks]

/-! ## The configuration -/

/-- The strings of a server that get into the document need no escapes. -/
structure ServerEntry.Plain (server : ServerEntry) : Prop where
  name : Toml.Plain server.name
  station : Toml.Plain server.station
  metadata : ∀ tech ∈ server.technologies, ∀ entry ∈ tech.metadata, Toml.Plain entry.value
  code : ∀ l ∈ server.locations, Toml.Plain l.country.code

/-- The public key of such a server needs no escapes. -/
theorem plain_publicKey (h : server.Plain) : Toml.Plain (publicKey server) := by
  rw [publicKey]
  split
  · next pk hpk =>
    simp only [extractWireguardPublicKey] at hpk
    split at hpk
    · next entry hentry =>
      obtain rfl := Except.ok.inj hpk
      obtain ⟨tech, htech, hfind⟩ := List.exists_of_findSome?_eq_some hentry
      split_ifs at hfind
      exact h.metadata tech htech entry (List.mem_of_find?_eq_some hfind)
    · exact absurd hpk (by simp)
  · exact fun c hc => absurd hc List.not_mem_nil

/-- Nor does the label of its tunnel. -/
theorem plain_label (h : server.Plain) : Toml.Plain (label casing server) := by
  refine Toml.Plain.append (.append (.append (by decide) ?_) (by decide)) h.name
  rw [countryCode]
  split
  · next l hl => exact (h.code l (List.mem_of_head? hl)).toLowercase casing
  · decide

/-- The document that is generated is well-formed. -/
theorem wellFormed_nordDoc (hne : servers ≠ []) (hkey : Toml.Plain privateKey)
    (hplain : ∀ server ∈ servers, server.Plain) :
    (nordDoc casing privateKey servers).WellFormed := by
  refine Toml.Doc.wellFormed_of_split (mt List.map_eq_nil_iff.1 hne)
    (Toml.Doc.split_blocks "tunnel".toList _) ?_ ?_
  · intro l hl
    rcases List.mem_cons.1 hl with rfl | hl
    · exact by decide
    · obtain ⟨p, hp, hl⟩ := List.mem_flatMap.1 hl
      obtain ⟨server, hserver, rfl⟩ := List.mem_map.1 hp
      -- The strings of the server are in four of the seven pairs; the others are fixed.
      have hs := hplain server hserver
      refine Toml.Doc.wellFormed_of_mem_block (by decide) ?_ l hl
      simp only [serverPairs, List.forall_mem_cons]
      exact ⟨⟨by decide, by decide⟩, ⟨by decide, hs.station.append (by decide)⟩,
        ⟨by decide, hkey⟩, ⟨by decide, plain_publicKey hs⟩, ⟨by decide, by decide⟩,
        ⟨by decide, by decide⟩, ⟨by decide, plain_label hs⟩, fun _ h => absurd h List.not_mem_nil⟩
  · intro p hp
    obtain ⟨server, _, rfl⟩ := List.mem_map.1 hp
    change (["protocol".toList, "endpoint".toList, "private_key".toList, "public_key".toList,
      "address".toList, "dns".toList, "label".toList] : List Text).Nodup
    decide

/-- The tunnel of a server. -/
def serverTunnel (casing : CaseMapping) (privateKey : Text) (server : ServerEntry) :
    TunnelConfig :=
  { TunnelConfig.ofProtocol "wireguard".toList with
    label := some (label casing server)
    address := some "10.5.0.2/32".toList
    endpoint := some (server.station ++ ":51820".toList)
    privateKey := some privateKey
    publicKey := some (publicKey server)
    dns := some "103.86.96.100".toList }

/-- The block of a server is decoded to its tunnel. -/
theorem decode_serverPairs (casing : CaseMapping) (privateKey : Text) (server : ServerEntry) :
    TunnelConfig.decode (Toml.tableOf (serverPairs casing privateKey server)) =
      some (serverTunnel casing privateKey server) := by
  unfold serverPairs serverTunnel
  generalize label casing server = l
  generalize publicKey server = pk
  generalize server.station ++ ":51820".toList = endpoint
  rfl

/-- The document is decoded to the tunnels of the servers. -/
theorem decode_nordDoc (hne : servers ≠ []) :
    Config.decode (nordDoc casing privateKey servers).value =
      some ⟨default, default, servers.map (serverTunnel casing privateKey)⟩ := by
  have hvalue := Toml.Doc.value_of_split (d := nordDoc casing privateKey servers)
    (mt List.map_eq_nil_iff.1 hne) (Toml.Doc.split_blocks "tunnel".toList _)
  have htunnels : ((servers.map (serverPairs casing privateKey)).map fun p =>
      Toml.Value.table (Toml.tableOf p)).mapM (Decode.table TunnelConfig.decode) =
        some (servers.map (serverTunnel casing privateKey)) := by
    rw [List.map_map, List.mapM_map]
    exact (congrArg (servers.mapM ·) (funext (decode_serverPairs casing privateKey))).trans
      List.mapM_pure
  rw [hvalue]
  exact Config.decode_tunnels htunnels

/-- What is generated is loaded as the tunnels of the servers. -/
theorem parseToml_generateToml {crate : TomlCrate} (hcrate : crate.Conforms) (hne : servers ≠ [])
    (hkey : Toml.Plain privateKey) (hplain : ∀ server ∈ servers, server.Plain)
    (h : generateToml casing privateKey servers = .ok text) :
    Config.parseToml crate text =
      .ok ⟨default, default, servers.map (serverTunnel casing privateKey)⟩ := by
  rw [generateToml_eq_render h]
  exact Config.parseToml_render hcrate (wellFormed_nordDoc hne hkey hplain) (decode_nordDoc hne)

/-! ## What is built of it -/

/-- The transports that are built of the loaded tunnels are those of the
    servers: one for each of them, in order. -/
def Imported (f : Features) (torClient : ℕ → Except Text Unit) (crate : TomlCrate)
    (casing : CaseMapping) (servers : List ServerEntry) (text : Text) : Prop :=
  ∃ config, Config.parseToml crate text = .ok config ∧
    (buildTransports f torClient config.tunnel).map Transport.label = servers.map (label casing)

/-- The tunnel of a server is a WireGuard tunnel, -/
theorem protocol_serverTunnel (casing : CaseMapping) (privateKey : Text) (server : ServerEntry) :
    (serverTunnel casing privateKey server).protocol = "wireguard".toList := rfl

/-- without an interface. -/
theorem interface_serverTunnel (casing : CaseMapping) (privateKey : Text) (server : ServerEntry) :
    (serverTunnel casing privateKey server).interface = none := rfl

/-- The tunnel of a server is skipped: it names no interface. -/
theorem not_built_serverTunnel {f : Features} {torClient : Except Text Unit} {x : Transport} :
    ¬Built f torClient (serverTunnel casing privateKey server) x := by
  intro h
  cases h with
  | wireguard _ _ hi =>
    exact absurd (hi.symm.trans (interface_serverTunnel casing privateKey server)) (by simp)
  | socks5 hp | httpUrl hp | httpBare hp | sentinel hp | tor hp =>
    exact absurd ((protocol_serverTunnel casing privateKey server).symm.trans hp) (by decide)

/-- All tunnels are skipped. -/
theorem buildTransports_serverTunnel (f : Features) (torClient : ℕ → Except Text Unit) :
    buildTransports f torClient (servers.map (serverTunnel casing privateKey)) = [] := by
  rw [buildTransports, List.flatMap_eq_nil_iff]
  intro p hp
  obtain ⟨server, _, hserver⟩ := List.mem_map.1 (List.fst_mem_of_mem_zipIdx hp)
  rw [List.eq_nil_iff_forall_not_mem, ← hserver]
  exact fun x hx => not_built_serverTunnel (TunnelConfig.mem_buildTransport.1 hx)

/-- No transport is built of what is generated, whatever the servers and the features: each
    tunnel is of WireGuard and names no interface, so `build_transports` skips it. -/
theorem not_imported (f : Features) (torClient : ℕ → Except Text Unit) (crate : TomlCrate)
    (casing : CaseMapping) (privateKey : Text) (servers : List ServerEntry) (text : Text)
    (hcrate : crate.Conforms) (hne : servers ≠ []) (hkey : Toml.Plain privateKey)
    (hplain : ∀ server ∈ servers, server.Plain)
    (h : generateToml casing privateKey servers = .ok text) :
    ¬Imported f torClient crate casing servers text := by
  -- The tunnels are loaded, but nothing is built of them, and there are servers.
  rintro ⟨config, hconfig, hlabels⟩
  rw [parseToml_generateToml hcrate hne hkey hplain h] at hconfig
  obtain rfl := Except.ok.inj hconfig
  rw [buildTransports_serverTunnel, List.map_nil, eq_comm, List.map_eq_nil_iff] at hlabels
  exact hne hlabels

/-! ## One server -/

/-- A server in Germany. -/
def germany : ServerEntry where
  name := "Germany #1".toList
  hostname := "de1.nordvpn.com".toList
  station := "5.6.7.8".toList
  technologies := [⟨"wireguard_udp".toList, [⟨"public_key".toList, "cHVibGlj".toList⟩]⟩]
  locations := [⟨⟨"DE".toList⟩⟩]

/-- Its strings need no escapes. -/
theorem germany_plain : germany.Plain :=
  ⟨by decide, by decide, by decide, by decide⟩

/-- The generated text for it. -/
theorem generateToml_germany :
    ∃ text, generateToml .ascii "cHJpdmF0ZQ==".toList [germany] = .ok text :=
  ⟨_, rfl⟩

/-- The tunnel to the server is not built. -/
theorem not_imported_germany : ∃ text,
    generateToml .ascii "cHJpdmF0ZQ==".toList [germany] = .ok text ∧
      ¬Imported allFeatures (fun _ => .ok ()) fragmentCrate .ascii [germany] text :=
  ⟨_, rfl, not_imported allFeatures (fun _ => .ok ()) fragmentCrate .ascii "cHJpdmF0ZQ==".toList
    [germany] _ fragmentCrate_conforms (by simp) (by decide)
    (List.forall_mem_singleton.2 germany_plain) rfl⟩

/-- What is generated is not always imported. -/
theorem not_imported_generateToml : ¬∀ (f : Features) (torClient : ℕ → Except Text Unit)
    (crate : TomlCrate) (casing : CaseMapping) (privateKey : Text) (servers : List ServerEntry)
    (text : Text), f.wireguard = true → crate.Conforms → servers ≠ [] → Toml.Plain privateKey →
    (∀ server ∈ servers, server.Plain) → generateToml casing privateKey servers = .ok text →
    Imported f torClient crate casing servers text := by
  intro h
  obtain ⟨text, htext⟩ := generateToml_germany
  have hplain : ∀ server ∈ [germany], server.Plain := List.forall_mem_singleton.2 germany_plain
  obtain ⟨config, hconfig, hlabels⟩ := h allFeatures (fun _ => .ok ()) fragmentCrate .ascii
    "cHJpdmF0ZQ==".toList [germany] text rfl fragmentCrate_conforms (by simp) (by decide) hplain
    htext
  rw [parseToml_generateToml fragmentCrate_conforms (by simp) (by decide) hplain htext] at hconfig
  obtain rfl := Except.ok.inj hconfig
  rw [buildTransports_serverTunnel] at hlabels
  exact absurd hlabels (by simp)

end Houdinny.Nord
