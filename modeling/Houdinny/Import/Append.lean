import Houdinny.Import.Nord
import Houdinny.Import.Ssh

/-!
# Importing into a file

What was imported is written after what is in the output file, or after the default
`[proxy]` section, if there is no such file (`writeConfig`). The file is then loaded
with what was loaded of it before, and one tunnel for each server or port, exactly if
none of the strings of the import needs escapes (`writeConfig_appended_iff`). Then the
next import finds a file as the one before did (`base_of_plain`).

The two importers write files in the same way, and differ in the blocks and in the comment
above them, so they are one `Source` here.

* `Output` is the file, with what comes of writing to it: all may be written, a part of it,
  or nothing. The file is not replaced as a whole, so a write that fails may leave a part.
* `Base` is what is asked of a file before an import. Beside that it is loaded, its tunnels
  must be written as `[[tunnel]]` blocks: an inline array is loaded too, but cannot be added
  to.
* `Entry` is what is compared of the tunnels that are loaded afterwards: where they go to,
  with which keys, and how they are called. So a tunnel that only looks like what was
  imported does not count.

For one direction the strings are plain and the blocks are read as they were written
(`parseToml_blocks`); for the other, a file that is loaded has strings that need no escapes,
in as far as they are those of the entries (`get_of_mem_serverPairs`, `get_of_mem_portPairs`).
-/

namespace Houdinny

open Text Toml

namespace Import

/-! ## The output file -/

/-- What comes of writing to a file: everything is written, or the file cannot be opened, or
    an error comes when some of the text is in the file. -/
inductive Disk
  | written
  | refused
  | failed (written : ℕ) (error : Text)

/-- The output file: what is in it, if it exists, and what comes of writing to it. -/
structure Output where
  path : Text
  contents : Option Text
  disk : Disk

/-- The file that is written where there was none: a default `[proxy]` section, and the
    tunnels. -/
def freshFile (provider tomlBlock : Text) : Text :=
  "# houdinny tunnel configuration\n".toList ++
    ("# Generated by: houdinny import ".toList ++ provider ++ "\n\n".toList) ++
    "[proxy]\nlisten = \"127.0.0.1:8080\"\n".toList ++
    "mode = \"transparent\"\nstrategy = \"random\"\n\n".toList ++ tomlBlock

/-- Write or append tunnel config to the output file: what is in it then, and the
    result. -/
def writeConfig (provider : Text) (output : Output) (tomlBlock : Text) :
    Option Text × Except Text Unit :=
  match output.contents, output.disk with
  | some contents, .written => (some (contents ++ '\n' :: tomlBlock), .ok ())
  | some contents, .refused =>
    (some contents, .error ("failed to open ".toList ++ output.path ++ " for appending".toList))
  | some contents, .failed n e => (some (contents ++ ('\n' :: tomlBlock).take n), .error e)
  | none, .written => (some (freshFile provider tomlBlock), .ok ())
  | none, .refused => (none, .error ("failed to write ".toList ++ output.path))
  | none, .failed n _ =>
    (some ((freshFile provider tomlBlock).take n),
      .error ("failed to write ".toList ++ output.path))

end Import

/-- The output file of an import of NordVPN servers. -/
def Nord.writeConfig : Import.Output → Text → Option Text × Except Text Unit :=
  Import.writeConfig "nord".toList

/-- The output file of an import of SSH tunnels. -/
def Ssh.writeConfig : Import.Output → Text → Option Text × Except Text Unit :=
  Import.writeConfig "ssh".toList

namespace Import

/-- What is imported. -/
inductive Source
  | nord (privateKey : Text) (servers : List Nord.ServerEntry)
  | ssh (host : Text) (ports : List UInt16)

/-- The blocks that are written for the import. -/
def Source.generateToml (casing : CaseMapping) : Source → Except Text Text
  | nord privateKey servers => Nord.generateToml casing privateKey servers
  | ssh host ports => .ok (Ssh.generateToml host ports)

/-- The output file of the import. -/
def Source.writeConfig : Source → Output → Text → Option Text × Except Text Unit
  | nord .. => Nord.writeConfig
  | ssh .. => Ssh.writeConfig

/-! ## What should be loaded -/

/-- Where a tunnel goes to, with which keys, and how it is called. -/
structure Entry where
  endpoint : Option Text
  privateKey : Option Text
  publicKey : Option Text
  address : Option Text
  label : Option Text
  deriving DecidableEq

/-- What is compared of a tunnel. -/
def entryOf (c : TunnelConfig) : Entry where
  endpoint := c.endpoint
  privateKey := c.privateKey
  publicKey := c.publicKey
  address := c.address
  label := c.label

/-- One entry for each server or port. -/
def Source.entries (casing : CaseMapping) : Source → List Entry
  | nord privateKey servers => servers.map fun server =>
    { endpoint := some (server.station ++ ":51820".toList)
      privateKey := some privateKey
      publicKey := some (Nord.publicKey server)
      address := some "10.5.0.2/32".toList
      label := some (Nord.label casing server) }
  | ssh host ports => ports.map fun port =>
    { endpoint := none
      privateKey := none
      publicKey := none
      address := some ("127.0.0.1:".toList ++ ofNat port.toNat)
      label := some (Ssh.label host port) }

/-- The text is loaded as the configuration with the entries added to its tunnels. -/
def Appended (crate : TomlCrate) (text : Text) (config : Config) (entries : List Entry) : Prop :=
  ∃ config', Config.parseToml crate text = .ok config' ∧ config'.proxy = config.proxy ∧
    config'.docker = config.docker ∧
    ∃ added, config'.tunnel = config.tunnel ++ added ∧ added.map entryOf = entries

/-- What the tunnels of a document are, if it has any. -/
def tunnelShape (s : Text) : Option Shape :=
  (document s).bind fun es => (es.lookup tunnelKey).map Item.shape

/-- The tunnels of a document, if it has any, are written as `[[tunnel]]` blocks. -/
def TunnelBlocks (s : Text) : Prop := tunnelShape s = none ∨ tunnelShape s = some (.array true)

/-- The defaults that are written to a new file. -/
def freshConfig : Config := ⟨⟨"127.0.0.1:8080".toList, .transparent, .random⟩, ⟨false, []⟩, []⟩

/-- What is loaded of the output file before an import: a configuration with its tunnels
    in blocks, or the defaults, if the file is new. -/
def Base (crate : TomlCrate) (output : Output) (config : Config) : Prop :=
  match output.contents with
  | some contents => Config.parseToml crate contents = .ok config ∧ TunnelBlocks contents
  | none => config = freshConfig

/-- The strings of a server that are written need no escapes. -/
structure ServerPlain (server : Nord.ServerEntry) : Prop where
  name : Plain server.name
  station : Plain server.station
  publicKey : Plain (Nord.publicKey server)
  code : ∀ l, server.locations.head? = some l → Plain l.country.code

/-- The strings that are written need no escapes. -/
def Source.Plain : Source → Prop
  | nord privateKey servers => ∀ server ∈ servers, Toml.Plain privateKey ∧ ServerPlain server
  | ssh host ports => ports ≠ [] → Toml.Plain host

variable {crate : TomlCrate} {casing : CaseMapping} {provider block text privateKey : Text}
  {output : Output} {config : Config} {server : Nord.ServerEntry} {source : Source}

/-! ## Lines before an import -/

/-- The lines of a new file before the import. -/
def freshDoc (provider : Text) : Doc :=
  [.comment " houdinny tunnel configuration".toList,
    .comment (" Generated by: houdinny import ".toList ++ provider), .blank, .table "proxy".toList,
    .pair "listen".toList "127.0.0.1:8080".toList, .pair "mode".toList "transparent".toList,
    .pair "strategy".toList "random".toList, .blank]

/-- The lines of a new file, as they are written. -/
theorem render_freshDoc (provider : Text) : (freshDoc provider).render =
    "# houdinny tunnel configuration\n".toList ++
      ("# Generated by: houdinny import ".toList ++ provider ++ "\n\n".toList) ++
      "[proxy]\nlisten = \"127.0.0.1:8080\"\n".toList ++
      "mode = \"transparent\"\nstrategy = \"random\"\n\n".toList := by
  simp [freshDoc, Doc.render, Line.render]

/-- What is read of them. -/
def freshEntries : Entries :=
  [("proxy".toList, .table .header [("listen".toList, .value (.string "127.0.0.1:8080".toList)),
    ("mode".toList, .value (.string "transparent".toList)),
    ("strategy".toList, .value (.string "random".toList))])]

/-- They are read as one section. -/
theorem lines_freshDoc (h : ∀ c ∈ provider, isControl c = false) :
    Lines tunnelKey (freshDoc provider).render (.table .header freshEntries) [] := by
  have habsent : tunnelKey ∉ freshEntries.map Prod.fst :=
    fun h => absurd (List.mem_singleton.1 h) (by decide)
  refine lines_render (d := ⟨.table .header freshEntries, [.key "proxy".toList], []⟩) ?_ rfl
    (.absent habsent)
  have hcomment : ∀ c ∈ " Generated by: houdinny import ".toList, isControl c = false :=
    forall_mem_of_all (by decide)
  simp only [List.forall_mem_cons]
  exact ⟨by decide, List.forall_mem_append.2 ⟨hcomment, h⟩, by decide, by decide, by decide,
    by decide, by decide, by decide, fun _ h => absurd h List.not_mem_nil⟩

/-- The lines of a file that is loaded, and a newline. -/
theorem exists_lines {contents : Text} (hcrate : crate.Follows)
    (hload : Config.parseToml crate contents = .ok config) (hblocks : TunnelBlocks contents) :
    ∃ kind es items, Lines tunnelKey (contents ++ ['\n']) (.table kind es) items ∧
      Config.decode (entriesToTable es) = some config := by
  obtain ⟨t, ht, hdecode⟩ := hcrate.parseToml_eq_ok.1 hload
  obtain ⟨es, hes, rfl⟩ := Option.map_eq_some_iff.1 ht
  obtain ⟨-, kind, way, outer, hscan⟩ := document_eq_some.1 hes
  have hshape : ∀ c, es.lookup tunnelKey = some c → c.shape = .array true := by
    intro c hc
    rw [TunnelBlocks, tunnelShape, hes, Option.bind_some, hc] at hblocks
    rcases hblocks with h | h
    · exact absurd h (by simp)
    · exact Option.some.inj h
  obtain ⟨items, harray⟩ := exists_arrayOf kind hshape
  exact ⟨kind, es, items, ⟨List.getLast?_concat, ⟨way, outer, hscan⟩, harray⟩, hdecode⟩

/-- What is written comes after lines of which the configuration is loaded. -/
theorem exists_lines_of_writeConfig (hprovider : ∀ c ∈ provider, isControl c = false)
    (hcrate : crate.Follows) (hbase : Base crate output config)
    (h : writeConfig provider output block = (some text, .ok ())) :
    ∃ pre kind es items, text = pre ++ block ∧ Lines tunnelKey pre (.table kind es) items ∧
      Config.decode (entriesToTable es) = some config := by
  obtain ⟨path, contents, disk⟩ := output
  rcases contents with _ | contents <;> rcases disk with _ | _ | ⟨n, e⟩
  -- What is written comes after the old contents and a newline.
  case some.written =>
    obtain ⟨kind, es, items, hlines, hdecode⟩ := exists_lines hcrate hbase.1 hbase.2
    refine ⟨contents ++ ['\n'], kind, es, items, ?_, hlines, hdecode⟩
    obtain rfl := Option.some.inj (Prod.mk.inj h).1
    rw [List.append_assoc]
    rfl
  -- There was no file, so the lines before the blocks are known.
  case none.written =>
    refine ⟨(freshDoc provider).render, .header, freshEntries, [], ?_, lines_freshDoc hprovider, ?_⟩
    · rw [render_freshDoc]
      exact (Option.some.inj (Prod.mk.inj h).1).symm
    · rw [show config = freshConfig from hbase]
      rfl
  all_goals exact absurd (Prod.mk.inj h).2 (by rintro ⟨⟩)

/-- So it is for both importers. -/
theorem Source.exists_lines (source : Source) (hcrate : crate.Follows)
    (hbase : Base crate output config)
    (h : source.writeConfig output block = (some text, .ok ())) :
    ∃ pre kind es items, text = pre ++ block ∧ Lines tunnelKey pre (.table kind es) items ∧
      Config.decode (entriesToTable es) = some config := by
  cases source with
  | nord => exact exists_lines_of_writeConfig (forall_mem_of_all (by decide)) hcrate hbase h
  | ssh => exact exists_lines_of_writeConfig (forall_mem_of_all (by decide)) hcrate hbase h

/-! ## Blocks -/

/-- The block of a server describes its tunnel. -/
theorem describes_serverPairs (casing : CaseMapping) (privateKey : Text)
    (server : Nord.ServerEntry) : Describes (Nord.serverPairs casing privateKey server)
      (Nord.serverTunnel casing privateKey server) where
  block :=
    { bare := by
        simp only [Nord.serverPairs, List.forall_mem_cons]
        exact ⟨by decide, by decide, by decide, by decide, by decide, by decide, by decide,
          fun _ h => absurd h List.not_mem_nil⟩
      nodup := by
        change (["protocol".toList, "endpoint".toList, "private_key".toList, "public_key".toList,
          "address".toList, "dns".toList, "label".toList] : List Text).Nodup
        decide }
  field := by
    simp only [Nord.serverPairs, List.forall_mem_cons]
    exact ⟨⟨.protocol, rfl⟩, ⟨.endpoint, rfl⟩, ⟨.privateKey, rfl⟩, ⟨.publicKey, rfl⟩,
      ⟨.address, rfl⟩, ⟨.dns, rfl⟩, ⟨.label, rfl⟩, fun _ h => absurd h List.not_mem_nil⟩
  decode := Nord.decode_serverPairs casing privateKey server

/-- The code of a country is written in lower case, or `xx`, and so is as plain as it was. -/
theorem plain_countryCode (hcasing : casing.KeepsAscii) (server : Nord.ServerEntry) :
    Plain (Nord.countryCode casing server) ↔
      ∀ l, server.locations.head? = some l → Plain l.country.code := by
  rw [Nord.countryCode]
  rcases server.locations.head? with _ | l
  · exact iff_of_true (show Plain "xx".toList by decide) fun l h => absurd h (by simp)
  · simp only [plain_toLowercase hcasing, Option.some.injEq, forall_eq']

/-- The strings of the block of a server need no escapes if those of the server do not. -/
theorem plain_serverPairs (hcasing : casing.KeepsAscii) :
    (∀ kv ∈ Nord.serverPairs casing privateKey server, Plain kv.2) ↔
      Plain privateKey ∧ ServerPlain server := by
  have hstation : Plain (server.station ++ ":51820".toList) ↔ Plain server.station :=
    plain_append.trans (and_iff_left (by decide))
  have hcode : Plain ("nord-".toList ++ Nord.countryCode casing server ++ "-".toList) ↔
      Plain (Nord.countryCode casing server) :=
    (plain_append.trans (and_iff_left (by decide))).trans
      (plain_append.trans (and_iff_right (by decide)))
  simp only [Nord.serverPairs, List.forall_mem_cons]
  constructor
  · rintro ⟨-, hs, hprivate, hpublic, -, -, hlabel, -⟩
    obtain ⟨hc, hname⟩ := plain_append.1 hlabel
    exact ⟨hprivate, hname, hstation.1 hs, hpublic,
      (plain_countryCode hcasing server).1 (hcode.1 hc)⟩
  · rintro ⟨hprivate, hname, hs, hpublic, hc⟩
    exact ⟨by decide, hstation.2 hs, hprivate, hpublic, by decide, by decide,
      plain_append.2 ⟨hcode.2 ((plain_countryCode hcasing server).2 hc), hname⟩,
      fun _ h => absurd h List.not_mem_nil⟩

/-! ## Loading -/

section

variable {α : Type} {l : List α} {pairs : α → Pairs} {tunnel : α → TunnelConfig} {pre : Text}
  {kind : Kind} {es : Entries} {items : List Item}

/-- Blocks after other lines are loaded as the tunnels they describe exactly if their
    strings need no escapes. -/
theorem appended_iff (hcrate : crate.Follows) (h : Lines tunnelKey pre (.table kind es) items)
    (hc : Config.decode (entriesToTable es) = some config)
    (hl : ∀ a ∈ l, Describes (pairs a) (tunnel a))
    (hget : ∀ a ∈ l, ∀ c, entryOf c = entryOf (tunnel a) → ∀ (f : TunnelField) (v : Text),
      (f.key, v) ∈ pairs a → ¬Plain v → f.get c = some v) :
    Appended crate (pre ++ Doc.render ((l.map pairs).flatMap (Doc.block tunnelKey))) config
      (l.map fun a => entryOf (tunnel a)) ↔ ∀ a ∈ l, ∀ kv ∈ pairs a, Plain kv.2 := by
  constructor
  · -- The string that is found at the place of the block is the one of the entry there.
    rintro ⟨config', hload, -, -, added, htunnel, hentries⟩
    refine plain_of_parseToml hcrate h hc hl hload fun i a ha f v hf hv => ?_
    have hentry := congrArg (·[i]?) hentries
    simp only [List.getElem?_map, ha, Option.map_some] at hentry
    obtain ⟨c, hi, hentry⟩ := Option.map_eq_some_iff.1 hentry
    rw [Field.get, htunnel, List.getElem?_append_right (Nat.le_add_right _ i),
      Nat.add_sub_cancel_left, hi]
    exact hget a (List.mem_of_getElem? ha) c hentry f v hf hv
  · intro hplain
    refine ⟨_, parseToml_blocks hcrate h hc hl hplain, rfl, rfl, _, rfl, ?_⟩
    rw [List.map_map]
    rfl

end

/-- The strings of a server that need escapes are those of its entry. -/
theorem get_of_mem_serverPairs {c : TunnelConfig} {f : TunnelField} {v : Text}
    (h : entryOf c = entryOf (Nord.serverTunnel casing privateKey server))
    (hf : (f.key, v) ∈ Nord.serverPairs casing privateKey server) (hv : ¬Plain v) :
    f.get c = some v := by
  obtain ⟨hendpoint, hprivate, hpublic, -, hlabel⟩ := Entry.mk.inj h
  simp only [Nord.serverPairs, List.mem_cons, Prod.mk.injEq, List.not_mem_nil, or_false] at hf
  rcases hf with ⟨-, rfl⟩ | ⟨hkey, rfl⟩ | ⟨hkey, rfl⟩ | ⟨hkey, rfl⟩ | ⟨-, rfl⟩ | ⟨-, rfl⟩ |
    ⟨hkey, rfl⟩
  · exact absurd (by decide) hv
  · -- The key tells which of the fields it is, and so which part of the entry.
    obtain rfl : f = .endpoint := TunnelField.key_injective hkey
    exact hendpoint
  · obtain rfl : f = .privateKey := TunnelField.key_injective hkey
    exact hprivate
  · obtain rfl : f = .publicKey := TunnelField.key_injective hkey
    exact hpublic
  · exact absurd (by decide) hv
  · exact absurd (by decide) hv
  · obtain rfl : f = .label := TunnelField.key_injective hkey
    exact hlabel

/-- The strings of a port that need escapes are those of its entry. -/
theorem get_of_mem_portPairs {host : Text} {port : UInt16} {c : TunnelConfig} {f : TunnelField}
    {v : Text} (h : entryOf c = entryOf (Ssh.portTunnel host port))
    (hf : (f.key, v) ∈ Ssh.portPairs host port) (hv : ¬Plain v) : f.get c = some v := by
  obtain ⟨-, -, -, haddress, hlabel⟩ := Entry.mk.inj h
  simp only [Ssh.portPairs, socksPairs, List.mem_cons, Prod.mk.injEq, List.not_mem_nil,
    or_false] at hf
  rcases hf with ⟨-, rfl⟩ | ⟨hkey, rfl⟩ | ⟨hkey, rfl⟩
  · exact absurd (by decide) hv
  · obtain rfl : f = .address := TunnelField.key_injective hkey
    exact haddress
  · obtain rfl : f = .label := TunnelField.key_injective hkey
    exact hlabel

/-- The entries of an import of servers are those of their tunnels. -/
theorem entries_nord (casing : CaseMapping) (privateKey : Text) (servers : List Nord.ServerEntry) :
    (Source.nord privateKey servers).entries casing =
      servers.map fun server => entryOf (Nord.serverTunnel casing privateKey server) := by
  simp only [Source.entries, entryOf, Nord.serverTunnel]

/-- The entries of an import of ports are those of their tunnels. -/
theorem entries_ssh (casing : CaseMapping) (host : Text) (ports : List UInt16) :
    (Source.ssh host ports).entries casing =
      ports.map fun port => entryOf (Ssh.portTunnel host port) := by
  simp only [Source.entries, entryOf, Ssh.portTunnel, socksTunnel, TunnelConfig.ofProtocol]

/-- What is appended to lines of which the configuration is loaded. -/
theorem Source.appended_iff {pre : Text} {kind : Kind} {es : Entries} {items : List Item}
    (hcrate : crate.Follows) (hcasing : casing.KeepsAscii)
    (hblock : source.generateToml casing = .ok block)
    (h : Lines tunnelKey pre (.table kind es) items)
    (hc : Config.decode (entriesToTable es) = some config) :
    Appended crate (pre ++ block) config (source.entries casing) ↔ source.Plain := by
  cases source with
  | nord privateKey servers =>
    rw [Nord.generateToml_eq_render hblock, Nord.nordDoc, ← List.singleton_append,
      Doc.render_append, ← List.append_assoc, entries_nord]
    -- The line before the tunnels is a comment, which changes nothing of what is read.
    have hlines := h.comment (s := " Generated by: houdinny import nord".toList)
      (forall_mem_of_all (by decide))
    refine (Import.appended_iff hcrate hlines hc
      (fun server _ => describes_serverPairs casing privateKey server)
      (fun server _ c hentry f v => get_of_mem_serverPairs hentry)).trans ?_
    simp only [plain_serverPairs hcasing]
    rfl
  | ssh host ports =>
    obtain rfl := Except.ok.inj hblock
    rw [Ssh.generateToml_eq_render, ← List.append_assoc, entries_ssh]
    have hlines := h.comment (s := Ssh.banner) (forall_mem_of_all (by decide))
    refine (Import.appended_iff hcrate hlines hc (fun port _ => Ssh.describes_portPairs host port)
      (fun port _ c hentry f v => get_of_mem_portPairs hentry)).trans ?_
    simp only [Ssh.plain_portPairs]
    constructor
    · intro hall hne
      obtain ⟨port, hport⟩ := List.exists_mem_of_ne_nil ports hne
      exact hall port hport
    · exact fun hplain port hport => hplain (List.ne_nil_of_mem hport)

/-- Strings that are loaded as they were need no escapes. -/
theorem Source.plain_of_appended (hcrate : crate.Follows) (hcasing : casing.KeepsAscii)
    (hbase : Base crate output config) (hblock : source.generateToml casing = .ok block)
    (hwrite : source.writeConfig output block = (some text, .ok ()))
    (h : Appended crate text config (source.entries casing)) : source.Plain := by
  obtain ⟨pre, kind, es, items, rfl, hlines, hc⟩ := source.exists_lines hcrate hbase hwrite
  exact (Source.appended_iff hcrate hcasing hblock hlines hc).1 h

/-- Strings that need no escapes are loaded as they were. -/
theorem Source.appended_of_plain (hcrate : crate.Follows) (hcasing : casing.KeepsAscii)
    (hbase : Base crate output config) (hblock : source.generateToml casing = .ok block)
    (hwrite : source.writeConfig output block = (some text, .ok ())) (h : source.Plain) :
    Appended crate text config (source.entries casing) := by
  obtain ⟨pre, kind, es, items, rfl, hlines, hc⟩ := source.exists_lines hcrate hbase hwrite
  exact (Source.appended_iff hcrate hcasing hblock hlines hc).2 h

/-- After an import, the file is loaded as what was loaded of it before, and one entry for each
    server or port, exactly if none of the strings that were written needs escapes. The file may
    be there or not, and the import is of servers or of ports; what is asked of a file that is
    there is that an import can be added to it (`Base`). -/
theorem writeConfig_appended_iff (crate : TomlCrate) (casing : CaseMapping) (source : Source)
    (output : Output) (config : Config) (block text : Text) (hcrate : crate.Follows)
    (hcasing : casing.KeepsAscii) (hbase : Base crate output config)
    (hblock : source.generateToml casing = .ok block)
    (hwrite : source.writeConfig output block = (some text, .ok ())) :
    Appended crate text config (source.entries casing) ↔ source.Plain :=
  ⟨Source.plain_of_appended hcrate hcasing hbase hblock hwrite,
    Source.appended_of_plain hcrate hcasing hbase hblock hwrite⟩

/-- An import of a server in Germany. -/
def germany : Source := .nord "cHJpdmF0ZQ==".toList [Nord.germany]

/-- A file with a tunnel. -/
def tunnelFile : Text :=
  "[[tunnel]]\nprotocol = \"socks5\"\naddress = \"127.0.0.1:1080\"\n".toList

/-- What is loaded of it. -/
def tunnelFileConfig : Config where
  proxy := default
  docker := default
  tunnel := [{ TunnelConfig.ofProtocol "socks5".toList with
    address := some "127.0.0.1:1080".toList }]

/-- The server is imported into the file, and loaded after the tunnel that was there. -/
theorem writeConfig_appended_iff_germany : ∃ block text,
    germany.generateToml .ascii = .ok block ∧
      germany.writeConfig ⟨"houdinny.toml".toList, some tunnelFile, .written⟩ block =
        (some text, .ok ()) ∧
      Appended readerCrate text tunnelFileConfig (germany.entries .ascii) :=
  ⟨_, _, rfl, rfl, (writeConfig_appended_iff readerCrate .ascii germany
    ⟨"houdinny.toml".toList, some tunnelFile, .written⟩ tunnelFileConfig _ _ readerCrate_follows
    ascii_keepsAscii ⟨by decide +kernel, .inr (by decide +kernel)⟩ rfl rfl).2
      (List.forall_mem_singleton.2 ⟨by decide, ⟨by decide, by decide, by decide, by decide⟩⟩)⟩

/-- A quote in the name of a host ends the string, and the tunnel is not loaded so. -/
theorem not_appended_quote : ¬∀ (crate : TomlCrate) (casing : CaseMapping) (source : Source)
    (output : Output) (config : Config) (block text : Text), crate.Follows → casing.KeepsAscii →
    Base crate output config → source.generateToml casing = .ok block →
    source.writeConfig output block = (some text, .ok ()) →
    Appended crate text config (source.entries casing) := by
  intro h
  have hquote := h readerCrate .ascii (.ssh "a\"b".toList [1080])
    ⟨"houdinny.toml".toList, none, .written⟩ freshConfig _ _ readerCrate_follows ascii_keepsAscii
    rfl rfl rfl
  have hbase : Base readerCrate ⟨"houdinny.toml".toList, none, .written⟩ freshConfig := rfl
  have hplain := Source.plain_of_appended readerCrate_follows ascii_keepsAscii hbase rfl rfl hquote
  exact absurd (hplain (List.cons_ne_nil _ _)) (by decide)

/-! ## Imports one after the other -/

/-- What is written is a comment, and blocks. -/
theorem Source.exists_blocks (hcasing : casing.KeepsAscii)
    (hblock : source.generateToml casing = .ok block) (hplain : source.Plain) :
    ∃ (banner : Text) (ps : List Pairs), (∀ c ∈ banner, isControl c = false) ∧
      (∀ p ∈ ps, Block p) ∧ (∀ p ∈ ps, ∀ kv ∈ p, Toml.Plain kv.2) ∧
      block = Doc.render [.comment banner] ++
        Doc.render (ps.flatMap (Doc.block tunnelKey)) := by
  cases source with
  | nord privateKey servers =>
    refine ⟨" Generated by: houdinny import nord".toList,
      servers.map (Nord.serverPairs casing privateKey), forall_mem_of_all (by decide),
      List.forall_mem_map.2 fun server _ => (describes_serverPairs casing privateKey server).block,
      List.forall_mem_map.2 fun server hserver =>
        (plain_serverPairs hcasing).2 (hplain server hserver), ?_⟩
    rw [Nord.generateToml_eq_render hblock, ← Doc.render_append]
    rfl
  | ssh host ports =>
    obtain rfl := Except.ok.inj hblock
    exact ⟨Ssh.banner, ports.map (Ssh.portPairs host), forall_mem_of_all (by decide),
      List.forall_mem_map.2 fun port _ => (Ssh.describes_portPairs host port).block,
      List.forall_mem_map.2 fun port hport =>
        Ssh.plain_portPairs.2 (hplain (List.ne_nil_of_mem hport)),
      Ssh.generateToml_eq_render host ports⟩

/-- After an import that needs no escapes, the next one finds a configuration with its
    tunnels in blocks. -/
theorem exists_base (hcrate : crate.Follows) (hcasing : casing.KeepsAscii)
    (hbase : Base crate output config) (hblock : source.generateToml casing = .ok block)
    (hwrite : source.writeConfig output block = (some text, .ok ())) (hplain : source.Plain) :
    ∃ config', Base crate { output with contents := some text } config' ∧
      config'.proxy = config.proxy ∧ config'.docker = config.docker ∧ ∃ added,
        config'.tunnel = config.tunnel ++ added ∧ added.map entryOf = source.entries casing := by
  obtain ⟨pre, kind, es, items, rfl, h, hc⟩ := source.exists_lines hcrate hbase hwrite
  obtain ⟨config', hload, hconfig⟩ := (Source.appended_iff hcrate hcasing hblock h hc).2 hplain
  refine ⟨config', ⟨hload, ?_⟩, hconfig⟩
  obtain ⟨banner, ps, hbanner, hps, hstrings, rfl⟩ := Source.exists_blocks hcasing hblock hplain
  obtain ⟨kind', es', hes, harray, -⟩ := document_blocks (h.comment hbanner) (by decide) hps
    hstrings
  rw [← List.append_assoc, TunnelBlocks, tunnelShape, hes, Option.bind_some]
  rcases harray.lookup with ⟨-, hnone⟩ | hsome
  · exact .inl (congrArg (Option.map Item.shape) hnone)
  · exact .inr (congrArg (Option.map Item.shape) hsome)

end Import

end Houdinny
