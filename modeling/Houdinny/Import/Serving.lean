import Houdinny.Import.Append
import Houdinny.Import.Servers
import Houdinny.Startup.Serving

/-!
# Imports at work

The subcommands `import nord` and `import ssh`, one after the other on one file, whether they
succeed or fail before they write (`Attempt.Whole`), and the proxy that is started with the
file then. It has the tunnels that were in the file, and those of the imports that have
succeeded, in order; but its connections only go through those that it had before, and through
the ports of `ssh`: never through an imported NordVPN server (`serves_imported`).

An `Attempt` is an import together with what comes of all that it calls: the API, the `ssh`
processes, and the disk. A failing one leaves the file as it is (`contents_of_run`), and one
that succeeds writes what it `Yields` (`yields_of_run`). By induction over the attempts the
file stays one that an import can be added to (`exists_base_attempts`), as long as the
strings that are imported need no escapes.

The conditions are those of the parts: on the file before (`Base`), on the strings, and that
no reference begins in the file.
-/

namespace Houdinny

open Text Toml

/-! ## Subcommands -/

namespace Nord

/-- What the NordVPN API returns. -/
structure Api where
  /-- The private key, for a token. -/
  fetchCredentials : Text → Except Text Text
  fetchServerList : Text → Except Text (List ServerEntry)

/-- Fetch NordVPN WireGuard credentials and recommended servers, then write tunnel config
    entries to `output`. -/
def importNord (casing : CaseMapping) (api : Api) (token : Text) (count : ℕ)
    (countries : Option (List Text)) (output : Import.Output) : Option Text × Except Text Unit :=
  match api.fetchCredentials token with
  | .error e => (output.contents, .error e)
  | .ok privateKey =>
    match fetchServers casing api.fetchServerList count countries with
    | .error e => (output.contents, .error e)
    | .ok servers =>
      if servers.isEmpty then
        (output.contents,
          .error "NordVPN returned no servers matching the requested criteria".toList)
      else match generateToml casing privateKey servers with
        | .error e => (output.contents, .error e)
        | .ok block => Nord.writeConfig output block

end Nord

namespace Ssh

/-- What comes of a process. -/
inductive Exit
  | notExecuted
  | exited (success : Bool) (status : Text)

/-- Start a single SSH SOCKS5 tunnel in the background. -/
def startSshTunnel (ssh : List Text → Exit) (user host : Text) (port : UInt16) :
    Except Text Unit :=
  let command := "ssh -D ".toList ++ ofNat port.toNat ++ " -N -f ".toList ++ user ++
    "@".toList ++ host
  match ssh ["-D".toList, ofNat port.toNat, "-N".toList, "-f".toList,
    user ++ "@".toList ++ host] with
  | .notExecuted => .error ("failed to execute ".toList ++ command)
  | .exited false status => .error (command ++ " exited with status ".toList ++ status)
  | .exited true _ => .ok ()

/-- Generate SSH SOCKS5 tunnel config entries and optionally start the tunnels. -/
def importSsh (ssh : List Text → Exit) (host user : Text) (ports : List UInt16) (start : Bool)
    (output : Import.Output) : Option Text × Except Text Unit :=
  if ports.isEmpty then
    (output.contents, .error "no ports specified — need at least one SOCKS5 port".toList)
  else match if start then ports.forM (startSshTunnel ssh user host) else .ok () with
    | .error e => (output.contents, .error e)
    | .ok () => Ssh.writeConfig output (generateToml host ports)

/-- The transport of a port. -/
def portTransport (host : Text) (port : UInt16) : Transport :=
  .socks5 (.new ("127.0.0.1:".toList ++ ofNat port.toNat) (label host port))

end Ssh

namespace Import

/-- An import. -/
inductive Command
  | nord (token : Text) (count : ℕ) (countries : Option (List Text))
  | ssh (host user : Text) (ports : List UInt16) (start : Bool)

/-- An import, at a time when this comes of what it calls. -/
structure Attempt where
  command : Command
  api : Nord.Api
  ssh : List Text → Ssh.Exit
  disk : Disk

/-- The import leaves no file with a part of what it writes. -/
def Attempt.Whole (a : Attempt) : Prop := ∀ n e, a.disk ≠ .failed n e

/-- What is in the file then, and the result. -/
def Attempt.run (casing : CaseMapping) (path : Text) (contents : Option Text) (a : Attempt) :
    Option Text × Except Text Unit :=
  match a.command with
  | .nord token count countries =>
    Nord.importNord casing a.api token count countries ⟨path, contents, a.disk⟩
  | .ssh host user ports start =>
    Ssh.importSsh a.ssh host user ports start ⟨path, contents, a.disk⟩

/-- What is in the file after imports, one after the other, and those that have succeeded. -/
def attempts (casing : CaseMapping) (path : Text) :
    Option Text → List Attempt → Option Text × List Attempt
  | contents, [] => (contents, [])
  | contents, a :: as =>
    match a.run casing path contents with
    | (contents', .error _) => attempts casing path contents' as
    | (contents', .ok ()) =>
      ((attempts casing path contents' as).1, a :: (attempts casing path contents' as).2)

/-- What is imported, where the import succeeds. -/
inductive Attempt.Yields (casing : CaseMapping) (a : Attempt) : Source → Prop
  | nord {token privateKey : Text} {count : ℕ} {countries : Option (List Text)}
    {servers : List Nord.ServerEntry} : a.command = .nord token count countries →
    a.api.fetchCredentials token = .ok privateKey →
    Nord.fetchServers casing a.api.fetchServerList count countries = .ok servers →
    servers ≠ [] → Yields casing a (.nord privateKey servers)
  | ssh {host user : Text} {ports : List UInt16} {start : Bool} :
    a.command = .ssh host user ports start → ports ≠ [] →
    (start = true → ∀ port ∈ ports, Ssh.startSshTunnel a.ssh user host port = .ok ()) →
    Yields casing a (.ssh host ports)

/-- The tunnels of what is imported. -/
def Source.tunnels (casing : CaseMapping) : Source → List TunnelConfig
  | nord privateKey servers => servers.map (Nord.serverTunnel casing privateKey)
  | ssh host ports => ports.map (Ssh.portTunnel host)

variable {crate : TomlCrate} {casing : CaseMapping} {path block : Text} {output : Output}
  {contents : Option Text} {config : Config} {source : Source} {a : Attempt}

/-! ## The file -/

/-- A file that cannot be opened is left as it is. -/
theorem contents_of_writeConfig {provider : Text} {e : Text} {contents' : Option Text}
    (h : writeConfig provider output block = (contents', .error e))
    (hwhole : ∀ n e, output.disk ≠ .failed n e) : contents' = output.contents := by
  obtain ⟨path, contents, disk⟩ := output
  cases disk with
  | written => rcases contents with _ | contents <;> exact absurd (Prod.mk.inj h).2 (by rintro ⟨⟩)
  | refused => rcases contents with _ | contents <;> exact (Prod.mk.inj h).1.symm
  | failed n e => exact absurd rfl (hwhole n e)

/-- A file that is written has contents. -/
theorem exists_of_writeConfig {provider : Text} {contents' : Option Text}
    (h : writeConfig provider output block = (contents', .ok ())) :
    ∃ text, contents' = some text := by
  obtain ⟨path, contents, disk⟩ := output
  rcases contents with _ | contents <;> rcases disk with _ | _ | ⟨n, e⟩
  case none.written | some.written => exact ⟨_, (Prod.mk.inj h).1.symm⟩
  all_goals exact absurd (Prod.mk.inj h).2 (by rintro ⟨⟩)

/-- A loop that goes well goes well for each element. -/
theorem forM_eq_ok {α : Type} {g : α → Except Text Unit} {l : List α} (h : l.forM g = .ok ()) :
    ∀ x ∈ l, g x = .ok () := by
  induction l with
  | nil => exact fun x hx => absurd hx List.not_mem_nil
  | cons x l ih =>
    change (g x >>= fun _ => l.forM g) = .ok () at h
    rcases hx : g x with e | u
    · rw [hx] at h
      exact absurd h (by simp [bind, Except.bind])
    · rw [hx] at h
      exact List.forall_mem_cons.2 ⟨hx, ih h⟩

/-- An import that fails before it writes leaves the file as it is. -/
theorem contents_of_run {contents' : Option Text} {e : Text} (hwhole : a.Whole)
    (h : a.run casing path contents = (contents', .error e)) : contents' = contents := by
  rw [Attempt.run] at h
  split at h
  · rw [Nord.importNord] at h
    repeat' split at h
    · exact (Prod.mk.inj h).1.symm
    · exact (Prod.mk.inj h).1.symm
    · exact (Prod.mk.inj h).1.symm
    · exact (Prod.mk.inj h).1.symm
    · exact contents_of_writeConfig h hwhole
  · rw [Ssh.importSsh] at h
    split_ifs at h
    · exact (Prod.mk.inj h).1.symm
    all_goals
      split at h
      · exact (Prod.mk.inj h).1.symm
      · exact contents_of_writeConfig h hwhole

/-- One that succeeds writes what it yields. -/
theorem yields_of_run {contents' : Option Text}
    (h : a.run casing path contents = (contents', .ok ())) : ∃ source block text,
      a.Yields casing source ∧ source.generateToml casing = .ok block ∧ contents' = some text ∧
        source.writeConfig ⟨path, contents, a.disk⟩ block = (some text, .ok ()) := by
  rw [Attempt.run] at h
  split at h
  · next token count countries hcommand =>
    -- Each step that may fail has succeeded, as the result is `ok`.
    rw [Nord.importNord] at h
    split at h
    · exact absurd (Prod.mk.inj h).2 (by simp)
    next privateKey hcredentials =>
    split at h
    · exact absurd (Prod.mk.inj h).2 (by simp)
    next servers hservers =>
    split_ifs at h with hempty
    · exact absurd (Prod.mk.inj h).2 (by simp)
    split at h
    · exact absurd (Prod.mk.inj h).2 (by simp)
    next block hblock =>
    obtain ⟨text, rfl⟩ := exists_of_writeConfig h
    exact ⟨.nord privateKey servers, block, text,
      .nord hcommand hcredentials hservers (mt List.isEmpty_iff.2 hempty), hblock, rfl, h⟩
  · next host user ports start hcommand =>
    rw [Ssh.importSsh] at h
    split_ifs at h with hempty hstart
    · exact absurd (Prod.mk.inj h).2 (by simp)
    all_goals
      split at h
      · exact absurd (Prod.mk.inj h).2 (by simp)
    · next hall =>
      obtain ⟨text, rfl⟩ := exists_of_writeConfig h
      exact ⟨.ssh host ports, _, text, .ssh hcommand (mt List.isEmpty_iff.2 hempty)
        fun _ => forM_eq_ok hall, rfl, rfl, h⟩
    · obtain ⟨text, rfl⟩ := exists_of_writeConfig h
      exact ⟨.ssh host ports, _, text, .ssh hcommand (mt List.isEmpty_iff.2 hempty)
        fun hyes => absurd hyes hstart, rfl, rfl, h⟩

/-! ## What is loaded -/

/-- An import whose strings need no escapes is loaded after what was there before. -/
theorem Source.parseToml_append {pre : Text} {kind : Kind} {es : Entries} {items : List Item}
    (hcrate : crate.Follows) (hcasing : casing.KeepsAscii)
    (hblock : source.generateToml casing = .ok block)
    (h : Lines tunnelKey pre (.table kind es) items)
    (hc : Config.decode (entriesToTable es) = some config) (hplain : source.Plain) :
    Config.parseToml crate (pre ++ block) =
      .ok { config with tunnel := config.tunnel ++ source.tunnels casing } := by
  cases source with
  | nord privateKey servers =>
    rw [Nord.generateToml_eq_render hblock, Nord.nordDoc, ← List.singleton_append,
      Doc.render_append, ← List.append_assoc]
    exact parseToml_blocks hcrate
      (h.comment (s := " Generated by: houdinny import nord".toList)
        (forall_mem_of_all (by decide))) hc
      (fun server _ => describes_serverPairs casing privateKey server)
      fun server hserver => (plain_serverPairs hcasing).2 (hplain server hserver)
  | ssh host ports =>
    obtain rfl := Except.ok.inj hblock
    rw [Ssh.generateToml_eq_render, ← List.append_assoc]
    exact parseToml_blocks hcrate
      (h.comment (s := Ssh.banner) (forall_mem_of_all (by decide))) hc
      (fun port _ => Ssh.describes_portPairs host port)
      fun port hport => Ssh.plain_portPairs.2 (hplain (List.ne_nil_of_mem hport))

/-- After an import, the next one finds its tunnels in the file. -/
theorem base_of_writeConfig {text : Text} {disk : Disk} (hcrate : crate.Follows)
    (hcasing : casing.KeepsAscii) (hbase : Base crate ⟨path, contents, .written⟩ config)
    (hblock : source.generateToml casing = .ok block)
    (hwrite : source.writeConfig ⟨path, contents, disk⟩ block = (some text, .ok ()))
    (hplain : source.Plain) : Base crate ⟨path, some text, .written⟩
      { config with tunnel := config.tunnel ++ source.tunnels casing } := by
  have hbase' : Base crate ⟨path, contents, disk⟩ config := hbase
  obtain ⟨_, ⟨-, hblocks⟩, -⟩ := exists_base hcrate hcasing hbase' hblock hwrite hplain
  obtain ⟨pre, kind, es, items, rfl, hlines, hc⟩ := source.exists_lines hcrate hbase' hwrite
  exact ⟨source.parseToml_append hcrate hcasing hblock hlines hc hplain, hblocks⟩

/-- After any imports, the file is loaded as what was loaded of it before, with the tunnels of
    those that have succeeded, in order. -/
theorem exists_base_attempts {as : List Attempt} (hcrate : crate.Follows)
    (hcasing : casing.KeepsAscii) (hbase : Base crate ⟨path, contents, .written⟩ config)
    (hwhole : ∀ a ∈ as, a.Whole)
    (hplain : ∀ a ∈ (attempts casing path contents as).2, ∀ source, a.Yields casing source →
      source.Plain) :
    ∃ sources, List.Forall₂ (Attempt.Yields casing) (attempts casing path contents as).2 sources ∧
      Base crate ⟨path, (attempts casing path contents as).1, .written⟩
        { config with tunnel := config.tunnel ++ sources.flatMap (Source.tunnels casing) } := by
  induction as generalizing contents config with
  | nil =>
    refine ⟨[], .nil, ?_⟩
    rw [List.flatMap_nil, List.append_nil]
    exact hbase
  | cons a as ih =>
    rw [List.forall_mem_cons] at hwhole
    rw [attempts] at hplain ⊢
    split at hplain
    · -- A failing attempt imports nothing and changes nothing.
      next contents' e hrun =>
      obtain rfl := contents_of_run hwhole.1 hrun
      exact ih hbase hwhole.2 hplain
    · -- After one that succeeds, the file has its tunnels, and the rest of the attempts finds
      -- those.
      next contents' hrun =>
      rw [List.forall_mem_cons] at hplain
      obtain ⟨source, block, text, hyields, hblock, rfl, hwrite⟩ := yields_of_run hrun
      obtain ⟨sources, hall, hfinal⟩ :=
        ih (base_of_writeConfig hcrate hcasing hbase hblock hwrite (hplain.1 _ hyields)) hwhole.2
          hplain.2
      refine ⟨source :: sources, .cons hyields hall, ?_⟩
      rw [List.flatMap_cons, ← List.append_assoc]
      exact hfinal

/-! ## What is served -/

/-- A transport that a connection may go through. -/
inductive Reaches (casing : CaseMapping) (f : Features) (torClient : ℕ → Except Text Unit)
    (config : Config) (succeeded : List Attempt) (added : List Served) (t : Served) : Prop
  | added : t ∈ added → Reaches casing f torClient config succeeded added t
  /-- Of a tunnel that was in the file before. -/
  | before {p : TunnelConfig × ℕ} : p ∈ config.tunnel.zipIdx →
    p.1.StartsHealthy f (torClient p.2) → Built f (torClient p.2) p.1 t.1 →
    Reaches casing f torClient config succeeded added t
  /-- To a port on which `ssh` is a proxy, if it was to be started. -/
  | ssh {a : Attempt} {host user : Text} {ports : List UInt16} {start : Bool} {port : UInt16} :
    a ∈ succeeded → a.command = .ssh host user ports start → port ∈ ports →
    (start = true → Ssh.startSshTunnel a.ssh user host port = .ok ()) →
    t.1 = Ssh.portTransport host port → Reaches casing f torClient config succeeded added t

section

open Proxy Proxy.ProxyServer

variable {os : Os} {cli : Cli} {v : Strategy} {f : Features} {torClient : ℕ → Except Text Unit}
  {sources : List Source} {succeeded : List Attempt} {t : Served} {x : Transport}
  {client : Except Text Unit}

/-- The tunnel of a port has a SOCKS5 transport, if any. -/
theorem eq_portTransport_of_built {host : Text} {port : UInt16}
    (h : Built f client (Ssh.portTunnel host port) x) : x = Ssh.portTransport host port := by
  have hprotocol : (Ssh.portTunnel host port).protocol = "socks5".toList := rfl
  cases h with
  | socks5 _ _ ha =>
    obtain rfl := Option.some.inj ha
    rfl
  | wireguard hp | httpUrl hp | httpBare hp | sentinel hp | tor hp =>
    exact absurd (hprotocol.symm.trans hp) (by decide)

/-- What was imported was so by one of the attempts. -/
theorem exists_yields_of_mem {source : Source}
    (h : List.Forall₂ (Attempt.Yields casing) succeeded sources) (hsource : source ∈ sources) :
    ∃ a ∈ succeeded, a.Yields casing source := by
  induction h with
  | nil => exact absurd hsource List.not_mem_nil
  | @cons a source' succeeded sources hyields _ ih =>
    rcases List.mem_cons.1 hsource with rfl | hsource
    · exact ⟨a, List.mem_cons_self, hyields⟩
    · obtain ⟨b, hb, hyields'⟩ := ih hsource
      exact ⟨b, List.mem_cons_of_mem _ hb, hyields'⟩

/-- What is built of the tunnels of an import is of `ssh`. -/
theorem reaches_of_built {c : TunnelConfig} {added : List Served}
    (hall : List.Forall₂ (Attempt.Yields casing) succeeded sources)
    (hc : c ∈ sources.flatMap (Source.tunnels casing)) (h : Built f client c t.1) :
    Reaches casing f torClient config succeeded added t := by
  obtain ⟨source, hsource, hc⟩ := List.mem_flatMap.1 hc
  obtain ⟨a, ha, hyields⟩ := exists_yields_of_mem hall hsource
  cases hyields with
  | nord =>
    obtain ⟨server, -, rfl⟩ := List.mem_map.1 hc
    exact absurd h Nord.not_built_serverTunnel
  | ssh hcommand _ hstarted =>
    obtain ⟨port, hport, rfl⟩ := List.mem_map.1 hc
    exact .ssh ha hcommand hport (fun hstart => hstarted hstart port hport)
      (eq_portTransport_of_built h)

/-- The file is loaded as it is, and the strategy and the address are those of the command
    line. -/
theorem effectiveConfig_of_parseToml {text : Text}
    (hload : Config.parseToml crate text = .ok config) (hreference : Unreferring text)
    (hcli : cli.tunnels = none) (hread : os.readFile (effectivePath os cli.config) = .ok text)
    (hstrategy : Strategy.fromName casing cli.strategy = .ok v) :
    effectiveConfig casing crate os cli = .ok { config with
      proxy := { config.proxy with
        listen := cli.listen.getD config.proxy.listen
        strategy := v } } := by
  rw [effectiveConfig, loadConfig, hcli]
  dsimp only
  rw [Config.fromFile_of_readFile hread, resolveEnvVars_of_unreferring hreference, hload]
  change overrideConfig casing cli config = _
  rw [overrideConfig, hstrategy]

/-- The proxy that is started with the file after some imports: it has the tunnels that were
    there before, and those of the imports that have succeeded, and in every run a connection
    goes through one of the former, or through a port of `ssh`, or through a transport that
    was added since. -/
theorem serves_imported (w : ℕ) (f : Features) (torClient : ℕ → Except Text Unit) (path : Text)
    (contents : Option Text) (as : List Attempt) (os : Os) (cli : Cli) {text : Text}
    (hcrate : crate.Follows) (hcasing : casing.KeepsAscii)
    (hbase : Base crate ⟨path, contents, .written⟩ config)
    (hwhole : ∀ a ∈ as, a.Whole) (htext : (attempts casing path contents as).1 = some text)
    (hplain : ∀ a ∈ (attempts casing path contents as).2, ∀ source, a.Yields casing source →
      source.Plain)
    (hreference : Unreferring text) (hcli : cli.tunnels = none)
    (hpath : effectivePath os cli.config = path) (hread : os.readFile path = .ok text)
    (hstrategy : Strategy.fromName casing cli.strategy = .ok v) :
    ∃ sources config',
      List.Forall₂ (Attempt.Yields casing) (attempts casing path contents as).2 sources ∧
      effectiveConfig casing crate os cli = .ok config' ∧
      config'.tunnel = config.tunnel ++ sources.flatMap (Source.tunnels casing) ∧
      ∀ (envs : ℕ → Env Served) (es : List (Event Served)) (s : ProxyServer w Served),
        Run.run (ProxyServer.step Served.id casing envs) (startServer w f torClient config') es =
          some s → ∀ c ∈ s.conns, ∀ q ∈ c.server.session.connects,
        Reaches casing f torClient config (attempts casing path contents as).2 (added es) q.1 := by
  obtain ⟨sources, hall, hfinal⟩ := exists_base_attempts hcrate hcasing hbase hwhole hplain
  rw [htext] at hfinal
  refine ⟨sources, _, hall,
    effectiveConfig_of_parseToml hfinal.1 hreference hcli (by rwa [hpath]) hstrategy, rfl, ?_⟩
  intro envs es s hrun c hc q hq
  rcases mem_of_mem_connects hrun hc hq with hadded | ⟨hmem, hhealthy⟩
  · exact .added hadded
  obtain ⟨p, hp, hbuild⟩ := List.mem_flatMap.1 hmem
  have hbuilt := TunnelConfig.mem_buildTransport.1 hbuild
  -- The tunnels keep their places: those of the imports come after.
  rw [List.zipIdx_append, List.mem_append] at hp
  rcases hp with hbefore | himported
  · exact .before hbefore
      ⟨TunnelConfig.usable_of_built hbuilt, hbuilt.healthy_iff.1 hhealthy⟩ hbuilt
  · exact reaches_of_built hall (List.fst_mem_of_mem_zipIdx himported) hbuilt

end

/-- Nobody answers. -/
def noApi : Nord.Api := ⟨fun _ => .error [], fun _ => .error []⟩

/-- An import of NordVPN servers that fails, and one of a port that `ssh` listens on. -/
def portAttempts : List Attempt :=
  [⟨.nord "token".toList 5 none, noApi, fun _ => .notExecuted, .written⟩,
    ⟨.ssh "a".toList "u".toList [1080] true, noApi, fun _ => .exited true "0".toList, .written⟩]

/-- The file after them. -/
def portText : Text :=
  ((attempts .ascii "houdinny.toml".toList none portAttempts).1).getD []

/-- The file is there, and no environment. -/
def portOs : Os where
  env _ := none
  readFile _ := .ok portText
  pathExists _ := true

/-- The proxy is started with this file, and no other options. -/
def portCommand : CommandLine := ⟨none, none, none, none⟩

/-- The file is new, and has the tunnel of the port then. -/
theorem serves_imported_port : ∃ config',
    effectiveConfig .ascii readerCrate portOs portCommand.cli = .ok config' ∧
      config'.tunnel = [Ssh.portTunnel "a".toList 1080] := by
  have hyields : ∀ a ∈ portAttempts.tail, ∀ source, a.Yields .ascii source →
      source = .ssh "a".toList [1080] := by
    intro a ha source h
    obtain rfl := List.mem_singleton.1 ha
    cases h with
    | nord hcommand => exact absurd hcommand (by simp)
    | ssh hcommand =>
      obtain ⟨rfl, -, rfl, -⟩ := Command.ssh.inj hcommand
      rfl
  have hplain : ∀ a ∈ portAttempts.tail, ∀ source, a.Yields .ascii source → source.Plain := by
    intro a ha source h
    rw [hyields a ha source h]
    exact fun _ => by decide
  have hwhole : ∀ a ∈ portAttempts, a.Whole := by
    refine List.forall_mem_cons.2 ⟨fun _ _ => ?_, List.forall_mem_singleton.2 fun _ _ => ?_⟩
    all_goals rintro ⟨⟩
  obtain ⟨sources, config', hall, hconfig, htunnel, -⟩ :=
    serves_imported 64 allFeatures (fun _ => .ok ()) "houdinny.toml".toList none portAttempts
      portOs portCommand.cli readerCrate_follows ascii_keepsAscii rfl hwhole
      (rfl : _ = some portText) hplain (unreferring_of_notMem (by decide)) rfl rfl rfl rfl
  have hsource : sources = [.ssh "a".toList [1080]] := by
    cases (hall : List.Forall₂ _ portAttempts.tail sources) with
    | cons hsource hnil =>
      cases hnil
      rw [hyields _ List.mem_cons_self _ hsource]
  rw [hsource] at htunnel
  exact ⟨config', hconfig, htunnel⟩

end Import

end Houdinny
