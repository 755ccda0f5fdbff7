import Houdinny.Lib.Program
import Houdinny.Transport.Reply

/-!
# Calls of transports

What transports ask of the system, and of the libraries that connect on their own
(`Transport.connect`). A transport only sends to where its tunnel is: to its proxy, to the
Tor network, or, through a socket that was bound to its interface before, to the destination.
A WireGuard transport does nothing at all unless the last that has happened to it is that
`provision` found its interface (`connect_confined`).

`connect` is a program that logs its calls with what they have returned (`ask`), so that
what is said of it is said of all replies, and of the order of the calls.

* `Permitted` is a call that a transport may make, after others: for WireGuard, a `connect(2)`
  must be of a socket that was bound to the interface before (`BoundTo`), to an address that
  the name was resolved to (`Resolved`). `Obeys` says so of all calls of a log.
* `Tunnelled` is what is known of a stream that is returned: it was opened by these calls,
  with the last of them having gone well.
* `Confined` is both, and `ensures_connect` has it for each protocol. The part for WireGuard
  is put together from triples for its steps, in the order of the source: resolve, open and
  bind a socket, dial, and await the connection.

`Act` is what may happen to a transport before, in any order and number. Only its flag is
changed by that (`exists_after`), and the flag of a WireGuard transport is up only if the last
act was a `provision` that found the interface (`provisioned_of_healthy`).
-/

namespace Houdinny

open Text Stream Program

/-! ## The system -/

/-- The address of a socket. -/
structure SocketAddr where
  isIpv4 : Bool
  /-- As it is displayed. -/
  text : Text
  deriving DecidableEq

/-- The platform of the build. -/
inductive Platform
  | linux
  | macos
  | other
  deriving DecidableEq

/-- What comes of a call of `connect` that does not wait. -/
inductive Connecting
  | done
  | inProgress
  | failed (e : IoError)

/-- The connection is made, or on its way. -/
def Connecting.begun : Connecting → Bool
  | done | inProgress => true
  | failed _ => false

/-- A socket. -/
abbrev Fd := ℕ

/-- The calls. -/
inductive Call (σ : Type)
  | pathExists (path : Text)
  | ifNameToIndex (interface : Text)
  | toSocketAddrs (name : Text)
  | socket (isIpv4 : Bool)
  | bindDevice (fd : Fd) (interface : Text)
  /-- `setsockopt` of `IP_BOUND_IF`, or of `IPV6_BOUND_IF`. -/
  | boundIf (fd : Fd) (isIpv4 : Bool) (index : UInt32)
  | lastOsError
  | setNonblocking (fd : Fd)
  | connect (fd : Fd) (dest : SocketAddr)
  | fromStd (fd : Fd)
  | writable (stream : σ)
  | takeError (stream : σ)
  /-- To the proxy, which is asked for the destination. -/
  | socksConnect (proxy addr : Text) (port : UInt16)
  | tcpConnect (addr : Text)
  | torBootstrap
  | torConnect (addr : Text) (port : UInt16)

/-- What they return. -/
abbrev Call.Reply {σ : Type} : Call σ → Type
  | pathExists _ => Bool
  | ifNameToIndex _ => Except IoError UInt32
  | toSocketAddrs _ => Except IoError (List SocketAddr)
  | socket _ => Except IoError Fd
  | bindDevice .. => Except IoError Unit
  | boundIf .. => Bool
  | lastOsError => IoError
  | setNonblocking _ => Except IoError Unit
  | connect .. => Connecting
  | fromStd _ => Except IoError σ
  | writable _ => Except IoError Unit
  | takeError _ => Except IoError (Option IoError)
  | socksConnect .. => Except Text σ
  | tcpConnect _ => Except IoError σ
  | torBootstrap => Except Text Unit
  | torConnect .. => Except Text σ

/-- The calls that something may be sent by. -/
def Call.sends {σ : Type} : Call σ → Bool
  | toSocketAddrs _ | connect .. | socksConnect .. | tcpConnect _ | torBootstrap
  | torConnect .. => true
  | _ => false

/-- Calls, with what they have returned. -/
abbrev Calls (σ : Type) := Log (@Call.Reply σ)

/-- The system, whose streams have the states `σ`. What a call returns may depend on all that
    came before. -/
structure System (σ : Type) where
  platform : Platform
  answers : Calls σ → ∀ c : Call σ, c.Reply
  writeAll : Bytes → σ → Except IoError Unit × σ
  readU8 : σ → Except IoError UInt8 × σ
  base64 : Text → Text

variable {σ : Type}

/-- Make a call, and log it. -/
def System.call (sys : System σ) (c : Call σ) : Prog Error (Calls σ) c.Reply := ask sys.answers c

/-! ## WireGuard -/

/-- Check whether a network interface with the given name exists. -/
def System.interfaceExists (sys : System σ) (name : Text) : Prog Error (Calls σ) Bool :=
  match sys.platform with
  | .linux => sys.call (.pathExists ("/sys/class/net/".toList ++ name))
  | .macos => return (← sys.call (.ifNameToIndex name)).isOk
  | .other => return false

/-- Bind a socket to a specific network interface. -/
def System.bindToInterface (sys : System σ) (fd : Fd) (interface : Text) :
    Prog Error (Calls σ) Unit :=
  match sys.platform with
  | .linux => sys.call (.bindDevice fd interface) >>= orThrow fun e =>
      .tunnelConnect ("SO_BINDTODEVICE to interface '".toList ++ interface ++
        "' failed: ".toList ++ e)
  | .macos => do
    let index ← sys.call (.ifNameToIndex interface) >>= orThrow fun e =>
      .tunnelConnect ("interface '".toList ++ interface ++ "' not found: ".toList ++ e)
    -- One of them fails, depending on the domain of the socket.
    if ← sys.call (.boundIf fd true index) then return
    if ← sys.call (.boundIf fd false index) then return
    let e ← sys.call .lastOsError
    throw (.tunnelConnect ("failed to bind socket to interface '".toList ++ interface ++
      "' (index ".toList ++ ofNat index.toNat ++ "): ".toList ++ e))
  | .other => throw (.tunnelConnect ("binding to interface '".toList ++ interface ++
      "' is not supported on this platform".toList))

namespace WireGuardTransport

/-- Look for the interface. It makes the transport healthy, or not. -/
def provision (sys : System σ) (t : WireGuardTransport) :
    Prog Error (Calls σ) WireGuardTransport :=
  return { t with healthy := ← sys.interfaceExists t.interface }

/-- The error of a connection to `dest` that failed. -/
def connectFailed (t : WireGuardTransport) (dest : SocketAddr) (e : IoError) : Error :=
  .tunnelConnect ("connect to ".toList ++ dest.text ++ " via interface '".toList ++ t.interface ++
    "' failed: ".toList ++ e)

/-- The first address of a name. -/
def resolve (sys : System σ) (addr : Text) (port : UInt16) : Prog Error (Calls σ) SocketAddr := do
  let name := addr ++ ":".toList ++ ofNat port.toNat
  let dests ← sys.call (.toSocketAddrs name) >>= orThrow fun e =>
    .tunnelConnect ("DNS resolution failed for ".toList ++ name ++ ": ".toList ++ e)
  match dests with
  | [] => throw (.tunnelConnect ("no addresses found for ".toList ++ name))
  | dest :: _ => return dest

/-- A socket that is being connected to `dest` through the interface. -/
def dial (sys : System σ) (t : WireGuardTransport) (dest : SocketAddr) :
    Prog Error (Calls σ) Fd := do
  let fd ← sys.call (.socket dest.isIpv4) >>= orThrow fun e =>
    .tunnelConnect ("socket creation failed: ".toList ++ e)
  sys.bindToInterface fd t.interface
  sys.call (.setNonblocking fd) >>= orThrow fun e =>
    .tunnelConnect ("failed to set non-blocking: ".toList ++ e)
  match ← sys.call (.connect fd dest) with
  | .done => return fd
  | .inProgress => return fd
  | .failed e => throw (t.connectFailed dest e)

/-- The stream of a socket, once it is connected. -/
def await (sys : System σ) (t : WireGuardTransport) (dest : SocketAddr) (fd : Fd) :
    Prog Error (Calls σ) σ := do
  let stream ← sys.call (.fromStd fd) >>= orThrow fun e =>
    .tunnelConnect ("tokio conversion failed: ".toList ++ e)
  sys.call (.writable stream) >>= orThrow (t.connectFailed dest)
  let error ← sys.call (.takeError stream) >>= orThrow fun e =>
    .tunnelConnect ("failed to check socket error: ".toList ++ e)
  match error with
  | some e => throw (t.connectFailed dest e)
  | none => return stream

/-- Connect to `addr:port` through the interface. -/
def connect (sys : System σ) (t : WireGuardTransport) (addr : Text) (port : UInt16) :
    Prog Error (Calls σ) σ :=
  if t.healthy = false then throw (.tunnelConnect ("wireguard interface '".toList ++ t.interface ++
    "' is not healthy".toList))
  else do
    let dest ← resolve sys addr port
    let fd ← t.dial sys dest
    t.await sys dest fd

end WireGuardTransport

/-! ## Transports of any protocol -/

namespace Transport

/-- Provision the tunnel (auth, payment, session setup). -/
def provision (sys : System σ) : Transport → Prog Error (Calls σ) Transport
  | socks5 t => return socks5 t
  | wireguard t => return wireguard (← t.provision sys)
  | httpProxy t => return httpProxy t
  | sentinel _ => throw (.tunnelProvision ("Sentinel dVPN provisioning not yet implemented — " ++
      "requires Cosmos SDK integration").toList)
  | tor t => do
    sys.call .torBootstrap >>= orThrow fun e => .tunnelProvision ("Tor bootstrap: ".toList ++ e)
    return tor t

/-- Connect to a destination through this tunnel. -/
def connect (sys : System σ) (t : Transport) (addr : Text) (port : UInt16) :
    Prog Error (Calls σ) σ :=
  match t with
  | socks5 t => sys.call (.socksConnect t.address addr port) >>= orThrow fun e =>
      .tunnelConnect ("SOCKS5 ".toList ++ t.address ++ ": ".toList ++ e)
  | wireguard t => t.connect sys addr port
  | httpProxy t => do
    -- The bytes to the proxy and back go through the stream that was opened.
    let opened ← sys.call (.tcpConnect t.proxyAddr)
    orThrow (fun e => e)
      (t.connect ⟨fun _ => opened, sys.writeAll, sys.readU8⟩ sys.base64 addr port)
  | sentinel _ => throw (.tunnelConnect "Sentinel dVPN not yet implemented".toList)
  | tor _ => sys.call (.torConnect addr port) >>= orThrow fun e =>
      .tunnelConnect ("Tor: ".toList ++ e)

/-- Set the flag. -/
def store (healthy : Bool) : Transport → Transport
  | socks5 t => socks5 { t with healthy := healthy }
  | wireguard t => wireguard { t with healthy := healthy }
  | httpProxy t => httpProxy { t with healthy := healthy }
  | sentinel t => sentinel { t with healthy := healthy }
  | tor t => tor { t with healthy := healthy }

/-- Tear down the tunnel and release resources. -/
def close (t : Transport) : Transport := t.store false

end Transport

/-! ## Where the calls go -/

/-- The socket was bound to the interface. -/
def BoundTo (platform : Platform) (interface : Text) (fd : Fd) (calls : Calls σ) : Prop :=
  match platform with
  | .linux => ⟨.bindDevice fd interface, .ok ()⟩ ∈ calls
  | .macos => ∃ index isIpv4, ⟨.ifNameToIndex interface, .ok index⟩ ∈ calls ∧
      ⟨.boundIf fd isIpv4 index, true⟩ ∈ calls
  | .other => False

/-- The first address of a name. -/
def Resolved (name : Text) (dest : SocketAddr) (calls : Calls σ) : Prop :=
  ∃ dests, ⟨.toSocketAddrs name, .ok (dest :: dests)⟩ ∈ calls

/-- A call that a transport may make, to connect to `addr:port`, after others. -/
inductive Permitted (platform : Platform) (addr : Text) (port : UInt16) :
    Transport → Calls σ → Call σ → Prop
  /-- A SOCKS5 proxy looks up the name. -/
  | socks5 {t : Socks5Transport} {calls : Calls σ} :
    Permitted platform addr port (.socks5 t) calls (.socksConnect t.address addr port)
  | httpProxy {t : HttpProxyTransport} {calls : Calls σ} :
    Permitted platform addr port (.httpProxy t) calls (.tcpConnect t.proxyAddr)
  | tor {t : TorTransport} {calls : Calls σ} :
    Permitted platform addr port (.tor t) calls (.torConnect addr port)
  /-- The name is looked up outside of the tunnel. -/
  | lookUp {t : WireGuardTransport} {calls : Calls σ} : t.healthy = true →
    Permitted platform addr port (.wireguard t) calls
      (.toSocketAddrs (addr ++ ":".toList ++ ofNat port.toNat))
  /-- Nothing is sent. -/
  | prepare {t : WireGuardTransport} {calls : Calls σ} {c : Call σ} : t.healthy = true →
    c.sends = false → Permitted platform addr port (.wireguard t) calls c
  /-- The socket is connected after it was bound. -/
  | connect {t : WireGuardTransport} {calls : Calls σ} {fd : Fd} {dest : SocketAddr} :
    t.healthy = true → Resolved (addr ++ ":".toList ++ ofNat port.toNat) dest calls →
    ⟨.socket dest.isIpv4, .ok fd⟩ ∈ calls → BoundTo platform t.interface fd calls →
    Permitted platform addr port (.wireguard t) calls (.connect fd dest)

/-- The socket was bound to the interface, and a connection to the first address of the name was
    begun on it. -/
def Dialled (platform : Platform) (interface name : Text) (fd : Fd) (calls : Calls σ) : Prop :=
  BoundTo platform interface fd calls ∧ ∃ dest r, Resolved name dest calls ∧
    ⟨.connect fd dest, r⟩ ∈ calls ∧ r.begun = true

/-- The stream is one that a tunnel to `addr:port` was opened by, with these calls. -/
inductive Tunnelled (sys : System σ) (addr : Text) (port : UInt16) (calls : Calls σ) :
    Transport → σ → Prop
  | socks5 {t : Socks5Transport} {s : σ} :
    ⟨.socksConnect t.address addr port, .ok s⟩ ∈ calls →
    Tunnelled sys addr port calls (.socks5 t) s
  /-- The stream to the proxy, on which the request was written, after the head of a reply with
      status 200 was read from it. -/
  | httpProxy {t : HttpProxyTransport} {opened written s : σ} {head : Bytes} :
    ⟨.tcpConnect t.proxyAddr, .ok opened⟩ ∈ calls →
    sys.writeAll (encodeUtf8 (t.connectRequest sys.base64 addr port)) opened = (.ok (), written) →
    Yields sys.readU8 written head s → EndsFirst HttpProxyTransport.endOfHeaders head →
    HttpProxyTransport.statusCode (HttpProxyTransport.firstLine (fromUtf8Lossy head)) = 200 →
    Tunnelled sys addr port calls (.httpProxy t) s
  | tor {t : TorTransport} {s : σ} : ⟨.torConnect addr port, .ok s⟩ ∈ calls →
    Tunnelled sys addr port calls (.tor t) s
  /-- The stream of a socket that was dialled, and on which no error is left. -/
  | wireguard {t : WireGuardTransport} {fd : Fd} {s : σ} :
    Dialled sys.platform t.interface (addr ++ ":".toList ++ ofNat port.toNat) fd calls →
    ⟨.fromStd fd, .ok s⟩ ∈ calls → ⟨.writable s, .ok ()⟩ ∈ calls →
    ⟨.takeError s, .ok none⟩ ∈ calls → Tunnelled sys addr port calls (.wireguard t) s

/-- Every call is permitted after those before it. -/
def Obeys (platform : Platform) (addr : Text) (port : UInt16) (t : Transport) (calls : Calls σ) :
    Prop :=
  ∀ before c r after, calls = before ++ ⟨c, r⟩ :: after → Permitted platform addr port t before c

variable {platform : Platform} {addr : Text} {port : UInt16} {t : Transport} {calls : Calls σ}
  {interface : Text} {fd : Fd} {dest : SocketAddr} {sys : System σ}

/-- No calls, nothing to be permitted. -/
theorem obeys_nil : Obeys platform addr port t ([] : Calls σ) :=
  fun _ _ _ _ h => absurd h (by simp)

/-- One more call, which is permitted after the others. -/
theorem Obeys.concat {c : Call σ} {r : c.Reply} (h : Obeys platform addr port t calls)
    (hc : Permitted platform addr port t calls c) :
    Obeys platform addr port t (calls ++ [⟨c, r⟩]) := by
  intro before c' r' after hsplit
  rcases List.eq_nil_or_concat after with rfl | ⟨after, last, rfl⟩
  · obtain ⟨rfl, hlast⟩ := List.append_inj' hsplit rfl
    obtain ⟨rfl, -⟩ := Sigma.mk.inj (List.singleton_inj.1 hlast)
    exact hc
  · rw [List.concat_eq_append, ← List.cons_append, ← List.append_assoc] at hsplit
    exact h before c' r' after (List.append_inj' hsplit rfl).1

/-- On Linux, a socket is bound to the name of the interface. -/
theorem boundTo_linux (h : platform = .linux)
    (hbound : (⟨.bindDevice fd interface, .ok ()⟩ : Σ c : Call σ, c.Reply) ∈ calls) :
    BoundTo platform interface fd calls := by
  rw [h]
  exact hbound

/-- On macOS, it is bound to the index that the name has. -/
theorem boundTo_macos (h : platform = .macos) {index : UInt32} {isIpv4 : Bool}
    (hindex : (⟨.ifNameToIndex interface, .ok index⟩ : Σ c : Call σ, c.Reply) ∈ calls)
    (hbound : (⟨.boundIf fd isIpv4 index, true⟩ : Σ c : Call σ, c.Reply) ∈ calls) :
    BoundTo platform interface fd calls := by
  rw [h]
  exact ⟨index, isIpv4, hindex, hbound⟩

/-- What was bound is so after more calls. -/
theorem BoundTo.append (h : BoundTo platform interface fd calls) (more : Calls σ) :
    BoundTo platform interface fd (calls ++ more) := by
  cases platform with
  | linux => exact List.mem_append_left _ h
  | macos =>
    obtain ⟨index, isIpv4, hindex, hbound⟩ := h
    exact ⟨index, isIpv4, List.mem_append_left _ hindex, List.mem_append_left _ hbound⟩
  | other => exact h

/-- What was resolved is so after more calls. -/
theorem Resolved.append {name : Text} (h : Resolved name dest calls) (more : Calls σ) :
    Resolved name dest (calls ++ more) :=
  h.imp fun _ h => List.mem_append_left _ h

/-- What was dialled is so after more calls. -/
theorem Dialled.append {name : Text} (h : Dialled platform interface name fd calls)
    (more : Calls σ) : Dialled platform interface name fd (calls ++ more) := by
  obtain ⟨hbound, dest, r, hdest, hcall, hbegun⟩ := h
  exact ⟨hbound.append more, dest, r, hdest.append more, List.mem_append_left _ hcall, hbegun⟩

/-! ## WireGuard -/

/-- What `connect` comes to, with the calls that it makes. -/
structure Confined (sys : System σ) (addr : Text) (port : UInt16) (t : Transport)
    (r : Except Error σ) (calls : Calls σ) : Prop where
  obeys : Obeys sys.platform addr port t calls
  tunnelled : ∀ s, r = .ok s → Tunnelled sys addr port calls t s

/-- An error is no stream, and so only the calls matter. -/
theorem confined_error {e : Error} (h : Obeys sys.platform addr port t calls) :
    Confined sys addr port t (.error e : Except Error σ) calls :=
  ⟨h, fun _ hs => absurd hs (by simp)⟩

section

variable {w : WireGuardTransport} {P : Calls σ → Prop} {α δ : Type} {c : Call σ}

/-- A call that is permitted goes to the log. -/
theorem ensures_call {R : c.Reply → Calls σ → Prop}
    (hc : ∀ calls, P calls → Permitted sys.platform addr port t calls c)
    (hR : ∀ calls r, P calls → R r (calls ++ [⟨c, r⟩])) :
    Ensures (fun calls => Obeys sys.platform addr port t calls ∧ P calls) (sys.call c)
      (GoesOn (fun r calls => Obeys sys.platform addr port t calls ∧ R r calls)
        (Confined sys addr port t)) :=
  ensures_ask fun calls r h => ⟨h.1.concat (hc calls h.2), hR calls r h.2⟩

/-- A call that fails ends the connection. -/
theorem ensures_callOrThrow {f : δ → Error} {g : c.Reply → Except δ α} {R : α → Calls σ → Prop}
    (hc : ∀ calls, P calls → Permitted sys.platform addr port t calls c)
    (hR : ∀ calls r a, P calls → g r = .ok a → R a (calls ++ [⟨c, r⟩])) :
    Ensures (fun calls => Obeys sys.platform addr port t calls ∧ P calls)
      (sys.call c >>= fun r => orThrow f (g r))
      (GoesOn (fun a calls => Obeys sys.platform addr port t calls ∧ R a calls)
        (Confined sys addr port t)) := by
  refine (ensures_call (R := fun r calls => ∀ a, g r = .ok a → R a calls) hc
    fun calls r h a => hR calls r a h).andThen fun r => ensures_orThrow ?_ ?_
  · exact fun a calls ha h => ⟨h.1, h.2 a ha⟩
  · exact fun e calls _ h => confined_error h.1

/-- The name is resolved, or the connection ends. -/
theorem ensures_resolve (hw : w.healthy = true) :
    Ensures (fun calls => Obeys sys.platform addr port (.wireguard w) calls ∧ True)
      (WireGuardTransport.resolve sys addr port)
      (GoesOn (fun dest calls => Obeys sys.platform addr port (.wireguard w) calls ∧
        Resolved (addr ++ ":".toList ++ ofNat port.toNat) dest calls)
        (Confined sys addr port (.wireguard w))) := by
  refine (ensures_callOrThrow (R := fun dests calls =>
    ⟨.toSocketAddrs (addr ++ ":".toList ++ ofNat port.toNat), .ok dests⟩ ∈ calls)
    (fun _ _ => .lookUp hw) ?_).andThen fun dests => ?_
  · rintro calls _ dests - rfl
    exact List.mem_concat_self
  · rcases dests with _ | ⟨dest, dests⟩
    · exact ensures_throw fun calls h => confined_error h.1
    · exact ensures_pure fun calls h => ⟨h.1, dests, h.2⟩

/-- The socket is bound, or the connection ends. What is known of the calls before stays. -/
theorem ensures_bindToInterface (hw : w.healthy = true)
    (hP : ∀ calls more, P calls → P (calls ++ more)) :
    Ensures (fun calls => Obeys sys.platform addr port (.wireguard w) calls ∧ P calls)
      (sys.bindToInterface fd w.interface)
      (GoesOn (fun _ calls => Obeys sys.platform addr port (.wireguard w) calls ∧
        (P calls ∧ BoundTo sys.platform w.interface fd calls))
        (Confined sys addr port (.wireguard w))) := by
  rw [System.bindToInterface]
  split
  case h_1 hplatform =>
    refine ensures_callOrThrow (fun _ _ => .prepare hw rfl) ?_
    rintro calls _ _ h rfl
    exact ⟨hP _ _ h, boundTo_linux hplatform List.mem_concat_self⟩
  case h_2 hplatform =>
    refine (ensures_callOrThrow (R := fun index calls => P calls ∧
      ⟨.ifNameToIndex w.interface, .ok index⟩ ∈ calls) (fun _ _ => .prepare hw rfl) ?_).andThen
      fun index => ?_
    · rintro calls _ _ h rfl
      exact ⟨hP _ _ h, List.mem_concat_self⟩
    -- Either option binds the socket, if it is set.
    have hset : ∀ isIpv4, Ensures (fun calls => Obeys sys.platform addr port (.wireguard w) calls ∧
        P calls ∧ ⟨.ifNameToIndex w.interface, .ok index⟩ ∈ calls)
        (sys.call (.boundIf fd isIpv4 index)) (GoesOn (fun (r : Bool) calls =>
          Obeys sys.platform addr port (.wireguard w) calls ∧
            (P calls ∧ ⟨.ifNameToIndex w.interface, .ok index⟩ ∈ calls) ∧
              (r = true → BoundTo sys.platform w.interface fd calls))
          (Confined sys addr port (.wireguard w))) := by
      intro isIpv4
      refine ensures_call (fun _ _ => .prepare hw rfl) ?_
      rintro calls r ⟨h, hindex⟩
      refine ⟨⟨hP _ _ h, List.mem_append_left _ hindex⟩, ?_⟩
      rintro rfl
      exact boundTo_macos hplatform (List.mem_append_left _ hindex) List.mem_concat_self
    refine (hset true).andThen fun r => ?_
    rcases r with _ | _
    · refine ((hset false).pre fun calls h => ⟨h.1, h.2.1⟩).andThen fun r => ?_
      rcases r with _ | _
      · refine (ensures_call (R := fun _ _ => True) (fun _ _ => .prepare hw rfl)
          fun _ _ _ => trivial).andThen fun e => ?_
        exact ensures_throw fun calls h => confined_error h.1
      · exact ensures_pure fun calls h => ⟨h.1, h.2.1.1, h.2.2 rfl⟩
    · exact ensures_pure fun calls h => ⟨h.1, h.2.1.1, h.2.2 rfl⟩
  case h_3 => exact ensures_throw fun calls h => confined_error h.1

/-- The socket is bound, and being connected to the address, or the connection ends. -/
theorem ensures_dial (hw : w.healthy = true) :
    Ensures (fun calls => Obeys sys.platform addr port (.wireguard w) calls ∧
      Resolved (addr ++ ":".toList ++ ofNat port.toNat) dest calls) (w.dial sys dest)
      (GoesOn (fun fd calls => Obeys sys.platform addr port (.wireguard w) calls ∧
        Dialled sys.platform w.interface (addr ++ ":".toList ++ ofNat port.toNat) fd calls)
        (Confined sys addr port (.wireguard w))) := by
  refine (ensures_callOrThrow (R := fun fd calls =>
    Resolved (addr ++ ":".toList ++ ofNat port.toNat) dest calls ∧
      ⟨.socket dest.isIpv4, .ok fd⟩ ∈ calls) (fun _ _ => .prepare hw rfl) ?_).andThen fun fd => ?_
  · rintro calls _ fd h rfl
    exact ⟨h.append _, List.mem_concat_self⟩
  refine (ensures_bindToInterface hw fun calls more h =>
    ⟨h.1.append more, List.mem_append_left _ h.2⟩).andThen fun _ => ?_
  refine (ensures_callOrThrow (R := fun _ calls =>
    (Resolved (addr ++ ":".toList ++ ofNat port.toNat) dest calls ∧
      ⟨.socket dest.isIpv4, .ok fd⟩ ∈ calls) ∧ BoundTo sys.platform w.interface fd calls)
    (fun _ _ => .prepare hw rfl) ?_).andThen fun _ => ?_
  · rintro calls _ _ ⟨⟨hdest, hfd⟩, hbound⟩ -
    exact ⟨⟨hdest.append _, List.mem_append_left _ hfd⟩, hbound.append _⟩
  -- The call itself goes into the log, with what it has returned.
  refine (ensures_call (R := fun r calls =>
    (Resolved (addr ++ ":".toList ++ ofNat port.toNat) dest calls ∧
      BoundTo sys.platform w.interface fd calls) ∧ ⟨.connect fd dest, r⟩ ∈ calls)
    (fun calls h => .connect hw h.1.1 h.1.2 h.2) fun calls r h =>
      ⟨⟨h.1.1.append _, h.2.append _⟩, List.mem_concat_self⟩).andThen fun r => ?_
  have hdialled (hbegun : r.begun = true) : Ensures (fun calls =>
      Obeys sys.platform addr port (.wireguard w) calls ∧
        (Resolved (addr ++ ":".toList ++ ofNat port.toNat) dest calls ∧
          BoundTo sys.platform w.interface fd calls) ∧ ⟨.connect fd dest, r⟩ ∈ calls)
      (pure fd) (GoesOn (fun fd calls => Obeys sys.platform addr port (.wireguard w) calls ∧
        Dialled sys.platform w.interface (addr ++ ":".toList ++ ofNat port.toNat) fd calls)
        (Confined sys addr port (.wireguard w))) :=
    ensures_pure fun calls h => ⟨h.1, h.2.1.2, dest, r, h.2.1.1, h.2.2, hbegun⟩
  cases r with
  | done | inProgress => exact hdialled rfl
  | failed e => exact ensures_throw fun calls h => confined_error h.1

/-- The socket is connected, and its stream returned, or the connection ends. -/
theorem ensures_await (hw : w.healthy = true) :
    Ensures (fun calls => Obeys sys.platform addr port (.wireguard w) calls ∧
      Dialled sys.platform w.interface (addr ++ ":".toList ++ ofNat port.toNat) fd calls)
      (w.await sys dest fd) (Confined sys addr port (.wireguard w)) := by
  refine (ensures_callOrThrow (R := fun stream calls =>
    Dialled sys.platform w.interface (addr ++ ":".toList ++ ofNat port.toNat) fd calls ∧
      ⟨.fromStd fd, .ok stream⟩ ∈ calls) (fun _ _ => .prepare hw rfl) ?_).bind fun stream => ?_
  · -- Each call is logged with its reply, and what was known of the earlier ones stays known.
    rintro calls _ stream h rfl
    exact ⟨h.append _, List.mem_concat_self⟩
  refine (ensures_callOrThrow (R := fun _ calls =>
    (Dialled sys.platform w.interface (addr ++ ":".toList ++ ofNat port.toNat) fd calls ∧
      ⟨.fromStd fd, .ok stream⟩ ∈ calls) ∧ ⟨.writable stream, .ok ()⟩ ∈ calls)
    (fun _ _ => .prepare hw rfl) ?_).bind fun _ => ?_
  · rintro calls _ _ ⟨hdialled, hstream⟩ rfl
    exact ⟨⟨hdialled.append _, List.mem_append_left _ hstream⟩, List.mem_concat_self⟩
  refine (ensures_callOrThrow (R := fun error calls =>
    ((Dialled sys.platform w.interface (addr ++ ":".toList ++ ofNat port.toNat) fd calls ∧
      ⟨.fromStd fd, .ok stream⟩ ∈ calls) ∧ ⟨.writable stream, .ok ()⟩ ∈ calls) ∧
      ⟨.takeError stream, .ok error⟩ ∈ calls) (fun _ _ => .prepare hw rfl) ?_).bind fun error => ?_
  · rintro calls _ error ⟨⟨hdialled, hstream⟩, hwritable⟩ rfl
    exact ⟨⟨⟨hdialled.append _, List.mem_append_left _ hstream⟩, List.mem_append_left _ hwritable⟩,
      List.mem_concat_self⟩
  cases error with
  | some e => exact ensures_throw fun calls h => confined_error h.1
  | none =>
    refine ensures_pure fun calls h => ⟨h.1, fun s hs => ?_⟩
    obtain rfl := Except.ok.inj hs
    obtain ⟨hobeys, ⟨⟨hdialled, hstream⟩, hwritable⟩, herror⟩ := h
    exact .wireguard hdialled hstream hwritable herror

/-- All of it, one after the other. -/
theorem ensures_connect_wireguard (w : WireGuardTransport) :
    Ensures (fun calls => Obeys sys.platform addr port (.wireguard w) calls ∧ True)
      (w.connect sys addr port) (Confined sys addr port (.wireguard w)) := by
  rw [WireGuardTransport.connect]
  split_ifs with hw
  · exact ensures_throw fun calls h => confined_error h.1
  · have hw : w.healthy = true := by simpa using hw
    exact (ensures_resolve hw).bind fun dest => (ensures_dial hw).bind fun fd => ensures_await hw

end

/-! ## Over the life of a transport -/

/-- What changes a transport. -/
inductive Act (σ : Type)
  | provision (sys : System σ)
  | close

namespace Transport

/-- What the act makes of the transport. -/
def act (t : Transport) : Act σ → Transport
  | .provision sys => (t.provision sys []).1.toOption.getD t
  | .close => t.close

/-- The transport that `t` has become. -/
def after (t : Transport) (acts : List (Act σ)) : Transport := acts.foldl act t

/-- The interface is found. -/
def Finds (sys : System σ) (interface : Text) : Prop :=
  (sys.interfaceExists interface []).1 = .ok true

/-- What the last call that has changed a WireGuard transport was. -/
def Provisioned (w : WireGuardTransport) (acts : List (Act σ)) : Prop :=
  ∃ before sys, acts = before ++ [.provision sys] ∧ Finds sys w.interface

/-- What `connect` does, by protocol. -/
theorem ensures_connect (t : Transport) (sys : System σ) (addr : Text) (port : UInt16) :
    Ensures (fun calls => Obeys sys.platform addr port t calls ∧ True) (t.connect sys addr port)
      (Confined sys addr port t) := by
  cases t with
  | socks5 t =>
    refine (ensures_callOrThrow (R := fun s calls =>
      ⟨.socksConnect t.address addr port, .ok s⟩ ∈ calls) (fun _ _ => .socks5) ?_).last ?_
    · rintro calls _ s - rfl
      exact List.mem_concat_self
    · rintro s calls ⟨h, hs⟩
      refine ⟨h, fun s' hs' => ?_⟩
      obtain rfl := Except.ok.inj hs'
      exact .socks5 hs
  | wireguard w => exact ensures_connect_wireguard w
  | httpProxy t =>
    -- The only call is that for the stream to the proxy; the handshake is on that stream.
    refine (ensures_call (R := fun opened calls => ⟨.tcpConnect t.proxyAddr, opened⟩ ∈ calls)
      (fun _ _ => .httpProxy) fun _ _ _ => List.mem_concat_self).bind fun opened => ?_
    refine (ensures_orThrow (R := fun s calls => Obeys sys.platform addr port (httpProxy t) calls ∧
      Tunnelled sys addr port calls (httpProxy t) s) ?_ ?_).last ?_
    · rintro s calls hok ⟨hobeys, hopened⟩
      obtain ⟨written, head, ⟨first, hfirst, hwrite⟩, hyields, hend, -, hstatus⟩ :=
        HttpProxyTransport.connect_eq_ok hok
      obtain rfl : opened = .ok first := hfirst
      exact ⟨hobeys, .httpProxy hopened hwrite hyields hend hstatus⟩
    · exact fun e calls _ h => confined_error h.1
    · rintro s calls ⟨h, hs⟩
      refine ⟨h, fun s' hs' => ?_⟩
      obtain rfl := Except.ok.inj hs'
      exact hs
  | sentinel t => exact ensures_throw fun calls h => confined_error h.1
  | tor t =>
    refine (ensures_callOrThrow (R := fun s calls => ⟨.torConnect addr port, .ok s⟩ ∈ calls)
      (fun _ _ => .tor) ?_).last ?_
    · rintro calls _ s - rfl
      exact List.mem_concat_self
    · rintro s calls ⟨h, hs⟩
      refine ⟨h, fun s' hs' => ?_⟩
      obtain rfl := Except.ok.inj hs'
      exact .tor hs

/-- Looking for an interface never fails. -/
theorem exists_interfaceExists (sys : System σ) (interface : Text) :
    ∃ found calls, sys.interfaceExists interface [] = (.ok found, calls) := by
  rw [System.interfaceExists]
  rcases sys.platform with _ | _ | _
  · exact ⟨_, _, rfl⟩
  · exact ⟨_, _, rfl⟩
  · exact ⟨false, [], rfl⟩

/-- Provisioning sets the flag of a WireGuard transport to what was found. -/
theorem act_provision_wireguard {w : WireGuardTransport} {found : Bool} {calls : Calls σ}
    (h : sys.interfaceExists w.interface [] = (.ok found, calls)) :
    (wireguard w).act (.provision sys) = wireguard { w with healthy := found } := by
  have hprovision : (wireguard w).provision sys [] =
      (.ok (wireguard { w with healthy := found }), calls) := by
    rw [provision, WireGuardTransport.provision, bind_apply, bind_apply, h]
    rfl
  rw [act, hprovision]
  rfl

/-- Only the flag of a transport changes. -/
theorem exists_act (t : Transport) (a : Act σ) : ∃ up, t.act a = t.store up := by
  rcases a with sys | _
  · cases t with
    | socks5 t => exact ⟨t.healthy, rfl⟩
    | wireguard w =>
      obtain ⟨found, calls, h⟩ := exists_interfaceExists sys w.interface
      exact ⟨found, act_provision_wireguard h⟩
    | httpProxy t => exact ⟨t.healthy, rfl⟩
    | sentinel t => exact ⟨t.healthy, rfl⟩
    | tor t =>
      refine ⟨t.healthy, ?_⟩
      rw [act, provision, bind_apply]
      rcases h : (sys.call .torBootstrap >>= orThrow fun e =>
        Error.tunnelProvision ("Tor bootstrap: ".toList ++ e)) [] with ⟨_ | _, calls⟩ <;> rfl
  · exact ⟨false, rfl⟩

@[simp] theorem store_store (t : Transport) (up up' : Bool) :
    (t.store up).store up' = t.store up' := by
  cases t <;> rfl

/-- Any acts change the flag at most. -/
theorem exists_after (t : Transport) (acts : List (Act σ)) : ∃ up, t.after acts = t.store up := by
  induction acts using List.reverseRecOn with
  | nil =>
    refine ⟨t.healthy, ?_⟩
    cases t <;> rfl
  | append_singleton acts a ih =>
    obtain ⟨up, hup⟩ := ih
    obtain ⟨up', hup'⟩ := exists_act (t.store up) a
    rw [after, List.foldl_append]
    refine ⟨up', ?_⟩
    change (t.after acts).act a = _
    rw [hup, hup', store_store]

/-- A WireGuard transport that was not healthy at first is, if it was provisioned last. -/
theorem provisioned_of_healthy {w : WireGuardTransport} {acts : List (Act σ)}
    (hnew : w.healthy = false) (h : ((wireguard w).after acts).healthy = true) :
    Provisioned w acts := by
  rcases List.eq_nil_or_concat acts with rfl | ⟨before, a, rfl⟩
  · exact absurd (hnew.symm.trans h) (by decide)
  rw [List.concat_eq_append] at h ⊢
  obtain ⟨up, hup⟩ := exists_after (wireguard w) before
  have hlast : ((wireguard w).after (before ++ [a])) = ((wireguard w).store up).act a := by
    rw [after, List.foldl_append]
    exact congrArg (Transport.act · a) hup
  rw [hlast] at h
  rcases a with sys | _
  · obtain ⟨found, calls, hfound⟩ := exists_interfaceExists sys w.interface
    have hact : ((wireguard w).store up).act (.provision sys) =
        wireguard { w with healthy := found } := act_provision_wireguard hfound
    rw [hact] at h
    obtain rfl : found = true := h
    exact ⟨before, sys, rfl, congrArg Prod.fst hfound⟩
  · exact absurd h (by simp [act, close, store, healthy])

/-- Whatever has happened to a transport, and whatever its calls return: when it connects, it is
    to where its tunnel is, a stream that it returns was opened so, and a WireGuard transport
    makes no call unless it was provisioned last, with its interface found. -/
theorem connect_confined (t : Transport) (acts : List (Act σ)) (sys : System σ) (addr : Text)
    (port : UInt16) :
    (∃ up, t.after acts = t.store up) ∧
    Confined sys addr port (t.after acts) ((t.after acts).connect sys addr port []).1
      ((t.after acts).connect sys addr port []).2 ∧
    ∀ w, t = wireguard w → w.healthy = false →
      ((t.after acts).connect sys addr port []).2 ≠ [] → Provisioned w acts := by
  have hconfined := ensures_connect (t.after acts) sys addr port [] ⟨obeys_nil, trivial⟩
  refine ⟨exists_after t acts, hconfined, ?_⟩
  rintro w rfl hnew hcalls
  obtain ⟨⟨c, r⟩, calls, hsplit⟩ := List.exists_cons_of_ne_nil hcalls
  have hfirst := hconfined.obeys [] c r calls hsplit
  obtain ⟨up, hup⟩ := exists_after (wireguard w) acts
  have hhealthy : ((wireguard w).after acts).healthy = true := by
    rw [hup] at hfirst ⊢
    cases hfirst with
    | lookUp h | prepare h | connect h => exact h
  exact provisioned_of_healthy hnew hhealthy

end Transport

end Houdinny
