import Houdinny.Proxy.Injection
import Houdinny.Proxy.Resume
import Houdinny.Proxy.Targets
import Houdinny.Transport.Reply

/-!
# Chained proxies

A proxy may be the HTTP proxy that a transport of another one goes through: `connect` of
the transport, with what is then sent through its tunnel, and `handle_connection` of the
other proxy are the two ends of one connection. They are modelled with the bytes on the way
between them, which either end may write and read in parts, in any order, as far as there
is room.

The two ends have to agree on two texts, the request and the reply. The request has the
lines that take the handler to the call of the picker (`dispatch_requestLine`,
`next_headers`), and within the reply the loop of `connect` goes on until its end
(`pass_eq`).

`Setting` is what is fixed in a run: the transport, the host and the port that it is to be
connected to, and the environment and the casing of the server. `World` is what changes: where
either end is (`Client` and the machine of `Proxy.Stepwise`), and the bytes on the way up and
down. `Proper` says what the request needs to be read as it was meant. The runs are looked at
in `Proxy.Handshake`.
-/

namespace Houdinny.Proxy.Chain

open Text Stream HttpProxyTransport

/-- Where `connect` of the transport is. -/
inductive Client
  /-- The `write_all` of the request. -/
  | writing (rest : Bytes)
  /-- The `read_u8` of the loop that reads the reply. -/
  | reading (buf : Bytes)
  /-- It has returned its stream, which is a tunnel. -/
  | tunnel
  /-- It has returned an error. -/
  | failed (e : Error)
  deriving DecidableEq

/-- What is still to be written of the request. -/
def Client.pending : Client → Bytes
  | writing rest => rest
  | _ => []

/-- One pass of the loop that reads the reply, and what is made of it in the end. -/
def Client.pass (p : HttpProxyTransport) (buf : Bytes) (byte : UInt8) : Client :=
  let pushed := buf ++ [byte]
  if 4 ≤ pushed.length ∧ pushed.drop (pushed.length - 4) = endOfHeaders then
    match p.finish pushed () with
    | .ok () => tunnel
    | .error e => failed e
  else if 8192 < pushed.length then failed (tooLarge p.proxyAddr)
  else reading pushed

/-- How much may be on the way in either direction. -/
structure Capacity where
  up : ℕ
  down : ℕ
  up_pos : 0 < up
  down_pos : 0 < down

/-- The two ends of a connection, and what is on the way between them. -/
structure World (τ : Type) where
  client : Client
  server : Server τ
  up : Bytes
  down : Bytes
  /-- All that was sent into the tunnel of the transport. -/
  sent : Bytes
  /-- All that was got out of it. -/
  received : Bytes
  /-- All that the server has written to the connection. -/
  written : Bytes
  /-- All that the destination has sent. -/
  served : Bytes

/-- What happens. -/
inductive Event
  /-- `n` bytes of the request are written. -/
  | write (n : ℕ)
  /-- The server reads `n` bytes, for a line. -/
  | read (n : ℕ)
  /-- It takes a line. -/
  | line
  /-- It calls the picker, and `connect`. -/
  | connect
  /-- `n` bytes of the reply are written. -/
  | reply (n : ℕ)
  /-- A byte of the reply is read. -/
  | readU8
  /-- The end of the connection is read, which the server has closed. -/
  | eof
  /-- Data is sent into the tunnel. -/
  | send (bs : Bytes)
  /-- The server copies `n` bytes of it to the destination. -/
  | copy (n : ℕ)
  /-- Data of the destination is copied by the server. -/
  | serve (bs : Bytes)
  /-- `n` bytes of it are got out of the tunnel. -/
  | receive (n : ℕ)

/-- The event is part of the handshake. -/
def Event.handshake : Event → Bool
  | send _ | copy _ | serve _ | receive _ => false
  | _ => true

variable {τ : Type}

/-- What a transport and a proxy are, and what the transport is to be connected to. -/
structure Setting (τ : Type) where
  env : Env τ
  casing : CaseMapping
  base64 : Text → Text
  transport : HttpProxyTransport
  addr : Text
  port : UInt16
  capacity : Capacity

namespace Setting

variable (c : Setting τ)

/-- The request that is sent. -/
def request : Bytes := encodeUtf8 (c.transport.connectRequest c.base64 c.addr c.port)

/-- The connection is made, and accepted. -/
def start : World τ := ⟨.writing c.request, .new, [], [], [], [], [], []⟩

/-- The transport writes `n` bytes of its request, as far as there is room. -/
def write (w : World τ) (n : ℕ) : Option (World τ) :=
  match w.client with
  | .writing rest =>
    if 0 < n ∧ n ≤ rest.length ∧ w.up.length + n ≤ c.capacity.up then
      some { w with
        client := if rest.drop n = [] then .reading [] else .writing (rest.drop n)
        up := w.up ++ rest.take n }
    else none
  | _ => none

/-- The server reads what it awaits. -/
def read (w : World τ) (n : ℕ) : Option (World τ) :=
  if h : w.up.take n ≠ [] then
    (w.server.read ⟨w.up.take n, h⟩).map fun s => { w with server := s, up := w.up.drop n }
  else none

/-- The server writes `n` bytes of its reply, as far as there is room. -/
def reply (w : World τ) (n : ℕ) : Option (World τ) :=
  match w.server.frame with
  | .replying _ rest =>
    if w.down.length + n ≤ c.capacity.down then
      (w.server.write c.env n).map fun s => { w with
        server := s
        down := w.down ++ rest.take n
        written := w.written ++ rest.take n }
    else none
  | _ => none

/-- The transport reads a byte of the reply, and makes a pass of its loop. -/
def readU8 (w : World τ) : Option (World τ) :=
  match w.client, w.down with
  | .reading buf, byte :: down => some { w with client := .pass c.transport buf byte, down := down }
  | _, _ => none

/-- The server has failed, and the transport comes to the end of its stream. -/
def eof (w : World τ) : Option (World τ) :=
  match w.client, w.down, w.server.frame with
  | .reading _, [], .failed _ => some { w with
      client := .failed (readFailed c.transport.proxyAddr "unexpected end of file".toList) }
  | _, _, _ => none

/-- Data are sent through the tunnel, once the transport has one. -/
def send (w : World τ) (bs : Bytes) : Option (World τ) :=
  match w.client with
  | .tunnel =>
    if w.up.length + bs.length ≤ c.capacity.up then
      some { w with up := w.up ++ bs, sent := w.sent ++ bs }
    else none
  | _ => none

/-- Data come back from the destination. -/
def serve (w : World τ) (bs : Bytes) : Option (World τ) :=
  match w.server.frame with
  | .relaying _ =>
    if w.down.length + bs.length ≤ c.capacity.down then
      some { w with
        down := w.down ++ bs
        written := w.written ++ bs
        served := w.served ++ bs }
    else none
  | _ => none

/-- Data are taken out of the tunnel. -/
def receive (w : World τ) (n : ℕ) : Option (World τ) :=
  match w.client with
  | .tunnel => some { w with down := w.down.drop n, received := w.received ++ w.down.take n }
  | _ => none

/-- What an event does, if it can happen. -/
def step (w : World τ) : Event → Option (World τ)
  | .write n => c.write w n
  | .read n => if w.server.frame.AwaitsLine then read w n else none
  | .line => (w.server.takeLine c.casing).map fun s => { w with server := s }
  | .connect => (w.server.connect c.env).map fun s => { w with server := s }
  | .reply n => c.reply w n
  | .readU8 => c.readU8 w
  | .eof => c.eof w
  | .send bs => c.send w bs
  | .copy n => if w.server.frame.AwaitsLine then none else read w n
  | .serve bs => c.serve w bs
  | .receive n => receive w n

end Setting

/-! ## The request -/

/-- The lines of a head, each with its end, and the empty line. -/
def headBytes (ls : List Text) : Bytes :=
  encodeUtf8 ((ls.map (· ++ "\r\n".toList)).flatten ++ "\r\n".toList)

/-- The first line, with its end, and then the others. -/
theorem headBytes_cons (l : Text) (ls : List Text) :
    headBytes (l :: ls) = encodeUtf8 (l ++ "\r\n".toList) ++ headBytes ls := by
  rw [headBytes, List.map_cons, List.flatten_cons, List.append_assoc, encodeUtf8_append]
  rfl

/-- A line without a line break in it ends where its own end is. -/
theorem endsAt_line {l : Text} (h : Unbroken (encodeUtf8 l)) :
    EndsAt 10 (encodeUtf8 (l ++ "\r\n".toList)) := by
  refine ⟨encodeUtf8 l ++ [13], ?_, ?_⟩
  · rw [encodeUtf8_append, List.append_assoc]
    rfl
  · rw [List.mem_append, not_or]
    exact ⟨h.2, by decide⟩

/-- The line that is cut off is the first one. -/
theorem cutAfter_line {l : Text} {buffer bs cs k rest : Bytes} (hl : Unbroken (encodeUtf8 l))
    (h : buffer ++ bs = encodeUtf8 (l ++ "\r\n".toList) ++ cs)
    (hcut : cutAfter 10 buffer = some (k, rest)) :
    k = encodeUtf8 (l ++ "\r\n".toList) ∧ rest ++ bs = cs := by
  obtain ⟨rfl, hk⟩ := cutAfter_eq_some hcut
  rw [List.append_assoc] at h
  exact hk.append_inj (endsAt_line hl) h

namespace Setting

variable (c : Setting τ)

/-- The first line of the request. -/
def requestLine : Text := "CONNECT ".toList ++ hostPort c.addr c.port ++ " HTTP/1.1".toList

/-- The lines after the first one. -/
def headerLines : List Text := (requestLines c.base64 c.transport c.addr c.port).tail

/-- The request is made of these lines. -/
theorem request_eq : c.request = headBytes (c.requestLine :: c.headerLines) := by
  rw [request, connectRequest_eq]
  rfl

/-- The host can be asked for in a request line, the encoding of the credentials has no other
    characters than those of Base64, and no write of the reply fails. -/
structure Proper (c : Setting τ) : Prop where
  writes : c.env.writeAgent Env.connectResponse = .ok ()
  casing : c.casing.UppersByChar
  base64 : ∀ s, ∀ ch ∈ c.base64 s, IsBase64 ch
  addr_ne : c.addr ≠ []
  addr_solid : Solid c.addr
  addr_head : c.addr.head? ≠ some '['

variable {c} (hc : c.Proper)

include hc

/-- The first line has no line break in it. -/
theorem unbroken_requestLine : Unbroken (encodeUtf8 c.requestLine) :=
  unbroken_requestLines hc.base64 c.transport hc.addr_solid c.port _ List.mem_cons_self

/-- Nor has any of the others. -/
theorem unbroken_headerLines {l : Text} (h : l ∈ c.headerLines) : Unbroken (encodeUtf8 l) :=
  unbroken_requestLines hc.base64 c.transport hc.addr_solid c.port _ (List.mem_cons_of_mem _ h)

omit hc in
/-- No header line is empty. -/
theorem colon_mem_headerLines {l : Text} (h : l ∈ c.headerLines) : ':' ∈ l := by
  rw [headerLines, requestLines, List.tail_cons, List.mem_cons] at h
  rcases h with rfl | h
  · simp
  · rcases hauth : c.transport.auth with _ | ⟨user, pass⟩
    · rw [hauth] at h
      exact absurd h List.not_mem_nil
    · rw [hauth] at h
      obtain rfl := List.mem_singleton.1 h
      simp

/-- The first line is parsed to what the transport is to be connected to. -/
theorem dispatch_requestLine :
    Server.next (τ := τ) c.casing (c.requestLine ++ "\r\n".toList) .requestLine =
      .headers c.addr c.port := by
  have hline : c.requestLine = "CONNECT".toList ++ ' ' :: (hostPort c.addr c.port ++
      ' ' :: "HTTP/1.1".toList) := by
    have hfirst : "CONNECT ".toList = "CONNECT".toList ++ [' '] := by decide
    have hlast : " HTTP/1.1".toList = ' ' :: "HTTP/1.1".toList := by decide
    let line (first last : Text) : Text := first ++ hostPort c.addr c.port ++ last
    refine (congrArg₂ line hfirst hlast).trans ?_
    simp only [line, List.append_assoc, List.singleton_append]
  have htrim : trimEnd (c.requestLine ++ "\r\n".toList) = c.requestLine := by
    have hend : " HTTP/1.1".toList = " HTTP/1.".toList ++ ['1'] := by decide
    have hnone : trimEnd "\r\n".toList = [] := by decide
    let line (last : Text) : Text := "CONNECT ".toList ++ hostPort c.addr c.port ++ last
    have hline : c.requestLine = "CONNECT ".toList ++ hostPort c.addr c.port ++
        " HTTP/1.".toList ++ ['1'] := (congrArg line hend).trans (List.append_assoc ..).symm
    rw [hline, List.append_assoc _ ['1'], List.singleton_append, trimEnd_append_cons (by decide),
      hnone]
  -- The host and the port make one word, and so the line has three.
  have hsolid : Solid (hostPort c.addr c.port) :=
    solid_append.2 ⟨solid_append.2 ⟨hc.addr_solid, by decide⟩, solid_ofNat _⟩
  have hne : hostPort c.addr c.port ≠ [] := by simp [hostPort]
  have hsent : sentToConnect c.casing c.requestLine = true :=
    (sentToConnect_iff hc.casing).2 ⟨_, _, hline, by decide⟩
  -- A name is written without brackets, and is cut off at the last colon.
  have hparse : parseConnect c.requestLine = .ok (c.addr, c.port) := by
    have hwords : splitWhitespace c.requestLine =
        "CONNECT".toList :: hostPort c.addr c.port :: splitWhitespace "HTTP/1.1".toList := by
      rw [hline, splitWhitespace_connect (by decide),
        splitWhitespace_append_cons hne hsolid (by decide)]
    rw [parseConnect, hwords]
    dsimp only
    rw [if_pos (by decide)]
    have hread : ReadsConnect (c.addr ++ ':' :: ofNat c.port.toNat) c.addr c.port :=
      .namePort hc.addr_ne hc.addr_head (parseUnsigned_ofNat (Nat.le_of_lt_succ c.port.toNat_lt))
    rw [hostPort, List.append_assoc]
    exact parseHostPort_eq_ok.2 hread
  have hempty : ¬c.requestLine.isEmpty := by
    rw [hline]
    simp
  rw [Server.next, htrim, Server.dispatch, if_neg hempty, if_pos hsent, hparse]

omit hc in
/-- Then the headers are discarded, and the empty line ends them. -/
theorem next_headers (host : Text) (port : UInt16) :
    (∀ l ∈ c.headerLines, Server.next (τ := τ) c.casing (l ++ "\r\n".toList)
      (.headers host port) = .headers host port) ∧
    Server.next (τ := τ) c.casing "\r\n".toList (.headers host port) = .connecting host port := by
  constructor
  · intro l hl
    have hmem : ':' ∈ (l ++ "\r\n".toList).trim :=
      (mem_trim (by decide)).2 (List.mem_append_left _ (colon_mem_headerLines hl))
    rw [Server.next, if_neg]
    intro hempty
    rw [List.isEmpty_iff.1 hempty] at hmem
    exact List.not_mem_nil hmem
  · rw [Server.next, if_pos (by decide)]

end Setting

/-! ## The reply -/

/-- The reply ends at its first empty line. -/
theorem endsFirst_reply : EndsFirst endOfHeaders Env.connectResponse := by
  have hcr : 13 ∉ encodeUtf8 "HTTP/1.1 200 Connection Established".toList := by decide
  have hreply : Env.connectResponse =
      encodeUtf8 "HTTP/1.1 200 Connection Established".toList ++ endOfHeaders := by decide
  rw [hreply]
  exact endsFirst_append hcr

/-- A reply with status 200 ends `connect` well. -/
theorem finish_reply {σ : Type} (p : HttpProxyTransport) (s : σ) :
    p.finish Env.connectResponse s = .ok s := by
  refine finish_eq_ok.2 ⟨?_, rfl⟩
  have hreply : "HTTP/1.1 200 Connection Established\r\n\r\n".toList =
      "HTTP/1.1 200 Connection Established".toList ++ ['\r'] ++ '\n' :: "\r\n".toList := by decide
  rw [Env.connectResponse, hreply, fromUtf8Lossy_encodeUtf8, firstLine_append (by decide)]
  decide

/-- Within the reply, the loop goes on until its end. -/
theorem pass_eq (p : HttpProxyTransport) {buf : Bytes} {byte : UInt8}
    (h : buf ++ [byte] <+: Env.connectResponse) : Client.pass p buf byte =
      if buf ++ [byte] = Env.connectResponse then .tunnel else .reading (buf ++ [byte]) := by
  have hlen : Env.connectResponse.length = 39 := by decide
  have hle := h.length_le
  rw [Client.pass]
  by_cases hend : endOfHeaders <:+ buf ++ [byte]
  · rw [if_pos (endOfHeaders_suffix.1 hend), if_pos (endsFirst_reply.2 _ h hend),
      endsFirst_reply.2 _ h hend, finish_reply]
  · have hne : buf ++ [byte] ≠ Env.connectResponse := fun heq =>
      hend (heq ▸ endsFirst_reply.1)
    rw [if_neg (mt endOfHeaders_suffix.2 hend), if_neg hne, if_neg (by omega)]

end Houdinny.Proxy.Chain
