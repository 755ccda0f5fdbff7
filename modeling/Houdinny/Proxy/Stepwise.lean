import Houdinny.Proxy.Dispatch
import Houdinny.Proxy.Upstream

/-!
# Connections, event by event

`handle_connection` on the whole of its stream is a function of it. Here it is the machine
of the points where it awaits something (`Frame`): a read of its stream or the end of it,
the picker and `connect`, the reply, which may be written in parts, and the writes to the
tunnel. A line is taken as soon as it is there, and the stream is read only for a line, or
a body, that is not there yet.

What an event does, if it can happen, is said once for each kind of event (`read_eq_some`
to `flush_eq_some`), and so is when it can happen (`isSome_takeLine` to `isSome_write`).

That this machine does what the function does is shown in `Proxy.Resume` and
`Proxy.Refinement`. It is what a connection does among others in `Proxy.Connections`, and
the server's end of a chain in `Proxy.Chain`.
-/

namespace Houdinny.Proxy

open Text Stream

/-- Where a handler awaits. -/
inductive Frame (τ : Type)
  /-- The `read_line` of the first line. -/
  | requestLine
  /-- The `read_line` of a header of a CONNECT. -/
  | headers (host : Text) (port : UInt16)
  /-- The picker is called, and `connect`. -/
  | connecting (host : Text) (port : UInt16)
  /-- The `write_all` of the reply, of which `rest` is still to be written. -/
  | replying (t : τ) (rest : Bytes)
  /-- `copy_bidirectional`, with a tunnel through `t`. -/
  | relaying (t : τ)
  /-- The `read_line` of a header of a plain request. -/
  | httpHeaders (req : HttpRequest) (headers : List Text) (contentLength : ℕ)
  /-- The picker is called for a plain request, and `connect`. -/
  | httpConnecting (req : HttpRequest) (headers : List Text) (contentLength : ℕ)
  /-- The `write_all`s of the head to a tunnel through `t`, with these blocks still to be
      written. -/
  | forwarding (t : τ) (blocks : List Bytes) (contentLength : ℕ)
  /-- The `read_exact` of the body, and its `write_all`. -/
  | body (t : τ) (contentLength : ℕ)
  /-- The `flush` of the tunnel, and the copy of the response. -/
  | flushing (t : τ)
  /-- It has returned. -/
  | done
  /-- It has returned an error, or panicked. -/
  | failed (e : Fault)

namespace Frame

variable {τ : Type}

/-- Awaiting a line. -/
def AwaitsLine : Frame τ → Prop
  | requestLine | headers .. | httpHeaders .. => True
  | _ => False

instance (frame : Frame τ) : Decidable frame.AwaitsLine :=
  match frame with
  | requestLine | headers .. | httpHeaders .. => .isTrue trivial
  | connecting .. | replying .. | relaying _ | httpConnecting .. | forwarding .. | body ..
  | flushing _ | done | failed _ => .isFalse id

end Frame

/-- A handler with the buffer of its reader, its session, and the reads up to now. -/
structure Server (τ : Type) where
  frame : Frame τ
  buffer : Bytes
  /-- The end of the stream was read. -/
  ended : Bool
  session : Session τ
  reads : Reads

namespace Server

variable {τ : Type}

/-- A connection is accepted. -/
def new : Server τ := ⟨.requestLine, [], false, .new, []⟩

/-- What a handler awaits. -/
inductive Event
  /-- A read of the stream. -/
  | read (c : Chunk)
  /-- The end of the stream. -/
  | eof
  /-- A line that is there. -/
  | line
  /-- The picker, and `connect`. -/
  | connect
  /-- A write of `n` bytes of the reply. -/
  | write (n : ℕ)
  /-- A write to the tunnel. -/
  | forward
  | flush

/-- The reads that an event takes. -/
def Event.reads : Event → Reads
  | read c => [c]
  | _ => []

variable (env : Env τ) (casing : CaseMapping)

/-- A read goes to the buffer, or to the tunnel. -/
def read (s : Server τ) (c : Chunk) : Option (Server τ) :=
  let buffered := { s with buffer := s.buffer ++ c.1, reads := s.reads ++ [c] }
  if s.ended then none
  else match s.frame with
  | .relaying _ => some { s with
      session := { s.session with toTunnel := s.session.toTunnel ++ [c.1] }
      reads := s.reads ++ [c] }
  | .body _ n => if s.buffer.length < n then some buffered else none
  | frame => if frame.AwaitsLine ∧ 10 ∉ s.buffer then some buffered else none

/-- What follows the first line. -/
def dispatch (firstLine : Text) : Frame τ :=
  if firstLine.isEmpty then .failed (.err (.proxy "empty request line".toList))
  else if sentToConnect casing firstLine then
    match parseConnect firstLine with
    | .error e => .failed (.err e)
    | .ok (host, port) => .headers host port
  else
    match parseHttpRequest firstLine with
    | .error e => .failed (.err e)
    | .ok req => .httpHeaders req [] 0

/-- What follows a line. -/
def next (line : Text) : Frame τ → Frame τ
  | .requestLine => dispatch casing line.trimEnd
  | .headers host port => if line.trim.isEmpty then .connecting host port else .headers host port
  | .httpHeaders req headers contentLength =>
    if line.trim.isEmpty then .httpConnecting req headers contentLength
    else .httpHeaders req (headers ++ [line]) (trackContentLength contentLength line)
  | frame => frame

/-- The next line with what comes after it: at the end of the stream, all that is left. -/
def nextLine (s : Server τ) : Option (Bytes × Bytes) :=
  match cutAfter 10 s.buffer with
  | some p => some p
  | none => if s.ended then some (s.buffer, []) else none

/-- A line was taken out of the buffer. -/
def took (s : Server τ) (l rest : Bytes) : Server τ :=
  match decodeUtf8 l with
  | none => { s with
      frame := .failed (.err (.io "stream did not contain valid UTF-8".toList))
      buffer := rest }
  | some line => { s with frame := next casing line s.frame, buffer := rest }

/-- The next line is taken, where one is awaited. -/
def takeLine (s : Server τ) : Option (Server τ) :=
  if s.frame.AwaitsLine then s.nextLine.map fun p => s.took casing p.1 p.2 else none

/-- The picker is called, and `connect`, if it returns a transport. -/
def call (s : Server τ) (host : Text) (port : UInt16) (next : τ → Frame τ) : Server τ :=
  let picked := { s.session with picks := s.session.picks ++ [(host, port)] }
  match env.picker host port with
  | .error e => { s with frame := .failed (.err e), session := picked }
  | .ok t =>
    let called := { picked with connects := picked.connects ++ [(t, host, port)] }
    match env.connect t host port with
    | .error e => { s with frame := .failed (.err e), session := called }
    | .ok () => { s with frame := next t, session := called }

/-- The blocks that a head is forwarded in. -/
def headBlocks (req : HttpRequest) (headers : List Text) : List Bytes :=
  encodeUtf8 (req.method ++ " ".toList ++ req.path ++ " HTTP/1.1\r\n".toList) ::
    (headers.map encodeUtf8 ++ [encodeUtf8 "\r\n".toList])

/-- The calls are made, where they are awaited. -/
def connect (s : Server τ) : Option (Server τ) :=
  match s.frame with
  | .connecting host port => some (s.call env host port fun t => .replying t Env.connectResponse)
  | .httpConnecting req headers contentLength => some
      (s.call env req.host req.port fun t => .forwarding t (headBlocks req headers) contentLength)
  | _ => none

/-- Some of the reply is written: after the last of it, the reader is given up. -/
def write (s : Server τ) (n : ℕ) : Option (Server τ) :=
  match s.frame, env.writeAgent Env.connectResponse with
  | .replying .., .error e => some { s with frame := .failed (.err (.io e)) }
  | .replying t rest, .ok () =>
    if 0 < n ∧ n ≤ rest.length then
      if rest.drop n = [] then
        some { s with
          frame := .relaying t
          buffer := []
          session := { s.session with toAgent := s.session.toAgent ++ [Env.connectResponse] } }
      else some { s with frame := .replying t (rest.drop n) }
    else none
  | _, _ => none

/-- A block is written to the tunnel. -/
def send (s : Server τ) (bs : Bytes) (next : Frame τ) : Server τ :=
  match env.writeTunnel s.session.toTunnel bs with
  | .error e => { s with frame := .failed (.err (.io e)) }
  | .ok () => { s with
      frame := next
      session := { s.session with toTunnel := s.session.toTunnel ++ [bs] } }

/-- What follows the head: the body, once there is a buffer for it. -/
def afterHead (t : τ) (contentLength : ℕ) : Frame τ :=
  if contentLength > 0 then
    match env.refuses contentLength with
    | some fault => .failed fault
    | none => .body t contentLength
  else .flushing t

/-- The next block of the head is written, or the body. -/
def forward (s : Server τ) : Option (Server τ) :=
  match s.frame with
  | .forwarding t (bs :: blocks) n => some (s.send env bs (.forwarding t blocks n))
  | .forwarding t [] n => some { s with frame := afterHead env t n }
  | .body t n =>
    if n ≤ s.buffer.length then some (s.send env (s.buffer.take n) (.flushing t))
    else if s.ended then some { s with frame := .failed (.err (.io "early eof".toList)) }
    else none
  | _ => none

/-- The tunnel is flushed, and the response is copied. -/
def flush (s : Server τ) : Option (Server τ) :=
  match s.frame with
  | .flushing _ =>
    match env.flushTunnel with
    | .error e => some { s with frame := .failed (.err (.io e)) }
    | .ok () => some { s with
        frame := .done
        session := { s.session with toAgent := s.session.toAgent ++ [env.response] } }
  | _ => none

/-- What an event does, if it can happen. -/
def step (s : Server τ) : Event → Option (Server τ)
  | .read c => s.read c
  | .eof => if s.ended then none else some { s with ended := true }
  | .line => s.takeLine casing
  | .connect => s.connect env
  | .write n => s.write env n
  | .forward => s.forward env
  | .flush => s.flush env

/-! ## What the events do -/

variable {env casing} {s s' : Server τ} {c : Chunk} {n : ℕ}

/-- A read is made for a line or a body that is not there yet, or is copied. -/
theorem read_eq_some (h : s.read c = some s') : s.ended = false ∧
    ((((s.frame.AwaitsLine ∧ 10 ∉ s.buffer) ∨ ∃ t n, s.frame = .body t n ∧ s.buffer.length < n) ∧
      s' = { s with buffer := s.buffer ++ c.1, reads := s.reads ++ [c] }) ∨
    ∃ t, s.frame = .relaying t ∧ s' = { s with
      session := { s.session with toTunnel := s.session.toTunnel ++ [c.1] }
      reads := s.reads ++ [c] }) := by
  rw [read] at h
  dsimp only at h
  rcases hended : s.ended with _ | _
  · rw [hended, if_neg Bool.false_ne_true] at h
    refine ⟨rfl, ?_⟩
    split at h
    · next t hframe => exact .inr ⟨t, hframe, (Option.some.inj h).symm⟩
    · next t n hframe =>
      split_ifs at h with hlen
      exact .inl ⟨.inr ⟨t, n, hframe, hlen⟩, (Option.some.inj h).symm⟩
    · split_ifs at h with hline
      exact .inl ⟨.inl hline, (Option.some.inj h).symm⟩
  · rw [hended, if_pos rfl] at h
    exact absurd h (by simp)

/-- The next line ends in the buffer, or is all that is left. -/
theorem nextLine_eq_some {l rest : Bytes} (h : s.nextLine = some (l, rest)) :
    cutAfter 10 s.buffer = some (l, rest) ∨
      cutAfter 10 s.buffer = none ∧ s.ended = true ∧ l = s.buffer ∧ rest = [] := by
  rw [nextLine] at h
  split at h
  · next hcut =>
    obtain rfl := Option.some.inj h
    exact .inl hcut
  · next hcut =>
    split_ifs at h with hended
    obtain ⟨rfl, rfl⟩ := Prod.mk.inj (Option.some.inj h)
    exact .inr ⟨hcut, hended, rfl, rfl⟩

/-- A line that is taken is a text, or not. -/
theorem took_cases (casing : CaseMapping) (s : Server τ) (l rest : Bytes) :
    (decodeUtf8 l = none ∧ s.took casing l rest = { s with
        frame := .failed (.err (.io "stream did not contain valid UTF-8".toList))
        buffer := rest }) ∨
      ∃ line, decodeUtf8 l = some line ∧
        s.took casing l rest = { s with frame := next casing line s.frame, buffer := rest } := by
  rw [took]
  rcases hline : decodeUtf8 l with _ | line
  · exact .inl ⟨rfl, rfl⟩
  · exact .inr ⟨line, rfl, rfl⟩

/-- A line is taken where one is awaited. -/
theorem takeLine_eq_some (h : s.takeLine casing = some s') : s.frame.AwaitsLine ∧
    ∃ l rest, s.nextLine = some (l, rest) ∧ s' = s.took casing l rest := by
  rw [takeLine] at h
  split_ifs at h with hframe
  obtain ⟨⟨l, rest⟩, hnext, heq⟩ := Option.map_eq_some_iff.1 h
  exact ⟨hframe, l, rest, hnext, heq.symm⟩

/-- The calls fail, one after the other, or both succeed. -/
theorem call_cases (env : Env τ) (s : Server τ) (host : Text) (port : UInt16)
    (next : τ → Frame τ) :
    (∃ e, env.picker host port = .error e ∧ s.call env host port next = { s with
        frame := .failed (.err e)
        session := { s.session with picks := s.session.picks ++ [(host, port)] } }) ∨
      ∃ t, env.picker host port = .ok t ∧
        ((∃ e, env.connect t host port = .error e ∧ s.call env host port next = { s with
            frame := .failed (.err e)
            session := { s.session with
              picks := s.session.picks ++ [(host, port)]
              connects := s.session.connects ++ [(t, host, port)] } }) ∨
          (env.connect t host port = .ok () ∧ s.call env host port next = { s with
            frame := next t
            session := { s.session with
              picks := s.session.picks ++ [(host, port)]
              connects := s.session.connects ++ [(t, host, port)] } })) := by
  rw [call]
  dsimp only
  rcases hpick : env.picker host port with e | t
  · exact .inl ⟨e, rfl, rfl⟩
  · refine .inr ⟨t, rfl, ?_⟩
    dsimp only
    rcases hconnect : env.connect t host port with e | u
    · exact .inl ⟨e, rfl, rfl⟩
    · exact .inr ⟨rfl, rfl⟩

/-- The calls are those of a CONNECT or of a plain request. -/
theorem connect_eq_some (h : s.connect env = some s') :
    (∃ host port, s.frame = .connecting host port ∧
      s' = s.call env host port fun t => .replying t Env.connectResponse) ∨
    ∃ req headers n, s.frame = .httpConnecting req headers n ∧
      s' = s.call env req.host req.port fun t => .forwarding t (headBlocks req headers) n := by
  rw [connect] at h
  split at h
  · next host port hframe => exact .inl ⟨host, port, hframe, (Option.some.inj h).symm⟩
  · next req headers n hframe => exact .inr ⟨req, headers, n, hframe, (Option.some.inj h).symm⟩
  · exact absurd h (by simp)

/-- A write of the reply fails, or puts out a part of it. -/
theorem write_eq_some (h : s.write env n = some s') : ∃ t rest, s.frame = .replying t rest ∧
    ((∃ e, env.writeAgent Env.connectResponse = .error e ∧
        s' = { s with frame := .failed (.err (.io e)) }) ∨
      (env.writeAgent Env.connectResponse = .ok () ∧ 0 < n ∧ n ≤ rest.length ∧
        ((rest.drop n = [] ∧ s' = { s with
            frame := .relaying t
            buffer := []
            session := { s.session with toAgent := s.session.toAgent ++ [Env.connectResponse] } }) ∨
          (rest.drop n ≠ [] ∧ s' = { s with frame := .replying t (rest.drop n) })))) := by
  rw [write] at h
  split at h
  · next t rest e hframe hwrite =>
    exact ⟨t, rest, hframe, .inl ⟨e, hwrite, (Option.some.inj h).symm⟩⟩
  · next t rest hframe hwrite =>
    refine ⟨t, rest, hframe, .inr ⟨hwrite, ?_⟩⟩
    split_ifs at h with hn hlast
    · exact ⟨hn.1, hn.2, .inl ⟨hlast, (Option.some.inj h).symm⟩⟩
    · exact ⟨hn.1, hn.2, .inr ⟨hlast, (Option.some.inj h).symm⟩⟩
  · exact absurd h (by simp)

/-- A write to the tunnel fails, or is recorded. -/
theorem send_cases (env : Env τ) (s : Server τ) (bs : Bytes) (next : Frame τ) :
    (∃ e, env.writeTunnel s.session.toTunnel bs = .error e ∧
      s.send env bs next = { s with frame := .failed (.err (.io e)) }) ∨
    (env.writeTunnel s.session.toTunnel bs = .ok () ∧ s.send env bs next = { s with
      frame := next
      session := { s.session with toTunnel := s.session.toTunnel ++ [bs] } }) := by
  rw [send]
  rcases hwrite : env.writeTunnel s.session.toTunnel bs with e | u
  · exact .inl ⟨e, rfl, rfl⟩
  · exact .inr ⟨rfl, rfl⟩

/-- The next block of the head, the end of it, or the body. -/
theorem forward_eq_some (h : s.forward env = some s') :
    (∃ t bs blocks n, s.frame = .forwarding t (bs :: blocks) n ∧
      s' = s.send env bs (.forwarding t blocks n)) ∨
    (∃ t n, s.frame = .forwarding t [] n ∧ s' = { s with frame := afterHead env t n }) ∨
    ∃ t n, s.frame = .body t n ∧
      (n ≤ s.buffer.length ∧ s' = s.send env (s.buffer.take n) (.flushing t) ∨
        s.buffer.length < n ∧ s.ended = true ∧
          s' = { s with frame := .failed (.err (.io "early eof".toList)) }) := by
  rw [forward] at h
  split at h
  · next t bs blocks n hframe =>
    exact .inl ⟨t, bs, blocks, n, hframe, (Option.some.inj h).symm⟩
  · next t n hframe => exact .inr (.inl ⟨t, n, hframe, (Option.some.inj h).symm⟩)
  · next t n hframe =>
    refine .inr (.inr ⟨t, n, hframe, ?_⟩)
    split_ifs at h with hlen hended
    · exact .inl ⟨hlen, (Option.some.inj h).symm⟩
    · exact .inr ⟨Nat.lt_of_not_le hlen, hended, (Option.some.inj h).symm⟩
  · exact absurd h (by simp)

/-- The flush fails, or the response is copied. -/
theorem flush_eq_some (h : s.flush env = some s') : ∃ t, s.frame = .flushing t ∧
    ((∃ e, env.flushTunnel = .error e ∧ s' = { s with frame := .failed (.err (.io e)) }) ∨
      (env.flushTunnel = .ok () ∧ s' = { s with
        frame := .done
        session := { s.session with toAgent := s.session.toAgent ++ [env.response] } })) := by
  rw [flush] at h
  split at h
  · next t hframe =>
    refine ⟨t, hframe, ?_⟩
    rcases hflush : env.flushTunnel with e | u
    · rw [hflush] at h
      exact .inl ⟨e, rfl, (Option.some.inj h).symm⟩
    · rw [hflush] at h
      exact .inr ⟨rfl, (Option.some.inj h).symm⟩
  · exact absurd h (by simp)

/-! ## What can happen -/

/-- A line that is in the buffer can be taken. -/
theorem isSome_takeLine (hframe : s.frame.AwaitsLine) (h : 10 ∈ s.buffer ∨ s.ended = true) :
    (s.takeLine casing).isSome := by
  rw [takeLine, if_pos hframe, Option.isSome_map, nextLine]
  split
  · rfl
  · next hcut => rw [if_pos (h.resolve_left (cutAfter_eq_none hcut))]; rfl

/-- A read can be made for one that is not. -/
theorem isSome_read (hframe : s.frame.AwaitsLine) (h : 10 ∉ s.buffer) (hended : s.ended = false)
    (c : Chunk) : (s.read c).isSome := by
  rcases hf : s.frame <;> rw [hf] at hframe <;> simp only [Frame.AwaitsLine] at hframe
  all_goals
    simp only [read, hf, hended, Frame.AwaitsLine, true_and, if_pos h]
    rfl

/-- The calls can be made where they are awaited. -/
theorem isSome_connect {host : Text} {port : UInt16} (hframe : s.frame = .connecting host port) :
    (s.connect env).isSome := by
  rw [connect, hframe]
  rfl

/-- A part of the reply can be written where it is awaited. -/
theorem isSome_write {t : τ} {rest : Bytes} (hframe : s.frame = .replying t rest)
    (hwrite : env.writeAgent Env.connectResponse = .ok ()) (hpos : 0 < n) (hle : n ≤ rest.length) :
    (s.write env n).isSome := by
  rw [write, hframe, hwrite]
  dsimp only
  rw [if_pos ⟨hpos, hle⟩]
  split_ifs <;> rfl

end Server

end Houdinny.Proxy
