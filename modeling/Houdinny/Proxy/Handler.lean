import Houdinny.Lib.Stream
import Houdinny.Proxy.Parse

/-!
# Connections

What the proxy does with a connection. The agent's side is the reads that its
stream arrives in, and the rest of the world is an `Env`: the picker, the
transports, the allocator, and what comes of the writes. A handler records in its
`Session` the calls of the picker and of `connect`, and the blocks that were written
to the agent and to the tunnel; so the record remains where the handler fails.

A handler that does not finish has either returned an error, which the accept loop
logs, or ended the process: the release profile aborts on a panic, and an allocation
that is refused aborts in any profile (`Fault.fatal`).

`copy_bidirectional` copies every byte that it reads. What the agent's socket
still has to deliver is what its reader has not taken in yet
(`BufReader.intoInner`).

* `handleConnection` reads the first line, and hands over to `handleConnect` or to
  `handlePlainHttp`.
* `discardHeaders` and `readHeaders` are their header loops. Each line that is read takes
  something off the stream (`remaining_lt_of_readLine`), so they end.
* `refuses` is what is wrong with the buffer for a body, if anything is: there is a length
  that no `Vec` can have, where `vec!` panics, and below it the allocator decides.

A handler is a `Prog` of `Lib.Program`. Each operation has its lemmas for the case that it
goes well and for the case that it does not, and the proofs about handlers go by these.
-/

namespace Houdinny.Proxy

open Stream

/-- A way for a handler not to finish. -/
inductive Fault
  | err (e : Error)
  | panicked (msg : Text)
  /-- `handle_alloc_error`: the allocator has refused so many bytes. -/
  | outOfMemory (bytes : ℕ)
  deriving DecidableEq

/-- The process ends with the handler: `panic = "abort"`, and so does a refused
    allocation. -/
def Fault.fatal : Fault → Bool
  | .err _ => false
  | .panicked _ => true
  | .outOfMemory _ => true

/-- What a handler depends on, for transports `τ`. -/
structure Env (τ : Type) where
  picker : Text → UInt16 → Except Error τ
  connect : τ → Text → UInt16 → Except Error Unit
  /-- The allocator grants a buffer of so many bytes. -/
  allocates : ℕ → Bool
  /-- What comes of writing a block to the agent. -/
  writeAgent : Bytes → Except IoError Unit
  /-- What comes of writing a block to the tunnel, after other blocks. -/
  writeTunnel : List Bytes → Bytes → Except IoError Unit
  flushTunnel : Except IoError Unit
  /-- What the tunnel sends until it closes. -/
  response : Bytes

/-- What a handler did. -/
structure Session (τ : Type) where
  picks : List (Text × UInt16)
  connects : List (τ × Text × UInt16)
  toAgent : List Bytes
  toTunnel : List Bytes

/-- A session in which nothing happened yet. -/
def Session.new {τ : Type} : Session τ := ⟨[], [], [], []⟩

/-- What the agent's data became: the bytes delivered to the tunnel. -/
def Session.delivered {τ : Type} (s : Session τ) : Bytes := s.toTunnel.flatten

/-- A handler: it may fail, and keeps the record of its session. -/
abbrev Handler (τ α : Type) := ExceptT Fault (StateM (Session τ)) α

namespace Handler

variable {τ α β : Type}

/-- `?`, on a result of the library. -/
def ofExcept : Except Error α → Handler τ α
  | .ok a => pure a
  | .error e => throw (.err e)

/-- `?`, on a result of an I/O operation. -/
def ofIo : Except IoError α → Handler τ α
  | .ok a => pure a
  | .error e => throw (.err (.io e))

/-- A handler goes on from what its first part did. -/
theorem bind_ok {x : Handler τ α} {f : α → Handler τ β} {s s' : Session τ} {a : α}
    (h : x s = (.ok a, s')) : (x >>= f) s = f a s' := by
  change (match x s with | (r, s') => ExceptT.bindCont f r s') = f a s'
  rw [h]
  rfl

/-- A handler stops where its first part fails. -/
theorem bind_error {x : Handler τ α} {f : α → Handler τ β} {s s' : Session τ} {e : Fault}
    (h : x s = (.error e, s')) : (x >>= f) s = (.error e, s') := by
  change (match x s with | (r, s') => ExceptT.bindCont f r s') = _
  rw [h]
  rfl

/-- A handler that succeeds has succeeded in its first part, and gone on from it. -/
theorem bind_eq_ok {x : Handler τ α} {f : α → Handler τ β} {s s' : Session τ} {b : β}
    (h : (x >>= f) s = (.ok b, s')) : ∃ a s₁, x s = (.ok a, s₁) ∧ f a s₁ = (.ok b, s') := by
  rcases hx : x s with ⟨_ | a, s₁⟩
  · rw [bind_error hx] at h
    exact absurd (Prod.mk.inj h).1 (by simp)
  · exact ⟨a, s₁, rfl, (bind_ok hx).symm.trans h⟩

/-- The result is used, and nothing is recorded. -/
theorem ofExcept_eq_ok {r : Except Error α} {a : α} {s s' : Session τ}
    (h : ofExcept r s = (.ok a, s')) : r = .ok a ∧ s' = s := by
  rcases r with e | b
  · exact absurd (Prod.mk.inj h).1 (by simp)
  · obtain ⟨hb, rfl⟩ := Prod.mk.inj h
    exact ⟨congrArg _ (Except.ok.inj hb), rfl⟩

/-- The result is used, and nothing is recorded. -/
theorem ofIo_eq_ok {r : Except IoError α} {a : α} {s s' : Session τ}
    (h : ofIo r s = (.ok a, s')) : r = .ok a ∧ s' = s := by
  rcases r with e | b
  · exact absurd (Prod.mk.inj h).1 (by simp)
  · obtain ⟨hb, rfl⟩ := Prod.mk.inj h
    exact ⟨congrArg _ (Except.ok.inj hb), rfl⟩

/-- A handler goes on with a result. -/
theorem ofExcept_ok (a : α) (s : Session τ) : (ofExcept (.ok a) : Handler τ α) s = (.ok a, s) := rfl

/-- So it does with one of an I/O operation. -/
theorem ofIo_ok (a : α) (s : Session τ) : (ofIo (.ok a) : Handler τ α) s = (.ok a, s) := rfl

/-- It returns an error of an I/O operation. -/
theorem ofIo_error (e : IoError) (s : Session τ) :
    (ofIo (.error e) : Handler τ α) s = (.error (.err (.io e)), s) := rfl

end Handler

/-! ## Reading -/

/-- `read_line`: its error is that of bytes that are no text. -/
def readLine (r : BufReader) : Except IoError (Text × BufReader) :=
  match r.readLine with
  | some lr => .ok lr
  | none => .error "stream did not contain valid UTF-8".toList

/-- `read_exact`, on a reader that is not read from any more. -/
def readExact (n : ℕ) (r : BufReader) : Except IoError Bytes :=
  if n ≤ r.remaining.length then .ok (r.remaining.take n) else .error "early eof".toList

/-- The first line of a connection, without the white space at its end. -/
def readRequestLine (reads : Reads) : Except IoError (Text × BufReader) :=
  (readLine (.new reads)).map fun lr => (lr.1.trimEnd, lr.2)

/-- A line that is not empty is taken off the stream. -/
theorem remaining_lt_of_readLine {r r' : BufReader} {line : Text}
    (h : readLine r = .ok (line, r')) (hl : ¬line.trim.isEmpty) :
    r'.remaining.length < r.remaining.length := by
  rw [readLine] at h
  split at h
  · next lr hlr =>
    obtain rfl := Except.ok.inj h
    refine BufReader.remaining_lt_of_readLine hlr ?_
    rintro rfl
    exact hl rfl
  · exact absurd h (by simp)

/-- Read and discard remaining headers until empty line. -/
def discardHeaders (r : BufReader) : Except IoError BufReader :=
  match _h : readLine r with
  | .error e => .error e
  | .ok (line, r') => if _hl : line.trim.isEmpty then .ok r' else discardHeaders r'
termination_by r.remaining.length
decreasing_by exact remaining_lt_of_readLine ‹_› ‹_›

/-- `usize::MAX`. -/
def usizeMax : ℕ := 18446744073709551615

/-- `isize::MAX`. -/
def isizeMax : ℕ := 9223372036854775807

/-- A `Vec` of `n` bytes has its buffer: an empty one needs none, and any other is to be
    granted, with a length that an allocation can have. -/
def Grants (allocates : ℕ → Bool) (n : ℕ) : Prop := n = 0 ∨ n ≤ isizeMax ∧ allocates n = true

instance (allocates : ℕ → Bool) (n : ℕ) : Decidable (Grants allocates n) :=
  inferInstanceAs (Decidable (_ ∨ _))

/-- The content length after a header line. -/
def trackContentLength (contentLength : ℕ) (line : Text) : ℕ :=
  let val := (line.dropPrefix? "Content-Length:".toList).or
    (line.dropPrefix? "content-length:".toList)
  match val.bind fun val => Text.parseUnsigned usizeMax (Text.trim val) with
  | some len => len
  | none => contentLength

/-- Read remaining headers, with the content length among them. -/
def readHeaders (r : BufReader) (headers : List Text) (contentLength : ℕ) :
    Except IoError (List Text × ℕ × BufReader) :=
  match _h : readLine r with
  | .error e => .error e
  | .ok (line, r') =>
    if _hl : line.trim.isEmpty then .ok (headers, contentLength, r')
    else readHeaders r' (headers ++ [line]) (trackContentLength contentLength line)
termination_by r.remaining.length
decreasing_by exact remaining_lt_of_readLine ‹_› ‹_›

/-! ## Handling -/

namespace Env

variable {τ : Type} (env : Env τ)

/-- What is wrong with `vec![0u8; n]`, if anything is: a length that no allocation can
    have is a panic, and any other may be refused. -/
def refuses (n : ℕ) : Option Fault :=
  if n > isizeMax then some (.panicked "capacity overflow".toList)
  else if env.allocates n then none
  else some (.outOfMemory n)

/-- A buffer is had exactly if its length is one of an allocation, and granted. -/
theorem refuses_eq_none_iff {env : Env τ} {n : ℕ} :
    env.refuses n = none ↔ n ≤ isizeMax ∧ env.allocates n = true := by
  rw [refuses]
  by_cases hmax : n > isizeMax
  · rw [if_pos hmax]
    exact ⟨fun h => absurd h (by simp), fun h => absurd hmax (Nat.not_lt.2 h.1)⟩
  · rw [if_neg hmax]
    by_cases hgrants : env.allocates n = true
    · rw [if_pos hgrants]
      exact ⟨fun _ => ⟨Nat.not_lt.1 hmax, hgrants⟩, fun _ => rfl⟩
    · rw [if_neg hgrants]
      exact ⟨fun h => absurd h (by simp), fun h => absurd h.2 hgrants⟩

/-- No error is returned where there is no buffer: the process ends. -/
theorem fatal_of_refuses {env : Env τ} {n : ℕ} {fault : Fault}
    (h : env.refuses n = some fault) : fault.fatal = true := by
  rw [refuses] at h
  split at h
  · obtain rfl := Option.some.inj h
    rfl
  · split at h
    · exact absurd h (by simp)
    · obtain rfl := Option.some.inj h
      rfl

/-- `picker(&host, port)?` -/
def pick (host : Text) (port : UInt16) : Handler τ τ := do
  modify fun s => { s with picks := s.picks ++ [(host, port)] }
  Handler.ofExcept (env.picker host port)

/-- `transport.connect(&host, port).await?` -/
def connectThrough (t : τ) (host : Text) (port : UInt16) : Handler τ Unit := do
  modify fun s => { s with connects := s.connects ++ [(t, host, port)] }
  Handler.ofExcept (env.connect t host port)

/-- `write_all` to the agent. -/
def writeAllAgent (bs : Bytes) : Handler τ Unit := do
  Handler.ofIo (env.writeAgent bs)
  modify fun s => { s with toAgent := s.toAgent ++ [bs] }

/-- `write_all` to the tunnel. -/
def writeAllTunnel (bs : Bytes) : Handler τ Unit := do
  Handler.ofIo (env.writeTunnel (← get).toTunnel bs)
  modify fun s => { s with toTunnel := s.toTunnel ++ [bs] }

/-- `copy_bidirectional`: its errors are only logged. -/
def copyBidirectional (agent : Reads) : Handler τ Unit :=
  modify fun s => { s with
    toAgent := s.toAgent ++ [env.response], toTunnel := s.toTunnel ++ agent.map Subtype.val }

/-- Copying the response to the agent: its errors are only logged. -/
def copyResponse : Handler τ Unit :=
  modify fun s => { s with toAgent := s.toAgent ++ [env.response] }

variable {env} {t : τ} {host : Text} {port : UInt16} {s : Session τ}

/-- The picker returns a transport. -/
theorem pick_ok (h : env.picker host port = .ok t) :
    env.pick host port s = (.ok t, { s with picks := s.picks ++ [(host, port)] }) := by
  change Handler.ofExcept (env.picker host port) _ = _
  rw [h, Handler.ofExcept_ok]

/-- The tunnel is there. -/
theorem connectThrough_ok (h : env.connect t host port = .ok ()) :
    env.connectThrough t host port s =
      (.ok (), { s with connects := s.connects ++ [(t, host, port)] }) := by
  change Handler.ofExcept (env.connect t host port) _ = _
  rw [h, Handler.ofExcept_ok]

/-- The block is written to the agent. -/
theorem writeAllAgent_ok {bs : Bytes} (h : env.writeAgent bs = .ok ()) :
    env.writeAllAgent bs s = (.ok (), { s with toAgent := s.toAgent ++ [bs] }) := by
  rw [writeAllAgent, h, Handler.bind_ok (Handler.ofIo_ok _ s)]
  rfl

/-- It is not, and not recorded. -/
theorem writeAllAgent_error {bs : Bytes} {e : IoError} (h : env.writeAgent bs = .error e) :
    env.writeAllAgent bs s = (.error (.err (.io e)), s) := by
  rw [writeAllAgent, h, Handler.bind_error (Handler.ofIo_error e s)]

/-- The picker fails: the call is recorded. -/
theorem pick_error {e : Error} (h : env.picker host port = .error e) :
    env.pick host port s = (.error (.err e), { s with picks := s.picks ++ [(host, port)] }) := by
  change Handler.ofExcept (env.picker host port) _ = _
  rw [h]
  rfl

/-- There is no tunnel: the call is recorded. -/
theorem connectThrough_error {e : Error} (h : env.connect t host port = .error e) :
    env.connectThrough t host port s =
      (.error (.err e), { s with connects := s.connects ++ [(t, host, port)] }) := by
  change Handler.ofExcept (env.connect t host port) _ = _
  rw [h]
  rfl

/-- The block is written to the tunnel. -/
theorem writeAllTunnel_ok {bs : Bytes} (h : env.writeTunnel s.toTunnel bs = .ok ()) :
    env.writeAllTunnel bs s = (.ok (), { s with toTunnel := s.toTunnel ++ [bs] }) := by
  change (Handler.ofIo (env.writeTunnel s.toTunnel bs) >>= _) s = _
  rw [h, Handler.bind_ok (Handler.ofIo_ok _ _)]
  rfl

/-- It is not, and not recorded. -/
theorem writeAllTunnel_error {bs : Bytes} {e : IoError}
    (h : env.writeTunnel s.toTunnel bs = .error e) :
    env.writeAllTunnel bs s = (.error (.err (.io e)), s) := by
  change (Handler.ofIo (env.writeTunnel s.toTunnel bs) >>= _) s = _
  rw [h, Handler.bind_error (Handler.ofIo_error e _)]

variable (env)

/-- Reply of a successful CONNECT. -/
def connectResponse : Bytes :=
  Text.encodeUtf8 "HTTP/1.1 200 Connection Established\r\n\r\n".toList

/-- Handle an HTTP CONNECT request (HTTPS tunneling). -/
def handleConnect (reader : BufReader) (firstLine : Text) : Handler τ Unit := do
  let (host, port) ← Handler.ofExcept (parseConnect firstLine)
  let reader ← Handler.ofIo (discardHeaders reader)
  let transport ← env.pick host port
  env.connectThrough transport host port
  env.writeAllAgent connectResponse
  env.copyBidirectional reader.intoInner

/-- Handle a plain HTTP request (non-CONNECT). -/
def handlePlainHttp (reader : BufReader) (firstLine : Text) : Handler τ Unit := do
  let req ← Handler.ofExcept (parseHttpRequest firstLine)
  let (headers, contentLength, reader) ← Handler.ofIo (readHeaders reader [] 0)
  let transport ← env.pick req.host req.port
  env.connectThrough transport req.host req.port
  let rewrittenLine := req.method ++ " ".toList ++ req.path ++ " HTTP/1.1\r\n".toList
  env.writeAllTunnel (Text.encodeUtf8 rewrittenLine)
  headers.forM fun header => env.writeAllTunnel (Text.encodeUtf8 header)
  env.writeAllTunnel (Text.encodeUtf8 "\r\n".toList)
  if contentLength > 0 then
    -- `vec![0u8; content_length]`
    if let some fault := env.refuses contentLength then throw fault
    let bodyBuf ← Handler.ofIo (readExact contentLength reader)
    env.writeAllTunnel bodyBuf
  Handler.ofIo env.flushTunnel
  env.copyResponse

/-- Handle a single incoming connection — determine if CONNECT or plain HTTP. -/
def handleConnection (casing : Text.CaseMapping) (reads : Reads) : Handler τ Unit := do
  let (firstLine, reader) ← Handler.ofIo (readRequestLine reads)
  if firstLine.isEmpty then throw (.err (.proxy "empty request line".toList))
  if "CONNECT ".toList.isPrefixOf (casing.toUppercase firstLine) then
    env.handleConnect reader firstLine
  else
    env.handlePlainHttp reader firstLine

end Env

end Houdinny.Proxy
