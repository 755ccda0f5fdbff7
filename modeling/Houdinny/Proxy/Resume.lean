import Houdinny.Proxy.Stepwise

/-!
# What a connection comes to

`resume` says what the machine of a connection still comes to, on the reads that follow.
Every event keeps it (`step_resume`), so that wherever the machine is, `handle_connection`
does with all reads what was done and what it still comes to (`Follows`).

`resume` has a case for each place of the machine, which is the rest of the handler from that
place on. So the source is cut into its rests here: `tunnelTo` after the head of a CONNECT,
`forward` after that of a plain request, `respond` after its body. For each kind of event one
lemma says that what it does is the first thing that the rest does:

* a read is what the rest reads next (`read_resume`), since a reader asks for more only where
  a line is not there yet;
* a line that is taken is the one that the rest takes (`takeLine_resume`);
* calls and writes are made as the rest makes them (`call_resume`, `send_resume`).
-/

namespace Houdinny.Proxy

open Text Stream

namespace Server

variable {τ : Type} {env : Env τ} {casing : CaseMapping} {s s' : Server τ} {c : Chunk} {n : ℕ}

variable (env casing)

/-- `handle_connect`, when the head was read. -/
def tunnelTo (host : Text) (port : UInt16) (agent : Reads) : Handler τ Unit := do
  let transport ← env.pick host port
  env.connectThrough transport host port
  env.writeAllAgent Env.connectResponse
  env.copyBidirectional agent

/-- `handle_connection`, when its first line was read. -/
def handleRequest (reader : BufReader) (firstLine : Text) : Handler τ Unit := do
  if firstLine.isEmpty then throw (.err (.proxy "empty request line".toList))
  if "CONNECT ".toList.isPrefixOf (casing.toUppercase firstLine) then
    env.handleConnect reader firstLine
  else
    env.handlePlainHttp reader firstLine

/-- `handle_plain_http`, when all was written. -/
def respond : Handler τ Unit := do
  Handler.ofIo env.flushTunnel
  env.copyResponse

/-- What a handler still comes to, on the reads that follow. -/
def resume (s : Server τ) (rs : Reads) : Except Fault Unit × Session τ :=
  match s.frame with
  | .requestLine =>
    (do
      let (line, reader) ← Handler.ofIo (readLine ⟨s.buffer, rs⟩)
      handleRequest env casing reader line.trimEnd : Handler τ Unit) s.session
  | .headers host port =>
    (do
      let reader ← Handler.ofIo (discardHeaders ⟨s.buffer, rs⟩)
      tunnelTo env host port reader.intoInner : Handler τ Unit) s.session
  | .connecting host port => tunnelTo env host port rs s.session
  | .replying _ _ =>
    (do
      env.writeAllAgent Env.connectResponse
      env.copyBidirectional rs : Handler τ Unit) s.session
  | .relaying _ => env.copyBidirectional rs s.session
  | .httpHeaders req headers n =>
    (do
      let (headers, n, reader) ← Handler.ofIo (readHeaders ⟨s.buffer, rs⟩ headers n)
      Proxy.forward env req headers n reader : Handler τ Unit) s.session
  | .httpConnecting req headers n => Proxy.forward env req headers n ⟨s.buffer, rs⟩ s.session
  | .forwarding _ blocks n =>
    (do
      blocks.forM env.writeAllTunnel
      forwardBody env n ⟨s.buffer, rs⟩ : Handler τ Unit) s.session
  | .body _ n =>
    (do
      let bodyBuf ← Handler.ofIo (readExact n ⟨s.buffer, rs⟩)
      env.writeAllTunnel bodyBuf
      respond env : Handler τ Unit) s.session
  | .flushing _ => respond env s.session
  | .done => (.ok (), s.session)
  | .failed e => (.error e, s.session)

/-- A new connection comes to what `handle_connection` does. -/
theorem resume_new (rs : Reads) :
    (new : Server τ).resume env casing rs = env.handleConnection casing rs .new := by
  rw [Env.handleConnection, readRequestLine]
  change (Handler.ofIo (readLine (.new rs)) >>= _) _ = _
  rcases readLine (.new rs) with e | ⟨line, r⟩
  · rw [Handler.bind_error (Handler.ofIo_error e _)]
    rfl
  · rw [Handler.bind_ok (Handler.ofIo_ok _ _)]
    rfl

variable {env casing} {rs : Reads}

/-! ### Reads -/

/-- What is read for a line that is not there yet is read on from it. -/
theorem readLine_append (h : 10 ∉ s.buffer) (c : Chunk) (rs : Reads) :
    readLine ⟨s.buffer, c :: rs⟩ = readLine ⟨s.buffer ++ c.1, rs⟩ := by
  have hread : readFrom 10 s.buffer (c :: rs) = readFrom 10 (s.buffer ++ c.1) rs := by
    have hcut : cutAfter 10 s.buffer = none := by
      have happ := cutAfter_append h []
      rwa [List.append_nil] at happ
    rw [readFrom_append h, readFrom, hcut]
  rw [readLine, readLine, BufReader.readLine, BufReader.readLine, BufReader.readUntil,
    BufReader.readUntil]
  dsimp only
  rw [hread]

/-- The header loop of a CONNECT reads on where its line is not there yet, -/
theorem discardHeaders_append (h : 10 ∉ s.buffer) (c : Chunk) (rs : Reads) :
    discardHeaders ⟨s.buffer, c :: rs⟩ = discardHeaders ⟨s.buffer ++ c.1, rs⟩ := by
  rw [discardHeaders_eq, discardHeaders_eq, readLine_append h]

/-- and so does that of a plain request. -/
theorem readHeaders_append (h : 10 ∉ s.buffer) (c : Chunk) (rs : Reads) (headers : List Text)
    (n : ℕ) : readHeaders ⟨s.buffer, c :: rs⟩ headers n =
      readHeaders ⟨s.buffer ++ c.1, rs⟩ headers n := by
  rw [readHeaders_eq, readHeaders_eq, readLine_append h]

/-- A body that is not there yet is read on. -/
theorem readExact_append (c : Chunk) (rs : Reads) (n : ℕ) :
    readExact n ⟨s.buffer, c :: rs⟩ = readExact n ⟨s.buffer ++ c.1, rs⟩ :=
  readExact_congr (by simp [BufReader.remaining]) n

/-- What is copied is all that is left. -/
theorem copyBidirectional_eq (agent : Reads) (session : Session τ) :
    env.copyBidirectional agent session = (.ok (), { session with
      toAgent := session.toAgent ++ [env.response]
      toTunnel := session.toTunnel ++ agent.map Subtype.val }) := rfl

/-- A read is what is read next. -/
theorem read_resume (h : s.read c = some s') (rs : Reads) :
    s'.resume env casing rs = s.resume env casing (c :: rs) := by
  obtain ⟨-, ⟨⟨hframe, hline⟩ | ⟨t, n, hframe, -⟩, rfl⟩ | ⟨t, hframe, rfl⟩⟩ := read_eq_some h
  · rcases hf : s.frame <;> simp only [hf, Frame.AwaitsLine] at hframe
    · simp only [resume, hf, readLine_append hline]
    · simp only [resume, hf, discardHeaders_append hline]
    · simp only [resume, hf, readHeaders_append hline]
  · simp only [resume, hframe, readExact_append]
  · simp only [resume, hframe, copyBidirectional_eq, List.map_cons, List.append_assoc,
      List.singleton_append]

/-! ### Lines -/

/-- The next line is what is read, and the rest is left. -/
theorem readLine_of_nextLine {l rest : Bytes} (h : s.nextLine = some (l, rest))
    (hended : s.ended = true → rs = []) : readLine ⟨s.buffer, rs⟩ =
      match decodeUtf8 l with
      | some line => .ok (line, ⟨rest, rs⟩)
      | none => .error "stream did not contain valid UTF-8".toList := by
  have hread : readFrom 10 s.buffer rs = (l, ⟨rest, rs⟩) := by
    obtain hcut | ⟨hcut, hend, rfl, rfl⟩ := nextLine_eq_some h
    · cases rs <;> rw [readFrom, hcut]
    · rw [hended hend, readFrom, hcut]
  rw [readLine, BufReader.readLine, BufReader.readUntil]
  dsimp only
  rw [hread]
  rcases decodeUtf8 l <;> rfl

/-- What follows the first line comes to what is made of it. -/
theorem resume_dispatch (s : Server τ) (rs : Reads) (line : Text) :
    resume env casing { s with frame := dispatch casing line } rs =
      handleRequest env casing ⟨s.buffer, rs⟩ line s.session := by
  by_cases hempty : line.isEmpty
  · rw [dispatch, handleRequest, if_pos hempty, if_pos hempty]
    rfl
  · by_cases hsent : sentToConnect casing line = true
    · have hhandle : handleRequest env casing ⟨s.buffer, rs⟩ line s.session =
          env.handleConnect ⟨s.buffer, rs⟩ line s.session := by
        rw [handleRequest, if_neg hempty]
        exact congrFun (if_pos hsent) s.session
      rw [dispatch, if_neg hempty, if_pos hsent, hhandle, Env.handleConnect]
      rcases parseConnect line with e | ⟨host, port⟩
      · rw [Handler.bind_error (by rfl : Handler.ofExcept (.error e) s.session = _)]
        rfl
      · rw [Handler.bind_ok (Handler.ofExcept_ok _ _)]
        rfl
    · have hhandle : handleRequest env casing ⟨s.buffer, rs⟩ line s.session =
          env.handlePlainHttp ⟨s.buffer, rs⟩ line s.session := by
        rw [handleRequest, if_neg hempty]
        exact congrFun (if_neg hsent) s.session
      rw [dispatch, if_neg hempty, if_neg hsent, hhandle, Env.handlePlainHttp]
      rcases parseHttpRequest line with e | req
      · rw [Handler.bind_error (by rfl : Handler.ofExcept (.error e) s.session = _)]
        rfl
      · rw [Handler.bind_ok (Handler.ofExcept_ok _ _)]
        rfl

/-- A line that is taken is the line that is read. -/
theorem takeLine_resume (h : s.takeLine casing = some s') (hended : s.ended = true → rs = []) :
    s'.resume env casing rs = s.resume env casing rs := by
  obtain ⟨hframe, l, rest, hnext, rfl⟩ := takeLine_eq_some h
  have hread := readLine_of_nextLine hnext hended
  rcases took_cases casing s l rest with ⟨hline, htook⟩ | ⟨line, hline, htook⟩
  · -- The line is no text: the handler fails in the same way wherever it is.
    rw [hline] at hread
    rw [htook]
    rcases hf : s.frame <;> simp only [hf, Frame.AwaitsLine] at hframe
    · simp only [resume, hf, hread]
      rw [Handler.bind_error (Handler.ofIo_error _ _)]
    · simp only [resume, hf, discardHeaders_eq ⟨s.buffer, rs⟩, hread]
      rw [Handler.bind_error (Handler.ofIo_error _ _)]
    · simp only [resume, hf, readHeaders_eq ⟨s.buffer, rs⟩, hread]
      rw [Handler.bind_error (Handler.ofIo_error _ _)]
  · rw [hline] at hread
    rw [htook]
    rcases hf : s.frame <;> simp only [hf, Frame.AwaitsLine] at hframe
    · rw [next, resume_dispatch { s with buffer := rest }, resume, hf]
      dsimp only
      rw [hread, Handler.bind_ok (Handler.ofIo_ok _ _)]
    · simp only [resume, hf, discardHeaders_eq ⟨s.buffer, rs⟩, hread, next]
      by_cases hblank : line.trim.isEmpty
      · simp only [if_pos hblank]
        rw [Handler.bind_ok (Handler.ofIo_ok _ _)]
        rfl
      · simp only [if_neg hblank]
    · simp only [resume, hf, readHeaders_eq ⟨s.buffer, rs⟩, hread, next]
      by_cases hblank : line.trim.isEmpty
      · simp only [if_pos hblank]
        rw [Handler.bind_ok (Handler.ofIo_ok _ _)]
      · simp only [if_neg hblank]

/-! ### Calls and writes -/

/-- The calls are made as a handler makes them that goes on with `k`. -/
theorem call_resume {host : Text} {port : UInt16} {next : τ → Frame τ} {k : Handler τ Unit}
    (hk : ∀ t session, resume env casing { s with frame := next t, session := session } rs =
      k session) : (s.call env host port next).resume env casing rs = (do
        let transport ← env.pick host port
        env.connectThrough transport host port
        k : Handler τ Unit) s.session := by
  rcases s.call_cases env host port next with
    ⟨e, hpick, hcall⟩ | ⟨t, hpick, ⟨e, hconnect, hcall⟩ | ⟨hconnect, hcall⟩⟩
  · rw [hcall, Handler.bind_error (Env.pick_error hpick)]
    rfl
  · rw [hcall, Handler.bind_ok (Env.pick_ok hpick),
      Handler.bind_error (Env.connectThrough_error hconnect)]
    rfl
  · rw [hcall, hk, Handler.bind_ok (Env.pick_ok hpick),
      Handler.bind_ok (Env.connectThrough_ok hconnect)]

/-- A head is forwarded block by block. -/
theorem forward_eq (req : HttpRequest) (headers : List Text) (n : ℕ) (r : BufReader) :
    Proxy.forward env req headers n r = (do
      let transport ← env.pick req.host req.port
      env.connectThrough transport req.host req.port
      (headBlocks req headers).forM env.writeAllTunnel
      forwardBody env n r) := by
  rw [Proxy.forward, headBlocks]
  simp only [List.forM_eq_forM, List.forM_cons, List.forM_append, List.forM_nil, List.forM_map,
    bind_assoc, pure_bind]

/-- The two calls. -/
theorem connect_resume (h : s.connect env = some s') (rs : Reads) :
    s'.resume env casing rs = s.resume env casing rs := by
  rcases connect_eq_some h with ⟨host, port, hframe, rfl⟩ | ⟨req, headers, n, hframe, rfl⟩
  · rw [call_resume (k := do
      env.writeAllAgent Env.connectResponse
      env.copyBidirectional rs) fun _ _ => rfl, resume, hframe]
    rfl
  · rw [call_resume (k := do
      (headBlocks req headers).forM env.writeAllTunnel
      forwardBody env n ⟨s.buffer, rs⟩) fun _ _ => rfl, resume, hframe]
    exact (congrFun (forward_eq req headers n _) _).symm

/-- The reply is written as a whole, in the end. -/
theorem write_resume (h : s.write env n = some s') (rs : Reads) :
    s'.resume env casing rs = s.resume env casing rs := by
  obtain ⟨t, rest, hframe, ⟨e, hwrite, rfl⟩ | ⟨hwrite, -, -, ⟨-, rfl⟩ | ⟨-, rfl⟩⟩⟩ :=
    write_eq_some h
  · simp only [resume, hframe]
    rw [Handler.bind_error (Env.writeAllAgent_error hwrite)]
  · simp only [resume, hframe]
    rw [Handler.bind_ok (Env.writeAllAgent_ok hwrite)]
  · simp only [resume, hframe]

/-- A block is written as a handler writes it that goes on with `k`. -/
theorem send_resume {bs : Bytes} {next : Frame τ} {k : Handler τ Unit}
    (hk : ∀ session, resume env casing { s with frame := next, session := session } rs =
      k session) : (s.send env bs next).resume env casing rs = (do
        env.writeAllTunnel bs
        k : Handler τ Unit) s.session := by
  rcases s.send_cases env bs next with ⟨e, hwrite, hsend⟩ | ⟨hwrite, hsend⟩
  · rw [hsend, Handler.bind_error (Env.writeAllTunnel_error hwrite)]
    rfl
  · rw [hsend, hk, Handler.bind_ok (Env.writeAllTunnel_ok hwrite)]

/-- What follows the head comes to what is forwarded after it. -/
theorem resume_afterHead (s : Server τ) (t : τ) (n : ℕ) (rs : Reads) :
    resume env casing { s with frame := afterHead env t n } rs =
      forwardBody env n ⟨s.buffer, rs⟩ s.session := by
  rw [afterHead, forwardBody]
  by_cases hn : n > 0
  · rw [if_pos hn, if_pos hn]
    rcases env.refuses n with _ | fault <;> rfl
  · rw [if_neg hn, if_neg hn]
    rfl

/-- A block of the head, or the body. -/
theorem forward_resume (h : s.forward env = some s') (hended : s.ended = true → rs = []) :
    s'.resume env casing rs = s.resume env casing rs := by
  rcases forward_eq_some h with ⟨t, bs, blocks, n, hframe, rfl⟩ | ⟨t, n, hframe, rfl⟩ |
    ⟨t, n, hframe, ⟨hlen, rfl⟩ | ⟨hlen, hend, rfl⟩⟩
  · rw [send_resume (k := do
      blocks.forM env.writeAllTunnel
      forwardBody env n ⟨s.buffer, rs⟩) fun _ => rfl, resume, hframe]
    simp only [List.forM_eq_forM, List.forM_cons, bind_assoc]
  · rw [resume_afterHead, resume, hframe]
    simp only [List.forM_eq_forM, List.forM_nil, pure_bind]
  · rw [send_resume (k := respond env) fun _ => rfl, resume, hframe]
    -- The body is in the buffer, whatever else is read.
    have hread : readExact n ⟨s.buffer, rs⟩ = .ok (s.buffer.take n) := by
      have hle : n ≤ (s.buffer ++ rs.bytes).length := by
        rw [List.length_append]
        omega
      rw [readExact, BufReader.remaining, if_pos hle, List.take_append_of_le_length hlen]
    dsimp only
    rw [hread, Handler.bind_ok (Handler.ofIo_ok _ _)]
  · -- At the end of the stream, the buffer is all there is of the body.
    have hread : readExact n ⟨s.buffer, rs⟩ = .error "early eof".toList := by
      have hlt : ¬n ≤ (s.buffer ++ rs.bytes).length := by
        rw [hended hend, bytes_nil, List.append_nil]
        omega
      rw [readExact, BufReader.remaining, if_neg hlt]
    simp only [resume, hframe, hread]
    rw [Handler.bind_error (Handler.ofIo_error _ _)]

/-- The flush, and the response. -/
theorem flush_resume (h : s.flush env = some s') (rs : Reads) :
    s'.resume env casing rs = s.resume env casing rs := by
  obtain ⟨t, hframe, ⟨e, hflush, rfl⟩ | ⟨hflush, rfl⟩⟩ := flush_eq_some h
  · simp only [resume, hframe, respond, hflush]
    rw [Handler.bind_error (Handler.ofIo_error _ _)]
  · simp only [resume, hframe, respond, hflush]
    rw [Handler.bind_ok (Handler.ofIo_ok _ _)]
    rfl

/-! ### Runs -/

/-- What the handler comes to, on the reads that it took and others, is what
    `handle_connection` does with them: no others follow the end of the stream. -/
def Follows (env : Env τ) (casing : CaseMapping) (s : Server τ) : Prop :=
  ∀ rs, (s.ended = true → rs = []) →
    env.handleConnection casing (s.reads ++ rs) .new = s.resume env casing rs

/-- Before anything was read, everything is still to be done. -/
theorem follows_new : Follows env casing (new : Server τ) :=
  fun rs _ => (resume_new env casing rs).symm

/-- No call or write takes a read. -/
theorem call_keeps (s : Server τ) (host : Text) (port : UInt16) (next : τ → Frame τ) :
    (s.call env host port next).reads = s.reads ∧ (s.call env host port next).ended = s.ended := by
  rcases s.call_cases env host port next with
    ⟨_, -, hcall⟩ | ⟨_, -, ⟨_, -, hcall⟩ | ⟨-, hcall⟩⟩ <;> rw [hcall] <;> exact ⟨rfl, rfl⟩

/-- A write to the tunnel takes no read. -/
theorem send_keeps (s : Server τ) (bs : Bytes) (next : Frame τ) :
    (s.send env bs next).reads = s.reads ∧ (s.send env bs next).ended = s.ended := by
  rcases s.send_cases env bs next with ⟨_, -, hsend⟩ | ⟨-, hsend⟩ <;> rw [hsend] <;>
    exact ⟨rfl, rfl⟩

/-- The reads that an event takes are recorded, and none is taken after the end. -/
theorem reads_of_step {e : Event} (h : s.step env casing e = some s') :
    s'.reads = s.reads ++ e.reads ∧ (s.ended = true → e.reads = []) ∧
      (s'.ended = s.ended ∨ e = .eof ∧ s'.ended = true) := by
  cases e with
  | read c =>
    obtain ⟨hended, ⟨-, rfl⟩ | ⟨_, -, rfl⟩⟩ := read_eq_some h <;>
      exact ⟨rfl, fun h => absurd (hended.symm.trans h) (by decide), .inl rfl⟩
  | eof =>
    rw [Server.step] at h
    split_ifs at h
    obtain rfl := Option.some.inj h
    exact ⟨(List.append_nil _).symm, fun _ => rfl, .inr ⟨rfl, rfl⟩⟩
  | line =>
    obtain ⟨-, l, rest, -, rfl⟩ := takeLine_eq_some h
    rcases took_cases casing s l rest with ⟨-, htook⟩ | ⟨_, -, htook⟩ <;> rw [htook] <;>
      exact ⟨(List.append_nil _).symm, fun _ => rfl, .inl rfl⟩
  -- All other events leave the reads as they are.
  | connect =>
    have hkeeps : s'.reads = s.reads ∧ s'.ended = s.ended := by
      rcases connect_eq_some h with ⟨_, _, -, rfl⟩ | ⟨_, _, _, -, rfl⟩ <;> exact call_keeps s _ _ _
    exact ⟨hkeeps.1.trans (List.append_nil _).symm, fun _ => rfl, .inl hkeeps.2⟩
  | write n =>
    obtain ⟨_, _, -, ⟨_, -, rfl⟩ | ⟨-, -, -, ⟨-, rfl⟩ | ⟨-, rfl⟩⟩⟩ := write_eq_some h <;>
      exact ⟨(List.append_nil _).symm, fun _ => rfl, .inl rfl⟩
  | forward =>
    have hkeeps : s'.reads = s.reads ∧ s'.ended = s.ended := by
      rcases forward_eq_some h with ⟨_, _, _, _, -, rfl⟩ | ⟨_, _, -, rfl⟩ |
        ⟨_, _, -, ⟨-, rfl⟩ | ⟨-, -, rfl⟩⟩
      · exact send_keeps s _ _
      · exact ⟨rfl, rfl⟩
      · exact send_keeps s _ _
      · exact ⟨rfl, rfl⟩
    exact ⟨hkeeps.1.trans (List.append_nil _).symm, fun _ => rfl, .inl hkeeps.2⟩
  | flush =>
    obtain ⟨_, -, ⟨_, -, rfl⟩ | ⟨-, rfl⟩⟩ := flush_eq_some h <;>
      exact ⟨(List.append_nil _).symm, fun _ => rfl, .inl rfl⟩

/-- A stream that has ended stays so. -/
theorem ended_of_step {e : Event} (h : s.step env casing e = some s') (hs : s.ended = true) :
    s'.ended = true := by
  obtain ⟨-, -, hended | ⟨-, hended⟩⟩ := reads_of_step h
  · rw [hended, hs]
  · exact hended

/-- Every event keeps what the handler comes to. -/
theorem step_resume {e : Event} (h : s.step env casing e = some s')
    (hended : s'.ended = true → rs = []) :
    s'.resume env casing rs = s.resume env casing (e.reads ++ rs) := by
  have hended' : s.ended = true → rs = [] := fun hs => hended (ended_of_step h hs)
  cases e with
  | read c => exact read_resume h rs
  | eof =>
    rw [Server.step] at h
    split_ifs at h
    obtain rfl := Option.some.inj h
    rfl
  | line => exact takeLine_resume h hended'
  | connect => exact connect_resume h rs
  | write n => exact write_resume h rs
  | forward => exact forward_resume h hended'
  | flush => exact flush_resume h rs

/-- Every event keeps it. -/
theorem Follows.step (hs : Follows env casing s) {e : Event} (h : s.step env casing e = some s') :
    Follows env casing s' := by
  intro rs hended
  obtain ⟨hreads, hnone, -⟩ := reads_of_step h
  rw [step_resume h hended, hreads, List.append_assoc]
  refine hs _ fun hs => ?_
  rw [hnone hs, hended (ended_of_step h hs), List.append_nil]

end Server

end Houdinny.Proxy
