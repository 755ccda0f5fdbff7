import Houdinny.Lib.Program
import Houdinny.Lib.Run
import Houdinny.Proxy.Resume

/-!
# Runs of a connection

However the stream of a connection is cut into reads, whenever these come, and however the
writes are split, the machine of its events does what `handle_connection` does with the
whole stream (`Refines`): where it has come to an end, it has the result and the session of
`handle_connection`, whatever follows on the stream; before, its session is a beginning of
that one, as sessions only grow (`Session.Extends`). Where it has not come to an end, it
goes on by itself or is ready for any read.

The first part is `Follows` of `Proxy.Resume`, which every event keeps. The second is that no
operation takes back what was recorded (`Records`), by the rules of `Lib.Program`. The third
looks at the places where the machine may be: it awaits a line or a body, a call, a write or
a flush (`goesOn_of_unwritten`). For this the reply must not be empty where it is written
(`Frame.Unwritten`).
-/

namespace Houdinny.Proxy

open Text Stream Program

variable {τ α β : Type}

/-! ## Sessions that grow -/

/-- Each record of `s'` goes on from that of `s`. -/
structure Session.Extends (s s' : Session τ) : Prop where
  picks : s.picks <+: s'.picks
  connects : s.connects <+: s'.connects
  toAgent : s.toAgent <+: s'.toAgent
  toTunnel : s.toTunnel <+: s'.toTunnel

instance : Std.Refl (Session.Extends (τ := τ)) where
  refl _ := ⟨List.prefix_rfl, List.prefix_rfl, List.prefix_rfl, List.prefix_rfl⟩

instance : IsTrans (Session τ) Session.Extends where
  trans _ _ _ h h' := ⟨h.picks.trans h'.picks, h.connects.trans h'.connects,
    h.toAgent.trans h'.toAgent, h.toTunnel.trans h'.toTunnel⟩

/-- The handler never takes back what it has recorded. -/
abbrev Records (x : Handler τ α) : Prop := Grows Session.Extends x

/-- Using a result records nothing. -/
theorem records_ofExcept (r : Except Error α) : Records (τ := τ) (Handler.ofExcept r) := by
  rcases r with e | a
  · exact grows_throw _
  · exact grows_pure a

/-- Nor does using one of an I/O operation. -/
theorem records_ofIo (r : Except IoError α) : Records (τ := τ) (Handler.ofIo r) := by
  rcases r with e | a
  · exact grows_throw _
  · exact grows_pure a

variable (env : Env τ)

/-- The call of the picker adds itself, -/
theorem records_pick (host : Text) (port : UInt16) : Records (env.pick host port) := by
  refine Grows.bind (grows_modify fun s => ?_) fun _ => records_ofExcept _
  exact ⟨List.prefix_append .., List.prefix_rfl, List.prefix_rfl, List.prefix_rfl⟩

/-- and so does that of `connect`. -/
theorem records_connectThrough (t : τ) (host : Text) (port : UInt16) :
    Records (env.connectThrough t host port) := by
  refine Grows.bind (grows_modify fun s => ?_) fun _ => records_ofExcept _
  exact ⟨List.prefix_rfl, List.prefix_append .., List.prefix_rfl, List.prefix_rfl⟩

/-- A write to the agent adds its block, or nothing, -/
theorem records_writeAllAgent (bs : Bytes) : Records (env.writeAllAgent bs) := by
  refine Grows.bind (records_ofIo _) fun _ => grows_modify fun s => ?_
  exact ⟨List.prefix_rfl, List.prefix_rfl, List.prefix_append .., List.prefix_rfl⟩

/-- and so does one to the tunnel. -/
theorem records_writeAllTunnel (bs : Bytes) : Records (env.writeAllTunnel bs) := by
  intro s
  rcases hwrite : env.writeTunnel s.toTunnel bs with e | u
  · rw [Env.writeAllTunnel_error hwrite]
    exact Std.Refl.refl s
  · rw [Env.writeAllTunnel_ok hwrite]
    exact ⟨List.prefix_rfl, List.prefix_rfl, List.prefix_rfl, List.prefix_append ..⟩

/-- The copying adds what is copied. -/
theorem records_copyBidirectional (agent : Reads) : Records (env.copyBidirectional agent) :=
  grows_modify fun _ => ⟨List.prefix_rfl, List.prefix_rfl, List.prefix_append ..,
    List.prefix_append ..⟩

/-- So does copying the response. -/
theorem records_respond : Records (Server.respond env) :=
  (records_ofIo _).bind fun _ => grows_modify fun _ =>
    ⟨List.prefix_rfl, List.prefix_rfl, List.prefix_append .., List.prefix_rfl⟩

/-- The two calls, and what is done with the transport. -/
theorem records_calls (host : Text) (port : UInt16) {k : τ → Handler τ α}
    (hk : ∀ t, Records (k t)) : Records (do
      let t ← env.pick host port
      env.connectThrough t host port
      k t) :=
  (records_pick env host port).bind fun t =>
    (records_connectThrough env t host port).bind fun _ => hk t

/-- The body, if there is enough of it. -/
theorem records_forwardBody (n : ℕ) (r : BufReader) : Records (forwardBody env n r) := by
  rw [forwardBody]
  by_cases hn : n > 0
  · rw [if_pos hn]
    rcases env.refuses n with _ | fault
    · exact (records_ofIo _).bind fun _ => (records_writeAllTunnel env _).bind fun _ =>
        records_respond env
    · exact grows_throw _
  · rw [if_neg hn]
    exact records_respond env

/-- The blocks of a head. -/
theorem records_blocks (blocks : List Bytes) : Records (blocks.forM env.writeAllTunnel) :=
  Grows.forM fun bs _ => records_writeAllTunnel env bs

/-- The calls, the head and the body. -/
theorem records_forward (req : HttpRequest) (headers : List Text) (n : ℕ) (r : BufReader) :
    Records (Proxy.forward env req headers n r) := by
  rw [Server.forward_eq]
  exact records_calls env _ _ fun _ => (records_blocks env _).bind fun _ =>
    records_forwardBody env n r

/-- The calls, the reply, and what is copied. -/
theorem records_tunnelTo (host : Text) (port : UInt16) (agent : Reads) :
    Records (Server.tunnelTo env host port agent) :=
  records_calls env host port fun _ => (records_writeAllAgent env _).bind fun _ =>
    records_copyBidirectional env agent

/-- Either handler, after the first line. -/
theorem records_handleRequest (casing : CaseMapping) (reader : BufReader) (firstLine : Text) :
    Records (Server.handleRequest env casing reader firstLine) := by
  rw [Server.handleRequest]
  split
  · exact grows_throw _
  · split
    · exact (records_ofExcept _).bind fun target => (records_ofIo _).bind fun reader =>
        records_tunnelTo env target.1 target.2 reader.intoInner
    · exact (records_ofExcept _).bind fun req => (records_ofIo _).bind fun read =>
        records_forward env req read.1 read.2.1 read.2.2

/-- The handler has returned, or copies what it reads. -/
def Frame.Settled : Frame τ → Prop
  | .done | .failed _ | .relaying _ => True
  | _ => False

/-- A reply that is being written has bytes left. -/
def Frame.Unwritten : Frame τ → Prop
  | .replying _ rest => rest ≠ []
  | _ => True

namespace Server

variable {env} {casing : CaseMapping} {s s' : Server τ}

/-- A handler only adds to its session. -/
theorem extends_resume (env : Env τ) (casing : CaseMapping) (s : Server τ) (rs : Reads) :
    s.session.Extends (s.resume env casing rs).2 := by
  rw [resume]
  rcases s.frame with _ | ⟨host, port⟩ | ⟨host, port⟩ | ⟨t, rest⟩ | t | ⟨req, headers, n⟩ |
    ⟨req, headers, n⟩ | ⟨t, blocks, n⟩ | ⟨t, n⟩ | t | _ | e <;> dsimp only
  · -- One case for each place of the machine, in the order of `Frame`.
    refine (?_ : Records _) s.session
    exact (records_ofIo _).bind fun read =>
      records_handleRequest env casing read.2 read.1.trimEnd
  · refine (?_ : Records _) s.session
    exact (records_ofIo _).bind fun reader => records_tunnelTo env host port reader.intoInner
  · exact records_tunnelTo env host port rs s.session
  · refine (?_ : Records _) s.session
    exact (records_writeAllAgent env _).bind fun _ => records_copyBidirectional env rs
  · exact records_copyBidirectional env rs s.session
  · refine (?_ : Records _) s.session
    exact (records_ofIo _).bind fun read =>
      records_forward env req read.1 read.2.1 read.2.2
  · exact records_forward env req headers n _ s.session
  · refine (?_ : Records _) s.session
    exact (records_blocks env blocks).bind fun _ => records_forwardBody env n _
  · refine (?_ : Records _) s.session
    exact (records_ofIo _).bind fun _ => (records_writeAllTunnel env _).bind fun _ =>
      records_respond env
  · exact records_respond env s.session
  · exact Std.Refl.refl s.session
  · exact Std.Refl.refl s.session

/-! ## Refinement -/

/-- Not an event of the stream. -/
def Event.Inner : Event → Prop
  | .read _ | .eof => False
  | _ => True

/-- The machine goes on by itself. -/
def GoesOnBy (env : Env τ) (casing : CaseMapping) (s : Server τ) (e : Event) : Prop :=
  e.Inner ∧ (s.step env casing e).isSome

/-- The machine of a connection does what `handle_connection` does with the reads up to now,
    and those that follow: none, if the stream has ended. -/
structure Refines (env : Env τ) (casing : CaseMapping) (s : Server τ) : Prop where
  /-- The result is there, and does not depend on what follows. -/
  done : s.frame = .done → ∀ rs, (s.ended = true → rs = []) →
    env.handleConnection casing (s.reads ++ rs) .new = (.ok (), s.session)
  failed : ∀ e, s.frame = .failed e → ∀ rs, (s.ended = true → rs = []) →
    env.handleConnection casing (s.reads ++ rs) .new = (.error e, s.session)
  /-- What is still read goes to the tunnel, read by read. -/
  relaying : ∀ t, s.frame = .relaying t → ∀ rs, (s.ended = true → rs = []) →
    env.handleConnection casing (s.reads ++ rs) .new = (.ok (), { s.session with
      toAgent := s.session.toAgent ++ [env.response]
      toTunnel := s.session.toTunnel ++ rs.map Subtype.val })
  /-- What was done is what is done first, whatever follows. -/
  begun : ∀ rs, (s.ended = true → rs = []) →
    s.session.Extends (env.handleConnection casing (s.reads ++ rs) .new).2
  /-- The machine goes on without a read, or takes any. -/
  goesOn : s.frame.Settled ∨ (∃ e, GoesOnBy env casing s e) ∨
    (s.ended = false ∧ ∀ c, (s.step env casing (.read c)).isSome)

/-! ### Going on -/

/-- After the first line, no reply is being written. -/
theorem unwritten_dispatch (line : Text) : (dispatch (τ := τ) casing line).Unwritten := by
  rw [dispatch]
  split_ifs
  · trivial
  · rcases parseConnect line <;> trivial
  · rcases parseHttpRequest line <;> trivial

/-- Nor after any other line. -/
theorem unwritten_next {frame : Frame τ} (h : frame.AwaitsLine) (line : Text) :
    (next casing line frame).Unwritten := by
  rcases frame <;> simp only [Frame.AwaitsLine] at h
  · exact unwritten_dispatch line.trimEnd
  · rw [next]
    split_ifs <;> trivial
  · rw [next]
    split_ifs <;> trivial

/-- Where the events lead. -/
inductive Leads (env : Env τ) (casing : CaseMapping) : Frame τ → Frame τ → Prop
  | stays (frame : Frame τ) : Leads env casing frame frame
  | fails (frame : Frame τ) (e : Error) : Leads env casing frame (.failed (.err e))
  | line {frame : Frame τ} (line : Text) : frame.AwaitsLine →
      Leads env casing frame (next casing line frame)
  | connected {host : Text} {port : UInt16} (t : τ) :
      Leads env casing (.connecting host port) (.replying t Env.connectResponse)
  | httpConnected {req : HttpRequest} {headers : List Text} {n : ℕ} (t : τ) :
      Leads env casing (.httpConnecting req headers n) (.forwarding t (headBlocks req headers) n)
  | replying {t : τ} {rest rest' : Bytes} : rest' ≠ [] →
      Leads env casing (.replying t rest) (.replying t rest')
  | replied {t : τ} {rest : Bytes} : Leads env casing (.replying t rest) (.relaying t)
  | forwarding {t : τ} {bs : Bytes} {blocks : List Bytes} {n : ℕ} :
      Leads env casing (.forwarding t (bs :: blocks) n) (.forwarding t blocks n)
  | forwarded {t : τ} {n : ℕ} : Leads env casing (.forwarding t [] n) (afterHead env t n)
  | sent {t : τ} {n : ℕ} : Leads env casing (.body t n) (.flushing t)
  | flushed {t : τ} : Leads env casing (.flushing t) .done

/-- The calls lead on, or the handler fails. -/
theorem leads_call {host : Text} {port : UInt16} {next : τ → Frame τ}
    (h : ∀ t, Leads env casing s.frame (next t)) :
    Leads env casing s.frame (s.call env host port next).frame := by
  rcases s.call_cases env host port next with
    ⟨e, -, hcall⟩ | ⟨t, -, ⟨e, -, hcall⟩ | ⟨-, hcall⟩⟩ <;> rw [hcall]
  · exact .fails _ _
  · exact .fails _ _
  · exact h t

/-- So does a write to the tunnel. -/
theorem leads_send {bs : Bytes} {next : Frame τ} (h : Leads env casing s.frame next) :
    Leads env casing s.frame (s.send env bs next).frame := by
  rcases s.send_cases env bs next with ⟨e, -, hsend⟩ | ⟨-, hsend⟩ <;> rw [hsend]
  · exact .fails _ _
  · exact h

/-- Each event leads where the source goes on. -/
theorem leads_of_step (casing : CaseMapping) {e : Event} (h : s.step env casing e = some s') :
    Leads env casing s.frame s'.frame := by
  cases e with
  | read c =>
    obtain ⟨-, ⟨-, rfl⟩ | ⟨_, -, rfl⟩⟩ := read_eq_some h <;> exact .stays _
  | eof =>
    rw [Server.step] at h
    split_ifs at h
    obtain rfl := Option.some.inj h
    exact .stays _
  | line =>
    obtain ⟨hframe, l, rest, -, rfl⟩ := takeLine_eq_some h
    rcases took_cases casing s l rest with ⟨-, htook⟩ | ⟨line, -, htook⟩ <;> rw [htook]
    · exact .fails _ _
    · exact .line line hframe
  | connect =>
    rcases connect_eq_some h with ⟨_, _, hframe, rfl⟩ | ⟨_, _, _, hframe, rfl⟩
    · exact leads_call fun t => hframe ▸ .connected t
    · exact leads_call fun t => hframe ▸ .httpConnected t
  | write n =>
    obtain ⟨_, _, hframe, ⟨_, -, rfl⟩ | ⟨-, -, -, ⟨-, rfl⟩ | ⟨hrest, rfl⟩⟩⟩ := write_eq_some h
    · exact .fails _ _
    · exact hframe ▸ .replied
    · exact hframe ▸ .replying hrest
  | forward =>
    rcases forward_eq_some h with ⟨_, _, _, _, hframe, rfl⟩ | ⟨_, _, hframe, rfl⟩ |
      ⟨_, _, hframe, ⟨-, rfl⟩ | ⟨-, -, rfl⟩⟩
    · exact leads_send (hframe ▸ .forwarding)
    · exact hframe ▸ .forwarded
    · exact leads_send (hframe ▸ .sent)
    · exact .fails _ _
  | flush =>
    obtain ⟨_, hframe, ⟨_, -, rfl⟩ | ⟨-, rfl⟩⟩ := flush_eq_some h
    · exact .fails _ _
    · exact hframe ▸ .flushed

/-- There is a reply to be written. -/
theorem connectResponse_ne_nil : Env.connectResponse ≠ [] := by decide

/-- A reply that is being written has bytes left. -/
theorem unwritten_of_leads {frame frame' : Frame τ} (h : Leads env casing frame frame')
    (hframe : frame.Unwritten) : frame'.Unwritten := by
  cases h with
  | stays => exact hframe
  | line line hline => exact unwritten_next hline line
  | connected t => exact connectResponse_ne_nil
  | replying hrest => exact hrest
  | @forwarded t n =>
    rw [afterHead]
    split
    · split <;> trivial
    · trivial
  | _ => trivial

/-- A line that is in the buffer is taken, and for one that is not the stream is read. -/
theorem goesOn_line (h : s.frame.AwaitsLine) : GoesOnBy env casing s .line ∨
    (s.ended = false ∧ ∀ c, (s.step env casing (.read c)).isSome) := by
  by_cases hline : 10 ∈ s.buffer ∨ s.ended = true
  · exact .inl ⟨trivial, isSome_takeLine h hline⟩
  · obtain ⟨hbuffer, hended⟩ := not_or.1 hline
    have hended := Bool.eq_false_iff.2 hended
    exact .inr ⟨hended, isSome_read h hbuffer hended⟩

/-- Without the reads that it awaits, the machine goes on. -/
theorem goesOn_of_unwritten (env : Env τ) (casing : CaseMapping) (h : s.frame.Unwritten) :
    s.frame.Settled ∨ (∃ e, GoesOnBy env casing s e) ∨
      (s.ended = false ∧ ∀ c, (s.step env casing (.read c)).isSome) := by
  rcases hframe : s.frame with _ | ⟨host, port⟩ | ⟨host, port⟩ | ⟨t, rest⟩ | t |
    ⟨req, headers, n⟩ | ⟨req, headers, n⟩ | ⟨t, blocks, n⟩ | ⟨t, n⟩ | t | _ | e
  · exact .inr ((goesOn_line (by rw [hframe]; trivial)).imp_left fun h => ⟨_, h⟩)
  · exact .inr ((goesOn_line (by rw [hframe]; trivial)).imp_left fun h => ⟨_, h⟩)
  · exact .inr (.inl ⟨.connect, trivial, isSome_connect hframe⟩)
  · rw [hframe] at h
    rcases hwrite : env.writeAgent Env.connectResponse with e | u
    · refine .inr (.inl ⟨.write 0, trivial, ?_⟩)
      rw [step, write, hframe, hwrite]
      rfl
    · have hsome := isSome_write hframe hwrite (List.length_pos_iff.2 h) le_rfl
      exact .inr (.inl ⟨.write rest.length, trivial, hsome⟩)
  · exact .inl trivial
  · exact .inr ((goesOn_line (by rw [hframe]; trivial)).imp_left fun h => ⟨_, h⟩)
  · refine .inr (.inl ⟨.connect, trivial, ?_⟩)
    rw [step, connect, hframe]
    rfl
  · refine .inr (.inl ⟨.forward, trivial, ?_⟩)
    rw [step, forward, hframe]
    rcases blocks <;> rfl
  · -- A body that is not there yet is waited for, unless the stream has ended.
    by_cases hlen : s.buffer.length < n
    · rcases hended : s.ended with _ | _
      · refine .inr (.inr ⟨rfl, fun c => ?_⟩)
        simp only [step, read, hframe, hended, if_pos hlen]
        rfl
      · refine .inr (.inl ⟨.forward, trivial, ?_⟩)
        simp only [step, forward, hframe, hended, if_neg (Nat.not_le.2 hlen)]
        rfl
    · refine .inr (.inl ⟨.forward, trivial, ?_⟩)
      simp only [step, forward, hframe, if_pos (Nat.not_lt.1 hlen)]
      rfl
  · refine .inr (.inl ⟨.flush, trivial, ?_⟩)
    rw [step, flush, hframe]
    rcases env.flushTunnel <;> rfl
  · exact .inl trivial
  · exact .inl trivial

/-! ### Runs -/

/-- All of this, from the two invariants. -/
theorem refines_of_follows (h : Follows env casing s) (hframe : s.frame.Unwritten) :
    Refines env casing s := by
  refine ⟨fun hdone rs hrs => ?_, fun e hfailed rs hrs => ?_, fun t ht rs hrs => ?_,
    fun rs hrs => ?_, goesOn_of_unwritten env casing hframe⟩
  · rw [h rs hrs, resume, hdone]
  · rw [h rs hrs, resume, hfailed]
  · rw [h rs hrs, resume, ht]
    rfl
  · rw [h rs hrs]
    exact extends_resume env casing s rs

/-- In every run of every connection, whatever comes of the calls and of the writes, the machine
    does what `handle_connection` does. So what is proved of the function holds of a connection
    that reads, writes and waits in steps. -/
theorem run_refines (env : Env τ) (casing : CaseMapping) (es : List Event) :
    Run.Always (Server.step env casing) (Refines env casing) new es := by
  have hkeep : ∀ s e (s' : Server τ), Follows env casing s ∧ s.frame.Unwritten →
      s.step env casing e = some s' → Follows env casing s' ∧ s'.frame.Unwritten :=
    fun s e s' hs h => ⟨hs.1.step h, unwritten_of_leads (leads_of_step casing h) hs.2⟩
  exact (Run.always_of_inv hkeep ⟨follows_new, trivial⟩).mono
    fun s hs => refines_of_follows hs.1 hs.2

end Server

end Houdinny.Proxy
