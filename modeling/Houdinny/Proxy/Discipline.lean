import Houdinny.Lib.Program
import Houdinny.Proxy.Injection
import Houdinny.Proxy.Resume

/-!
# The discipline of handlers

Whatever a connection sends, and whatever comes of the picker, of `connect` and of the
writes, `handle_connection` ends in one of a few ways (`Ends`): it calls the picker at most
once, for the host and the port of the request line, and `connect` at most once, of the
transport that was picked. Nothing is written to the tunnel or to the agent unless `connect`
has succeeded, and an error leaves the agent without an answer (`handleConnection_ends`).

A handler is a program of `Lib.Program`, and the proofs are those of triples: there is one
lemma for each operation, which says how it ends the handler or what is known of the session
after it, and the handlers are put together from them in the order of the source.
-/

namespace Houdinny.Proxy

open Text Stream Program

variable {τ : Type}

/-- The first line of the stream asks for this host and port. -/
def Asks (reads : Reads) (host : Text) (port : UInt16) : Prop :=
  ∃ line reader, readRequestLine reads = .ok (line, reader) ∧ Finds line host port

/-- The picker was called for what the stream asks for, and `connect` of what it has
    returned. -/
structure Connected (env : Env τ) (reads : Reads) (t : τ) (host : Text) (port : UInt16) :
    Prop where
  asks : Asks reads host port
  picked : env.picker host port = .ok t
  connected : env.connect t host port = .ok ()

/-- The ways for a connection to end. -/
inductive Ends (env : Env τ) (reads : Reads) : Except Fault Unit → Session τ → Prop
  /-- Before the picker is called. -/
  | early (e : Fault) : Ends env reads (.error e) .new
  | unpicked {e : Error} {host : Text} {port : UInt16} : Asks reads host port →
      env.picker host port = .error e →
      Ends env reads (.error (.err e)) ⟨[(host, port)], [], [], []⟩
  | unconnected {e : Error} {t : τ} {host : Text} {port : UInt16} : Asks reads host port →
      env.picker host port = .ok t → env.connect t host port = .error e →
      Ends env reads (.error (.err e)) ⟨[(host, port)], [(t, host, port)], [], []⟩
  /-- A write failed, or the body did not come. -/
  | broken {t : τ} {host : Text} {port : UInt16} (e : Fault) (sent : List Bytes) :
      Connected env reads t host port →
      Ends env reads (.error e) ⟨[(host, port)], [(t, host, port)], [], sent⟩
  /-- The agent has got the reply to its CONNECT, and what came out of the tunnel. -/
  | tunnelled {t : τ} {host : Text} {port : UInt16} (sent : List Bytes) :
      Connected env reads t host port → env.writeAgent Env.connectResponse = .ok () →
      Ends env reads (.ok ())
        ⟨[(host, port)], [(t, host, port)], [Env.connectResponse, env.response], sent⟩
  /-- It has got the response to its request. -/
  | responded {t : τ} {host : Text} {port : UInt16} (sent : List Bytes) :
      Connected env reads t host port → env.flushTunnel = .ok () →
      Ends env reads (.ok ()) ⟨[(host, port)], [(t, host, port)], [env.response], sent⟩

/-! ## The operations -/

variable {env : Env τ} {reads : Reads} {host : Text} {port : UInt16} {α : Type} {t : τ}

/-- A session in which `t` was connected through, and these blocks were written to the
    tunnel. -/
def connectedSession (t : τ) (host : Text) (port : UInt16) (sent : List Bytes) : Session τ :=
  ⟨[(host, port)], [(t, host, port)], [], sent⟩

/-- An error before the calls ends the handler, with nothing done. -/
theorem ensures_ofExcept (r : Except Error α) : Ensures (· = .new) (Handler.ofExcept r)
    (GoesOn (fun a s => r = .ok a ∧ s = .new) (Ends env reads)) := by
  rintro s rfl
  rcases r with e | a
  · exact Ends.early _
  · exact ⟨rfl, rfl⟩

/-- So does one of reading. -/
theorem ensures_ofIo (r : Except IoError α) : Ensures (· = .new) (Handler.ofIo r)
    (GoesOn (fun a s => r = .ok a ∧ s = .new) (Ends env reads)) := by
  rintro s rfl
  rcases r with e | a
  · exact Ends.early _
  · exact ⟨rfl, rfl⟩

/-- The two calls, one after the other. -/
theorem ensures_calls (h : Asks reads host port) {k : τ → Handler τ Unit}
    (hk : ∀ t, Connected env reads t host port →
      Ensures (· = connectedSession t host port []) (k t) (Ends env reads)) :
    Ensures (· = .new) (do
      let t ← env.pick host port
      env.connectThrough t host port
      k t) (Ends env reads) := by
  refine Ensures.bind (R := fun t s => env.picker host port = .ok t ∧
    s = ⟨[(host, port)], [], [], []⟩) ?_ fun t => ensures_and fun hpick => ?_
  · rintro s rfl
    rcases hpick : env.picker host port with e | t
    · rw [Env.pick_error hpick]
      exact Ends.unpicked h hpick
    · rw [Env.pick_ok hpick]
      exact ⟨rfl, rfl⟩
  · refine Ensures.bind (R := fun _ s => Connected env reads t host port ∧
      s = connectedSession t host port []) ?_ fun _ => ensures_and (hk t)
    rintro s rfl
    rcases hconnect : env.connect t host port with e | u
    · rw [Env.connectThrough_error hconnect]
      exact Ends.unconnected h hpick hconnect
    · rw [Env.connectThrough_ok hconnect]
      exact ⟨⟨h, hpick, hconnect⟩, rfl⟩

/-- After the calls, a write to the tunnel goes on or breaks the connection. -/
theorem ensures_writeAllTunnel (h : Connected env reads t host port) (bs : Bytes) :
    Ensures (fun s => ∃ sent, s = connectedSession t host port sent) (env.writeAllTunnel bs)
      (GoesOn (fun _ s => ∃ sent, s = connectedSession t host port sent) (Ends env reads)) := by
  rintro s ⟨sent, rfl⟩
  rcases hwrite : env.writeTunnel sent bs with e | u
  · rw [Env.writeAllTunnel_error hwrite]
    exact Ends.broken _ sent h
  · rw [Env.writeAllTunnel_ok hwrite]
    exact ⟨sent ++ [bs], rfl⟩

/-- After all writes, the response is copied. -/
theorem ensures_respond (h : Connected env reads t host port) :
    Ensures (fun s => ∃ sent, s = connectedSession t host port sent) (Server.respond env)
      (Ends env reads) := by
  rintro s ⟨sent, rfl⟩
  rw [Server.respond]
  rcases hflush : env.flushTunnel with e | u
  · rw [Handler.bind_error (Handler.ofIo_error _ _)]
    exact Ends.broken _ sent h
  · rw [Handler.bind_ok (Handler.ofIo_ok _ _)]
    exact Ends.responded sent h hflush

/-- What a plain request does after its head. -/
theorem ensures_forwardBody (h : Connected env reads t host port) (n : ℕ) (r : BufReader) :
    Ensures (fun s => ∃ sent, s = connectedSession t host port sent) (forwardBody env n r)
      (Ends env reads) := by
  rw [forwardBody]
  by_cases hn : n > 0
  · rw [if_pos hn]
    rcases env.refuses n with _ | fault
    · refine Ensures.bind (R := fun _ s => ∃ sent, s = connectedSession t host port sent) ?_
        fun body => (ensures_writeAllTunnel h body).bind fun _ => ensures_respond h
      rintro s ⟨sent, rfl⟩
      rcases readExact n r with e | body
      · exact Ends.broken _ sent h
      · exact ⟨sent, rfl⟩
    · rintro s ⟨sent, rfl⟩
      exact Ends.broken _ sent h
  · rw [if_neg hn]
    exact ensures_respond h

/-! ## The handlers -/

variable {r : BufReader} {line : Text}

/-- The handler of a CONNECT. -/
theorem ensures_handleConnect (hline : ∃ r, readRequestLine reads = .ok (line, r)) :
    Ensures (· = .new) (env.handleConnect r line) (Ends env reads) := by
  refine Ensures.bind (ensures_ofExcept _) fun (host, port) => ensures_and fun hparse => ?_
  refine Ensures.bind (ensures_ofIo _) fun reader => ensures_and fun _ => ?_
  have hasks : Asks reads host port := by
    obtain ⟨r, hr⟩ := hline
    exact ⟨line, r, hr, .inl hparse⟩
  refine ensures_calls hasks fun t ht => ?_
  rintro s rfl
  rcases hwrite : env.writeAgent Env.connectResponse with e | u
  · rw [Handler.bind_error (Env.writeAllAgent_error hwrite)]
    exact Ends.broken _ [] ht
  · rw [Handler.bind_ok (Env.writeAllAgent_ok hwrite)]
    exact Ends.tunnelled _ ht hwrite

/-- The handler of a plain request. -/
theorem ensures_handlePlainHttp (hline : ∃ r, readRequestLine reads = .ok (line, r)) :
    Ensures (· = .new) (env.handlePlainHttp r line) (Ends env reads) := by
  refine Ensures.bind (ensures_ofExcept _) fun req => ensures_and fun hparse => ?_
  refine Ensures.bind (ensures_ofIo _) fun (headers, n, reader) => ensures_and fun _ => ?_
  have hasks : Asks reads req.host req.port := by
    obtain ⟨r, hr⟩ := hline
    exact ⟨line, r, hr, .inr ⟨req, hparse, rfl, rfl⟩⟩
  refine ensures_calls hasks fun t ht => ?_
  refine Ensures.pre ?_ fun s hs => (⟨[], hs⟩ : ∃ sent, s = connectedSession t _ _ sent)
  refine (ensures_writeAllTunnel ht _).bind fun _ => ?_
  refine (ensures_forM fun header _ => ensures_writeAllTunnel ht (encodeUtf8 header)).bind
    fun _ => ?_
  exact (ensures_writeAllTunnel ht _).bind fun _ => ensures_forwardBody ht n reader

/-- Either of them, after the first line. -/
theorem ensures_handleConnection (env : Env τ) (casing : CaseMapping) (reads : Reads) :
    Ensures (· = .new) (env.handleConnection casing reads) (Ends env reads) := by
  refine Ensures.bind (ensures_ofIo _) fun (line, reader) => ensures_and fun hline => ?_
  dsimp only
  by_cases hempty : line.isEmpty
  · rw [if_pos hempty]
    exact ensures_throw fun s hs => hs ▸ Ends.early _
  · rw [if_neg hempty]
    split
    · exact ensures_handleConnect ⟨reader, hline⟩
    · exact ensures_handlePlainHttp ⟨reader, hline⟩

/-- Every connection ends in one of these ways, whatever is sent on it, and whatever comes of
    the picker, of `connect` and of the writes. -/
theorem handleConnection_ends (env : Env τ) (casing : CaseMapping) (reads : Reads) :
    Ends env reads (env.handleConnection casing reads .new).1
      (env.handleConnection casing reads .new).2 :=
  ensures_handleConnection env casing reads .new rfl

/-! ## What follows -/

/-- Connections are made through what the picker has returned. -/
theorem Ends.picked {result : Except Fault Unit} {s : Session τ} (h : Ends env reads result s)
    {q : τ × Text × UInt16} (hq : q ∈ s.connects) : env.picker q.2.1 q.2.2 = .ok q.1 := by
  cases h with
  | early e => exact absurd hq List.not_mem_nil
  | unpicked _ _ => exact absurd hq List.not_mem_nil
  | unconnected _ hpick _ => exact List.mem_singleton.1 hq ▸ hpick
  | broken _ _ hc => exact List.mem_singleton.1 hq ▸ hc.picked
  | tunnelled _ hc _ => exact List.mem_singleton.1 hq ▸ hc.picked
  | responded _ hc _ => exact List.mem_singleton.1 hq ▸ hc.picked

end Houdinny.Proxy
