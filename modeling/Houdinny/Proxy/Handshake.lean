import Houdinny.Lib.Run
import Houdinny.Proxy.Chain

/-!
# The handshake of chained proxies

`connect` reads the reply byte by byte, and the handler discards what its reader has read
ahead; so it matters that nothing is sent before the reply is read as a whole. Every step
keeps `Inv`, which says what is on the way wherever the two ends are: from it, no byte is
lost or added in either direction, and the two ends agree. The handshake ends, as every
step of it lowers `rank`, and some step of it can be taken as long as it has not ended
(`chained_of_run`).

`Inv` is a conjunction of two views of one state, for each of which there is a case for each
place in the program of that end:

* `Stage` says where the server is, and what that says of the bytes on their way up: in its
  buffer and in the stream are the lines of the request that it has still to read, and once
  it relays, what was sent through the tunnel;
* `Side` says where the transport is, and what that says of the bytes on their way down: it
  has read a part of the reply, and the rest is on the way or not written yet.

A step of one end changes its own view and leaves the other as it is (`Stage.take`,
`Side.serve`), so there is one lemma for each kind of event (`Inv.write` to `Inv.serve`), and
`Inv.step` goes through them.

For termination, `rank` counts what is still to be done: the bytes of the request to be
written and read, the lines to be taken, the calls, and the bytes of the reply, each weighed
so that doing it lowers the sum. For the absence of deadlocks, `Inv.canGoOn` looks at the two
views again: where either end waits, what it waits for is on the way.
-/

namespace Houdinny.Proxy.Chain

open Text Stream HttpProxyTransport Run

variable {τ : Type}

/-! ## The invariant -/

/-- What is on the way to a server that awaits a line, in its buffer or still to be written. -/
def World.upward (w : World τ) : Bytes := w.server.buffer ++ w.up ++ w.client.pending

namespace Setting

variable (c : Setting τ)

/-- The picker and `connect` have succeeded. -/
def Reached (t : τ) : Prop :=
  c.env.picker c.addr c.port = .ok t ∧ c.env.connect t c.addr c.port = .ok ()

/-- They have not. -/
def Refused : Prop := ∀ t, ¬c.Reached t

/-- What the server has called in a session: nothing; or the picker, which has failed; or the
    picker and then `connect` of what it has picked. They were called for what the transport is
    to be connected to. -/
inductive Called (s : Session τ) : Prop
  | nothing : s.picks = [] → s.connects = [] → Called s
  | picker {e : Error} : c.env.picker c.addr c.port = .error e → s.picks = [(c.addr, c.port)] →
      s.connects = [] → Called s
  | connect {t : τ} : c.env.picker c.addr c.port = .ok t → s.picks = [(c.addr, c.port)] →
      s.connects = [(t, c.addr, c.port)] → Called s

/-- Where the server is, with what that says of the rest: nothing is read ahead, as nothing
    is sent before the reply was written. -/
inductive Stage (w : World τ) : Frame τ → Prop
  | requestLine : w.upward = headBytes (c.requestLine :: c.headerLines) →
      w.server.session = .new → w.written = [] → Stage w .requestLine
  | headers {ls : List Text} : ls <:+ c.headerLines → w.upward = headBytes ls →
      w.server.session = .new → w.written = [] → Stage w (.headers c.addr c.port)
  | connecting : w.up = [] → w.client.pending = [] → w.server.session = .new → w.written = [] →
      Stage w (.connecting c.addr c.port)
  | replying {t : τ} {rest : Bytes} : c.Reached t → w.up = [] → w.client.pending = [] →
      w.server.session = ⟨[(c.addr, c.port)], [(t, c.addr, c.port)], [], []⟩ → rest ≠ [] →
      w.written ++ rest = Env.connectResponse → Stage w (.replying t rest)
  | relaying {t : τ} : c.Reached t → w.client.pending = [] →
      w.server.session.picks = [(c.addr, c.port)] →
      w.server.session.connects = [(t, c.addr, c.port)] →
      w.sent = w.server.session.delivered ++ w.up →
      w.written = Env.connectResponse ++ w.served → Stage w (.relaying t)
  | failed {e : Fault} : c.Refused → w.up = [] → w.client.pending = [] → w.written = [] →
      w.server.session.delivered = [] → c.Called w.server.session → Stage w (.failed e)

/-- Where the transport is, with what it has taken of what was written to it. -/
inductive Side (w : World τ) : Client → Prop
  | writing {rest : Bytes} : rest ≠ [] → w.written = [] → w.sent = [] → w.received = [] →
      w.down = [] → Side w (.writing rest)
  | reading {buf : Bytes} : buf <+: Env.connectResponse → buf ≠ Env.connectResponse →
      w.written = buf ++ w.down → w.sent = [] → w.received = [] → Side w (.reading buf)
  | tunnel : w.written = Env.connectResponse ++ (w.received ++ w.down) → Side w .tunnel
  | failed {e : Error} {e' : Fault} : w.server.frame = .failed e' → w.sent = [] →
      w.received = [] → Side w (.failed e)

/-- What every step keeps. -/
structure Inv (w : World τ) : Prop where
  stage : c.Stage w w.server.frame
  side : Side w w.client
  served : (∀ t, w.server.frame ≠ .relaying t) → w.served = []
  follows : Server.Follows c.env c.casing w.server ∧ w.server.ended = false

variable {c}

/-- At the start, nothing is written, and the server awaits its first line. -/
theorem inv_start : c.Inv c.start where
  stage := .requestLine (by rw [← request_eq]; rfl) rfl rfl
  side := by
    refine .writing ?_ rfl rfl rfl rfl
    rw [request_eq, headBytes_cons]
    exact List.append_ne_nil_of_left_ne_nil (encodeUtf8_ne_nil (by simp)) _
  served _ := rfl
  follows := ⟨Server.follows_new, rfl⟩

variable {w w' : World τ} {n : ℕ} {bs : Bytes}

/-! ### The transport -/

/-- A write takes bytes off what is pending. -/
theorem write_eq_some (h : c.write w n = some w') : ∃ rest client, w.client = .writing rest ∧
    0 < n ∧ n ≤ rest.length ∧
    (rest.drop n = [] ∧ client = .reading [] ∨
      rest.drop n ≠ [] ∧ client = .writing (rest.drop n)) ∧
    w' = { w with client := client, up := w.up ++ rest.take n } := by
  rw [write] at h
  split at h
  · next rest hclient =>
    by_cases hn : 0 < n ∧ n ≤ rest.length ∧ w.up.length + n ≤ c.capacity.up
    · rw [if_pos hn] at h
      refine ⟨rest, _, hclient, hn.1, hn.2.1, ?_, (Option.some.inj h).symm⟩
      by_cases hlast : rest.drop n = []
      · exact .inl ⟨hlast, if_pos hlast⟩
      · exact .inr ⟨hlast, if_neg hlast⟩
    · rw [if_neg hn] at h
      exact absurd h (by simp)
  · exact absurd h (by simp)

/-- What is written goes on to be on the way. -/
theorem Inv.write (hw : c.Inv w) (h : c.write w n = some w') : c.Inv w' := by
  obtain ⟨rest, client, hclient, hpos, hle, hnext, rfl⟩ := write_eq_some h
  have hside := hw.side
  rw [hclient] at hside
  obtain ⟨hrest, hwritten, hsent, hreceived, hdown⟩ := hside
  have hpending : w.client.pending = rest := by rw [hclient]; rfl
  have hpending' : client.pending = rest.drop n := by
    rcases hnext with ⟨hlast, rfl⟩ | ⟨-, rfl⟩
    · exact hlast.symm
    · rfl
  -- The bytes are on their way, wherever they are: a write only moves them from the client to
  -- the pipe.
  have hupward : World.upward { w with client := client, up := w.up ++ rest.take n } =
      w.upward := by
    simp only [World.upward, hpending, hpending', List.append_assoc, List.take_append_drop]
  refine ⟨?_, ?_, hw.served, hw.follows⟩
  · have hstage := hw.stage
    dsimp only
    generalize w.server.frame = frame at hstage
    cases hstage with
    | requestLine hbytes hsession hnone =>
      exact .requestLine (hupward.trans hbytes) hsession hnone
    | headers hls hbytes hsession hnone =>
      exact .headers hls (hupward.trans hbytes) hsession hnone
    | connecting _ hp | replying _ _ hp | relaying _ hp | failed _ _ hp =>
      exact absurd (hpending.symm.trans hp) hrest
  · rcases hnext with ⟨-, rfl⟩ | ⟨hmore, rfl⟩
    · exact .reading List.nil_prefix (by decide) (by rw [hwritten, hdown]; rfl) hsent hreceived
    · exact .writing hmore hwritten hsent hreceived hdown

/-- What is taken by the transport does not matter to the server. -/
theorem Stage.take {frame : Frame τ} (h : c.Stage w frame) (client : Client)
    (hpending : client.pending = w.client.pending) (down received : Bytes) :
    c.Stage { w with client := client, down := down, received := received } frame := by
  have hupward : World.upward { w with client := client, down := down, received := received } =
      w.upward := congrArg (w.server.buffer ++ w.up ++ ·) hpending
  cases h with
  | requestLine hbytes hsession hnone => exact .requestLine (hupward.trans hbytes) hsession hnone
  | headers hls hbytes hsession hnone => exact .headers hls (hupward.trans hbytes) hsession hnone
  | connecting hup hp hsession hnone => exact .connecting hup (hpending.trans hp) hsession hnone
  | replying ht hup hp hsession hrest hreply =>
    exact .replying ht hup (hpending.trans hp) hsession hrest hreply
  | relaying ht hp hpicks hconnects hsent hwritten =>
    exact .relaying ht (hpending.trans hp) hpicks hconnects hsent hwritten
  | failed hrefused hup hp hnone hdelivered hcalled =>
    exact .failed hrefused hup (hpending.trans hp) hnone hdelivered hcalled

/-- What was written starts as the reply does. -/
theorem Stage.written {frame : Frame τ} (h : c.Stage w frame) :
    ∃ d, w.written <+: Env.connectResponse ++ d := by
  cases h with
  | replying _ _ _ _ _ hreply =>
    exact ⟨[], by rw [← hreply, List.append_nil]; exact List.prefix_append _ _⟩
  | relaying _ _ _ _ _ hwritten => exact ⟨w.served, by rw [hwritten]⟩
  | requestLine _ _ hnone | headers _ _ _ hnone | connecting _ _ _ hnone | failed _ _ _ hnone =>
    exact ⟨[], hnone ▸ List.nil_prefix⟩

/-- A byte is taken off the stream, and the loop makes a pass. -/
theorem readU8_eq_some (h : c.readU8 w = some w') : ∃ buf byte down, w.client = .reading buf ∧
    w.down = byte :: down ∧
    w' = { w with client := .pass c.transport buf byte, down := down } := by
  rw [readU8] at h
  split at h
  · next buf byte down hclient hdown =>
    exact ⟨buf, byte, down, hclient, hdown, (Option.some.inj h).symm⟩
  · exact absurd h (by simp)

/-- What is pushed is still within the reply. -/
theorem Inv.pushed (hw : c.Inv w) {buf down : Bytes} {byte : UInt8}
    (hclient : w.client = .reading buf) (hdown : w.down = byte :: down) :
    buf ++ [byte] <+: Env.connectResponse := by
  have hside := hw.side
  rw [hclient] at hside
  cases hside with
  | reading hbuf hne hwritten =>
    obtain ⟨d, hd⟩ := hw.stage.written
    rw [hwritten, hdown, List.append_cons] at hd
    refine List.prefix_of_prefix_length_le ((List.prefix_append _ _).trans hd)
      (List.prefix_append _ d) ?_
    rw [List.length_append, List.length_singleton]
    exact hbuf.length_le.lt_of_ne (mt hbuf.eq_of_length hne)

/-- The loop stays within the reply. -/
theorem Inv.readU8 (hw : c.Inv w) (h : c.readU8 w = some w') : c.Inv w' := by
  obtain ⟨buf, byte, down, hclient, hdown, rfl⟩ := readU8_eq_some h
  have hpushed := hw.pushed hclient hdown
  have hside := hw.side
  rw [hclient] at hside
  cases hside with
  | reading hbuf hne hwritten hsent hreceived =>
    rw [hdown, List.append_cons] at hwritten
    have hpending : w.client.pending = [] := by rw [hclient]; rfl
    rw [pass_eq c.transport hpushed]
    split_ifs with hend
    · refine ⟨hw.stage.take .tunnel hpending.symm down w.received, .tunnel ?_,
        hw.served, hw.follows⟩
      rw [hreceived, List.nil_append, ← hend]
      exact hwritten
    · exact ⟨hw.stage.take (.reading _) hpending.symm down w.received,
        .reading hpushed hend hwritten hsent hreceived, hw.served, hw.follows⟩

/-- Where the server has failed, so does `connect`. -/
theorem Inv.eof (hw : c.Inv w) (h : c.eof w = some w') : c.Inv w' := by
  rw [Setting.eof] at h
  split at h
  · next buf e hclient hdown hframe =>
    obtain rfl := Option.some.inj h
    have hside := hw.side
    rw [hclient] at hside
    cases hside with
    | reading hbuf hne hwritten hsent hreceived =>
      have hpending : w.client.pending = [] := by rw [hclient]; rfl
      exact ⟨hw.stage.take (.failed _) hpending.symm w.down w.received,
        .failed hframe hsent hreceived, hw.served, hw.follows⟩
  · exact absurd h (by simp)

/-- There is no tunnel but through a server that relays. -/
theorem Inv.relaying (hw : c.Inv w) (h : w.client = .tunnel) :
    ∃ t, w.server.frame = .relaying t := by
  have hside := hw.side
  rw [h] at hside
  obtain hwritten : w.written = Env.connectResponse ++ (w.received ++ w.down) := by
    cases hside with
    | tunnel hwritten => exact hwritten
  have hreply : Env.connectResponse ≠ [] := by decide
  have hstage := hw.stage
  generalize w.server.frame = frame at hstage
  cases hstage with
  | relaying => exact ⟨_, rfl⟩
  | replying _ _ _ _ hrest hall =>
    rw [hwritten, List.append_assoc] at hall
    exact absurd (List.append_eq_nil_iff.1 (List.append_right_eq_self.1 hall)).2 hrest
  | requestLine _ _ hnone | headers _ _ _ hnone | connecting _ _ _ hnone | failed _ _ _ hnone =>
    rw [hnone] at hwritten
    exact absurd (List.append_eq_nil_iff.1 hwritten.symm).1 hreply

/-- What is sent goes up, after all that was sent before. -/
theorem Inv.send (hw : c.Inv w) (h : c.send w bs = some w') : c.Inv w' := by
  rw [Setting.send] at h
  split at h
  · next hclient =>
    split_ifs at h
    obtain rfl := Option.some.inj h
    have hside := hw.side
    rw [hclient] at hside
    cases hside with
    | tunnel hwritten =>
      obtain ⟨t, hframe⟩ := hw.relaying hclient
      have hstage := hw.stage
      rw [hframe] at hstage
      refine ⟨?_, ?_, hw.served, hw.follows⟩
      · dsimp only
        rw [hframe]
        cases hstage with
        | relaying ht hp hpicks hconnects hsent hall =>
          exact .relaying ht hp hpicks hconnects (by rw [hsent, List.append_assoc]) hall
      · dsimp only
        rw [hclient]
        exact .tunnel hwritten
  · exact absurd h (by simp)

/-- What is received has come down. -/
theorem Inv.receive (hw : c.Inv w) (h : receive w n = some w') : c.Inv w' := by
  rw [Setting.receive] at h
  split at h
  · next hclient =>
    obtain rfl := Option.some.inj h
    have hside := hw.side
    rw [hclient] at hside
    cases hside with
    | tunnel hwritten =>
      refine ⟨?_, ?_, hw.served, hw.follows⟩
      · exact hw.stage.take _ rfl (w.down.drop n) (w.received ++ w.down.take n)
      · dsimp only
        rw [hclient]
        refine .tunnel ?_
        rw [List.append_assoc, List.take_append_drop]
        exact hwritten
  · exact absurd h (by simp)

/-! ### The server -/

/-- What the server reads and does with it does not matter to the transport, unless the server
    has failed. -/
theorem Side.serve {client : Client} (h : Side w client)
    (hframe : ∀ e, w.server.frame ≠ .failed e) (s : Server τ) (up : Bytes) :
    Side { w with server := s, up := up } client := by
  cases h with
  | writing hrest hwritten hsent hreceived hdown =>
    exact .writing hrest hwritten hsent hreceived hdown
  | reading hbuf hne hwritten hsent hreceived => exact .reading hbuf hne hwritten hsent hreceived
  | tunnel hwritten => exact .tunnel hwritten
  | failed hfailed => exact absurd hfailed (hframe _)

/-- The server goes on following, and its stream does not end. -/
theorem Inv.server (hw : c.Inv w) {s : Server τ} {e : Server.Event} (he : e ≠ .eof)
    (hs : w.server.step c.env c.casing e = some s) :
    Server.Follows c.env c.casing s ∧ s.ended = false := by
  obtain ⟨-, -, hended | ⟨heof, -⟩⟩ := Server.reads_of_step hs
  · exact ⟨hw.follows.1.step hs, hended.trans hw.follows.2⟩
  · exact absurd heof he

/-- A read of the server takes bytes off the stream. -/
theorem read_eq_some (h : read w n = some w') : ∃ chunk s, chunk.1 = w.up.take n ∧
    w.server.read chunk = some s ∧ w' = { w with server := s, up := w.up.drop n } := by
  rw [read] at h
  split_ifs at h with hn
  obtain ⟨s, hs, rfl⟩ := Option.map_eq_some_iff.1 h
  exact ⟨⟨w.up.take n, hn⟩, s, rfl, hs, rfl⟩

/-- What is read goes on to be in the buffer, or to the destination. -/
theorem Inv.read (hw : c.Inv w) (h : Setting.read w n = some w') : c.Inv w' := by
  obtain ⟨chunk, s, hchunk, hs, rfl⟩ := read_eq_some h
  have hstage := hw.stage
  have hcat : chunk.1 ++ w.up.drop n = w.up := by rw [hchunk, List.take_append_drop]
  have hfollows := hw.server (e := .read chunk) (by simp) hs
  obtain ⟨-, ⟨⟨hawaits, -⟩ | ⟨t, m, hframe, -⟩, rfl⟩ | ⟨t, hframe, rfl⟩⟩ := Server.read_eq_some hs
  · -- The bytes move from the stream to the buffer, and nothing else changes on the way up.
    have hupward : World.upward { w with
        server := { w.server with
          buffer := w.server.buffer ++ chunk.1
          reads := w.server.reads ++ [chunk] }
        up := w.up.drop n } = w.upward := by
      rw [World.upward, World.upward]
      dsimp only
      rw [List.append_assoc w.server.buffer, hcat]
    have hside := hw.side.serve (fun e he => by rw [he] at hawaits; exact hawaits)
      { w.server with
        buffer := w.server.buffer ++ chunk.1
        reads := w.server.reads ++ [chunk] } (w.up.drop n)
    refine ⟨?_, hside, hw.served, hfollows⟩
    dsimp only
    rcases hframe : w.server.frame <;> rw [hframe] at hawaits hstage <;>
      simp only [Frame.AwaitsLine] at hawaits
    · cases hstage with
      | requestLine hbytes hsession hnone =>
        exact .requestLine (hupward.trans hbytes) hsession hnone
    · cases hstage with
      | headers hls hbytes hsession hnone =>
        exact .headers hls (hupward.trans hbytes) hsession hnone
    · cases hstage
  · rw [hframe] at hstage
    cases hstage
  · rw [hframe] at hstage
    refine ⟨?_, hw.side.serve (fun e he => by rw [hframe] at he; cases he) _ _,
      hw.served, hfollows⟩
    dsimp only
    rw [hframe]
    cases hstage with
    | relaying ht hp hpicks hconnects hsent hall =>
      refine .relaying ht hp hpicks hconnects ?_ hall
      rw [hsent, Session.delivered, Session.delivered, List.flatten_append, List.flatten_singleton,
        List.append_assoc, hcat]

/-- As its stream does not end, a line that is taken has an end. -/
theorem Inv.cutAfter_of_nextLine (hw : c.Inv w) {l rest : Bytes}
    (h : w.server.nextLine = some (l, rest)) : cutAfter 10 w.server.buffer = some (l, rest) := by
  obtain hcut | ⟨-, hended, -⟩ := Server.nextLine_eq_some h
  · exact hcut
  · exact absurd (hw.follows.2.symm.trans hended) (by decide)

/-- A line that is taken is the next one of the request. -/
theorem Inv.line (hc : c.Proper) (hw : c.Inv w) {s : Server τ}
    (hs : w.server.takeLine c.casing = some s) : c.Inv { w with server := s } := by
  have hfollows := hw.server (e := .line) (by simp) hs
  obtain ⟨hawaits, k, rest, hnextLine, rfl⟩ := Server.takeLine_eq_some hs
  have hcut := hw.cutAfter_of_nextLine hnextLine
  have hside := hw.side.serve (fun e he => by rw [he] at hawaits; exact hawaits)
    (w.server.took c.casing k rest) w.up
  have hserved : w.served = [] :=
    hw.served fun t ht => by rw [ht] at hawaits; exact hawaits
  refine ⟨?_, hside, fun _ => hserved, hfollows⟩
  have hstage := hw.stage
  -- What is cut off is the line that is next, and it is a text.
  have hnext {l : Text} {bs : Bytes} (hl : Unbroken (encodeUtf8 l))
      (hbytes : w.upward = encodeUtf8 (l ++ "\r\n".toList) ++ bs) :
      w.server.took c.casing k rest = { w.server with
        frame := Server.next c.casing (l ++ "\r\n".toList) w.server.frame
        buffer := rest } ∧ rest ++ (w.up ++ w.client.pending) = bs := by
    rw [World.upward, List.append_assoc] at hbytes
    obtain ⟨rfl, hbs⟩ := cutAfter_line hl hbytes hcut
    rcases w.server.took_cases c.casing (encodeUtf8 (l ++ "\r\n".toList)) rest with
      ⟨hline, -⟩ | ⟨line, hline, htook⟩
    · rw [decodeUtf8_encodeUtf8] at hline
      exact absurd hline (by simp)
    · rw [decodeUtf8_encodeUtf8] at hline
      rw [htook, ← Option.some.inj hline]
      exact ⟨rfl, hbs⟩
  have hupward (s : Server τ) (h : s.buffer = rest) : World.upward { w with server := s } =
      rest ++ (w.up ++ w.client.pending) := by
    rw [World.upward, h, List.append_assoc]
  dsimp only
  rcases hframe : w.server.frame <;> rw [hframe] at hawaits hstage <;>
    simp only [Frame.AwaitsLine] at hawaits
  · cases hstage with
    | requestLine hbytes hsession hnone =>
      obtain ⟨htook, hbs⟩ := hnext (unbroken_requestLine hc) (hbytes.trans (headBytes_cons _ _))
      rw [htook, hframe]
      dsimp only
      rw [dispatch_requestLine hc]
      exact .headers List.suffix_rfl ((hupward _ rfl).trans hbs) hsession hnone
  · cases hstage with
    | @headers ls hls hbytes hsession hnone =>
      cases ls with
      | nil =>
        obtain ⟨htook, hbs⟩ := @hnext [] [] (by decide) (by rw [hbytes]; rfl)
        obtain ⟨-, hrest⟩ := List.append_eq_nil_iff.1 hbs
        obtain ⟨hup, hp⟩ := List.append_eq_nil_iff.1 hrest
        rw [htook, hframe]
        dsimp only
        rw [List.nil_append, (next_headers c.addr c.port).2]
        exact .connecting hup hp hsession hnone
      | cons l ls =>
        have hl := hls.subset List.mem_cons_self
        obtain ⟨htook, hbs⟩ := hnext (unbroken_headerLines hc hl)
          (hbytes.trans (headBytes_cons _ _))
        rw [htook, hframe]
        dsimp only
        rw [(next_headers c.addr c.port).1 l hl]
        exact .headers ((List.suffix_cons _ _).trans hls) ((hupward _ rfl).trans hbs) hsession hnone
  · cases hstage

/-- The calls are made for what the transport is to be connected to. -/
theorem Inv.connect (hw : c.Inv w) {s : Server τ} (hs : w.server.connect c.env = some s) :
    c.Inv { w with server := s } := by
  have hfollows := hw.server (e := .connect) (by simp) hs
  have hstage := hw.stage
  obtain ⟨host, port, hframe, rfl⟩ | ⟨req, headers, n, hframe, -⟩ := Server.connect_eq_some hs
  · have hside := hw.side.serve (fun e he => by rw [hframe] at he; cases he)
      (w.server.call c.env host port fun t => .replying t Env.connectResponse) w.up
    -- The picker and `connect` are called with the host and the port that the client asked for,
    -- once, and the server replies only if both succeed.
    have hserved : w.served = [] := hw.served fun t ht => by rw [ht] at hframe; cases hframe
    rw [hframe] at hstage
    refine ⟨?_, hside, fun _ => hserved, hfollows⟩
    cases hstage with
    | connecting hup hp hsession hnone =>
      rcases w.server.call_cases c.env c.addr c.port
          (fun t => .replying t Env.connectResponse) with
        ⟨e, hpick, hcall⟩ | ⟨t, hpick, ⟨e, hconnect, hcall⟩ | ⟨hconnect, hcall⟩⟩ <;> rw [hcall]
      · refine .failed (fun t ht => ?_) hup hp hnone (by rw [hsession]; rfl) ?_
        · exact absurd (hpick.symm.trans ht.1) (by simp)
        · exact .picker hpick (by rw [hsession]; rfl) (by rw [hsession]; rfl)
      · refine .failed (fun t' ht => ?_) hup hp hnone (by rw [hsession]; rfl)
          (.connect hpick (by rw [hsession]; rfl) (by rw [hsession]; rfl))
        obtain rfl := Except.ok.inj (hpick.symm.trans ht.1)
        exact absurd (hconnect.symm.trans ht.2) (by simp)
      · exact .replying ⟨hpick, hconnect⟩ hup hp (by rw [hsession]; rfl) (by decide)
          (by rw [hnone, List.nil_append])
  · rw [hframe] at hstage
    cases hstage

/-- A write of the server puts bytes of the reply on the way. -/
theorem reply_eq_some (h : c.reply w n = some w') : ∃ t rest s, w.server.frame = .replying t rest ∧
    w.server.write c.env n = some s ∧ w' = { w with
      server := s
      down := w.down ++ rest.take n
      written := w.written ++ rest.take n } := by
  rw [reply] at h
  split at h
  · next t rest hframe =>
    split_ifs at h
    obtain ⟨s, hs, rfl⟩ := Option.map_eq_some_iff.1 h
    exact ⟨t, rest, s, hframe, hs, rfl⟩
  · exact absurd h (by simp)

/-- A write of the reply does not fail. -/
theorem written (hc : c.Proper) {t : τ} {rest : Bytes} {s s' : Server τ}
    (hframe : s.frame = .replying t rest) (hs : s.write c.env n = some s') :
    0 < n ∧ n ≤ rest.length ∧ ((rest.drop n = [] ∧ s' = { s with
        frame := .relaying t
        buffer := []
        session := { s.session with toAgent := s.session.toAgent ++ [Env.connectResponse] } }) ∨
      (rest.drop n ≠ [] ∧ s' = { s with frame := .replying t (rest.drop n) })) := by
  obtain ⟨t', rest', hframe', ⟨e, hwrite, -⟩ | ⟨-, hpos, hle, hnext⟩⟩ := Server.write_eq_some hs
  · exact absurd (hc.writes.symm.trans hwrite) (by simp)
  · obtain ⟨rfl, rfl⟩ : t = t' ∧ rest = rest' := by simpa using hframe.symm.trans hframe'
    exact ⟨hpos, hle, hnext⟩

/-- More of the reply is on the way, as long as the loop reads it. -/
theorem Inv.reply (hc : c.Proper) (hw : c.Inv w) (h : c.reply w n = some w') : c.Inv w' := by
  obtain ⟨t, rest, s, hframe, hs, rfl⟩ := reply_eq_some h
  have hfollows := hw.server (e := .write n) (by simp) hs
  have hstage := hw.stage
  rw [hframe] at hstage
  obtain ⟨-, -, hnext⟩ := written hc hframe hs
  -- Nothing comes back from the destination before the server relays.
  have hserved : w.served = [] := hw.served fun t ht => by rw [ht] at hframe; cases hframe
  have hclient : w.client ≠ .tunnel := fun htunnel => by
    obtain ⟨t, ht⟩ := hw.relaying htunnel
    rw [ht] at hframe
    cases hframe
  have hside := hw.side
  cases hstage with
  | replying ht hup hp hsession hrest hreply =>
    have hreply' : w.written ++ rest.take n ++ rest.drop n = Env.connectResponse := by
      rw [List.append_assoc, List.take_append_drop]
      exact hreply
    -- Nothing is sent before the transport has its tunnel, which it has not while the reply is
    -- being written.
    have hsent : w.sent = [] := by
      have hside := hw.side
      generalize w.client = client at hside hclient
      cases hside with
      | writing _ _ hsent | reading _ _ _ hsent | failed _ hsent => exact hsent
      | tunnel => exact absurd rfl hclient
    refine ⟨?_, ?_, fun _ => hserved, hfollows⟩
    · rcases hnext with ⟨hlast, rfl⟩ | ⟨hmore, rfl⟩
      · rw [hlast, List.append_nil] at hreply'
        refine .relaying ht hp (by rw [hsession]) (by rw [hsession]) ?_ ?_
        · rw [hsent, hup, Session.delivered, hsession]
          rfl
        · rw [hserved, List.append_nil]
          exact hreply'
      · exact .replying ht hup hp hsession hmore hreply'
    · dsimp only
      generalize w.client = client at hside hp hclient
      cases hside with
      | writing hpending => exact absurd hp hpending
      | reading hbuf hne hwritten hsent hreceived =>
        exact .reading hbuf hne (by rw [hwritten, List.append_assoc]) hsent hreceived
      | tunnel => exact absurd rfl hclient
      | failed hfailed =>
        rw [hfailed] at hframe
        cases hframe

/-- What the destination sends goes down, after all that it has sent before. -/
theorem Inv.serve (hw : c.Inv w) (h : c.serve w bs = some w') : c.Inv w' := by
  rw [Setting.serve] at h
  split at h
  · next t hframe =>
    split_ifs at h
    obtain rfl := Option.some.inj h
    have hstage := hw.stage
    have hside := hw.side
    rw [hframe] at hstage
    cases hstage with
    | relaying ht hp hpicks hconnects hsent hwritten =>
      refine ⟨?_, ?_, fun hno => absurd hframe (hno t), hw.follows⟩
      · dsimp only
        rw [hframe]
        exact .relaying ht hp hpicks hconnects hsent (by rw [hwritten, List.append_assoc])
      · -- What was served goes to the pipe, from which the client reads it in the tunnel.
        dsimp only
        generalize w.client = client at hside hp
        cases hside with
        | writing hpending => exact absurd hp hpending
        | reading hbuf hne hall hsent hreceived =>
          exact .reading hbuf hne (by rw [hall, List.append_assoc]) hsent hreceived
        | tunnel hall => exact .tunnel (by rw [hall, List.append_assoc, List.append_assoc])
        | failed hfailed =>
          rw [hfailed] at hframe
          cases hframe
  · exact absurd h (by simp)

/-- Every step keeps the invariant. -/
theorem Inv.step (hc : c.Proper) (e : Event) (hw : c.Inv w) (h : c.step w e = some w') :
    c.Inv w' := by
  cases e with
  | write => exact hw.write h
  | read =>
    rw [Setting.step] at h
    split_ifs at h
    exact hw.read h
  | line =>
    obtain ⟨s, hs, rfl⟩ := Option.map_eq_some_iff.1 h
    exact hw.line hc hs
  | connect =>
    obtain ⟨s, hs, rfl⟩ := Option.map_eq_some_iff.1 h
    exact hw.connect hs
  | reply => exact hw.reply hc h
  | readU8 => exact hw.readU8 h
  | eof => exact hw.eof h
  | send => exact hw.send h
  | copy =>
    rw [Setting.step] at h
    split_ifs at h
    exact hw.read h
  | serve => exact hw.serve h
  | receive => exact hw.receive h

end Setting

/-! ## The end of the handshake -/

/-- The reply is of 39 bytes. -/
theorem length_reply : Env.connectResponse.length = 39 := by decide

/-- What the server has still to do before it relays. -/
def frameRank : Frame τ → ℕ
  | .requestLine | .headers .. => 41
  | .connecting .. => 40
  | .replying _ rest => rest.length
  | _ => 0

/-- What the transport has still to read. -/
def clientRank : Client → ℕ
  | .writing _ => 41
  | .reading buf => 40 - buf.length
  | _ => 0

/-- How much of the handshake is left. A byte of the request is written, read, and taken with
    its line. -/
def World.rank (w : World τ) : ℕ :=
  3 * w.client.pending.length +
    (if w.server.frame.AwaitsLine then 2 * w.up.length + w.server.buffer.length else 0) +
    frameRank w.server.frame + clientRank w.client

/-- `connect` has returned. -/
def Client.Settled : Client → Prop
  | tunnel | failed _ => True
  | _ => False

namespace Setting

variable {c : Setting τ} {w w' : World τ} {n : ℕ} {bs : Bytes}

/-- The request is written. -/
theorem rank_write (h : c.write w n = some w') : w'.rank < w.rank := by
  obtain ⟨rest, client, hclient, hpos, hle, hnext, rfl⟩ := write_eq_some h
  have hpending : client.pending = rest.drop n := by
    rcases hnext with ⟨hlast, rfl⟩ | ⟨-, rfl⟩
    · exact hlast.symm
    · rfl
  have hrank : clientRank client ≤ 41 := by
    rcases hnext with ⟨-, rfl⟩ | ⟨-, rfl⟩ <;> simp [clientRank]
  have hclientRank : clientRank w.client = 41 := by rw [hclient]; rfl
  have hrest : w.client.pending = rest := by rw [hclient]; rfl
  simp only [World.rank, hpending, hclientRank, hrest, List.length_append, List.length_take,
    List.length_drop]
  split_ifs <;> omega

/-- A read moves bytes to the buffer. -/
theorem rank_read (h : Setting.read w n = some w') (hawaits : w.server.frame.AwaitsLine) :
    w'.rank < w.rank := by
  obtain ⟨chunk, s, hchunk, hs, rfl⟩ := read_eq_some h
  have hpos := List.length_pos_iff.2 chunk.2
  have hlen : chunk.1.length + (w.up.drop n).length = w.up.length := by
    rw [hchunk, ← List.length_append, List.take_append_drop]
  obtain ⟨-, ⟨-, rfl⟩ | ⟨t, hframe, -⟩⟩ := Server.read_eq_some hs
  · simp only [World.rank, if_pos hawaits, List.length_append]
    omega
  · rw [hframe] at hawaits
    exact absurd hawaits (by simp [Frame.AwaitsLine])

/-- Nothing that the server does takes longer than the reply. -/
theorem Stage.frameRank_le {frame : Frame τ} (h : c.Stage w frame) : frameRank frame ≤ 41 := by
  cases h with
  | @replying t rest _ _ _ _ _ hreply =>
    have hlen := congrArg List.length hreply
    rw [List.length_append, length_reply] at hlen
    change rest.length ≤ 41
    omega
  | _ => simp [frameRank]

/-- A line of the request is taken. -/
theorem rank_line (hc : c.Proper) (hw : c.Inv w) {s : Server τ}
    (hs : w.server.takeLine c.casing = some s) : World.rank { w with server := s } < w.rank := by
  have hle := (hw.line hc hs).stage.frameRank_le
  obtain ⟨hawaits, k, rest, hnextLine, rfl⟩ := Server.takeLine_eq_some hs
  obtain ⟨hbuffer, hline⟩ := cutAfter_eq_some (hw.cutAfter_of_nextLine hnextLine)
  have hpos := List.length_pos_iff.2 hline.ne_nil
  have hlen : w.server.buffer.length = k.length + rest.length := by
    rw [hbuffer, List.length_append]
  have hrank : frameRank w.server.frame = 41 := by
    have hstage := hw.stage
    rcases hframe : w.server.frame <;> rw [hframe] at hawaits hstage <;>
      simp only [Frame.AwaitsLine] at hawaits
    · rfl
    · rfl
    · cases hstage
  have hrest : (w.server.took c.casing k rest).buffer = rest := by
    rcases w.server.took_cases c.casing k rest with ⟨-, htook⟩ | ⟨_, -, htook⟩ <;>
      rw [htook]
  simp only [World.rank, if_pos hawaits, hrank, hrest]
  dsimp only at hle
  split_ifs <;> omega

/-- The calls are made. -/
theorem rank_connect (hw : c.Inv w) {s : Server τ} (hs : w.server.connect c.env = some s) :
    World.rank { w with server := s } < w.rank := by
  have hstage := hw.stage
  obtain ⟨host, port, hframe, rfl⟩ | ⟨req, headers, n, hframe, -⟩ := Server.connect_eq_some hs
  · have hno : ¬(w.server.call c.env host port fun t =>
          .replying t Env.connectResponse).frame.AwaitsLine ∧
        frameRank (w.server.call c.env host port fun t =>
          .replying t Env.connectResponse).frame ≤ 39 := by
      rcases w.server.call_cases c.env host port
          (fun t => .replying t Env.connectResponse) with
        ⟨e, -, hcall⟩ | ⟨t, -, ⟨e, -, hcall⟩ | ⟨-, hcall⟩⟩ <;> rw [hcall]
      · exact ⟨id, Nat.zero_le _⟩
      · exact ⟨id, Nat.zero_le _⟩
      · exact ⟨id, length_reply.le⟩
    have hno' : ¬w.server.frame.AwaitsLine := by
      rw [hframe]
      exact id
    have hrank : frameRank w.server.frame = 40 := by rw [hframe]; rfl
    simp only [World.rank, if_neg hno.1, if_neg hno', hrank]
    omega
  · rw [hframe] at hstage
    cases hstage

/-- A part of the reply is written. -/
theorem rank_reply (hc : c.Proper) (h : c.reply w n = some w') : w'.rank < w.rank := by
  obtain ⟨t, rest, s, hframe, hs, rfl⟩ := reply_eq_some h
  obtain ⟨hpos, hle, hnext⟩ := written hc hframe hs
  have hno : ¬s.frame.AwaitsLine ∧ frameRank s.frame ≤ (rest.drop n).length := by
    rcases hnext with ⟨-, rfl⟩ | ⟨-, rfl⟩
    · exact ⟨id, Nat.zero_le _⟩
    · exact ⟨id, le_rfl⟩
  have hno' : ¬w.server.frame.AwaitsLine := by
    rw [hframe]
    exact id
  have hrank : frameRank w.server.frame = rest.length := by rw [hframe]; rfl
  simp only [World.rank, if_neg hno.1, if_neg hno', hrank]
  rw [List.length_drop] at hno
  omega

/-- A byte of the reply is read. -/
theorem rank_readU8 (hw : c.Inv w) (h : c.readU8 w = some w') : w'.rank < w.rank := by
  obtain ⟨buf, byte, down, hclient, hdown, rfl⟩ := readU8_eq_some h
  have hpushed := hw.pushed hclient hdown
  have hlen := hpushed.length_le
  rw [List.length_append, List.length_singleton, length_reply] at hlen
  have hclientRank : clientRank w.client = 40 - buf.length := by rw [hclient]; rfl
  have hnext : (Client.pass c.transport buf byte).pending = w.client.pending ∧
      clientRank (Client.pass c.transport buf byte) ≤ 40 - (buf.length + 1) := by
    rw [pass_eq c.transport hpushed, hclient]
    split_ifs
    · exact ⟨rfl, Nat.zero_le _⟩
    · refine ⟨rfl, ?_⟩
      rw [clientRank, List.length_append, List.length_singleton]
  simp only [World.rank, hnext.1, hclientRank]
  omega

/-- The transport comes to the end of the stream. -/
theorem rank_eof (hw : c.Inv w) (h : c.eof w = some w') : w'.rank < w.rank := by
  rw [Setting.eof] at h
  split at h
  · next buf e hclient hdown hframe =>
    obtain rfl := Option.some.inj h
    have hside := hw.side
    rw [hclient] at hside
    cases hside with
    | reading hbuf =>
      have hlen := hbuf.length_le
      rw [length_reply] at hlen
      simp only [World.rank, hclient, Client.pending, clientRank]
      omega
  · exact absurd h (by simp)

/-- Every step of the handshake lowers the rank, and no other one changes it. -/
theorem rank_step (hc : c.Proper) (hw : c.Inv w) (e : Event) (h : c.step w e = some w') :
    w'.rank + e.handshake.toNat ≤ w.rank := by
  cases e with
  | write => exact rank_write h
  | read =>
    rw [Setting.step] at h
    split_ifs at h with hawaits
    exact rank_read h hawaits
  | line =>
    obtain ⟨s, hs, rfl⟩ := Option.map_eq_some_iff.1 h
    exact rank_line hc hw hs
  | connect =>
    obtain ⟨s, hs, rfl⟩ := Option.map_eq_some_iff.1 h
    exact rank_connect hw hs
  | reply => exact rank_reply hc h
  | readU8 => exact rank_readU8 hw h
  | eof => exact rank_eof hw h
  -- The remaining events are not of the handshake. They leave the rank as it is, since the
  -- bytes on their way up count only as long as a line is awaited.
  | send =>
    rw [Setting.step, Setting.send] at h
    split at h
    · next hclient =>
      split_ifs at h
      obtain rfl := Option.some.inj h
      obtain ⟨t, hframe⟩ := hw.relaying hclient
      have hno : ¬w.server.frame.AwaitsLine := by
        rw [hframe]
        exact id
      simp only [World.rank, if_neg hno]
      exact le_rfl
    · exact absurd h (by simp)
  | copy =>
    rw [Setting.step] at h
    split_ifs at h with hno
    obtain ⟨chunk, s, -, hs, rfl⟩ := read_eq_some h
    obtain ⟨-, ⟨⟨hawaits, -⟩ | ⟨t, m, hframe, -⟩, -⟩ | ⟨t, hframe, rfl⟩⟩ := Server.read_eq_some hs
    · exact absurd hawaits hno
    · have hstage := hw.stage
      rw [hframe] at hstage
      cases hstage
    · simp only [World.rank, if_neg hno]
      exact le_rfl
  | serve =>
    rw [Setting.step, Setting.serve] at h
    split at h
    · split_ifs at h
      obtain rfl := Option.some.inj h
      exact le_rfl
    · exact absurd h (by simp)
  | receive =>
    rw [Setting.step, Setting.receive] at h
    split at h
    · obtain rfl := Option.some.inj h
      exact le_rfl
    · exact absurd h (by simp)

/-- So a run has no more steps of the handshake than the rank is lowered by. -/
theorem inv_of_run (hc : c.Proper) {es : List Event} (h : run c.step c.start es = some w) :
    c.Inv w ∧ es.countP Event.handshake + w.rank ≤ c.start.rank := by
  induction es using List.reverseRecOn generalizing w with
  | nil =>
    obtain rfl := Option.some.inj h
    exact ⟨inv_start, by simp⟩
  | append_singleton es e ih =>
    rw [run_concat] at h
    obtain ⟨v, hv, he⟩ := Option.bind_eq_some_iff.1 h
    obtain ⟨hinv, hle⟩ := ih hv
    have hrank := rank_step hc hinv e he
    refine ⟨hinv.step hc e he, ?_⟩
    have hone : e.handshake.toNat = if e.handshake then 1 else 0 := by
      cases e.handshake <;> rfl
    rw [List.countP_append, List.countP_singleton, ← hone]
    omega

/-! ## What the two ends agree on -/

/-- Some step of the handshake can be taken. -/
def CanGoOn (c : Setting τ) (w : World τ) : Prop :=
  ∃ e, e.handshake = true ∧ (c.step w e).isSome

/-- More of what a line ends is there to be taken, or to be read. -/
theorem canGoOn_of_awaits (hw : c.Inv w) (hawaits : w.server.frame.AwaitsLine)
    (hbytes : 10 ∉ w.server.buffer → w.up ≠ []) : c.CanGoOn w := by
  by_cases hline : 10 ∈ w.server.buffer
  · refine ⟨.line, rfl, ?_⟩
    rw [step, Option.isSome_map]
    exact Server.isSome_takeLine hawaits (.inl hline)
  · have htake : w.up.take 1 ≠ [] := by simpa using hbytes hline
    refine ⟨.read 1, rfl, ?_⟩
    rw [step, if_pos hawaits, Setting.read, dif_pos htake, Option.isSome_map]
    exact Server.isSome_read hawaits hline hw.follows.2 _

/-- A byte of the reply that is there can be read. -/
theorem canGoOn_of_reading {buf : Bytes} (hclient : w.client = .reading buf)
    (hdown : w.down ≠ []) : c.CanGoOn w := by
  obtain ⟨byte, down, hdown⟩ := List.exists_cons_of_ne_nil hdown
  refine ⟨.readU8, rfl, ?_⟩
  rw [step, Setting.readU8, hclient, hdown]
  rfl

/-- A head has a newline at least. -/
theorem newline_mem_headBytes (ls : List Text) : 10 ∈ headBytes ls := by
  rw [headBytes, encodeUtf8_append]
  exact List.mem_append_right _ (by decide)

/-- As long as the request is not written as a whole, the server awaits a line of it. -/
theorem Stage.awaits {frame : Frame τ} (h : c.Stage w frame) (hp : w.client.pending ≠ []) :
    frame.AwaitsLine := by
  cases h with
  | requestLine | headers => trivial
  | connecting _ hnil | replying _ _ hnil | relaying _ hnil | failed _ _ hnil =>
    exact absurd hnil hp

/-- Where the whole request is written, more can happen before the reply is. -/
theorem Inv.canGoOn_reading (hc : c.Proper) (hw : c.Inv w) {buf : Bytes}
    (hclient : w.client = .reading buf) (hbuf : buf <+: Env.connectResponse)
    (hne : buf ≠ Env.connectResponse) (hwritten : w.written = buf) (hdown : w.down = []) :
    c.CanGoOn w := by
  have hp : w.client.pending = [] := by rw [hclient]; rfl
  -- A line that is awaited is on its way, as the request was written as a whole.
  have hawaits {ls : List Text} (hbytes : w.upward = headBytes ls)
      (h : 10 ∉ w.server.buffer) : w.up ≠ [] := by
    intro hup
    rw [World.upward, hup, hp, List.append_nil, List.append_nil] at hbytes
    exact h (hbytes ▸ newline_mem_headBytes ls)
  have hstage := hw.stage
  generalize hframe : w.server.frame = frame at hstage
  cases hstage with
  | requestLine hbytes | headers _ hbytes =>
    exact canGoOn_of_awaits hw (by rw [hframe]; trivial) (hawaits hbytes)
  | connecting =>
    refine ⟨.connect, rfl, ?_⟩
    rw [Setting.step, Option.isSome_map]
    exact Server.isSome_connect hframe
  | replying _ _ _ _ hrest =>
    have hpos := List.length_pos_iff.2 hrest
    refine ⟨.reply 1, rfl, ?_⟩
    rw [Setting.step, Setting.reply, hframe]
    dsimp only
    rw [if_pos (by rw [hdown]; exact c.capacity.down_pos), Option.isSome_map]
    exact Server.isSome_write hframe hc.writes Nat.one_pos hpos
  -- The server relays only after the whole reply, which the transport has then read.
  | relaying _ _ _ _ _ hall =>
    rw [hwritten] at hall
    have hle : Env.connectResponse.length ≤ buf.length := by
      rw [hall, List.length_append]
      exact Nat.le_add_right _ _
    exact absurd (hbuf.eq_of_length (hbuf.length_le.antisymm hle)) hne
  | failed =>
    refine ⟨.eof, rfl, ?_⟩
    rw [Setting.step, Setting.eof, hclient, hdown, hframe]
    rfl

/-- The handshake does not stop before it has ended. -/
theorem Inv.canGoOn (hc : c.Proper) (hw : c.Inv w) : w.client.Settled ∨ c.CanGoOn w := by
  have hside := hw.side
  rcases hclient : w.client with rest | buf | _ | e
  · refine .inr ?_
    rw [hclient] at hside
    have hrest : rest ≠ [] := by
      cases hside
      assumption
    have hpos := List.length_pos_iff.2 hrest
    -- The transport writes, if there is room; otherwise the server reads what fills it.
    by_cases hroom : w.up.length + 1 ≤ c.capacity.up
    · refine ⟨.write 1, rfl, ?_⟩
      rw [Setting.step, Setting.write, hclient]
      dsimp only
      rw [if_pos ⟨Nat.one_pos, hpos, hroom⟩]
      rfl
    · have hup : w.up ≠ [] := by
        rintro hnil
        rw [hnil] at hroom
        exact hroom c.capacity.up_pos
      exact canGoOn_of_awaits hw (hw.stage.awaits (by rwa [hclient])) fun _ => hup
  · rw [hclient] at hside
    cases hside with
    | reading hbuf hne hwritten =>
      refine .inr ?_
      by_cases hdown : w.down = []
      · rw [hdown, List.append_nil] at hwritten
        exact hw.canGoOn_reading hc hclient hbuf hne hwritten hdown
      · exact canGoOn_of_reading hclient hdown
  · exact .inl trivial
  · exact .inl trivial

end Setting

/-- What the two ends agree on, wherever they are. -/
structure Chained (c : Setting τ) (w : World τ) : Prop where
  /-- Before there is a tunnel, the destination and the transport have got nothing. -/
  before : w.client ≠ .tunnel →
    w.sent = [] ∧ w.received = [] ∧ w.server.session.delivered = []
  /-- A tunnel goes to what the transport was to be connected to, through one transport of the
      server, which was picked for it. -/
  tunnel : w.client = .tunnel → ∃ t, c.Reached t ∧ w.server.frame = .relaying t ∧
    w.server.session.picks = [(c.addr, c.port)] ∧ w.server.session.connects = [(t, c.addr, c.port)]
  /-- It takes every byte in either direction, once and in order. -/
  relay : w.client = .tunnel →
    w.sent = w.server.session.delivered ++ w.up ∧ w.served = w.received ++ w.down
  /-- Before that too, the server calls the picker and `connect` for nothing else, and each of
      them once. -/
  called : c.Called w.server.session
  /-- There is an error only if the picker or `connect` has returned one. -/
  failed : ∀ e, w.client = .failed e → c.Refused
  /-- The transport returns the stream of what the destination has sent. -/
  connect : w.client = .tunnel →
    c.transport.connect (replying w.written) c.base64 c.addr c.port = .ok (w.received ++ w.down)
  /-- `handle_connection` delivers what the server did, of the same reads. -/
  handler : w.client = .tunnel →
    (c.env.handleConnection c.casing w.server.reads .new).1 = .ok () ∧
      (c.env.handleConnection c.casing w.server.reads .new).2.delivered =
        w.server.session.delivered
  /-- As long as the transport awaits its tunnel, the handshake goes on. -/
  goesOn : w.client.Settled ∨ c.CanGoOn w

variable {c : Setting τ} {w : World τ}

/-- What the transport makes of the reply, and of what comes after it. -/
theorem connect_replying (c : Setting τ) (data : Bytes) :
    c.transport.connect (replying (Env.connectResponse ++ data)) c.base64 c.addr c.port =
      .ok data := by
  have hs : c.transport.Reaches (replying (Env.connectResponse ++ data)) c.base64 c.addr c.port
    (Env.connectResponse ++ data) := ⟨_, rfl, rfl⟩
  obtain ⟨-, hread⟩ | ⟨hlong, -⟩ :=
    (readResponse_nil (replying (Env.connectResponse ++ data)).readU8 c.transport.proxyAddr
      (Env.connectResponse ++ data)).of_head (yields_replying _ _ _) endsFirst_reply
  · rw [connect_of_reaches hs, hread]
    exact finish_reply _ _
  · rw [length_reply] at hlong
    omega

/-- The invariant says what the two ends agree on. -/
theorem Setting.Inv.chained (hc : c.Proper) (hw : c.Inv w) : Chained c w where
  -- Each part is read off the two views, at the places that the transport may be at.
  before hclient := by
    have hnone : w.sent = [] ∧ w.received = [] := by
      have hside := hw.side
      generalize w.client = client at hside hclient
      cases hside with
      | writing _ _ hsent hreceived | reading _ _ _ hsent hreceived | failed _ hsent hreceived =>
        exact ⟨hsent, hreceived⟩
      | tunnel => exact absurd rfl hclient
    refine ⟨hnone.1, hnone.2, ?_⟩
    have hstage := hw.stage
    generalize w.server.frame = frame at hstage
    cases hstage with
    | requestLine _ hsession | headers _ _ hsession | connecting _ _ hsession
    | replying _ _ _ hsession => rw [hsession]; rfl
    | relaying _ _ _ _ hsent =>
      rw [hnone.1] at hsent
      exact (List.append_eq_nil_iff.1 hsent.symm).1
    | failed _ _ _ _ hdelivered _ => exact hdelivered
  tunnel hclient := by
    obtain ⟨t, hframe⟩ := hw.relaying hclient
    have hstage := hw.stage
    rw [hframe] at hstage
    cases hstage with
    | relaying ht _ hpicks hconnects => exact ⟨t, ht, hframe, hpicks, hconnects⟩
  relay hclient := by
    obtain ⟨t, hframe⟩ := hw.relaying hclient
    have hstage := hw.stage
    have hside := hw.side
    rw [hframe] at hstage
    rw [hclient] at hside
    cases hstage with
    | relaying _ _ _ _ hsent hserved =>
      cases hside with
      | tunnel hwritten =>
        exact ⟨hsent, List.append_cancel_left (hserved.symm.trans hwritten)⟩
  called := by
    have hstage := hw.stage
    generalize w.server.frame = frame at hstage
    cases hstage with
    | requestLine _ hsession | headers _ _ hsession | connecting _ _ hsession =>
      rw [hsession]
      exact .nothing rfl rfl
    | replying ht _ _ hsession =>
      rw [hsession]
      exact .connect ht.1 rfl rfl
    | relaying ht _ hpicks hconnects => exact .connect ht.1 hpicks hconnects
    | failed _ _ _ _ _ hcalled => exact hcalled
  failed e hclient := by
    have hstage := hw.stage
    have hside := hw.side
    rw [hclient] at hside
    cases hside with
    | failed hframe =>
      rw [hframe] at hstage
      cases hstage with
      | failed hrefused => exact hrefused
  connect hclient := by
    have hside := hw.side
    rw [hclient] at hside
    cases hside with
    | tunnel hwritten => rw [hwritten, connect_replying]
  handler hclient := by
    obtain ⟨t, hframe⟩ := hw.relaying hclient
    have hfollows := hw.follows.1 [] fun _ => rfl
    rw [List.append_nil, Server.resume, hframe] at hfollows
    dsimp only at hfollows
    rw [Server.copyBidirectional_eq] at hfollows
    rw [hfollows]
    refine ⟨rfl, ?_⟩
    rw [Session.delivered, List.map_nil, List.append_nil]
    rfl
  goesOn := hw.canGoOn hc

/-- In every run of the two ends, whatever the order in which what is on the way is written and
    read, and however it is cut, they agree, and no more than a bounded number of steps are
    taken by the handshake. In particular no byte that is sent through the tunnel is lost in the
    buffer of the server's reader, as none is sent before the reply was read. -/
theorem chained_of_run (c : Setting τ) (hc : c.Proper) {es : List Event}
    (h : run c.step c.start es = some w) :
    Chained c w ∧ es.countP Event.handshake ≤ 3 * c.request.length + 82 := by
  obtain ⟨hinv, hcount⟩ := Setting.inv_of_run hc h
  refine ⟨hinv.chained hc, ?_⟩
  have hrank : c.start.rank = 3 * c.request.length + 0 + 41 + 41 := rfl
  rw [hrank] at hcount
  generalize c.request.length = n at hcount
  omega

/-- A proxy that connects, and a transport that is to be connected to `a:443` through it. -/
def sampleSetting : Setting Unit where
  env := sampleEnv
  casing := .ascii
  base64 := sampleBase64
  transport := .new "proxy:3128".toList none "sample".toList
  addr := "a".toList
  port := 443
  capacity := ⟨64, 64, by decide, by decide⟩

/-- The handshake, and a byte in either direction after it. -/
def sampleEvents : List Event :=
  [.write 39, .read 39, .line, .line, .line, .connect, .reply 39] ++
    List.replicate 39 .readU8 ++ [.send [22], .copy 1, .serve [23], .receive 1]

/-- The host can be asked for. -/
theorem proper_sampleSetting : sampleSetting.Proper where
  writes := rfl
  casing := ascii_uppersByChar
  base64 s := by
    change ∀ ch ∈ sampleBase64 s, IsBase64 ch
    rw [sampleBase64]
    split_ifs
    · exact forall_mem_of_all (by decide)
    · exact fun c hc => absurd hc List.not_mem_nil
  addr_ne := by decide
  addr_solid := by decide
  addr_head := by decide

/-- Both bytes come through. -/
theorem chained_sampleEvents : ∃ w, run sampleSetting.step sampleSetting.start sampleEvents =
    some w ∧ w.client = .tunnel ∧ Chained sampleSetting w := by
  have hclient : (run sampleSetting.step sampleSetting.start sampleEvents).map World.client =
      some .tunnel := by decide +kernel
  obtain ⟨w, hw, htunnel⟩ := Option.map_eq_some_iff.1 hclient
  exact ⟨w, hw, htunnel, (chained_of_run sampleSetting proper_sampleSetting hw).1⟩

end Houdinny.Proxy.Chain
