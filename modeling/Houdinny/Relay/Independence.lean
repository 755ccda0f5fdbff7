import Houdinny.Relay.Duplex

/-!
# Independence of the two directions

While the relay writes a chunk to one peer, it does not read from that peer. If the
chunk does not fit into the pipe, the relay waits for the peer to take bytes, and
moves nothing in the other direction, though there are bytes to be read and there is
room for them (`Blocked`). Two peers that write before they read can thus wait for
each other forever.

The directions are independent exactly in the runs none of whose steps leads there
(`independent_iff_eachStep`).

* `CanMove` is what is wanted: steps of the relay alone move what there is to be moved from
  a side. `Independent` has it for both sides.
* `Blocked` is a condition on the state that rules it out (`not_independent`), and there is
  no other reason (`independent_iff`).
* `Unblocked` is a condition on a step and the state before it: it says what each event must
  not do to a relay that is not blocked (`Inv.step`).

The step from the second to the third needs the invariant `Inv`, that a chunk which is being
written has bytes left, and that no pipe holds more than its capacity.
-/

namespace Houdinny.Relay.RelayStream

variable {pipes : Pipes} {w w' : World} {f : Side}

/-- The relay has not returned. -/
def World.Running (w : World) : Prop := ∀ stats, w.frame ≠ .returned stats

/-- A step that the relay takes. -/
def Io.isRelay : Io → Bool
  | read .. | eof _ | write _ => true
  | send .. | finish _ | take .. => false

/-- Steps of the relay alone move bytes that come from `f`: they are read, or
    written to the other side. -/
def CanMove (pipes : Pipes) (w : World) (f : Side) : Prop :=
  ∃ es w', (∀ e ∈ es, Io.isRelay e) ∧ Run.run (ioStep pipes) w es = some w' ∧
    ((w'.peer f).inbox.length < (w.peer f).inbox.length ∨
      (w.peer f.other).outbox.length < (w'.peer f.other).outbox.length)

/-- In either direction, the relay can move bytes if there are any to be read, and
    there is room for them. -/
def Independent (pipes : Pipes) (w : World) : Prop :=
  w.Running → ∀ f, (w.peer f).inbox ≠ [] → 0 < w.room pipes f.other → CanMove pipes w f

/-- The relay holds more bytes for one side than there is room for, while there are
    bytes to be read from this side, and there is room for them on the other. -/
def Blocked (pipes : Pipes) (w : World) : Prop :=
  ∃ f n rest, w.frame = .writing f.other n rest ∧ w.room pipes f < rest.length ∧
    (w.peer f).inbox ≠ [] ∧ 0 < w.room pipes f.other

/-- The step does not block the relay: a chunk is read that fits into the pipe to the
    other side, or nothing can be moved back; and where a chunk does not fit, this
    side does not send while there is room on the other, and the other does not take
    bytes while there are bytes to be read from this side. -/
def Unblocked (pipes : Pipes) (w : World) : Event → Prop
  | .io (.read f n) =>
    ¬(w.room pipes f.other < n ∧ (w.peer f.other).inbox ≠ [] ∧ 0 < w.room pipes f)
  | .io (.send f _) =>
    ¬∃ n rest, w.frame = .writing f.other n rest ∧ w.room pipes f < rest.length ∧
      0 < w.room pipes f.other
  | .io (.take f _) =>
    ¬∃ n rest, w.frame = .writing f n rest ∧ w.room pipes f.other < rest.length ∧
      (w.peer f.other).inbox ≠ []
  | _ => True

/-! ## Where the relay is blocked -/

/-- A chunk being written has bytes left to be written. -/
def Pending (w : World) : Prop := ∀ f n rest, w.frame = .writing f n rest → rest ≠ []

/-- A relay that is blocked stays so, and reads nothing, as long as the peers do
    nothing. -/
theorem stuck_of_blocked {es : List Io} (hes : ∀ e ∈ es, Io.isRelay e)
    (hrun : Run.run (ioStep pipes) w es = some w') {n : ℕ} {rest : Bytes}
    (hframe : w.frame = .writing f.other n rest) (hroom : w.room pipes f < rest.length) :
    (w'.peer f).inbox = (w.peer f).inbox ∧
      (w'.peer f.other).outbox = (w.peer f.other).outbox := by
  induction es generalizing w rest with
  | nil => exact Option.some.inj hrun ▸ ⟨rfl, rfl⟩
  | cons e es ih =>
    obtain ⟨v, hv, hrest⟩ := Option.bind_eq_some_iff.1 hrun
    rw [List.forall_mem_cons] at hes
    cases e with
    | send | finish | take => exact absurd hes.1 Bool.false_ne_true
    | read g k => exact absurd (hframe.symm.trans (read_eq_some hv).1) (by simp)
    | eof g =>
      rw [ioStep] at hv
      split_ifs at hv with hguard
      exact absurd (hframe.symm.trans hguard.1) (by simp)
    | write k =>
      obtain ⟨hpos, hle, hfits, hf, hother, hnext⟩ := write_eq_some hframe hv
      rw [Side.other_other] at hfits hf
      -- What is written leaves as much less room as it leaves less to be written.
      have hroom' : v.room pipes f < (rest.drop k).length := by
        rw [World.room, hf, Peer.outbox_load, List.length_append, List.length_take,
          List.length_drop]
        rw [World.room] at hroom hfits
        omega
      rcases hnext with ⟨hlast, -⟩ | ⟨-, hframe''⟩
      · rw [hlast] at hroom'
        exact absurd hroom' (Nat.not_lt_zero _)
      · obtain ⟨hinbox, houtbox⟩ := ih hes.2 hrest hframe'' hroom'
        exact ⟨by rw [hinbox, hf, Peer.inbox_load], by rw [houtbox, hother]⟩

/-- Where the relay is blocked, the directions are not independent. -/
theorem not_independent (h : Blocked pipes w) : ¬Independent pipes w := by
  obtain ⟨f, n, rest, hframe, hroom, hinbox, hother⟩ := h
  intro h
  obtain ⟨es, w', hes, hrun, hmove⟩ := h (by simp [World.Running, hframe]) f hinbox hother
  obtain ⟨hsame, hsame'⟩ := stuck_of_blocked hes hrun hframe hroom
  rw [hsame, hsame'] at hmove
  omega

/-- The directions are independent in a state exactly if the relay is not blocked. -/
theorem independent_iff (hpending : Pending w) : Independent pipes w ↔ ¬Blocked pipes w := by
  constructor
  · exact fun h hblocked => not_independent hblocked h
  · intro hblocked hrunning f hinbox hroom
    rcases hframe : w.frame with _ | ⟨g, n, rest⟩ | stats
    · obtain ⟨w', hw', hlt⟩ := exists_read hframe hinbox
      exact ⟨[.read f 1], w', by simp [Io.isRelay], by simp [Run.run, ioStep, hw'], .inl hlt⟩
    · have hrest := List.length_pos_iff.2 (hpending g n rest hframe)
      rcases Side.eq_or_eq_other f g with rfl | rfl
      · -- A chunk read from this side is being written.
        obtain ⟨w', hw'⟩ := exists_write pipes hframe Nat.one_pos hrest hroom
        refine ⟨[.write 1], w', by simp [Io.isRelay], by simp [Run.run, ioStep, hw'], .inr ?_⟩
        obtain ⟨-, -, -, hload, -⟩ := write_eq_some hframe hw'
        rw [hload, Peer.outbox_load, List.length_append, List.length_take]
        omega
      · -- A chunk read from the other side is being written, and there is room for it.
        have hfits : rest.length ≤ w.room pipes f :=
          Nat.le_of_not_lt fun hlt => hblocked ⟨f, n, rest, hframe, hlt, hinbox, hroom⟩
        obtain ⟨v, hv⟩ := exists_write pipes hframe hrest le_rfl
          (by rw [Side.other_other]; exact hfits)
        obtain ⟨-, -, -, hload, -, hnext⟩ := write_eq_some hframe hv
        rw [Side.other_other] at hload
        have hsame : (v.peer f).inbox = (w.peer f).inbox := by rw [hload, Peer.inbox_load]
        have hselecting : v.frame = .selecting :=
          hnext.elim And.right fun h => absurd List.drop_length h.1
        obtain ⟨w', hw', hlt⟩ := exists_read hselecting (hsame ▸ hinbox)
        refine ⟨[.write rest.length, .read f 1], w', by simp [Io.isRelay], ?_, .inl (hsame ▸ hlt)⟩
        simp [Run.run, ioStep, hv, hw']
    · exact absurd hframe (hrunning stats)

/-! ## Steps that block the relay -/

/-- A relay that writes is blocked if the rest of its chunk does not fit, while the peer that it
    writes to has sent something for which there is room. -/
theorem blocked_writing {n : ℕ} {rest : Bytes} (h : w.frame = .writing f n rest) :
    Blocked pipes w ↔ w.room pipes f.other < rest.length ∧ (w.peer f.other).inbox ≠ [] ∧
      0 < w.room pipes f := by
  constructor
  · rintro ⟨g, n', rest', h', hblocked⟩
    obtain ⟨rfl, rfl, rfl⟩ : f = g.other ∧ n = n' ∧ rest = rest' := by simpa using h.symm.trans h'
    rwa [Side.other_other]
  · exact fun hblocked => ⟨f.other, n, rest, by rwa [Side.other_other], by rwa [Side.other_other]⟩

/-- A relay that does not write is not blocked. -/
theorem not_blocked {w : World} (h : ∀ f n rest, w.frame ≠ .writing f n rest) :
    ¬Blocked pipes w :=
  fun ⟨_, _, _, hframe, _⟩ => h _ _ _ hframe

/-- The invariant, apart from the relay not being blocked: there is something left to
    be written where a chunk is, and pipes hold what they can. -/
structure Inv (pipes : Pipes) (w : World) : Prop where
  pending : Pending w
  bounded : ∀ f, (w.peer f).outbox.length ≤ pipes.toPeer f

/-- A relay that has returned is not blocked. -/
theorem inv_finish (h : Inv pipes w) : Inv pipes w.finish ∧ ¬Blocked pipes w.finish :=
  ⟨⟨fun f n rest hframe => absurd hframe (by simp [World.finish]), h.bounded⟩,
    not_blocked fun f n rest => by simp [World.finish]⟩

/-- The pipes stay within their capacities, if the pipe to the new peer does. -/
theorem Inv.bounded_setPeer (h : Inv pipes w) {p : Peer} (hp : p.outbox.length ≤ pipes.toPeer f)
    (g : Side) : ((w.setPeer f p).peer g).outbox.length ≤ pipes.toPeer g := by
  by_cases hg : g = f
  · rw [hg, World.setPeer_peer_self]
    exact hp
  · rw [World.setPeer_peer_of_ne w hg]
    exact h.bounded g

/-- What is sent can block the relay, if it is the first there is to be read. -/
theorem Inv.send (h : Inv pipes w) (hblocked : ¬Blocked pipes w) {bs : Bytes}
    (hs : w.send pipes f bs = some w') :
    Inv pipes w' ∧ (¬Blocked pipes w' ↔ Unblocked pipes w (.io (.send f bs))) := by
  rw [World.send] at hs
  split_ifs at hs with hguard
  obtain rfl := Option.some.inj hs
  refine ⟨⟨h.pending, h.bounded_setPeer (h.bounded f)⟩, not_congr ?_⟩
  have hroom := World.room_setPeer pipes ((w.peer f).outbox_send bs)
  constructor
  · rintro ⟨g, n, rest, hframe, hlt, hinbox, hpos⟩
    rw [hroom] at hlt hpos
    rcases Side.eq_or_eq_other f g with rfl | rfl
    · exact ⟨n, rest, hframe, hlt, hpos⟩
    · rw [World.setPeer_peer_of_ne w f.other_ne] at hinbox
      exact absurd ⟨_, n, rest, hframe, hlt, hinbox, hpos⟩ hblocked
  · rintro ⟨n, rest, hframe, hlt, hpos⟩
    refine ⟨f, n, rest, hframe, by rwa [hroom], ?_, by rwa [hroom]⟩
    rw [World.setPeer_peer_self, Peer.inbox_send]
    exact List.append_ne_nil_of_right_ne_nil _ hguard.1

/-- What is taken can block the relay, if it makes room. -/
theorem Inv.take (h : Inv pipes w) (hblocked : ¬Blocked pipes w) {k : ℕ}
    (hs : w.take f k = some w') :
    Inv pipes w' ∧ (¬Blocked pipes w' ↔ Unblocked pipes w (.io (.take f k))) := by
  rw [World.take] at hs
  split_ifs at hs with hguard
  obtain rfl := Option.some.inj hs
  have hbounded := h.bounded f
  have hroom : (w.setPeer f ((w.peer f).take k)).room pipes f = w.room pipes f + k := by
    rw [World.room, World.room, World.setPeer_peer_self, Peer.outbox_take, List.length_drop]
    omega
  have hother := World.setPeer_peer_of_ne w f.other_ne ((w.peer f).take k)
  have hroom' : (w.setPeer f ((w.peer f).take k)).room pipes f.other = w.room pipes f.other := by
    rw [World.room, World.room, hother]
  refine ⟨⟨h.pending, h.bounded_setPeer ?_⟩, not_congr ⟨?_, ?_⟩⟩
  · rw [Peer.outbox_take, List.length_drop]
    omega
  · rintro ⟨g, n, rest, hframe, hlt, hne, hpos⟩
    rcases Side.eq_or_eq_other f g with rfl | rfl
    · -- There was less room before.
      rw [World.setPeer_peer_self, Peer.inbox_take] at hne
      rw [hroom] at hlt
      rw [hroom'] at hpos
      exact absurd ⟨_, n, rest, hframe, by omega, hne, hpos⟩ hblocked
    · rw [Side.other_other] at hframe
      rw [hroom'] at hlt
      rw [hother] at hne
      exact ⟨n, rest, hframe, hlt, hne⟩
  · rintro ⟨n, rest, hframe, hlt, hne⟩
    refine (blocked_writing (w := w.setPeer f _) hframe).2 ⟨by rwa [hroom'], by rwa [hother], ?_⟩
    rw [hroom]
    omega

/-- A chunk that is read can block the relay, if it does not fit into the pipe. -/
theorem Inv.read (h : Inv pipes w) {k : ℕ} (hs : w.read f k = some w') :
    Inv pipes w' ∧ (¬Blocked pipes w' ↔ Unblocked pipes w (.io (.read f k))) := by
  obtain ⟨hframe, hpos, hle, rfl⟩ := read_eq_some hs
  -- All of the chunk is still to be written, so it is its length that must fit.
  have hlen : ((w.peer f).inbox.take k).length = k := List.length_take_of_le hle
  have hroom := World.room_setPeer pipes ((w.peer f).outbox_unload k)
  refine ⟨⟨?_, h.bounded_setPeer (h.bounded f)⟩, not_congr ?_⟩
  · rintro g n rest hwriting rfl
    obtain ⟨-, -, hnil⟩ : f = g ∧ k = n ∧ (w.peer f).inbox.take k = [] := by simpa using hwriting
    rw [hnil] at hlen
    exact absurd hlen.symm hpos.ne'
  · rw [blocked_writing (f := f) rfl, hlen]
    change ((w.setPeer f _).room pipes f.other < k ∧ ((w.setPeer f _).peer f.other).inbox ≠ [] ∧
      0 < (w.setPeer f _).room pipes f) ↔ _
    rw [hroom, hroom, World.setPeer_peer_of_ne w f.other_ne]

/-- What is written leaves as much less room as it leaves less to be written. -/
theorem Inv.write (h : Inv pipes w) (hblocked : ¬Blocked pipes w) {k : ℕ}
    (hs : w.write pipes k = some w') : Inv pipes w' ∧ ¬Blocked pipes w' := by
  obtain ⟨f, n, rest, hframe⟩ := frame_of_write hs
  obtain ⟨hpos, hle, hfits, hload, hself, hnext⟩ := write_eq_some hframe hs
  have hbounded := h.bounded f.other
  -- The room shrinks by as much as what is left of the chunk.
  have hroom : w'.room pipes f.other = w.room pipes f.other - k := by
    rw [World.room, World.room, hload, Peer.outbox_load, List.length_append,
      List.length_take_of_le hle]
    omega
  refine ⟨⟨?_, fun g => ?_⟩, ?_⟩
  · rcases hnext with ⟨-, hselecting⟩ | ⟨hne, hwriting⟩
    · exact fun g m rest' h' => absurd (hselecting.symm.trans h') (by simp)
    · intro g m rest' h'
      obtain ⟨-, -, rfl⟩ : f = g ∧ n = m ∧ rest.drop k = rest' := by
        simpa using hwriting.symm.trans h'
      exact hne
  · rcases Side.eq_or_eq_other f g with rfl | rfl
    · rw [hself]
      exact h.bounded _
    · rw [World.room] at hfits
      rw [hload, Peer.outbox_load, List.length_append, List.length_take_of_le hle]
      omega
  · rcases hnext with ⟨-, hselecting⟩ | ⟨-, hwriting⟩
    · exact not_blocked fun g m rest' => by simp [hselecting]
    · have hroom' : w'.room pipes f = w.room pipes f := by rw [World.room, World.room, hself]
      rw [blocked_writing hwriting, hroom, hroom', hload, Peer.inbox_load, List.length_drop]
      rintro ⟨hlt, hne, hpos'⟩
      exact hblocked ((blocked_writing hframe).2 ⟨by omega, hne, hpos'⟩)

/-- Every event keeps the invariant, and blocks a relay that was not exactly if it is
    one that does. -/
theorem Inv.step (h : Inv pipes w) (hblocked : ¬Blocked pipes w) {e : Event}
    (hs : step pipes w e = some w') :
    Inv pipes w' ∧ (¬Blocked pipes w' ↔ Unblocked pipes w e) := by
  have hiff : Inv pipes w' ∧ ¬Blocked pipes w' → Unblocked pipes w e →
      Inv pipes w' ∧ (¬Blocked pipes w' ↔ Unblocked pipes w e) :=
    fun h hu => ⟨h.1, iff_of_true h.2 hu⟩
  cases e with
  | io e =>
    cases e with
    | send f bs => exact h.send hblocked hs
    | take f k => exact h.take hblocked hs
    | read f k => exact h.read hs
    | write k => exact hiff (h.write hblocked hs) trivial
    | finish f =>
      rw [RelayStream.step, ioStep] at hs
      split_ifs at hs
      obtain rfl := Option.some.inj hs
      refine hiff ⟨⟨h.pending, h.bounded_setPeer (h.bounded f)⟩, ?_⟩ trivial
      rintro ⟨g, n, rest, hframe, hlt, hne, hpos⟩
      rw [World.room_setPeer pipes (w.peer f).outbox_finish] at hlt hpos
      -- That a side ends changes neither the room of the pipes nor what there is to read.
      have hinbox : ((w.setPeer f (w.peer f).finish).peer g).inbox = (w.peer g).inbox := by
        by_cases hg : g = f
        · rw [hg, World.setPeer_peer_self, Peer.inbox_finish]
        · rw [World.setPeer_peer_of_ne w hg]
      exact hblocked ⟨g, n, rest, hframe, hlt, hinbox ▸ hne, hpos⟩
    | eof f =>
      rw [RelayStream.step, ioStep] at hs
      split_ifs at hs
      obtain rfl := Option.some.inj hs
      exact hiff (inv_finish h) trivial
  | readError f =>
    rw [RelayStream.step] at hs
    split_ifs at hs
    obtain rfl := Option.some.inj hs
    exact hiff (inv_finish h) trivial
  | writeError =>
    rw [RelayStream.step] at hs
    split at hs
    · obtain rfl := Option.some.inj hs
      exact hiff (inv_finish h) trivial
    · exact absurd hs (by simp)

/-- Whatever the pipes and the order of events: in every state the two directions are
    independent exactly if no step blocks the relay. -/
theorem independent_iff_eachStep (pipes : Pipes) (es : List Event) :
    Run.Always (step pipes) (Independent pipes) .new es ↔
      Run.EachStep (step pipes) (Unblocked pipes) .new es := by
  refine Run.always_iff_eachStep (fun w => Inv pipes w ∧ ¬Blocked pipes w)
    (fun w h => (independent_iff h.1.pending).2 h.2) (fun w e w' h hs hG => ?_)
    (fun w e w' h hs hG => ?_) ⟨⟨?_, ?_⟩, ?_⟩
  · obtain ⟨hinv, hiff⟩ := h.1.step h.2 hs
    exact ⟨hinv, hiff.2 hG⟩
  · obtain ⟨hinv, hiff⟩ := h.1.step h.2 hs
    rw [independent_iff hinv.pending]
    exact fun hnot => hG (hiff.1 hnot)
  · exact fun f n rest hframe => absurd hframe (by simp [World.new])
  · exact fun f => Nat.zero_le _
  · exact not_blocked fun f n rest => by simp [World.new]

/-- Pipes that hold one byte each. -/
def narrowPipes : Pipes := ⟨fun _ => 1, fun _ => 1, fun _ => Nat.one_pos, fun _ => Nat.one_pos⟩

/-- An agent that goes on sending, and a server that sends before it takes anything:
    the relay waits for room towards the server, and leaves what the server has sent,
    though there is room for it towards the agent. -/
theorem not_independent_writeBeforeRead : ¬Run.Always (step narrowPipes) (Independent narrowPipes)
    .new [.io (.send .agent [1]), .io (.read .agent 1), .io (.write 1), .io (.send .agent [2]),
      .io (.read .agent 1), .io (.send .server [3])] := by
  intro h
  have hlast : Independent narrowPipes _ := h.last rfl
  exact not_independent ⟨.server, 1, [2], rfl, by decide, by decide, by decide⟩ hlast

end Houdinny.Relay.RelayStream
