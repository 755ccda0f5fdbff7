import Houdinny.Relay.Duplex

/-!
# Half-closed connections

A bidirectional copy ends when both streams have ended, and has then delivered both
of them. The relay returns when the first of them ends: what the other side has sent
and the relay has not read, or sends later, is not delivered. As long as no read or
write fails, it delivers both streams exactly in the runs in which, where one stream
ends, the other has nothing to be read, and nothing is sent after that
(`faithful_iff_eachStep`).

* `Faithful` is what is wanted of a state: while the relay runs, what a side has sent is what
  was delivered, what the relay holds and what is in the pipe; once it has returned, all of
  it was delivered.
* `NothingLeft` is the condition on a step: an end of stream leaves the other pipe empty, and
  nothing is sent to a relay that has returned.

`Faithful.step` connects the two for each event, and the rule for runs does the rest.
-/

namespace Houdinny.Relay.RelayStream

variable {pipes : Pipes} {w w' : World} {f : Side}

/-- What the relay has read from `f` and not written yet. -/
def World.held (w : World) (f : Side) : Bytes :=
  match w.frame with
  | .writing g _ rest => if g = f then rest else []
  | .selecting | .returned _ => []

/-- What a side has sent was delivered to the other side, or is on the way there;
    nothing is on the way once the relay has returned. -/
def Faithful (w : World) : Prop :=
  ∀ f, match w.frame with
    | .returned _ => (w.peer f.other).delivered = (w.peer f).sent
    | .selecting | .writing .. =>
      (w.peer f.other).delivered ++ w.held f ++ (w.peer f).inbox = (w.peer f).sent

/-- Where a stream ends, the other side has nothing to be read, and nothing is sent
    after the relay has returned. -/
def NothingLeft (w : World) : Io → Prop
  | .eof f => (w.peer f.other).inbox = []
  | .send _ _ => ∀ stats, w.frame ≠ .returned stats
  | _ => True

/-! ## Steps that keep the streams -/

/-- Once the relay has returned, nothing is on its way any more. -/
theorem faithful_returned {stats : RelayStats} (h : w.frame = .returned stats) :
    Faithful w ↔ ∀ f, (w.peer f.other).delivered = (w.peer f).sent := by
  simp only [Faithful, h]

/-- While the relay runs, what was sent is delivered, held or in the pipe. -/
theorem faithful_running (h : ∀ stats, w.frame ≠ .returned stats) :
    Faithful w ↔
      ∀ f, (w.peer f.other).delivered ++ w.held f ++ (w.peer f).inbox = (w.peer f).sent := by
  rw [Faithful]
  refine forall_congr' fun f => ?_
  rcases hframe : w.frame with _ | ⟨g, n, rest⟩ | stats
  · rfl
  · rfl
  · exact absurd hframe (h stats)

/-- A peer that changes neither what it has sent nor what was delivered to it, nor
    what is to be read from it. -/
theorem faithful_setPeer {p : Peer} (hsent : p.sent = (w.peer f).sent)
    (hdelivered : p.delivered = (w.peer f).delivered) (hinbox : p.inbox = (w.peer f).inbox) :
    Faithful (w.setPeer f p) ↔ Faithful w := by
  have hpeer : ∀ g, ((w.setPeer f p).peer g).sent = (w.peer g).sent ∧
      ((w.setPeer f p).peer g).delivered = (w.peer g).delivered ∧
      ((w.setPeer f p).peer g).inbox = (w.peer g).inbox := by
    intro g
    by_cases hg : g = f
    · rw [hg, World.setPeer_peer_self]
      exact ⟨hsent, hdelivered, hinbox⟩
    · rw [World.setPeer_peer_of_ne w hg]
      exact ⟨rfl, rfl, rfl⟩
  refine forall_congr' fun g => ?_
  rw [World.setPeer_frame, (hpeer g).1, (hpeer g).2.2, (hpeer g.other).2.1]
  rfl

/-- What is sent is on its way as long as the relay runs. -/
theorem Faithful.send (h : Faithful w) {bs : Bytes} (hs : w.send pipes f bs = some w') :
    Faithful w' ↔ NothingLeft w (.send f bs) := by
  rw [World.send] at hs
  split_ifs at hs with hguard
  obtain rfl := Option.some.inj hs
  constructor
  · intro h' stats hframe
    -- Nothing that is sent to a relay that has returned is delivered.
    have hnew := (faithful_returned (w := w.setPeer f _) hframe).1 h' f
    rw [World.setPeer_peer_self, World.setPeer_peer_of_ne w f.other_ne, Peer.sent_send,
      (faithful_returned hframe).1 h f] at hnew
    exact hguard.1 (List.append_right_eq_self.1 hnew.symm)
  · intro hrunning
    refine (faithful_running (w := w.setPeer f _) hrunning).2 fun g => ?_
    have hg := (faithful_running hrunning).1 h g
    change _ ++ w.held g ++ _ = _
    rcases Side.eq_or_eq_other f g with rfl | rfl
    · rw [World.setPeer_peer_self, World.setPeer_peer_of_ne w g.other_ne, Peer.inbox_send,
        Peer.sent_send, ← hg, List.append_assoc _ _ bs]
    · rw [Side.other_other, World.setPeer_peer_self, World.setPeer_peer_of_ne w f.other_ne,
        Peer.delivered_send]
      rwa [Side.other_other] at hg

/-- What is read is held by the relay. -/
theorem Faithful.read (h : Faithful w) {k : ℕ} (hs : w.read f k = some w') : Faithful w' := by
  obtain ⟨hframe, -, -, rfl⟩ := read_eq_some hs
  have hrunning : ∀ stats, w.frame ≠ .returned stats := fun stats => by simp [hframe]
  refine (faithful_running fun stats => by simp).2 fun g => ?_
  have hg := (faithful_running hrunning).1 h g
  have hheld : w.held g = [] := by rw [World.held, hframe]
  rw [hheld, List.append_nil] at hg
  change ((w.setPeer f _).peer g.other).delivered ++ (if f = g then _ else _) ++
    ((w.setPeer f _).peer g).inbox = ((w.setPeer f _).peer g).sent
  rcases Side.eq_or_eq_other f g with rfl | rfl
  · -- The side that is read, and then the other one, whose stream is as before.
    rw [if_pos rfl, World.setPeer_peer_self, World.setPeer_peer_of_ne w g.other_ne,
      Peer.inbox_unload, Peer.sent_unload, List.append_assoc, List.take_append_drop, hg]
  · rw [Side.other_other] at hg ⊢
    rw [if_neg f.ne_other, World.setPeer_peer_self, World.setPeer_peer_of_ne w f.other_ne,
      Peer.delivered_unload, List.append_nil, hg]

/-- What is written is delivered. -/
theorem Faithful.write (h : Faithful w) {k : ℕ} (hs : w.write pipes k = some w') :
    Faithful w' := by
  obtain ⟨f, n, rest, hframe⟩ := frame_of_write hs
  obtain ⟨-, -, -, hother, hself, hnext⟩ := write_eq_some hframe hs
  have hrunning : ∀ stats, w.frame ≠ .returned stats := fun stats => by simp [hframe]
  have hrunning' : ∀ stats, w'.frame ≠ .returned stats := fun stats => by
    rcases hnext with ⟨-, hframe'⟩ | ⟨-, hframe'⟩ <;> simp [hframe']
  -- What is held of the chunk is what is left to be written.
  have hheld : w.held f = rest ∧ w'.held f = rest.drop k ∧
      w.held f.other = [] ∧ w'.held f.other = [] := by
    rcases hnext with ⟨hnil, hframe'⟩ | ⟨-, hframe'⟩
    · simp [World.held, hframe, hframe', hnil]
    · simp [World.held, hframe, hframe']
  refine (faithful_running hrunning').2 fun g => ?_
  have hg := (faithful_running hrunning).1 h g
  rcases Side.eq_or_eq_other f g with rfl | rfl
  · rw [hheld.1] at hg
    rw [hheld.2.1, hother, hself, Peer.delivered_load, List.append_assoc _ (rest.take k),
      List.take_append_drop, hg]
  · rw [hheld.2.2.1, Side.other_other] at hg
    rw [hheld.2.2.2, Side.other_other, hother, hself, Peer.inbox_load, Peer.sent_load, hg]

/-- Where a stream ends, the relay returns: both streams are delivered if the other
    side has nothing to be read. -/
theorem Faithful.eof (h : Faithful w) (hs : ioStep pipes w (.eof f) = some w') :
    Faithful w' ↔ NothingLeft w (.eof f) := by
  rw [ioStep] at hs
  split_ifs at hs with hguard
  obtain rfl := Option.some.inj hs
  obtain ⟨hframe, hnil, -⟩ := hguard
  have hrunning : ∀ stats, w.frame ≠ .returned stats := fun stats => by simp [hframe]
  -- The relay holds nothing between the reads: only the pipes are left to look at.
  have hall : ∀ g, (w.peer g.other).delivered ++ (w.peer g).inbox = (w.peer g).sent := fun g => by
    have hg := (faithful_running hrunning).1 h g
    rwa [World.held, hframe, List.append_nil] at hg
  rw [faithful_returned (w := w.finish) rfl]
  change (∀ g, (w.peer g.other).delivered = (w.peer g).sent) ↔ (w.peer f.other).inbox = []
  constructor
  · intro h'
    have hother := hall f.other
    rw [← h' f.other] at hother
    exact List.append_right_eq_self.1 hother
  · intro hnil' g
    have hg := hall g
    rcases Side.eq_or_eq_other f g with rfl | rfl
    · rwa [hnil, List.append_nil] at hg
    · rwa [hnil', List.append_nil] at hg

/-- A step keeps both streams exactly if it leaves nothing. -/
theorem Faithful.step (h : Faithful w) {e : Io} (hs : ioStep pipes w e = some w') :
    Faithful w' ↔ NothingLeft w e := by
  cases e with
  | send f bs => exact h.send hs
  | finish f =>
    rw [ioStep] at hs
    split_ifs at hs
    obtain rfl := Option.some.inj hs
    exact iff_of_true ((faithful_setPeer (Peer.sent_finish _) rfl rfl).2 h) trivial
  | take f n =>
    rw [ioStep, World.take] at hs
    split_ifs at hs
    obtain rfl := Option.some.inj hs
    exact iff_of_true
      ((faithful_setPeer (Peer.sent_take ..) (Peer.delivered_take ..) rfl).2 h) trivial
  | read f n => exact iff_of_true (h.read hs) trivial
  | eof f => exact h.eof hs
  | write k => exact iff_of_true (h.write hs) trivial

/-- Nothing was sent at the start. -/
theorem faithful_new : Faithful .new := fun f => by cases f <;> rfl

/-! ## Runs -/

/-- As long as no read or write fails, both streams are delivered exactly in the runs
    in which, where one of them ends, the other side has nothing to be read, and
    nothing is sent after the relay has returned. -/
theorem faithful_iff_eachStep (pipes : Pipes) (es : List Io) :
    Run.Always (ioStep pipes) Faithful .new es ↔ Run.EachStep (ioStep pipes) NothingLeft .new es :=
  Run.always_iff_eachStep Faithful (fun _ h => h) (fun _ _ _ h hs => (h.step hs).2)
    (fun _ _ _ h hs hleft h' => hleft ((h.step hs).1 h')) faithful_new

/-- The server has sent a byte when the agent ends its sending side: the relay returns,
    and the byte is never delivered. -/
theorem not_faithful_agentEnds : ¬∀ (pipes : Pipes) (es : List Io),
    Run.Always (ioStep pipes) Faithful .new es := by
  intro h
  let pipes : Pipes := ⟨fun _ => 8192, fun _ => 8192, fun _ => by decide, fun _ => by decide⟩
  obtain ⟨w, hw, hdelivered, hsent⟩ : ∃ w, Run.run (ioStep pipes) .new
      [.send .server [1], .finish .agent, .eof .agent] = some w ∧
      (w.peer .agent).delivered = [] ∧ (w.peer .server).sent = [1] := ⟨_, rfl, rfl, rfl⟩
  have hframe : w.frame = .returned ⟨0, 0⟩ := by
    obtain rfl := Option.some.inj hw
    rfl
  have := (faithful_returned hframe).1 ((h pipes _).last hw) .server
  rw [hsent] at this
  exact List.cons_ne_nil _ _ (this.symm.trans hdelivered)

end Houdinny.Relay.RelayStream
