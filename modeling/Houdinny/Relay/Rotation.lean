import Houdinny.Relay.Buffered

/-!
# Rotation of servers

What a relay guarantees over any number of servers, by the invariant `Inv` at
every suspension point: what was read from the agent is what the servers took,
followed by what the call in progress holds, followed by what is carried over;
and the totals together with the counters of the call count the blocks written.

Two steps break it, as locals of the call are lost:

* the flush of the carried-over buffer fails (`World.FlushFails`): the buffer has
  already been split off;
* the call is dropped while it is not `Frame.Quiet`: it holds data for the
  server, or has moved data that is not folded into the totals yet.

So no agent byte is lost in runs of completed calls exactly if no flush fails
(`conserved_iff_no_flush_failure`), and rotation by dropping the call is safe
exactly if, moreover, every dropped call is quiet (`accounted_iff_quiet_drops`).

Both are instances of one rule for runs, `Run.always_iff_eachStep`: an invariant that good
steps keep, and that a bad step turns into a violation of what is wanted. So for either of
them there are two lemmas, one for the good steps (`inv_ioStep`, `inv_drop`) and one for the
bad ones (`not_conserved_of_flushFails`, `not_accounted_of_drop`).
-/

namespace Houdinny.Relay

/-! ## What a call in progress holds -/

namespace Frame

/-- The data read from the agent that the call holds. -/
def pending : Frame → Bytes
  | .flushing b => b
  | .toServer c _ _ => c.1
  | .selecting .. | .toAgent .. => []

/-- The bytes counted upstream in the session. -/
def up : Frame → UInt64
  | .flushing _ => 0
  | .selecting up _ | .toServer _ up _ | .toAgent _ up _ => up

/-- The bytes counted downstream in the session. -/
def down : Frame → UInt64
  | .flushing _ => 0
  | .selecting _ down | .toServer _ _ down | .toAgent _ _ down => down

/-- The call holds no data for the server, and has not moved any. -/
def Quiet (f : Frame) : Prop := f.pending = [] ∧ f.up = 0 ∧ f.down = 0

instance (f : Frame) : Decidable f.Quiet := inferInstanceAs (Decidable (_ ∧ _ ∧ _))

end Frame

namespace World

/-- The flush of the carried-over buffer fails. -/
def FlushFails (w : World) (e : Io) : Prop :=
  (∃ b, w.frame = some (.flushing b)) ∧ ∃ err, e = .wrote (.error err)

/-- Outside of a call, what was read from the agent is what the servers took
    followed by what is carried over. -/
def Conserved (w : World) : Prop :=
  w.frame = none → w.toServer.flatten ++ w.relay.buffer = w.fromAgent

/-- Outside of a call, no byte read from the agent is missing, and the totals
    count the bytes written. -/
def Accounted (w : World) : Prop :=
  w.frame = none → w.toServer.flatten ++ w.relay.buffer = w.fromAgent ∧
    w.relay.totalStats = ⟨len w.toServer.flatten, len w.toAgent.flatten⟩

instance (w : World) : Decidable w.Conserved := inferInstanceAs (Decidable (_ → _))

instance (w : World) : Decidable w.Accounted := inferInstanceAs (Decidable (_ → _))

/-- Counters of 64 bits count concatenated blocks one by one, even where they wrap. -/
theorem len_append (a b : Bytes) : len (a ++ b) = len a + len b := by
  rw [len, List.length_append, UInt64.ofNat_add]
  rfl

/-- One more block is counted. -/
theorem len_flatten_concat (bs : List Bytes) (b : Bytes) :
    len (bs ++ [b]).flatten = len bs.flatten + len b := by
  rw [List.flatten_concat, len_append]

/-! ## The invariant -/

/-- The invariant at every suspension point. -/
structure Inv (w : World) : Prop where
  idle : w.frame = none → w.toServer.flatten ++ w.relay.buffer = w.fromAgent ∧
    w.relay.totalStats = ⟨len w.toServer.flatten, len w.toAgent.flatten⟩
  bytes : ∀ f, w.frame = some f → w.toServer.flatten ++ f.pending = w.fromAgent
  buffer : ∀ f, w.frame = some f → w.relay.buffer = []
  up : ∀ f, w.frame = some f → w.relay.totalBytesUp + f.up = len w.toServer.flatten
  down : ∀ f, w.frame = some f → w.relay.totalBytesDown + f.down = len w.toAgent.flatten
  flushing : ∀ b, w.frame = some (.flushing b) → b ≠ []

/-- Nothing was read and nothing is counted at the start. -/
theorem inv_new : Inv new where
  idle _ := ⟨rfl, rfl⟩
  bytes _ h := absurd h (by simp [new])
  buffer _ h := absurd h (by simp [new])
  up _ h := absurd h (by simp [new])
  down _ h := absurd h (by simp [new])
  flushing _ h := absurd h (by simp [new])

/-- The invariant outside of a call. -/
theorem inv_of_idle {w : World} (hf : w.frame = none)
    (hbytes : w.toServer.flatten ++ w.relay.buffer = w.fromAgent)
    (hstats : w.relay.totalStats = ⟨len w.toServer.flatten, len w.toAgent.flatten⟩) : Inv w where
  idle _ := ⟨hbytes, hstats⟩
  bytes _ h := absurd (hf.symm.trans h) (by simp)
  buffer _ h := absurd (hf.symm.trans h) (by simp)
  up _ h := absurd (hf.symm.trans h) (by simp)
  down _ h := absurd (hf.symm.trans h) (by simp)
  flushing _ h := absurd (hf.symm.trans h) (by simp)

/-- The invariant within a call. -/
theorem inv_of_frame {w : World} {f : Frame} (hf : w.frame = some f)
    (hbytes : w.toServer.flatten ++ f.pending = w.fromAgent) (hbuf : w.relay.buffer = [])
    (hup : w.relay.totalBytesUp + f.up = len w.toServer.flatten)
    (hdown : w.relay.totalBytesDown + f.down = len w.toAgent.flatten)
    (hfl : ∀ b, f = .flushing b → b ≠ []) : Inv w where
  idle h := absurd (h.symm.trans hf) (by simp)
  bytes g h := Option.some.inj (hf.symm.trans h) ▸ hbytes
  buffer _ _ := hbuf
  up g h := Option.some.inj (hf.symm.trans h) ▸ hup
  down g h := Option.some.inj (hf.symm.trans h) ▸ hdown
  flushing b h := hfl b (Option.some.inj (hf.symm.trans h))

/-- Leaving the loop establishes the invariant outside of a call. -/
theorem inv_finish {w : World} {up down : UInt64}
    (hbytes : w.toServer.flatten ++ w.relay.buffer = w.fromAgent)
    (hup : w.relay.totalBytesUp + up = len w.toServer.flatten)
    (hdown : w.relay.totalBytesDown + down = len w.toAgent.flatten) : Inv (w.finish up down) :=
  inv_of_idle rfl hbytes (by simp only [BufferedRelay.totalStats, finish, hup, hdown])

/-- A call starts with what was carried over. -/
theorem inv_call {w : World} (h : Inv w) (hf : w.frame = none) : Inv w.call := by
  obtain ⟨hbytes, hstats⟩ := h.idle hf
  obtain ⟨hup, hdown⟩ := RelayStats.mk.inj hstats
  rw [call]
  split_ifs with hagent hbuf
  · exact inv_of_idle hf hbytes hstats
  · -- The buffer moves to the frame, which flushes it.
    refine inv_of_frame rfl hbytes rfl ?_ ?_ fun b hb => ?_
    · exact (UInt64.add_zero _).trans hup
    · exact (UInt64.add_zero _).trans hdown
    · obtain rfl := Frame.flushing.inj hb
      simpa using hbuf
  · have hnil : w.relay.buffer = [] := by simpa using hbuf
    rw [hnil] at hbytes
    refine inv_of_frame rfl hbytes hnil ?_ ?_ fun b hb => by simp at hb
    · exact (UInt64.add_zero _).trans hup
    · exact (UInt64.add_zero _).trans hdown

/-- A block is written, or kept for the next server, or its agent is gone. -/
theorem inv_wrote {w w' : World} {r : Except IoError Unit} (h : Inv w) (hw : w.wrote r = some w')
    (hflush : ¬w.FlushFails (.wrote r)) : Inv w' := by
  rcases r with err | u
  · rcases wrote_error_cases hw with ⟨b, hf, -⟩ | ⟨c, up, down, hf, rfl⟩ | ⟨c, up, down, hf, rfl⟩
    · exact absurd ⟨⟨b, hf⟩, err, rfl⟩ hflush
    · -- The chunk moves from the frame to the buffer.
      refine inv_finish ?_ (h.up _ hf) (h.down _ hf)
      simpa [h.buffer _ hf, Frame.pending] using h.bytes _ hf
    · refine inv_finish ?_ (h.up _ hf) (h.down _ hf)
      simpa [agentGone, h.buffer _ hf, Frame.pending] using h.bytes _ hf
  · rcases wrote_ok_cases hw with ⟨b, hf, rfl⟩ | ⟨c, up, down, hf, rfl⟩ | ⟨c, up, down, hf, rfl⟩
    · refine inv_of_frame rfl ?_ (h.buffer _ hf) ?_ (h.down (.flushing b) hf)
        fun b hb => by simp at hb
      · simpa [Frame.pending] using h.bytes _ hf
      · change _ + len b = len (w.toServer ++ [b]).flatten
        rw [len_flatten_concat, ← h.up _ hf, Frame.up, UInt64.add_zero]
    · refine inv_of_frame rfl ?_ (h.buffer _ hf) ?_ (h.down (.toServer c up down) hf)
        fun b hb => by simp at hb
      · simpa [Frame.pending] using h.bytes _ hf
      · change _ + (up + len c.1) = len (w.toServer ++ [c.1]).flatten
        rw [len_flatten_concat, ← h.up _ hf, Frame.up, UInt64.add_assoc]
    · refine inv_of_frame rfl (h.bytes (.toAgent c up down) hf) (h.buffer _ hf)
        (h.up (.toAgent c up down) hf) ?_ fun b hb => by simp at hb
      change _ + (down + len c.1) = len (w.toAgent ++ [c.1]).flatten
      rw [len_flatten_concat, ← h.down _ hf, Frame.down, UInt64.add_assoc]

/-- Between the reads, what was read from the agent is written or carried over. -/
theorem Inv.bytes_of_selecting {w : World} {up down : UInt64} (h : Inv w)
    (hf : w.frame = some (.selecting up down)) :
    w.toServer.flatten ++ w.relay.buffer = w.fromAgent := by
  rw [h.buffer _ hf]
  exact h.bytes _ hf

/-- A chunk is read from the agent, or the agent is gone. -/
theorem inv_agentRead {w w' : World} {r : ReadResult} (h : Inv w)
    (hw : w.agentRead r = some w') : Inv w' := by
  obtain ⟨up, down, hf, ⟨c, -, rfl⟩ | ⟨-, rfl⟩⟩ := agentRead_cases hw
  · refine inv_of_frame rfl ?_ (h.buffer _ hf) (h.up (.selecting up down) hf)
      (h.down (.selecting up down) hf) fun b hb => by simp at hb
    change w.toServer.flatten ++ c.1 = w.fromAgent ++ c.1
    rw [← h.bytes _ hf, Frame.pending, List.append_nil]
  · exact inv_finish (h.bytes_of_selecting hf) (h.up _ hf) (h.down _ hf)

/-- A chunk is read from the server, or the server is gone. -/
theorem inv_serverRead {w w' : World} {r : ReadResult} (h : Inv w)
    (hw : w.serverRead r = some w') : Inv w' := by
  obtain ⟨up, down, hf, ⟨c, -, rfl⟩ | ⟨-, rfl⟩⟩ := serverRead_cases hw
  · exact inv_of_frame rfl (h.bytes (.selecting up down) hf) (h.buffer _ hf)
      (h.up (.selecting up down) hf) (h.down (.selecting up down) hf) fun b hb => by simp at hb
  · exact inv_finish (h.bytes_of_selecting hf) (h.up _ hf) (h.down _ hf)

/-- Every event keeps the invariant, unless it is a failing flush. -/
theorem inv_ioStep {w w' : World} {e : Io} (h : Inv w) (hw : ioStep w e = some w')
    (hflush : ¬w.FlushFails e) : Inv w' := by
  cases e with
  | call =>
    rw [ioStep] at hw
    split_ifs at hw with hf
    exact Option.some.inj hw ▸ inv_call h hf
  | wrote r => exact inv_wrote h hw hflush
  | agentRead r => exact inv_agentRead h hw
  | serverRead r => exact inv_serverRead h hw

/-- A failing flush loses the carried-over buffer. -/
theorem not_conserved_of_flushFails {w w' : World} {e : Io} (h : Inv w)
    (hw : ioStep w e = some w') (hflush : w.FlushFails e) : ¬w'.Conserved := by
  obtain ⟨⟨b, hf⟩, err, rfl⟩ := hflush
  simp only [ioStep, wrote, hf, Option.some.injEq] at hw
  subst hw
  intro hc
  -- The buffer was split off before the write, and is not empty.
  have hcons : w.toServer.flatten ++ w.relay.buffer = w.fromAgent := hc rfl
  rw [h.buffer _ hf, ← h.bytes _ hf] at hcons
  exact h.flushing b hf (List.append_cancel_left hcons).symm

/-! ## Runs of completed calls -/

/-- No agent byte is lost, reordered or duplicated over any number of completed
    calls, exactly in the runs in which no flush of the carried-over buffer
    fails. -/
theorem conserved_iff_no_flush_failure (es : List Io) :
    Run.Always ioStep Conserved new es ↔
      Run.EachStep ioStep (fun w e => ¬w.FlushFails e) new es :=
  Run.always_iff_eachStep Inv (fun _ h hf => (h.idle hf).1)
    (fun _ _ _ h hw hG => inv_ioStep h hw hG)
    (fun _ _ _ h hw hG => not_conserved_of_flushFails h hw (not_not.1 hG)) inv_new

/-- An agent sending three bytes to a server that fails, and then to a second
    server that fails as well. -/
def twoFailures : List Io :=
  [.call, .agentRead (.data ⟨[97, 98, 99], by decide⟩), .wrote (.error "broken pipe".toList),
    .call, .wrote (.error "broken pipe".toList)]

/-- The three bytes are lost when the second server fails. -/
theorem not_conserved_twoFailures : ¬Run.Always ioStep Conserved new twoFailures := fun h =>
  absurd (h.last rfl) (by decide)

/-! ## Runs with dropped calls -/

/-- A step that loses nothing: a dropped call is quiet, and no flush fails. -/
def Safe (w : World) : Event → Prop
  | .io e => ¬w.FlushFails e
  | .drop => ∀ f, w.frame = some f → f.Quiet

/-- Dropping a quiet call keeps the invariant. -/
theorem inv_drop {w w' : World} (h : Inv w) (hw : step w .drop = some w')
    (hq : ∀ f, w.frame = some f → f.Quiet) : Inv w' := by
  rw [step] at hw
  split_ifs at hw with hf
  obtain ⟨f, hf⟩ := Option.ne_none_iff_exists'.1 hf
  -- A quiet call holds no data for the server and has counted nothing, so that nothing is
  -- missing once its locals are gone.
  obtain ⟨hpend, hup, hdown⟩ := hq f hf
  obtain rfl := Option.some.inj hw
  refine inv_of_idle rfl ?_ ?_
  · rw [← h.bytes f hf, hpend, h.buffer f hf]
  · have h₁ := h.up f hf
    have h₂ := h.down f hf
    rw [hup, UInt64.add_zero] at h₁
    rw [hdown, UInt64.add_zero] at h₂
    rw [BufferedRelay.totalStats, h₁, h₂]

/-- Dropping a call that is not quiet loses the data it holds, or the count of
    what it moved. -/
theorem not_accounted_of_drop {w w' : World} (h : Inv w) (hw : step w .drop = some w')
    (hq : ¬∀ f, w.frame = some f → f.Quiet) : ¬w'.Accounted := by
  obtain ⟨f, hq⟩ := not_forall.1 hq
  obtain ⟨hf, hq⟩ := Classical.not_imp.1 hq
  rw [step, if_neg (by simp [hf])] at hw
  obtain rfl := Option.some.inj hw
  intro hacc
  obtain ⟨hbytes, hstats⟩ := hacc rfl
  obtain ⟨hup, hdown⟩ := RelayStats.mk.inj hstats
  refine hq ⟨?_, ?_, ?_⟩
  · -- Nothing is carried over during a call: the data it holds would be missing.
    rw [h.buffer f hf, ← h.bytes f hf] at hbytes
    exact (List.append_cancel_left hbytes).symm
  · exact UInt64.add_eq_left.1 ((h.up f hf).trans hup.symm)
  · exact UInt64.add_eq_left.1 ((h.down f hf).trans hdown.symm)

/-- Rotation by dropping the call loses no agent byte and no count, exactly in
    the runs in which every call dropped is quiet and no flush fails. -/
theorem accounted_iff_quiet_drops (es : List Event) :
    Run.Always step Accounted new es ↔ Run.EachStep step Safe new es := by
  refine Run.always_iff_eachStep Inv (fun _ h => h.idle) ?_ ?_ inv_new
  · intro w e w' h hw hG
    cases e with
    -- The good steps keep the invariant.
    | io e => exact inv_ioStep h hw hG
    | drop => exact inv_drop h hw hG
  · intro w e w' h hw hG
    cases e with
    | io e =>
      -- The bad ones lose data, or a count.
      have := not_conserved_of_flushFails h hw (not_not.1 hG)
      exact fun hacc => this fun hf => (hacc hf).1
    | drop => exact not_accounted_of_drop h hw hG

/-- An agent sending three bytes to a server that does not take them, until the
    caller drops the call to rotate. -/
def droppedWrite : List Event :=
  [.io .call, .io (.agentRead (.data ⟨[97, 98, 99], by decide⟩)), .drop]

/-- The three bytes are lost with the call. -/
theorem not_accounted_droppedWrite : ¬Run.Always step Accounted new droppedWrite := fun h =>
  absurd (h.last rfl) (by decide)

end World

end Houdinny.Relay
