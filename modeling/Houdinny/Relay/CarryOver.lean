import Houdinny.Relay.Buffered

/-!
# The carry-over buffer

A call of a relay takes the carried-over data out of the buffer before anything else,
and puts a chunk back only as it leaves, with the agent still there (`Carried`). So
the buffer never holds more than a chunk, and nothing once the agent is gone
(`World.CarriesOver`). From then on the relay rests: all that can happen is that it rejects
calls (`run_of_dead`).

`carried_ioStep` is the lemma about one event, and `always_carriesOver` what follows for
runs. Neither asks anything of the reads and writes: a failing flush, too, leaves an empty
buffer behind.
-/

namespace Houdinny.Relay.World

/-- The buffer holds as much as a read at most, and nothing if the agent is gone. -/
structure CarriesOver (w : World) : Prop where
  bounded : w.relay.buffer.length ≤ bufSize
  empty : w.relay.agentAlive = false → w.relay.buffer = []

/-- The invariant: during a call, the agent is there and the buffer is empty. -/
structure Carried (w : World) : Prop where
  idle : w.frame = none → w.CarriesOver
  alive : w.frame ≠ none → w.relay.agentAlive = true
  taken : w.frame ≠ none → w.relay.buffer = []

variable {w w' : World}

/-- An empty buffer is within any bound. -/
theorem carriesOver_of_nil (h : w.relay.buffer = []) : w.CarriesOver where
  bounded := by
    rw [h]
    exact Nat.zero_le bufSize
  empty _ := h

/-- The invariant bounds the buffer, during a call as between calls. -/
theorem Carried.carriesOver (h : w.Carried) : w.CarriesOver := by
  by_cases hframe : w.frame = none
  · exact h.idle hframe
  · exact carriesOver_of_nil (h.taken hframe)

/-- Between calls, the invariant is the bound itself. -/
theorem carried_of_idle (hframe : w.frame = none) (h : w.CarriesOver) : w.Carried where
  idle _ := h
  alive hbusy := absurd hframe hbusy
  taken hbusy := absurd hframe hbusy

/-- During a call, the agent is there and the buffer is empty. -/
theorem carried_of_busy (halive : w.relay.agentAlive = true) (hnil : w.relay.buffer = []) :
    w.Carried where
  idle _ := carriesOver_of_nil hnil
  alive _ := halive
  taken _ := hnil

/-- A new relay has an empty buffer. -/
theorem carried_new : new.Carried := carried_of_idle rfl (carriesOver_of_nil rfl)

/-! ## Steps -/

/-- A call that is not rejected takes the buffer. -/
theorem carried_call (h : w.Carried) (hframe : w.frame = none) : w.call.Carried := by
  rw [call]
  split_ifs with hdead hbuffer
  · exact carried_of_idle hframe ⟨(h.idle hframe).bounded, (h.idle hframe).empty⟩
  all_goals have halive : w.relay.agentConnected = true := by simpa using hdead
  · exact carried_of_busy halive rfl
  · exact carried_of_busy halive (by simpa using hbuffer)

/-- A chunk that is not written to the server is all that the buffer holds then. -/
theorem carried_wrote {r : Except IoError Unit} (h : w.Carried) (hw : w.wrote r = some w') :
    w'.Carried := by
  rcases r with err | u
  · obtain ⟨b, hframe, rfl⟩ | ⟨c, up, down, hframe, rfl⟩ | ⟨c, up, down, hframe, rfl⟩ :=
      wrote_error_cases hw
    · exact carried_of_idle rfl (carriesOver_of_nil (h.taken (by simp [hframe])))
    · -- The one branch that fills the buffer: it was empty, and gets a single chunk.
      have halive : w.relay.agentAlive = true := h.alive (by simp [hframe])
      refine carried_of_idle rfl ⟨?_, fun hdead => absurd (halive.symm.trans hdead) (by decide)⟩
      change (w.relay.buffer ++ c.1).length ≤ bufSize
      rw [h.taken (by simp [hframe])]
      exact c.2.2
    · exact carried_of_idle rfl (carriesOver_of_nil (h.taken (by simp [hframe])))
  · obtain ⟨b, hframe, rfl⟩ | ⟨c, up, down, hframe, rfl⟩ | ⟨c, up, down, hframe, rfl⟩ :=
      wrote_ok_cases hw
    all_goals exact carried_of_busy (h.alive (by simp [hframe])) (h.taken (by simp [hframe]))

/-- A read of the agent fills no buffer: the chunk is held by the call. -/
theorem carried_agentRead {r : ReadResult} (h : w.Carried) (hw : w.agentRead r = some w') :
    w'.Carried := by
  obtain ⟨up, down, hframe, ⟨c, -, rfl⟩ | ⟨-, rfl⟩⟩ := agentRead_cases hw
  · exact carried_of_busy (h.alive (by simp [hframe])) (h.taken (by simp [hframe]))
  · exact carried_of_idle rfl (carriesOver_of_nil (h.taken (by simp [hframe])))

/-- Nor does a read of the server. -/
theorem carried_serverRead {r : ReadResult} (h : w.Carried) (hw : w.serverRead r = some w') :
    w'.Carried := by
  obtain ⟨up, down, hframe, ⟨c, -, rfl⟩ | ⟨-, rfl⟩⟩ := serverRead_cases hw
  · exact carried_of_busy (h.alive (by simp [hframe])) (h.taken (by simp [hframe]))
  · exact carried_of_idle rfl (carriesOver_of_nil (h.taken (by simp [hframe])))

/-- Every event keeps the invariant. -/
theorem carried_ioStep {e : Io} (h : w.Carried) (hw : ioStep w e = some w') : w'.Carried := by
  cases e with
  | call =>
    rw [ioStep] at hw
    split_ifs at hw with hframe
    exact Option.some.inj hw ▸ carried_call h hframe
  | wrote r => exact carried_wrote h hw
  | agentRead r => exact carried_agentRead h hw
  | serverRead r => exact carried_serverRead h hw

/-! ## Relays whose agent is gone -/

/-- The world after `n` more calls that were rejected: nothing is read or written, and no
    field of the relay changes. -/
def rejected (w : World) (n : ℕ) : World :=
  { w with returns :=
      w.returns ++ List.replicate n (.error (.proxy "agent connection is closed".toList)) }

/-- No calls, no rejections. -/
theorem rejected_zero (w : World) : w.rejected 0 = w := by
  rw [rejected, List.replicate_zero, List.append_nil]

/-- Rejections add up. -/
theorem rejected_rejected (w : World) (m n : ℕ) :
    (w.rejected m).rejected n = w.rejected (m + n) := by
  simp only [rejected, List.append_assoc, List.replicate_append_replicate]

/-- All that can happen is a call, which is rejected. -/
theorem ioStep_of_dead {e : Io} (h : w.Carried) (hdead : w.relay.agentAlive = false) :
    ioStep w e = some w' ↔ e = .call ∧ w' = w.rejected 1 := by
  -- A call in progress has its agent, so there is none.
  have hframe : w.frame = none := by
    by_contra hbusy
    exact absurd ((h.alive hbusy).symm.trans hdead) (by decide)
  cases e with
  | call =>
    have hgone : w.relay.agentConnected = false := hdead
    have hcall : w.call = w.rejected 1 := by
      rw [call, if_pos (by rw [hgone, Bool.not_false])]
      rfl
    rw [ioStep, if_pos hframe, hcall]
    simp [eq_comm]
  | wrote r => rcases r <;> simp [ioStep, wrote, hframe]
  | agentRead r => simp [ioStep, agentRead, hframe]
  | serverRead r => simp [ioStep, serverRead, hframe]

/-- The runs of a relay whose agent is gone are the calls, all of which are rejected. -/
theorem run_of_dead {es : List Io} (h : w.Carried) (hdead : w.relay.agentAlive = false) :
    Run.run ioStep w es = some w' ↔ (∀ e ∈ es, e = .call) ∧ w' = w.rejected es.length := by
  induction es generalizing w with
  | nil => simp [Run.run, rejected_zero, eq_comm]
  | cons e es ih =>
    rw [Run.run_cons, Option.bind_eq_some_iff, List.forall_mem_cons]
    constructor
    · rintro ⟨w₁, hstep, hrun⟩
      -- The agent is as gone as before in the world with one more rejection.
      obtain ⟨rfl, rfl⟩ := (ioStep_of_dead h hdead).1 hstep
      obtain ⟨hes, rfl⟩ := (ih (carried_ioStep h hstep) hdead).1 hrun
      refine ⟨⟨rfl, hes⟩, ?_⟩
      rw [rejected_rejected, List.length_cons, Nat.add_comm]
    · rintro ⟨⟨rfl, hes⟩, rfl⟩
      have hstep : ioStep w .call = some (w.rejected 1) := (ioStep_of_dead h hdead).2 ⟨rfl, rfl⟩
      refine ⟨_, hstep, (ih (carried_ioStep h hstep) hdead).2 ⟨hes, ?_⟩⟩
      rw [rejected_rejected, List.length_cons, Nat.add_comm]

/-- Whatever the outcomes of the reads and writes, the buffer is bounded by the size of a read,
    and empty once the agent is gone; from then on every call is rejected, with no effect but
    its return. -/
theorem always_carriesOver :
    (∀ es, Run.Always ioStep CarriesOver new es) ∧
    ∀ before w, Run.run ioStep new before = some w → w.relay.agentAlive = false →
      ∀ after w', Run.run ioStep w after = some w' ↔
        (∀ e ∈ after, e = .call) ∧ w' = w.rejected after.length := by
  refine ⟨fun es => ?_, fun before w hbefore hdead after w' => ?_⟩
  · have halways : Run.Always ioStep Carried new es :=
      Run.always_of_inv (fun _ _ _ h hw => carried_ioStep h hw) carried_new
    exact halways.mono fun w h => h.carriesOver
  · have hcarried : w.Carried :=
      Run.run_inv (fun _ _ _ _ h hw => carried_ioStep h hw) carried_new hbefore
    exact run_of_dead hcarried hdead

end Houdinny.Relay.World
