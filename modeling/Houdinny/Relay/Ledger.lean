import Houdinny.Relay.Buffered

/-!
# What a relay loses

A relay moves blocks: each is what one read has returned, and it is written as it was read.
Over any number of servers, and whatever fails or is dropped, the servers together take the
blocks that were read from the agent, in order and none twice, but for those that were lost;
so does the agent with what was read from the servers. A block is lost to the servers only
where a flush fails, with an error that the caller gets, or where the call is dropped; one is
lost to the agent only where the call is dropped, or where the agent is given up
(`ledger_of_run`).

A relay holds one block at most for either side, in the call that is in progress or, between
calls, in its buffer. So the books of a side are the blocks that the reads of a run have
returned, against those that were written and the one that is held.

The books are in three parts:

* `Lossy n sent kept`: of the blocks `sent`, those in `kept` have come through in their
  order, and no more than `n` have not;
* `taken` and `served`, the chunks that the reads of a run have returned, and `drops` and
  `failures`, what may have lost one;
* `World.Ledger`, the books of either side, which each event keeps (`Ledger.step`).

Unlike in `Relay.Rotation`, nothing is asked of the run here: the books say how much is lost
at most, rather than when nothing is.
-/

namespace Houdinny.Relay

/-- Of the blocks sent, those kept have come through, and at most `n` have not. -/
structure Lossy (n : ℕ) (sent kept : List Bytes) : Prop where
  sublist : kept.Sublist sent
  length_le : sent.length ≤ kept.length + n

namespace Lossy

variable {m n : ℕ} {sent kept : List Bytes} {b : Bytes}

/-- Nothing sent, nothing lost. -/
theorem nil : Lossy n [] [] := ⟨List.Sublist.refl _, by simp⟩

/-- A block that is sent comes through. -/
theorem keep (h : Lossy n sent kept) (b : Bytes) : Lossy n (sent ++ [b]) (kept ++ [b]) := by
  refine ⟨h.sublist.append (List.Sublist.refl _), ?_⟩
  have hle := h.length_le
  simp only [List.length_append, List.length_singleton]
  omega

/-- The last block that came through is lost after all. -/
theorem lose (h : Lossy n sent (kept ++ [b])) : Lossy (n + 1) sent kept := by
  refine ⟨(List.sublist_append_left ..).trans h.sublist, ?_⟩
  have hle := h.length_le
  simp only [List.length_append, List.length_singleton] at hle
  omega

/-- A bound may be raised. -/
theorem mono (h : Lossy m sent kept) (hmn : m ≤ n) : Lossy n sent kept :=
  ⟨h.sublist, h.length_le.trans (Nat.add_le_add_left hmn _)⟩

/-- One block at most is held, and lost with all that is held. -/
theorem drop {held : List Bytes} (h : Lossy n sent (kept ++ held))
    (hheld : held.length ≤ 1) : Lossy (n + 1) sent kept := by
  rcases held with _ | ⟨b, _ | ⟨c, held⟩⟩
  · rw [List.append_nil] at h
    exact h.mono (Nat.le_succ n)
  · exact h.lose
  · simp only [List.length_cons] at hheld
    omega

end Lossy

/-! ## The record of a run -/

/-- What an event reads from the agent. -/
def Event.taken : Event → Option Bytes
  | .io (.agentRead (.data c)) => some c.1
  | _ => none

/-- What an event reads from a server. -/
def Event.served : Event → Option Bytes
  | .io (.serverRead (.data c)) => some c.1
  | _ => none

/-- The blocks that were read from the agent. -/
def taken (es : List Event) : List Bytes := es.filterMap Event.taken

/-- The blocks that were read from the servers. -/
def served (es : List Event) : List Bytes := es.filterMap Event.served

/-- Is the call dropped? -/
def Event.isDrop : Event → Bool
  | .drop => true
  | .io _ => false

/-- The calls that were dropped. -/
def drops (es : List Event) : ℕ := es.countP Event.isDrop

namespace World

/-- The calls that have failed to flush. -/
def failures (w : World) : ℕ :=
  w.returns.countP fun r => match r with
    | .error (.io _) => true
    | _ => false

/-- The block that was read from the agent, and is to be written to a server. -/
def heldUp (w : World) : List Bytes :=
  match w.frame with
  | none => if w.relay.buffer = [] then [] else [w.relay.buffer]
  | some (.flushing b) => [b]
  | some (.toServer c _ _) => [c.1]
  | some (.selecting ..) | some (.toAgent ..) => []

/-- The block that was read from a server, and is to be written to the agent. -/
def heldDown (w : World) : List Bytes :=
  match w.frame with
  | some (.toAgent c _ _) => [c.1]
  | _ => []

/-- The books after a run in which `taken` was read from the agent and `served` from the
    servers, and `dropped` calls were dropped: of the blocks that were read, all but so many
    were written, or are held. -/
structure Ledger (taken served : List Bytes) (dropped : ℕ) (w : World) : Prop where
  up : Lossy (w.failures + dropped) taken (w.toServer ++ w.heldUp)
  down : Lossy ((!w.relay.agentAlive).toNat + dropped) served (w.toAgent ++ w.heldDown)
  /-- A call in progress has an agent, and has emptied the buffer. -/
  busy : w.frame ≠ none → w.relay.agentAlive = true ∧ w.relay.buffer = []

/-- The books of a new relay are empty. -/
theorem ledger_new : Ledger [] [] 0 new := ⟨.nil, .nil, fun h => absurd rfl h⟩

variable {taken served : List Bytes} {dropped : ℕ} {w w' : World}

/-- The failures are counted one return at a time. -/
theorem failures_append (w : World) (r : Except Error RelayStats) :
    failures { w with returns := w.returns ++ [r] } =
      w.failures + failures { w with returns := [r] } := List.countP_append

/-! ## Steps -/

/-- The block in the buffer is the one that is flushed, and an empty buffer holds none. -/
theorem Ledger.call (h : w.Ledger taken served dropped) (hframe : w.frame = none) :
    w.call.Ledger taken served dropped := by
  have hup := h.up
  have hdown := h.down
  rw [heldUp, hframe] at hup
  rw [heldDown, hframe] at hdown
  rw [World.call]
  -- A rejected call fails but flushes nothing; otherwise the buffer is what is flushed.
  split_ifs with hagent hbuffer
  · refine ⟨?_, ?_, fun hbusy => absurd hframe hbusy⟩
    · rw [heldUp, hframe]
      exact (failures_append w _).symm ▸ hup
    · rw [heldDown, hframe]
      exact hdown
  · have halive : w.relay.agentConnected = true := by simpa using hagent
    have hne : w.relay.buffer ≠ [] := by simpa using hbuffer
    rw [if_neg hne] at hup
    exact ⟨hup, hdown, fun _ => ⟨halive, rfl⟩⟩
  · have halive : w.relay.agentConnected = true := by simpa using hagent
    have hnil : w.relay.buffer = [] := by simpa using hbuffer
    rw [if_pos hnil] at hup
    exact ⟨hup, hdown, fun _ => ⟨halive, hnil⟩⟩

/-- A session ends: the block that is left in the buffer is held on. -/
theorem ledger_finish {up down : UInt64}
    (hup : Lossy (w.failures + dropped) taken
      (w.toServer ++ if w.relay.buffer = [] then [] else [w.relay.buffer]))
    (hdown : Lossy ((!w.relay.agentAlive).toNat + dropped) served w.toAgent) :
    (w.finish up down).Ledger taken served dropped := by
  refine ⟨?_, ?_, fun hbusy => absurd rfl hbusy⟩
  · exact (failures_append w (.ok ⟨up, down⟩)).symm ▸ hup
  · exact (List.append_nil w.toAgent).symm ▸ hdown

/-- A write delivers its block, or loses it, unless the block is for a server that was
    being read: that is carried over. -/
theorem Ledger.wrote (h : w.Ledger taken served dropped) {r : Except IoError Unit}
    (hw : w.wrote r = some w') : w'.Ledger taken served dropped := by
  have hup := h.up
  have hdown := h.down
  rcases r with e | u
  · obtain ⟨b, hframe, rfl⟩ | ⟨c, up, down, hframe, rfl⟩ | ⟨c, up, down, hframe, rfl⟩ :=
      wrote_error_cases hw
    all_goals
      obtain ⟨halive, hbuffer⟩ := h.busy (by rw [hframe]; simp)
      rw [heldUp, hframe] at hup
      rw [heldDown, hframe] at hdown
    · -- The flush has failed: what was carried over is lost.
      refine ⟨?_, hdown, fun hbusy => absurd rfl hbusy⟩
      have hcount : failures { w with frame := none, returns := w.returns ++ [.error (.io e)] } =
          w.failures + 1 := List.countP_append
      change Lossy (_ + dropped) taken
        (w.toServer ++ if w.relay.buffer = [] then [] else [w.relay.buffer])
      rw [hcount, Nat.add_right_comm, if_pos hbuffer, List.append_nil]
      exact hup.lose
    · -- The buffer was empty, so it holds this block, and nothing else.
      refine ledger_finish ?_ ((List.append_nil w.toAgent) ▸ hdown)
      change Lossy (w.failures + dropped) taken
        (w.toServer ++ if w.relay.buffer ++ c.1 = [] then [] else [w.relay.buffer ++ c.1])
      rw [hbuffer, List.nil_append, if_neg (List.ne_nil_of_length_pos c.2.1)]
      exact hup
    · -- The agent is gone, and with it the block that it was to get.
      refine ledger_finish ?_ ?_
      · change Lossy (w.failures + dropped) taken
          (w.toServer ++ if w.relay.buffer = [] then [] else [w.relay.buffer])
        rw [if_pos hbuffer]
        exact hup
      · have hlose := hdown.lose
        rw [halive] at hlose
        have hle : (!true).toNat + dropped + 1 ≤ 1 + dropped := by
          rw [Bool.not_true, Bool.toNat_false]
          omega
        exact hlose.mono hle
  · obtain ⟨b, hframe, rfl⟩ | ⟨c, up, down, hframe, rfl⟩ | ⟨c, up, down, hframe, rfl⟩ :=
      wrote_ok_cases hw
    all_goals
      have hbusy := h.busy (by rw [hframe]; simp)
      rw [heldUp, hframe] at hup
      rw [heldDown, hframe] at hdown
    · exact ⟨(List.append_nil _).symm ▸ hup, hdown, fun _ => hbusy⟩
    · exact ⟨(List.append_nil _).symm ▸ hup, hdown, fun _ => hbusy⟩
    · exact ⟨hup, (List.append_nil _).symm ▸ hdown, fun _ => hbusy⟩

/-- What is read from the agent is held for the server. -/
theorem Ledger.agentRead (h : w.Ledger taken served dropped) {r : ReadResult}
    (hw : w.agentRead r = some w') :
    w'.Ledger (taken ++ (Event.taken (.io (.agentRead r))).toList) served dropped := by
  obtain ⟨up, down, hframe, hcases⟩ := agentRead_cases hw
  have hup := h.up
  have hdown := h.down
  obtain ⟨halive, hbuffer⟩ := h.busy (by rw [hframe]; simp)
  rw [heldUp, hframe, List.append_nil] at hup
  rw [heldDown, hframe] at hdown
  obtain ⟨c, rfl, rfl⟩ | ⟨hr, rfl⟩ := hcases
  · exact ⟨hup.keep c.1, hdown, fun _ => ⟨halive, hbuffer⟩⟩
  · -- At the end of the stream nothing was read, and the session ends with an empty buffer.
    have hnone : Event.taken (.io (.agentRead r)) = none := by
      rcases r with _ | c | e
      · rfl
      · exact absurd rfl (hr c)
      · rfl
    rw [hnone, Option.toList_none, List.append_nil]
    refine ledger_finish ?_ ?_
    · change Lossy (w.failures + dropped) taken
        (w.toServer ++ if w.relay.buffer = [] then [] else [w.relay.buffer])
      rw [if_pos hbuffer, List.append_nil]
      exact hup
    · rw [List.append_nil] at hdown
      refine hdown.mono ?_
      rw [halive]
      change 0 + dropped ≤ 1 + dropped
      omega

/-- What is read from the server is held for the agent. -/
theorem Ledger.serverRead (h : w.Ledger taken served dropped) {r : ReadResult}
    (hw : w.serverRead r = some w') :
    w'.Ledger taken (served ++ (Event.served (.io (.serverRead r))).toList) dropped := by
  obtain ⟨up, down, hframe, hcases⟩ := serverRead_cases hw
  have hup := h.up
  have hdown := h.down
  obtain ⟨halive, hbuffer⟩ := h.busy (by rw [hframe]; simp)
  rw [heldUp, hframe] at hup
  rw [heldDown, hframe, List.append_nil] at hdown
  obtain ⟨c, rfl, rfl⟩ | ⟨hr, rfl⟩ := hcases
  · exact ⟨hup, hdown.keep c.1, fun _ => ⟨halive, hbuffer⟩⟩
  · -- At the end of the server's stream, too, the session ends with nothing held.
    have hnone : Event.served (.io (.serverRead r)) = none := by
      rcases r with _ | c | e
      · rfl
      · exact absurd rfl (hr c)
      · rfl
    rw [hnone, Option.toList_none, List.append_nil]
    refine ledger_finish ?_ hdown
    rw [if_pos hbuffer]
    exact hup

/-- One block at most is held for the servers: by the call, or in the buffer. -/
theorem length_heldUp_le (w : World) : w.heldUp.length ≤ 1 := by
  rw [heldUp]
  split
  · split_ifs <;> simp
  all_goals simp

/-- One block at most is held for the agent, and only within a call. -/
theorem length_heldDown_le (w : World) : w.heldDown.length ≤ 1 := by
  rw [heldDown]
  split <;> simp

/-- A dropped call loses the block that it holds, if any. -/
theorem Ledger.drop (h : w.Ledger taken served dropped) (hw : step w .drop = some w') :
    w'.Ledger taken served (dropped + 1) := by
  rw [step] at hw
  split_ifs at hw with hframe
  obtain rfl := Option.some.inj hw
  -- The buffer was taken when the call began: the call holds all that is lost with it.
  obtain ⟨-, hbuffer⟩ := h.busy hframe
  refine ⟨?_, ?_, fun hbusy => absurd rfl hbusy⟩
  · change Lossy (w.failures + dropped + 1) taken
      (w.toServer ++ if w.relay.buffer = [] then [] else [w.relay.buffer])
    rw [if_pos hbuffer, List.append_nil]
    exact h.up.drop w.length_heldUp_le
  · change Lossy _ served (w.toAgent ++ [])
    rw [List.append_nil]
    exact h.down.drop w.length_heldDown_le

/-! ## Runs -/

/-- A step books what it reads, and the call that it drops. -/
theorem Ledger.step (h : w.Ledger taken served dropped) {e : Event} (hw : step w e = some w') :
    w'.Ledger (taken ++ e.taken.toList) (served ++ e.served.toList)
      (dropped + e.isDrop.toNat) := by
  have htaken := (List.append_nil taken).symm
  have hserved := (List.append_nil served).symm
  cases e with
  | drop => exact htaken ▸ hserved ▸ h.drop hw
  | io e =>
    cases e with
    | call =>
      rw [Relay.step, ioStep] at hw
      split_ifs at hw with hframe
      obtain rfl := Option.some.inj hw
      exact htaken ▸ hserved ▸ h.call hframe
    | wrote r => exact htaken ▸ hserved ▸ h.wrote hw
    | agentRead r => exact hserved ▸ h.agentRead hw
    | serverRead r => exact htaken ▸ h.serverRead hw

/-- One more event adds what it reads, if it reads anything. -/
theorem filterMap_concat {α β : Type} (f : α → Option β) (l : List α) (a : α) :
    (l ++ [a]).filterMap f = l.filterMap f ++ (f a).toList := by
  rw [List.filterMap_append]
  rcases h : f a with _ | b <;> simp [h]

/-- In every run, with any failures and any calls dropped, the ledger is balanced: what the
    servers took are the chunks that were read from the agent, in order, but for as many as
    there were failing flushes and dropped calls at most; and so it is for the agent. -/
theorem ledger_of_run {es : List Event} (h : Run.run Relay.step new es = some w) :
    w.Ledger (Relay.taken es) (Relay.served es) (drops es) := by
  induction es using List.reverseRecOn generalizing w with
  | nil => exact Option.some.inj h ▸ ledger_new
  | append_singleton es e ih =>
    rw [Run.run_concat] at h
    obtain ⟨v, hv, hw⟩ := Option.bind_eq_some_iff.1 h
    have hdrops : drops (es ++ [e]) = drops es + e.isDrop.toNat := by
      rw [drops, List.countP_append]
      rcases he : e.isDrop with _ | _ <;> simp [he, drops]
    rw [Relay.taken, Relay.served, filterMap_concat, filterMap_concat, hdrops]
    exact (ih hv).step hw

/-- A byte of the agent is carried over, and lost as it is flushed; one of the next server is
    delivered. -/
def lostFlush : List Event :=
  [.io .call, .io (.agentRead (.data ⟨[1], by decide⟩)), .io (.wrote (.error [])), .io .call,
    .io (.wrote (.error [])), .io .call, .io (.serverRead (.data ⟨[2], by decide⟩)),
    .io (.wrote (.ok ()))]

/-- The bound is met: the one failure has lost the one block. -/
theorem ledger_lostFlush : ∃ w, Run.run Relay.step new lostFlush = some w ∧ w.toAgent = [[2]] ∧
    w.failures = 1 ∧ w.Ledger [[1]] [[2]] 0 := by
  have hrun : (Run.run Relay.step new lostFlush).map (fun w => (w.toAgent, w.failures)) =
      some ([[2]], 1) := by decide
  obtain ⟨w, hw, hdelivered⟩ := Option.map_eq_some_iff.1 hrun
  obtain ⟨hagent, hfailures⟩ := Prod.mk.inj hdelivered
  exact ⟨w, hw, hagent, hfailures, ledger_of_run hw⟩

end World

end Houdinny.Relay
