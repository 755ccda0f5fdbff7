import Houdinny.Error
import Houdinny.Lib.Run

/-!
# The buffered relay

`BufferedRelay` keeps the agent side of a connection open while the server side
is replaced: `relay_through` is called with one server after another. It is
modelled as the machine of its suspension points. Between two events the
relay is outside of any call, or its call awaits (`Frame`)

* the `write_all` that flushes the carried-over buffer to the new server,
* either of the two reads of the `select!`,
* the `write_all` of a chunk read, to the server or to the agent.

What the world does is an event (`Io`): the caller calls, a write completes, a
read returns. The `World` of the machine is the relay together with the call in
progress and a record of what passed: the bytes read from the agent, the blocks
whose write succeeded on either side, and what the calls returned.

A future may also be dropped at any of its awaits (`Event.drop`). The locals of
the call are then gone; only the fields of the relay survive.

The main definitions are

* `BufferedRelay`, the fields of the struct, and `BufferedRelay.new`;
* `World.call`, `World.wrote`, `World.agentRead` and `World.serverRead`, what an event does
  at the await it ends, and `World.ioStep`, which picks among them;
* `World.step`, with dropped calls.

What each step can do is said once, by `wrote_ok_cases`, `wrote_error_cases`,
`agentRead_cases` and `serverRead_cases`. The proofs about runs go through these and do not
unfold the steps. The modules `Relay.Rotation`, `Relay.Accounting`, `Relay.CarryOver` and
`Relay.Ledger` are about the runs of this machine.

The durations in the statistics are left out: of the time when the first call
started, the relay keeps only whether it is set.
-/

namespace Houdinny.Relay

/-- Default read buffer size. -/
def bufSize : ℕ := 8 * 1024

/-- What a read into a buffer of `bufSize` bytes returns, short of the end. -/
abbrev Chunk := {bs : Bytes // 0 < bs.length ∧ bs.length ≤ bufSize}

/-- Statistics gathered during a relay session. -/
structure RelayStats where
  bytesUp : UInt64
  bytesDown : UInt64
  deriving DecidableEq

/-- A relay that can rotate server connections while keeping the agent side open. -/
structure BufferedRelay where
  /-- Data received from the agent, for the next server. -/
  buffer : Bytes
  /-- Whether the agent side is still connected. -/
  agentConnected : Bool
  totalBytesUp : UInt64
  totalBytesDown : UInt64
  /-- Whether a call has started (`started_at`). -/
  started : Bool
  deriving DecidableEq

namespace BufferedRelay

/-- A relay around the stream of an agent, before its first call. -/
def new : BufferedRelay := ⟨[], true, 0, 0, false⟩

/-- Whether the agent side of the relay is still connected. -/
def agentAlive (r : BufferedRelay) : Bool := r.agentConnected

/-- Cumulative statistics across all calls. -/
def totalStats (r : BufferedRelay) : RelayStats := ⟨r.totalBytesUp, r.totalBytesDown⟩

end BufferedRelay

/-- Where a call of `relay_through` awaits, with the locals it holds there. -/
inductive Frame
  /-- `server.write_all(&buffered)`, the buffer having been split off. -/
  | flushing (buffered : Bytes)
  /-- The `select!` of the two reads. -/
  | selecting (up down : UInt64)
  /-- `server.write_all(&agent_buf[..n])`. -/
  | toServer (chunk : Chunk) (up down : UInt64)
  /-- `agent_writer.write_all(&server_buf[..n])`. -/
  | toAgent (chunk : Chunk) (up down : UInt64)
  deriving DecidableEq

/-- What a read returns. -/
inductive ReadResult
  | eof
  | data (chunk : Chunk)
  | err (e : IoError)
  deriving DecidableEq

/-- What happens to a relay. -/
inductive Io
  /-- `relay_through` is called, with a new server. -/
  | call
  /-- The `write_all` awaited completes. -/
  | wrote (r : Except IoError Unit)
  | agentRead (r : ReadResult)
  | serverRead (r : ReadResult)

/-- A relay, the call in progress, and what passed so far. -/
structure World where
  relay : BufferedRelay
  frame : Option Frame
  /-- All chunks read from the agent. -/
  fromAgent : Bytes
  /-- The blocks whose server `write_all` succeeded, over all servers. -/
  toServer : List Bytes
  /-- The blocks whose agent `write_all` succeeded. -/
  toAgent : List Bytes
  /-- What the calls returned. -/
  returns : List (Except Error RelayStats)

namespace World

/-- The world before the first call. -/
def new : World := ⟨.new, none, [], [], [], []⟩

/-- `n as u64`, for the length of a block. -/
def len (bs : Bytes) : UInt64 := UInt64.ofNat bs.length

/-- A call starts: it is rejected once the agent is gone, and otherwise flushes
    what was carried over, if anything. -/
def call (w : World) : World :=
  if !w.relay.agentConnected then
    { w with returns := w.returns ++ [.error (.proxy "agent connection is closed".toList)] }
  else if !w.relay.buffer.isEmpty then
    { w with
      relay := { w.relay with buffer := [], started := true }
      frame := some (.flushing w.relay.buffer) }
  else { w with relay := { w.relay with started := true }, frame := some (.selecting 0 0) }

/-- A call leaves its loop: the session is folded into the totals. -/
def finish (w : World) (up down : UInt64) : World :=
  { w with
    relay := { w.relay with
      totalBytesUp := w.relay.totalBytesUp + up
      totalBytesDown := w.relay.totalBytesDown + down }
    frame := none
    returns := w.returns ++ [.ok ⟨up, down⟩] }

/-- The agent side is given up. -/
def agentGone (w : World) : World := { w with relay := { w.relay with agentConnected := false } }

/-- The `write_all` awaited completes. -/
def wrote (w : World) : Except IoError Unit → Option World
  | .ok _ => match w.frame with
    | some (.flushing b) =>
      some { w with frame := some (.selecting (len b) 0), toServer := w.toServer ++ [b] }
    | some (.toServer c up down) =>
      some { w with
        frame := some (.selecting (up + len c.1) down)
        toServer := w.toServer ++ [c.1] }
    | some (.toAgent c up down) =>
      some { w with frame := some (.selecting up (down + len c.1)), toAgent := w.toAgent ++ [c.1] }
    | _ => none
  | .error e => match w.frame with
    | some (.flushing _) => some { w with frame := none, returns := w.returns ++ [.error (.io e)] }
    | some (.toServer c up down) =>
      -- The chunk is kept for the next server.
      some ({ w with relay := { w.relay with buffer := w.relay.buffer ++ c.1 } }.finish up down)
    | some (.toAgent _ up down) => some (w.agentGone.finish up down)
    | _ => none

/-- The read of the agent wins the `select!`. -/
def agentRead (w : World) (r : ReadResult) : Option World :=
  match w.frame with
  | some (.selecting up down) => match r with
    | .data c =>
      some { w with frame := some (.toServer c up down), fromAgent := w.fromAgent ++ c.1 }
    | .eof | .err _ => some (w.agentGone.finish up down)
  | _ => none

/-- The read of the server wins the `select!`. -/
def serverRead (w : World) (r : ReadResult) : Option World :=
  match w.frame with
  | some (.selecting up down) => match r with
    | .data c => some { w with frame := some (.toAgent c up down) }
    | .eof | .err _ => some (w.finish up down)
  | _ => none

variable {w w' : World} {r : ReadResult}

/-- A write succeeds: its block is written and counted. -/
theorem wrote_ok_cases {u : Unit} (h : w.wrote (.ok u) = some w') :
    (∃ b, w.frame = some (.flushing b) ∧
      { w with frame := some (.selecting (len b) 0), toServer := w.toServer ++ [b] } = w') ∨
    (∃ c up down, w.frame = some (.toServer c up down) ∧
      { w with
        frame := some (.selecting (up + len c.1) down)
        toServer := w.toServer ++ [c.1] } = w') ∨
    ∃ c up down, w.frame = some (.toAgent c up down) ∧
      { w with
        frame := some (.selecting up (down + len c.1))
        toAgent := w.toAgent ++ [c.1] } = w' := by
  rw [wrote] at h
  split at h
  · next b hframe => exact .inl ⟨b, hframe, Option.some.inj h⟩
  · next c up down hframe => exact .inr (.inl ⟨c, up, down, hframe, Option.some.inj h⟩)
  · next c up down hframe => exact .inr (.inr ⟨c, up, down, hframe, Option.some.inj h⟩)
  · exact absurd h (by simp)

/-- A write fails: the call does, if it was the flush, and the session ends otherwise. -/
theorem wrote_error_cases {e : IoError} (h : w.wrote (.error e) = some w') :
    (∃ b, w.frame = some (.flushing b) ∧
      { w with frame := none, returns := w.returns ++ [.error (.io e)] } = w') ∨
    (∃ c up down, w.frame = some (.toServer c up down) ∧
      { w with relay := { w.relay with buffer := w.relay.buffer ++ c.1 } }.finish up down = w') ∨
    ∃ c up down, w.frame = some (.toAgent c up down) ∧ w.agentGone.finish up down = w' := by
  rw [wrote] at h
  split at h
  · next b hframe => exact .inl ⟨b, hframe, Option.some.inj h⟩
  · next c up down hframe => exact .inr (.inl ⟨c, up, down, hframe, Option.some.inj h⟩)
  · next c up down hframe => exact .inr (.inr ⟨c, up, down, hframe, Option.some.inj h⟩)
  · exact absurd h (by simp)

/-- A read of the agent gives a chunk for the server, or ends the session. -/
theorem agentRead_cases (h : w.agentRead r = some w') :
    ∃ up down, w.frame = some (.selecting up down) ∧
      ((∃ c, r = .data c ∧
          { w with frame := some (.toServer c up down), fromAgent := w.fromAgent ++ c.1 } = w') ∨
        (∀ c, r ≠ .data c) ∧ w.agentGone.finish up down = w') := by
  rw [agentRead] at h
  split at h
  · next up down hframe =>
    refine ⟨up, down, hframe, ?_⟩
    cases r with
    | data c => exact .inl ⟨c, rfl, Option.some.inj h⟩
    | eof => exact .inr ⟨fun c => ReadResult.noConfusion, Option.some.inj h⟩
    | err e => exact .inr ⟨fun c => ReadResult.noConfusion, Option.some.inj h⟩
  · exact absurd h (by simp)

/-- A read of the server gives a chunk for the agent, or ends the session. -/
theorem serverRead_cases (h : w.serverRead r = some w') :
    ∃ up down, w.frame = some (.selecting up down) ∧
      ((∃ c, r = .data c ∧ { w with frame := some (.toAgent c up down) } = w') ∨
        (∀ c, r ≠ .data c) ∧ w.finish up down = w') := by
  rw [serverRead] at h
  split at h
  · next up down hframe =>
    refine ⟨up, down, hframe, ?_⟩
    cases r with
    | data c => exact .inl ⟨c, rfl, Option.some.inj h⟩
    | eof => exact .inr ⟨fun c => ReadResult.noConfusion, Option.some.inj h⟩
    | err e => exact .inr ⟨fun c => ReadResult.noConfusion, Option.some.inj h⟩
  · exact absurd h (by simp)

end World

/-- What an event does to a relay, if it can happen. -/
def ioStep (w : World) : Io → Option World
  | .call => if w.frame = none then some w.call else none
  | .wrote r => w.wrote r
  | .agentRead r => w.agentRead r
  | .serverRead r => w.serverRead r

/-- What happens to a relay whose caller may drop the call in progress. -/
inductive Event
  | io (e : Io)
  | drop

/-- Dropping the call in progress: its locals are gone. -/
def step (w : World) : Event → Option World
  | .io e => ioStep w e
  | .drop => if w.frame = none then none else some { w with frame := none }

end Houdinny.Relay
