import Mathlib.Logic.Function.Basic
import Houdinny.Relay.Buffered

/-!
# The relay stream

`RelayStream::relay` connects an agent and a server, each by two pipes of bounded
capacity: one from the peer to the relay, and one back. It is modelled as the
machine of its suspension points (`Frame`): the `select!` of the two reads, and
the `write_all` of a chunk read, which may write in parts, as far as there is room.

The peers send, end their sending side, and take what was written to them, at any
time. The two directions of the relay do the same thing, each to a peer of its
own, so both are one definition with the `Side` that is read as a parameter.

The main definitions are

* `Peer`, a peer with the pipes between it and the relay, and with a record of all that it
  has sent;
* `World`, the two peers and the await of the relay;
* `World.send` and `World.take`, what a peer does, and `World.read` and `World.write`, what
  the relay does;
* `ioStep`, the machine without errors, and `step`, where a read or a write may fail.

The two modules on the runs of this machine are `Relay.Independence`, on when the directions
get in each other's way, and `Relay.HalfClose`, on what is left when one of them ends.

The duration in the statistics is left out.
-/

namespace Houdinny.Relay.RelayStream

/-- The two sides of a relay. -/
inductive Side
  | agent
  | server
  deriving DecidableEq

/-- The opposite side. -/
def Side.other : Side → Side
  | agent => server
  | server => agent

@[simp] theorem Side.other_other (f : Side) : f.other.other = f := by cases f <;> rfl

@[simp] theorem Side.other_ne (f : Side) : f.other ≠ f := by cases f <;> decide

@[simp] theorem Side.ne_other (f : Side) : f ≠ f.other := by cases f <;> decide

/-- There are only these two sides. -/
theorem Side.eq_or_eq_other (f g : Side) : g = f ∨ g = f.other := by
  cases f <;> cases g <;> simp [Side.other]

/-- A peer, with the pipes that connect it to the relay. -/
structure Peer where
  /-- What it has sent and the relay has not read yet. -/
  inbox : Bytes
  /-- It has ended its sending side. -/
  ended : Bool
  /-- What the relay has written and it has not taken yet. -/
  outbox : Bytes
  /-- All that it has sent. -/
  sent : Bytes
  /-- All that it has taken. -/
  taken : Bytes
  deriving DecidableEq

namespace Peer

/-- All that was delivered to a peer: it has taken it, or can. -/
def delivered (p : Peer) : Bytes := p.taken ++ p.outbox

/-- The peer puts bytes into its pipe to the relay. -/
def send (bs : Bytes) (p : Peer) : Peer := { p with inbox := p.inbox ++ bs, sent := p.sent ++ bs }

/-- The peer ends its sending side. -/
def finish (p : Peer) : Peer := { p with ended := true }

/-- The peer takes `n` bytes of what the relay has written. -/
def take (n : ℕ) (p : Peer) : Peer :=
  { p with outbox := p.outbox.drop n, taken := p.taken ++ p.outbox.take n }

/-- The relay reads `n` bytes. -/
def unload (n : ℕ) (p : Peer) : Peer := { p with inbox := p.inbox.drop n }

/-- The relay writes. -/
def load (bs : Bytes) (p : Peer) : Peer := { p with outbox := p.outbox ++ bs }

variable (p : Peer) (bs : Bytes) (n : ℕ)

@[simp] theorem inbox_send : (p.send bs).inbox = p.inbox ++ bs := rfl
@[simp] theorem outbox_send : (p.send bs).outbox = p.outbox := rfl
@[simp] theorem sent_send : (p.send bs).sent = p.sent ++ bs := rfl
@[simp] theorem delivered_send : (p.send bs).delivered = p.delivered := rfl
@[simp] theorem inbox_finish : p.finish.inbox = p.inbox := rfl
@[simp] theorem outbox_finish : p.finish.outbox = p.outbox := rfl
@[simp] theorem sent_finish : p.finish.sent = p.sent := rfl
@[simp] theorem delivered_finish : p.finish.delivered = p.delivered := rfl
@[simp] theorem inbox_take : (p.take n).inbox = p.inbox := rfl
@[simp] theorem outbox_take : (p.take n).outbox = p.outbox.drop n := rfl
@[simp] theorem sent_take : (p.take n).sent = p.sent := rfl
@[simp] theorem inbox_unload : (p.unload n).inbox = p.inbox.drop n := rfl
@[simp] theorem outbox_unload : (p.unload n).outbox = p.outbox := rfl
@[simp] theorem sent_unload : (p.unload n).sent = p.sent := rfl
@[simp] theorem delivered_unload : (p.unload n).delivered = p.delivered := rfl
@[simp] theorem inbox_load : (p.load bs).inbox = p.inbox := rfl
@[simp] theorem outbox_load : (p.load bs).outbox = p.outbox ++ bs := rfl
@[simp] theorem sent_load : (p.load bs).sent = p.sent := rfl

@[simp] theorem delivered_take : (p.take n).delivered = p.delivered := by
  rw [delivered, delivered, take, List.append_assoc, List.take_append_drop]

@[simp] theorem delivered_load : (p.load bs).delivered = p.delivered ++ bs :=
  (List.append_assoc ..).symm

end Peer

/-- The capacities of the pipes. -/
structure Pipes where
  toRelay : Side → ℕ
  toPeer : Side → ℕ
  toRelay_pos : ∀ f, 0 < toRelay f
  toPeer_pos : ∀ f, 0 < toPeer f

/-- Where the relay awaits. -/
inductive Frame
  /-- The `select!` of the two reads. -/
  | selecting
  /-- The `write_all` of a chunk of `n` bytes read from `source`, of which `rest` is
      still to be written. -/
  | writing (source : Side) (n : ℕ) (rest : Bytes)
  /-- It has returned. -/
  | returned (stats : RelayStats)
  deriving DecidableEq

/-- The relay and its peers. -/
structure World where
  frame : Frame
  peer : Side → Peer
  /-- The locals `up` and `down`: the bytes relayed from each side. -/
  moved : Side → UInt64
  /-- The counters `bytes_relayed_up` and `bytes_relayed_down`. -/
  relayed : Side → UInt64

/-- What happens as long as no read or write fails. -/
inductive Io
  | send (f : Side) (bs : Bytes)
  | finish (f : Side)
  | take (f : Side) (n : ℕ)
  /-- The read from `f` wins the `select!`, with `n` bytes. -/
  | read (f : Side) (n : ℕ)
  /-- The read from `f` wins the `select!`, at the end of the stream. -/
  | eof (f : Side)
  /-- The `write_all` awaited writes `n` bytes. -/
  | write (n : ℕ)
  deriving DecidableEq

/-- What happens. -/
inductive Event
  | io (e : Io)
  | readError (f : Side)
  | writeError

namespace World

/-- The peers and the relay, before anything was sent. -/
def new : World where
  frame := .selecting
  peer _ := ⟨[], false, [], [], []⟩
  moved _ := 0
  relayed _ := 0

/-- The world with another peer on one side. -/
def setPeer (w : World) (f : Side) (p : Peer) : World :=
  { w with peer := Function.update w.peer f p }

@[simp] theorem setPeer_frame (w : World) (f : Side) (p : Peer) :
    (w.setPeer f p).frame = w.frame := rfl

@[simp] theorem setPeer_peer_self (w : World) (f : Side) (p : Peer) : (w.setPeer f p).peer f = p :=
  Function.update_self ..

/-- The peer on the other side is as before. -/
theorem setPeer_peer_of_ne (w : World) {f g : Side} (h : g ≠ f) (p : Peer) :
    (w.setPeer f p).peer g = w.peer g :=
  Function.update_of_ne h ..

/-- The loop is left. -/
def finish (w : World) : World := { w with frame := .returned ⟨w.moved .agent, w.moved .server⟩ }

/-- The room in the pipe to a peer. -/
def room (pipes : Pipes) (w : World) (f : Side) : ℕ := pipes.toPeer f - (w.peer f).outbox.length

/-- There is as much room as before, if no pipe to a peer has changed. -/
theorem room_setPeer (pipes : Pipes) {w : World} {f : Side} {p : Peer}
    (h : p.outbox = (w.peer f).outbox) (g : Side) :
    (w.setPeer f p).room pipes g = w.room pipes g := by
  by_cases hg : g = f
  · rw [room, room, hg, setPeer_peer_self, h]
  · rw [room, room, setPeer_peer_of_ne w hg]

/-- A peer sends. -/
def send (pipes : Pipes) (w : World) (f : Side) (bs : Bytes) : Option World :=
  let p := w.peer f
  if bs ≠ [] ∧ p.ended = false ∧ p.inbox.length + bs.length ≤ pipes.toRelay f then
    some (w.setPeer f (p.send bs))
  else none

/-- A peer takes bytes written to it. -/
def take (w : World) (f : Side) (n : ℕ) : Option World :=
  let p := w.peer f
  if 0 < n ∧ n ≤ p.outbox.length then some (w.setPeer f (p.take n)) else none

/-- A read returns data. -/
def read (w : World) (f : Side) (n : ℕ) : Option World :=
  let p := w.peer f
  if w.frame = .selecting ∧ 0 < n ∧ n ≤ bufSize ∧ n ≤ p.inbox.length then
    some { w.setPeer f (p.unload n) with frame := .writing f n (p.inbox.take n) }
  else none

/-- A write puts bytes into the pipe: the chunk is counted once it is written. -/
def write (pipes : Pipes) (w : World) (k : ℕ) : Option World :=
  match w.frame with
  | .writing f n rest =>
    if 0 < k ∧ k ≤ rest.length ∧ k ≤ w.room pipes f.other then
      let w := w.setPeer f.other ((w.peer f.other).load (rest.take k))
      if rest.drop k = [] then
        let moved := w.moved f + UInt64.ofNat n
        some { w with
          frame := .selecting
          moved := Function.update w.moved f moved
          relayed := Function.update w.relayed f moved }
      else some { w with frame := .writing f n (rest.drop k) }
    else none
  | _ => none

end World

/-- What an event does, if it can happen. -/
def ioStep (pipes : Pipes) (w : World) : Io → Option World
  | .send f bs => w.send pipes f bs
  | .finish f =>
    if (w.peer f).ended then none else some (w.setPeer f (w.peer f).finish)
  | .take f n => w.take f n
  | .read f n => w.read f n
  | .eof f =>
    if w.frame = .selecting ∧ (w.peer f).inbox = [] ∧ (w.peer f).ended then some w.finish else none
  | .write k => w.write pipes k

/-- What an event does, if it can happen: the relay returns where a read or a write
    fails. -/
def step (pipes : Pipes) (w : World) : Event → Option World
  | .io e => ioStep pipes w e
  | .readError _ => if w.frame = .selecting then some w.finish else none
  | .writeError =>
    match w.frame with
    | .writing .. => some w.finish
    | _ => none

/-! ## What the events do -/

variable {pipes : Pipes} {w w' : World} {f : Side} {n : ℕ}

/-- A read takes bytes that are there, and turns to writing them. -/
theorem read_eq_some (h : w.read f n = some w') : w.frame = .selecting ∧ 0 < n ∧
    n ≤ (w.peer f).inbox.length ∧
    w' = { w.setPeer f ((w.peer f).unload n) with
      frame := .writing f n ((w.peer f).inbox.take n) } := by
  rw [World.read] at h
  split_ifs at h with hguard
  exact ⟨hguard.1, hguard.2.1, hguard.2.2.2, (Option.some.inj h).symm⟩

/-- A byte that is there can be read. -/
theorem exists_read (hframe : w.frame = .selecting) (h : (w.peer f).inbox ≠ []) :
    ∃ w', w.read f 1 = some w' ∧ (w'.peer f).inbox.length < (w.peer f).inbox.length := by
  have hpos := List.length_pos_iff.2 h
  rw [World.read, if_pos ⟨hframe, Nat.one_pos, by decide, hpos⟩]
  refine ⟨_, rfl, ?_⟩
  change ((w.setPeer f _).peer f).inbox.length < _
  rw [World.setPeer_peer_self, Peer.inbox_unload, List.length_drop]
  omega

/-- A write goes on with the same chunk, or was the last one of it. -/
theorem write_eq_some {k : ℕ} {rest : Bytes} (hframe : w.frame = .writing f n rest)
    (h : w.write pipes k = some w') : 0 < k ∧ k ≤ rest.length ∧ k ≤ w.room pipes f.other ∧
    w'.peer f.other = (w.peer f.other).load (rest.take k) ∧ w'.peer f = w.peer f ∧
    ((rest.drop k = [] ∧ w'.frame = .selecting) ∨
      (rest.drop k ≠ [] ∧ w'.frame = .writing f n (rest.drop k))) := by
  rw [World.write, hframe] at h
  dsimp only at h
  split_ifs at h with hguard hlast
  · obtain rfl := Option.some.inj h
    exact ⟨hguard.1, hguard.2.1, hguard.2.2, w.setPeer_peer_self _ _,
      w.setPeer_peer_of_ne f.ne_other _, .inl ⟨hlast, rfl⟩⟩
  · obtain rfl := Option.some.inj h
    exact ⟨hguard.1, hguard.2.1, hguard.2.2, w.setPeer_peer_self _ _,
      w.setPeer_peer_of_ne f.ne_other _, .inr ⟨hlast, rfl⟩⟩

/-- Only a relay that holds a chunk writes. -/
theorem frame_of_write {k : ℕ} (h : w.write pipes k = some w') :
    ∃ f n rest, w.frame = .writing f n rest := by
  rw [World.write] at h
  split at h
  · next f n rest hframe => exact ⟨f, n, rest, hframe⟩
  · exact absurd h (by simp)

/-- What there is room for can be written. -/
theorem exists_write (pipes : Pipes) {k : ℕ} {rest : Bytes}
    (hframe : w.frame = .writing f n rest) (hpos : 0 < k) (hle : k ≤ rest.length)
    (hroom : k ≤ w.room pipes f.other) : ∃ w', w.write pipes k = some w' := by
  rw [World.write, hframe]
  dsimp only
  rw [if_pos ⟨hpos, hle, hroom⟩]
  split_ifs <;> exact ⟨_, rfl⟩

end Houdinny.Relay.RelayStream
