import Mathlib.Algebra.Ring.Nat
import Houdinny.Relay.Buffered

/-!
# The accounting of the buffered relay

Each direction of a relay keeps an `Account`: the total, the counter of the session in
progress, and what the sessions returned, beside what was really written. A step of the
relay is a step of either account (`booked_of_ioStep`): a block is written and counted, a
session is closed, or nothing is booked. So the statistics are exact, as long as the bytes
fit the counters (`always_exact`).

The two directions are alike, and so the argument is about one account:

* `Account.write` and `Account.close` are the two things that are booked, and `Account.Step`
  is a step of an account;
* `Account.Balanced` says that the books are exact, and `Balanced.step` that steps keep it;
* `World.accountUp` and `World.accountDown` read the accounts off a relay, and `Booked` says
  that a step of the relay is a step of both.

The counters are of 64 bits and wrap, so the books of an account are only balanced
(`Account.Balanced`) where less than `2 ^ 64` bytes were written. Nothing else is asked of a
run: the sessions may end in any way, and with either side still there.
-/

namespace Houdinny.Relay

/-! ## Accounts -/

/-- The books of one direction. -/
structure Account where
  total : UInt64
  /-- The counter of the session in progress. -/
  counter : UInt64
  /-- What the sessions returned. -/
  sessions : List UInt64
  /-- The number of bytes written. -/
  written : ℕ

namespace Account

/-- A block of `n` bytes is written, and counted. -/
def write (a : Account) (n : ℕ) : Account :=
  { a with counter := a.counter + UInt64.ofNat n, written := a.written + n }

/-- The session is closed. -/
def close (a : Account) : Account :=
  { a with total := a.total + a.counter, counter := 0, sessions := a.sessions ++ [a.counter] }

/-- What happens to an account. -/
inductive Step (a : Account) : Account → Prop
  | same : Step a a
  | write (n : ℕ) : Step a (a.write n)
  | close : Step a a.close

/-- Nothing is booked where the account is as before. -/
theorem Step.of_eq {a a' : Account} (h : a' = a) : Step a a' := h ▸ .same

/-- The books are exact, unless there is more than the counters hold. -/
def Balanced (a : Account) : Prop :=
  a.written < 2 ^ 64 → a.total.toNat + a.counter.toNat = a.written ∧
    (a.sessions.map UInt64.toNat).sum = a.total.toNat

/-- Counters add up where the sum fits. -/
theorem toNat_add_of_lt {x y : UInt64} (h : x.toNat + y.toNat < 2 ^ 64) :
    (x + y).toNat = x.toNat + y.toNat := by
  rw [UInt64.toNat_add, Nat.mod_eq_of_lt h]

variable {a a' : Account}

/-- A block that fits the counters is counted. -/
theorem Balanced.write (h : a.Balanced) (n : ℕ) : (a.write n).Balanced := by
  intro hlt
  -- The block fits along with all before it, and so neither it nor the counter wraps.
  obtain ⟨htotal, hsessions⟩ := h (lt_of_le_of_lt (Nat.le_add_right _ n) hlt)
  have hn : (UInt64.ofNat n).toNat = n :=
    UInt64.toNat_ofNat_of_lt' (lt_of_le_of_lt (Nat.le_add_left n _) hlt)
  have hcounter : (a.counter + UInt64.ofNat n).toNat = a.counter.toNat + n := by
    rw [toNat_add_of_lt, hn]
    rw [hn]
    simp only [Account.write] at hlt
    omega
  refine ⟨?_, hsessions⟩
  simp only [Account.write, hcounter]
  omega

/-- A session that is closed goes to the total, and to what the sessions returned. -/
theorem Balanced.close (h : a.Balanced) : a.close.Balanced := by
  intro hlt
  obtain ⟨htotal, hsessions⟩ := h hlt
  have hsum : (a.total + a.counter).toNat = a.total.toNat + a.counter.toNat :=
    toNat_add_of_lt (htotal ▸ hlt)
  refine ⟨?_, ?_⟩
  · simp only [Account.close, hsum]
    exact htotal
  · simp only [Account.close, hsum, List.map_append, List.sum_append, hsessions]
    rfl

/-- Whatever is booked, the books stay balanced. -/
theorem Balanced.step (h : a.Balanced) (hstep : a.Step a') : a'.Balanced := by
  cases hstep with
  | same => exact h
  | write n => exact h.write n
  | close => exact h.close

end Account

/-! ## The accounts of a relay -/

/-- The statistics of the calls that returned `Ok`. -/
def World.sessions (w : World) : List RelayStats := w.returns.filterMap Except.toOption

/-- The counters of the call in progress. -/
def Frame.counters : Option Frame → RelayStats
  | none | some (.flushing _) => ⟨0, 0⟩
  | some (.selecting up down) | some (.toServer _ up down) | some (.toAgent _ up down) =>
    ⟨up, down⟩

/-- The counters between the reads are the locals of the call. -/
theorem Frame.counters_selecting (up down : UInt64) :
    Frame.counters (some (.selecting up down)) = ⟨up, down⟩ := rfl

/-- The account of what is sent to the servers. -/
def World.accountUp (w : World) : Account where
  total := w.relay.totalBytesUp
  counter := (Frame.counters w.frame).bytesUp
  sessions := w.sessions.map RelayStats.bytesUp
  written := w.toServer.flatten.length

/-- The account of what is sent to the agent. -/
def World.accountDown (w : World) : Account where
  total := w.relay.totalBytesDown
  counter := (Frame.counters w.frame).bytesDown
  sessions := w.sessions.map RelayStats.bytesDown
  written := w.toAgent.flatten.length

variable {w w' : World}

/-- The accounts of a relay, in which a step of it is booked. -/
def Booked (w w' : World) : Prop :=
  w.accountUp.Step w'.accountUp ∧ w.accountDown.Step w'.accountDown

/-- Nothing is booked, where no counter changes, nothing is written, and no session is
    closed. -/
theorem Booked.of_eq (htotals : w'.relay.totalStats = w.relay.totalStats)
    (hframe : Frame.counters w'.frame = Frame.counters w.frame)
    (hsessions : w'.sessions = w.sessions) (hserver : w'.toServer = w.toServer)
    (hagent : w'.toAgent = w.toAgent) : Booked w w' := by
  obtain ⟨hup, hdown⟩ := RelayStats.mk.inj htotals
  constructor
  · exact .of_eq (by rw [World.accountUp, hup, hframe, hsessions, hserver]; rfl)
  · exact .of_eq (by rw [World.accountDown, hdown, hframe, hsessions, hagent]; rfl)

/-- A session that is closed, is booked. -/
theorem booked_finish {up down : UInt64} (htotals : w'.relay.totalStats = w.relay.totalStats)
    (hframe : Frame.counters w.frame = ⟨up, down⟩) (hsessions : w'.sessions = w.sessions)
    (hserver : w'.toServer = w.toServer) (hagent : w'.toAgent = w.toAgent) :
    Booked w (w'.finish up down) := by
  obtain ⟨hup, hdown⟩ := RelayStats.mk.inj htotals
  -- The statistics of the session are the last ones returned.
  have hclosed : (w'.finish up down).sessions = w.sessions ++ [⟨up, down⟩] := by
    rw [← hsessions]
    exact List.filterMap_append
  constructor
  · have haccount : (w'.finish up down).accountUp = w.accountUp.close := by
      rw [World.accountUp, hclosed, List.map_append]
      simp only [World.finish, World.accountUp, Account.close, hframe, hup, hserver]
      rfl
    exact haccount ▸ .close
  · have haccount : (w'.finish up down).accountDown = w.accountDown.close := by
      rw [World.accountDown, hclosed, List.map_append]
      simp only [World.finish, World.accountDown, Account.close, hframe, hdown, hagent]
      rfl
    exact haccount ▸ .close

/-- A block that is written to the server, is booked. -/
theorem booked_toServer {b : Bytes} {up down : UInt64}
    (hframe : Frame.counters w.frame = ⟨up, down⟩) :
    Booked w { w with
      frame := some (.selecting (up + World.len b) down), toServer := w.toServer ++ [b] } := by
  constructor
  · have haccount : ({ w with
        frame := some (.selecting (up + World.len b) down),
        toServer := w.toServer ++ [b] } : World).accountUp = w.accountUp.write b.length := by
      simp [World.accountUp, World.sessions, Account.write, hframe, Frame.counters_selecting,
        World.len]
    exact haccount ▸ .write b.length
  · refine .of_eq ?_
    simp [World.accountDown, World.sessions, hframe, Frame.counters_selecting]

/-- A block that is written to the agent, is booked. -/
theorem booked_toAgent {b : Bytes} {up down : UInt64}
    (hframe : Frame.counters w.frame = ⟨up, down⟩) :
    Booked w { w with
      frame := some (.selecting up (down + World.len b)), toAgent := w.toAgent ++ [b] } := by
  constructor
  · refine .of_eq ?_
    simp [World.accountUp, World.sessions, hframe, Frame.counters_selecting]
  · have haccount : ({ w with
        frame := some (.selecting up (down + World.len b)),
        toAgent := w.toAgent ++ [b] } : World).accountDown = w.accountDown.write b.length := by
      simp [World.accountDown, World.sessions, Account.write, hframe, Frame.counters_selecting,
        World.len]
    exact haccount ▸ .write b.length

/-- A call that fails returns no statistics. -/
theorem sessions_append_error (w : World) (e : Error) :
    (w.returns ++ [Except.error e]).filterMap Except.toOption = w.sessions := by
  rw [List.filterMap_append]
  exact List.append_nil _

/-- A call that starts books nothing, not even where it is rejected. -/
theorem booked_call (hframe : w.frame = none) : Booked w w.call := by
  rw [World.call]
  split_ifs
  · exact .of_eq rfl rfl (sessions_append_error w _) rfl rfl
  · exact .of_eq rfl (by rw [hframe]; rfl) rfl rfl rfl
  · exact .of_eq rfl (by rw [hframe]; rfl) rfl rfl rfl

/-- A write that succeeds is booked as a block; one that fails ends the session, but for the
    flush, which fails before there is a session. -/
theorem booked_wrote {r : Except IoError Unit} (h : w.wrote r = some w') : Booked w w' := by
  rcases r with err | u
  · obtain ⟨b, hframe, rfl⟩ | ⟨c, up, down, hframe, rfl⟩ | ⟨c, up, down, hframe, rfl⟩ :=
      World.wrote_error_cases h
    · exact .of_eq rfl (by rw [hframe]; rfl) (sessions_append_error w _) rfl rfl
    · exact booked_finish rfl (by rw [hframe]; rfl) rfl rfl rfl
    · exact booked_finish rfl (by rw [hframe]; rfl) rfl rfl rfl
  · obtain ⟨b, hframe, rfl⟩ | ⟨c, up, down, hframe, rfl⟩ | ⟨c, up, down, hframe, rfl⟩ :=
      World.wrote_ok_cases h
    · -- The flush is the first block of its session, which starts to count at zero.
      have hbooked := @booked_toServer w b 0 0 (by rw [hframe]; rfl)
      rwa [UInt64.zero_add] at hbooked
    · exact booked_toServer (by rw [hframe]; rfl)
    · exact booked_toAgent (by rw [hframe]; rfl)

/-- A read of the agent books nothing, or closes the session. -/
theorem booked_agentRead {r : ReadResult} (h : w.agentRead r = some w') : Booked w w' := by
  obtain ⟨up, down, hframe, ⟨c, -, rfl⟩ | ⟨-, rfl⟩⟩ := World.agentRead_cases h
  · exact .of_eq rfl (by rw [hframe]; rfl) rfl rfl rfl
  · exact booked_finish rfl (by rw [hframe]; rfl) rfl rfl rfl

/-- A read of the server books nothing, or closes the session. -/
theorem booked_serverRead {r : ReadResult} (h : w.serverRead r = some w') : Booked w w' := by
  obtain ⟨up, down, hframe, ⟨c, -, rfl⟩ | ⟨-, rfl⟩⟩ := World.serverRead_cases h
  · exact .of_eq rfl (by rw [hframe]; rfl) rfl rfl rfl
  · exact booked_finish rfl (by rw [hframe]; rfl) rfl rfl rfl

/-- Every step of a relay is booked. -/
theorem booked_of_ioStep {e : Io} (h : ioStep w e = some w') : Booked w w' := by
  cases e with
  | call =>
    rw [ioStep] at h
    split_ifs at h with hframe
    exact Option.some.inj h ▸ booked_call hframe
  | wrote r => exact booked_wrote h
  | agentRead r => exact booked_agentRead h
  | serverRead r => exact booked_serverRead h

/-! ## Statistics -/

/-- Between calls, the total of the statistics and the sum over the sessions are the
    number of the bytes that were written, unless there are more than the counters hold. -/
structure Exact (w : World) : Prop where
  up : w.frame = none → w.toServer.flatten.length < 2 ^ 64 →
    w.relay.totalStats.bytesUp.toNat = w.toServer.flatten.length ∧
      (w.sessions.map fun s => s.bytesUp.toNat).sum = w.toServer.flatten.length
  down : w.frame = none → w.toAgent.flatten.length < 2 ^ 64 →
    w.relay.totalStats.bytesDown.toNat = w.toAgent.flatten.length ∧
      (w.sessions.map fun s => s.bytesDown.toNat).sum = w.toAgent.flatten.length

/-- Between calls, the counters of a session are zero, and so the total is what was written. -/
theorem exact_of_balanced (hup : w.accountUp.Balanced) (hdown : w.accountDown.Balanced) :
    Exact w := by
  constructor
  · intro hframe hlt
    obtain ⟨htotal, hsum⟩ := hup hlt
    simp only [World.accountUp, hframe, Frame.counters, List.map_map] at htotal hsum
    exact ⟨htotal, hsum.trans htotal⟩
  · intro hframe hlt
    obtain ⟨htotal, hsum⟩ := hdown hlt
    simp only [World.accountDown, hframe, Frame.counters, List.map_map] at htotal hsum
    exact ⟨htotal, hsum.trans htotal⟩

/-- The statistics are exact whenever no call is in progress, whatever the reads and writes
    return, and however the sessions end: the totals are the bytes that were written, in both
    directions, and the sum over the sessions that returned. The bytes are to fit a counter of
    64 bits. -/
theorem always_exact (es : List Io) : Run.Always ioStep Exact .new es := by
  have hbalanced : Run.Always ioStep (fun w => w.accountUp.Balanced ∧ w.accountDown.Balanced)
      .new es := by
    refine Run.always_of_inv (fun w e w' hw hstep => ?_) ⟨fun _ => ⟨rfl, rfl⟩, fun _ => ⟨rfl, rfl⟩⟩
    have hbooked := booked_of_ioStep hstep
    exact ⟨hw.1.step hbooked.1, hw.2.step hbooked.2⟩
  exact hbalanced.mono fun w hw => exact_of_balanced hw.1 hw.2

end Houdinny.Relay
