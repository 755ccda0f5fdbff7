import Houdinny.Picker
import Houdinny.Proxy.Discipline
import Houdinny.Proxy.Refinement

/-!
# The proxy server

`ProxyServer::run` spawns a task for every connection that it accepts. The tasks share the
picker, and with it the pool, the health flags and the counter of the router; all else is
their own. Here are the connections with the world of the picker, and all that may happen
there: `Pool::add` and `Pool::remove`, and `Transport::close`.

A connection has a pick of its own, and it does what `handle_connection` does alone, with a
picker that returns what that pick has returned; none waits for another
(`ProxyServer.Isolated`). What they do share besides is the process: a handler that panics,
or is refused memory, ends all of them (`ProxyServer.aborted`). That only happens where a
connection declares a body for which there is no buffer.

* `Conn` is a connection: the machine of its handler, the pick that it has called for, and
  what this has returned. The two calls of the machine come apart here, as other tasks may
  take steps between them: `Conn.call` begins the pick, and `Conn.picked` is the moment at
  which it returns.
* `ProxyServer` is the connections with the `World` of the picker, and `ProxyServer.step` what
  an event does.
* `Conn.Inv` is the invariant of a connection, next to a world: there is a pick exactly if the
  handler has called for one, it is the connection's own, and the handler has done what it
  does with a picker that returns the result (`Env.answering`).
* `ProxyServer.Inv` is that of the server: the picks are those of the connections, one for
  each.

From `ProxyServer.Inv` follows all that `Isolated` says (`Inv.isolated`), in every run
(`run_isolated`).
-/

namespace Houdinny

namespace Picker

variable {w : ℕ} {τ : Type}

/-- What a pick has returned. -/
def Pick.result (p : Pick τ) : Option (Except Error τ) :=
  match p.phase with
  | .routing (.returned _ _ result) => some result
  | _ => none

/-- A pick has a result exactly if it has returned it. -/
theorem Pick.result_eq_some {p : Pick τ} {result : Except Error τ} :
    p.result = some result ↔ ∃ kept, p.Returned kept result := by
  constructor
  · intro h
    rw [Pick.result] at h
    split at h
    · next kept index _ hphase =>
      obtain rfl := Option.some.inj h
      exact ⟨kept, index, hphase⟩
    · exact absurd h (by simp)
  · rintro ⟨kept, index, hphase⟩
    rw [Pick.result, hphase]

/-- A pick has indexed out of bounds. -/
def Pick.panicked (p : Pick τ) : Bool :=
  match p.phase with
  | .routing .panicked => true
  | _ => false

/-- A pick panics in the router only. -/
theorem Pick.panicked_iff {p : Pick τ} : p.panicked = true ↔ p.phase = .routing .panicked := by
  rw [Pick.panicked]
  split
  · next h => exact iff_of_true rfl h
  · next h => exact iff_of_false Bool.false_ne_true h

/-- A pick takes steps until it returns, unless it panics. -/
theorem Pick.isSome_step_iff {s : World w τ} {draw : ℕ} {p : Pick τ} :
    (p.step s draw).isSome ↔ p.result = none ∧ p.phase ≠ .routing .panicked := by
  obtain ⟨closedBefore, snapshot, phase⟩ := p
  rcases phase with _ | ⟨kept, _ | ⟨t, rest⟩⟩ | (⟨kept, _ | ⟨t, rest⟩⟩ | ⟨kept, idx⟩ | _ | _)
  · refine iff_of_true ?_ ⟨rfl, by simp⟩
    rw [Pick.step]
    split_ifs <;> rfl
  · exact iff_of_true rfl ⟨rfl, by simp⟩
  · exact iff_of_true rfl ⟨rfl, by simp⟩
  · exact iff_of_true rfl ⟨rfl, by simp⟩
  · exact iff_of_true rfl ⟨rfl, by simp⟩
  · refine iff_of_true ?_ ⟨rfl, by simp⟩
    rw [Pick.step, Option.isSome_map, Router.Call.step]
    rcases kept[idx]? <;> rfl
  · exact iff_of_false (by simp [Pick.step, Router.Call.step]) (by simp [Pick.result])
  · exact iff_of_false (by simp [Pick.step, Router.Call.step]) (by simp)

namespace World

variable [DecidableEq τ] {id : τ → Text} {s s' : World w τ} {e : Event τ}

/-- A new pick, or a step of one, or none. -/
theorem picks_of_step (h : s.step id e = some s') :
    (e = .call ∧ ∃ p, s'.picks = s.picks ++ [p]) ∨ (e ≠ .call ∧ s'.picks = s.picks) ∨
    ∃ k draw p r p', e = .step k draw ∧ s.picks[k]? = some p ∧ p.step s draw = some (r, p') ∧
      s'.picks = s.picks.set k p' := by
  cases e with
  | write op =>
    obtain rfl := Option.some.inj h
    exact .inr (.inl ⟨by simp, rfl⟩)
  | written =>
    rw [World.step] at h
    split at h
    · exact absurd h (by simp)
    · split_ifs at h
      obtain rfl := Option.some.inj h
      exact .inr (.inl ⟨by simp, rfl⟩)
  | drop t =>
    obtain rfl := Option.some.inj h
    exact .inr (.inl ⟨by simp, rfl⟩)
  | close t =>
    obtain rfl := Option.some.inj h
    exact .inr (.inl ⟨by simp, rfl⟩)
  | closed t =>
    rw [World.step] at h
    split_ifs at h
    obtain rfl := Option.some.inj h
    exact .inr (.inl ⟨by simp, rfl⟩)
  | call =>
    obtain rfl := Option.some.inj h
    exact .inl ⟨rfl, _, rfl⟩
  | step k draw =>
    rw [World.step] at h
    split at h
    · exact absurd h (by simp)
    · next p hk =>
      obtain ⟨⟨r, p'⟩, hp', rfl⟩ := Option.map_eq_some_iff.1 h
      exact .inr (.inr ⟨k, draw, p, r, p', rfl, hk, hp', rfl⟩)

/-- Only a call makes a pick. -/
theorem length_of_step (h : s.step id e = some s') (he : e ≠ .call) :
    s'.picks.length = s.picks.length := by
  rcases picks_of_step h with ⟨hcall, -⟩ | ⟨-, hpicks⟩ | ⟨_, _, _, _, _, -, -, -, hpicks⟩
  · exact absurd hcall he
  · rw [hpicks]
  · rw [hpicks, List.length_set]

/-- A pick that has returned remains as it is. -/
theorem returned_of_step (h : s.step id e = some s') {i : ℕ} {p : Pick τ}
    (hi : s.picks[i]? = some p) {result : Except Error τ} (hp : p.result = some result) :
    s'.picks[i]? = some p := by
  rcases picks_of_step h with ⟨-, _, hpicks⟩ | ⟨-, hpicks⟩ | ⟨k, _, q, _, _, -, hk, hq, hpicks⟩
  · rw [hpicks, List.getElem?_append_left (List.getElem?_eq_some_iff.1 hi).1, hi]
  · rw [hpicks, hi]
  · have hne : k ≠ i := by
      rintro rfl
      obtain rfl := Option.some.inj (hk.symm.trans hi)
      have hnone := (Pick.isSome_step_iff.1 (Option.isSome_of_eq_some hq)).1
      exact absurd (hp.symm.trans hnone) (by simp)
    rw [hpicks, List.getElem?_set_ne hne, hi]

end World

end Picker

namespace Proxy

open Text

variable {w : ℕ} {τ : Type}

/-- The same, with a picker that returns this. -/
def Env.answering (env : Env τ) (result : Except Error τ) : Env τ :=
  { env with picker := fun _ _ => result }

/-- The handler is about to call the picker. -/
def Frame.AwaitsCall : Frame τ → Prop
  | .connecting .. | .httpConnecting .. => True
  | _ => False

instance (frame : Frame τ) : Decidable frame.AwaitsCall :=
  match frame with
  | .connecting .. | .httpConnecting .. => .isTrue trivial
  | .requestLine | .headers .. | .replying .. | .relaying _ | .httpHeaders .. | .forwarding ..
  | .body .. | .flushing _ | .done | .failed _ => .isFalse id

/-- The handler has made its calls, or has failed before. -/
def Frame.Called : Frame τ → Prop
  | .requestLine | .headers .. | .connecting .. | .httpHeaders .. | .httpConnecting .. => False
  | _ => True

/-- The calls are made once. -/
theorem Frame.Called.not_awaitsCall {frame : Frame τ} (h : frame.Called) : ¬frame.AwaitsCall := by
  rcases frame <;> first | exact h.elim | exact id

/-- The handler has ended the process. -/
def Frame.fatal : Frame τ → Bool
  | .failed e => e.fatal
  | _ => false

/-- A connection that was accepted. -/
structure Conn (τ : Type) where
  server : Server τ
  /-- Its pick, once the picker was called. -/
  pick : Option ℕ
  /-- What that has returned. -/
  result : Option (Except Error τ)

namespace Conn

/-- An event of the connection, other than the calls. -/
def on (env : Env τ) (casing : CaseMapping) (c : Conn τ) : Server.Event → Option (Conn τ)
  | .connect => none
  | e => (c.server.step env casing e).map fun server => { c with server := server }

/-- The picker is called, for the `i`-th time. -/
def call (c : Conn τ) (i : ℕ) : Option (Conn τ) :=
  if c.server.frame.AwaitsCall ∧ c.pick = none then some { c with pick := some i } else none

/-- The picker returns, and `connect` is called. -/
def picked (env : Env τ) (core : Picker.World w τ) (c : Conn τ) : Option (Conn τ) :=
  match c.result, c.pick.bind fun i => core.picks[i]?.bind Picker.Pick.result with
  | none, some result => (c.server.connect (env.answering result)).map fun server =>
    { c with server := server, result := some result }
  | _, _ => none

/-- The connection was routed: its pick has advanced the counter, if there is one. -/
def routed (core : Picker.World w τ) (c : Conn τ) : Bool :=
  c.pick.any fun i => core.picks[i]?.any Picker.Pick.advanced

/-- What the pick of the connection may return, or has returned. -/
def Admits (c : Conn τ) (result : Except Error τ) : Prop :=
  ∀ result', c.result = some result' → result = result'

end Conn

/-- The running server: the connections, and what their picks share. -/
structure ProxyServer (w : ℕ) (τ : Type) where
  core : Picker.World w τ
  conns : List (Conn τ)

namespace ProxyServer

/-- What can happen. -/
inductive Event (τ : Type)
  /-- A connection is accepted. -/
  | accept
  /-- Something happens to the pool, to the transports, or to a pick in progress. -/
  | core (e : Picker.Event τ)
  /-- Something happens on the `k`-th connection. -/
  | on (k : ℕ) (e : Server.Event)
  /-- It calls the picker. -/
  | call (k : ℕ)
  /-- The picker returns to it. -/
  | picked (k : ℕ)

/-- The `k`-th connection takes a step. -/
def update (s : ProxyServer w τ) (k : ℕ) (f : Conn τ → Option (Conn τ)) :
    Option (ProxyServer w τ) :=
  (s.conns[k]?.bind f).map fun c => { s with conns := s.conns.set k c }

variable [DecidableEq τ] (id : τ → Text) (casing : CaseMapping) (envs : ℕ → Env τ)

/-- The process has ended, with one of its tasks. -/
def aborted (s : ProxyServer w τ) : Bool :=
  (s.conns.any fun c => c.server.frame.fatal) || s.core.picks.any Picker.Pick.panicked

/-- What an event does, while the process lives. The picker is called by connections only. -/
def act (s : ProxyServer w τ) : Event τ → Option (ProxyServer w τ)
  | .accept => some { s with conns := s.conns ++ [⟨.new, none, none⟩] }
  | .core .call => none
  | .core e => (s.core.step id e).map fun core => { s with core := core }
  | .on k e => s.update k fun c => c.on (envs k) casing e
  | .call k => (s.update k fun c => c.call s.core.picks.length).bind fun s =>
    (s.core.step id .call).map fun core => { s with core := core }
  | .picked k => s.update k fun c => c.picked (envs k) s.core

/-- What an event does: nothing happens any more when the process has ended. -/
def step (s : ProxyServer w τ) (e : Event τ) : Option (ProxyServer w τ) :=
  if s.aborted then none else s.act id casing envs e

/-- No connections yet. -/
def start (pool : Pool τ) (healthy : τ → Bool) (router : Router w) : ProxyServer w τ :=
  ⟨.start pool healthy router, []⟩

/-- The event is one of the `k`-th connection, or of its pick. -/
def Event.Of (s : ProxyServer w τ) (k : ℕ) : Event τ → Prop
  | .on k' e => k' = k ∧ e.Inner
  | .call k' | .picked k' => k' = k
  | .core (.step i _) => ∃ c, s.conns[k]? = some c ∧ c.pick = some i
  | _ => False

/-- The connections do not disturb each other, the router having been `r` at first. -/
structure Isolated (r : Router w) (s : ProxyServer w τ) : Prop where
  /-- Each does what `handle_connection` does alone, with a picker that returns what its pick
      has returned, or may return. -/
  alone : ∀ k (c : Conn τ), s.conns[k]? = some c → ∀ result, c.Admits result →
    c.server.Refines ((envs k).answering result) casing
  /-- Each pick is that of one connection. -/
  own : (s.conns.filterMap Conn.pick).Perm (List.range s.core.picks.length)
  result : ∀ c ∈ s.conns, ∀ result, c.result = some result →
    ∃ i p, c.pick = some i ∧ s.core.picks[i]? = some p ∧ p.result = some result
  /-- A connection goes through a transport that was in the pool when its pick looked there,
      and not closed when it was called. -/
  live : ∀ c ∈ s.conns, ∀ q ∈ c.server.session.connects, ∃ i p, c.pick = some i ∧
    s.core.picks[i]? = some p ∧ q.1 ∈ p.snapshot ∧ q.1 ∉ p.closedBefore
  /-- The counter has advanced once for each connection that was routed. -/
  counter : s.core.router = r.advance (s.conns.countP (Conn.routed s.core))
  /-- The process ends only where a connection has declared a body without a buffer. -/
  aborts : s.aborted = true → ∃ k c n fault, s.conns[k]? = some c ∧
    c.server.frame = .failed fault ∧ 0 < n ∧ (envs k).refuses n = some fault
  /-- Until then, each goes on by itself, or takes any read, until it has ended. -/
  goesOn : s.aborted = false → ∀ k (c : Conn τ), s.conns[k]? = some c →
    c.server.frame.Settled ∨
    (∃ e, Event.Of s k e ∧ (s.step id casing envs e).isSome) ∨
    (c.server.ended = false ∧ ∀ bytes, (s.step id casing envs (.on k (.read bytes))).isSome)

end ProxyServer

/-! ## A connection -/

namespace Server

variable {env : Env τ} {casing : CaseMapping} {s s' : Server τ} {e : Event}

/-- Only the calls depend on the picker. -/
theorem step_answering (he : e ≠ .connect) (result : Except Error τ) :
    s.step (env.answering result) casing e = s.step env casing e := by
  cases e with
  | connect => exact absurd rfl he
  | _ => rfl

/-- Only the calls make connections. -/
theorem connects_of_step (h : s.step env casing e = some s') (he : e ≠ .connect) :
    s'.session.connects = s.session.connects := by
  -- A write to the tunnel makes no call.
  have hsend : ∀ (bs : Bytes) (next : Frame τ),
      (s.send env bs next).session.connects = s.session.connects := by
    intro bs next
    rcases s.send_cases env bs next with ⟨_, -, hsend⟩ | ⟨-, hsend⟩ <;> rw [hsend]
  cases e with
  | read c => obtain ⟨-, ⟨-, rfl⟩ | ⟨_, -, rfl⟩⟩ := read_eq_some h <;> rfl
  | eof =>
    rw [Server.step] at h
    split_ifs at h
    obtain rfl := Option.some.inj h
    rfl
  | line =>
    obtain ⟨-, l, rest, -, rfl⟩ := takeLine_eq_some h
    rcases took_cases casing s l rest with ⟨-, htook⟩ | ⟨_, -, htook⟩ <;> rw [htook]
  | connect => exact absurd rfl he
  | write n =>
    obtain ⟨_, _, -, ⟨_, -, rfl⟩ | ⟨-, -, -, ⟨-, rfl⟩ | ⟨-, rfl⟩⟩⟩ := write_eq_some h <;> rfl
  | forward =>
    rcases forward_eq_some h with ⟨_, _, _, _, -, rfl⟩ | ⟨_, _, -, rfl⟩ |
      ⟨_, _, -, ⟨-, rfl⟩ | ⟨-, -, rfl⟩⟩
    · exact hsend _ _
    · rfl
    · exact hsend _ _
    · rfl
  | flush => obtain ⟨_, -, ⟨_, -, rfl⟩ | ⟨-, rfl⟩⟩ := flush_eq_some h <;> rfl

/-- They make one through the transport that is picked. -/
theorem mem_connects_of_connect {t : τ} (h : s.connect (env.answering (.ok t)) = some s') :
    t ∈ s'.session.connects.map Prod.fst := by
  have hcall : ∀ (host : Text) (port : UInt16) (next : τ → Frame τ),
      t ∈ (s.call (env.answering (.ok t)) host port next).session.connects.map Prod.fst := by
    intro host port next
    rcases s.call_cases (env.answering (.ok t)) host port next with
      ⟨_, hpick, -⟩ | ⟨u, hpick, hcall⟩
    · exact absurd hpick (by simp [Env.answering])
    · obtain rfl := Except.ok.inj hpick
      rcases hcall with ⟨_, -, hcall⟩ | ⟨-, hcall⟩ <;> rw [hcall] <;> simp
  rcases connect_eq_some h with ⟨_, _, -, rfl⟩ | ⟨_, _, _, -, rfl⟩ <;> exact hcall _ _ _

/-- After the calls, they have been made. -/
theorem called_of_connect (h : s.connect env = some s') : s'.frame.Called := by
  have hcall : ∀ (host : Text) (port : UInt16) (next : τ → Frame τ), (∀ t, (next t).Called) →
      (s.call env host port next).frame.Called := by
    intro host port next hnext
    rcases s.call_cases env host port next with
      ⟨_, -, hcall⟩ | ⟨t, -, ⟨_, -, hcall⟩ | ⟨-, hcall⟩⟩ <;> rw [hcall]
    · trivial
    · trivial
    · exact hnext t
  rcases connect_eq_some h with ⟨_, _, -, rfl⟩ | ⟨_, _, _, -, rfl⟩
  · exact hcall _ _ _ fun _ => trivial
  · exact hcall _ _ _ fun _ => trivial

/-- They stay made. -/
theorem called_of_leads {frame frame' : Frame τ} (h : Leads env casing frame frame')
    (hframe : frame.Called) : frame'.Called := by
  cases h with
  | stays => exact hframe
  | line line hline => rcases frame <;> first | exact hline.elim | exact hframe.elim
  | @forwarded t n =>
    rw [afterHead]
    split
    · split <;> trivial
    · trivial
  | _ => trivial

/-- A handler that has ended the process has not got a buffer for a body. -/
def Bufferless (env : Env τ) (frame : Frame τ) : Prop :=
  frame.fatal = true → ∃ n fault, frame = .failed fault ∧ 0 < n ∧ env.refuses n = some fault

/-- A line that is taken does not end the process. -/
theorem bufferless_of_next {frame : Frame τ} (h : frame.AwaitsLine) (line : Text) :
    (next casing line frame).fatal = false := by
  rcases frame <;> simp only [Frame.AwaitsLine] at h
  · rw [next, dispatch]
    split_ifs
    · rfl
    · rcases parseConnect line.trimEnd <;> rfl
    · rcases parseHttpRequest line.trimEnd <;> rfl
  · rw [next]
    split_ifs <;> rfl
  · rw [next]
    split_ifs <;> rfl

/-- Only a body without a buffer does. -/
theorem bufferless_of_leads {frame frame' : Frame τ} (h : Leads env casing frame frame')
    (hframe : Bufferless env frame) : Bufferless env frame' := by
  cases h with
  | stays => exact hframe
  | line line hline =>
    intro hfatal
    exact absurd ((bufferless_of_next hline line).symm.trans hfatal) (by simp)
  | @forwarded t n =>
    rw [afterHead]
    by_cases hpos : n > 0
    · rw [if_pos hpos]
      rcases hbuffer : env.refuses n with _ | fault
      · exact fun hfatal => absurd hfatal (by simp [Frame.fatal])
      · exact fun _ => ⟨n, fault, rfl, hpos, hbuffer⟩
    · rw [if_neg hpos]
      exact fun hfatal => absurd hfatal (by simp [Frame.fatal])
  | _ => exact fun hfatal => absurd hfatal (by simp [Frame.fatal, Fault.fatal])

/-- Only the calls await them. -/
theorem connect_of_isSome (h : (s.connect env).isSome) : s.frame.AwaitsCall := by
  obtain ⟨s', hs'⟩ := Option.isSome_iff_exists.1 h
  rcases connect_eq_some hs' with ⟨_, _, hframe, -⟩ | ⟨_, _, _, hframe, -⟩ <;> rw [hframe] <;>
    trivial

/-- The calls can be made where they are awaited. -/
theorem isSome_connect_of_awaitsCall (h : s.frame.AwaitsCall) : (s.connect env).isSome := by
  rw [connect]
  rcases hframe : s.frame <;> rw [hframe] at h <;> first | exact h.elim | rfl

end Server

namespace Conn

/-- What is so of a connection with the environment `env`. -/
structure Inv (env : Env τ) (casing : CaseMapping) (core : Picker.World w τ) (c : Conn τ) :
    Prop where
  follows : ∀ result, c.Admits result →
    Server.Follows (env.answering result) casing c.server
  unwritten : c.server.frame.Unwritten
  bufferless : Server.Bufferless env c.server.frame
  pick : ∀ i, c.pick = some i → i < core.picks.length
  result : ∀ result, c.result = some result →
    ∃ i p, c.pick = some i ∧ core.picks[i]? = some p ∧ p.result = some result
  called : c.result.isSome → c.server.frame.Called
  made : ∀ t, c.result = some (.ok t) → t ∈ c.server.session.connects.map Prod.fst

variable {env : Env τ} {casing : CaseMapping} {core core' : Picker.World w τ} {c c' : Conn τ}

/-- An event other than the calls is one of the handler alone. -/
theorem on_eq {e : Server.Event} (he : e ≠ .connect) : c.on env casing e =
    (c.server.step env casing e).map fun server => { c with server := server } := by
  cases e with
  | connect => exact absurd rfl he
  | _ => rfl

/-- A new connection has called for nothing. -/
theorem inv_new : Inv env casing core (⟨.new, none, none⟩ : Conn τ) where
  follows _ _ := Server.follows_new
  unwritten := trivial
  bufferless h := absurd h (by simp [Server.new, Frame.fatal])
  pick _ h := by simp at h
  result _ h := by simp at h
  called h := by simp at h
  made _ h := by simp at h

/-- What happens to the picks keeps it: none is lost, and those that have returned remain. -/
theorem Inv.of_core (h : c.Inv env casing core) (hlen : core.picks.length ≤ core'.picks.length)
    (hreturned : ∀ (i : ℕ) (p : Picker.Pick τ) result, core.picks[i]? = some p →
      p.result = some result → core'.picks[i]? = some p) : c.Inv env casing core' where
  follows := h.follows
  unwritten := h.unwritten
  bufferless := h.bufferless
  pick i hi := (h.pick i hi).trans_le hlen
  result result hresult := by
    obtain ⟨i, p, hpick, hp, hp'⟩ := h.result result hresult
    exact ⟨i, p, hpick, hreturned i p result hp hp', hp'⟩
  called := h.called
  made := h.made

/-- An event of the handler keeps it, with the pick that there is. -/
theorem Inv.on (h : c.Inv env casing core) {e : Server.Event} (hc : c.on env casing e = some c') :
    c'.Inv env casing core ∧ c'.pick = c.pick := by
  have he : e ≠ .connect := by
    rintro rfl
    exact absurd hc (by simp [Conn.on])
  rw [on_eq he] at hc
  obtain ⟨server, hstep, rfl⟩ := Option.map_eq_some_iff.1 hc
  have hleads := Server.leads_of_step casing hstep
  refine ⟨⟨fun result hresult => ?_, Server.unwritten_of_leads hleads h.unwritten,
    Server.bufferless_of_leads hleads h.bufferless, h.pick, h.result,
    fun hsome => Server.called_of_leads hleads (h.called hsome), fun t ht => ?_⟩, rfl⟩
  · exact (h.follows result hresult).step ((Server.step_answering he result).trans hstep)
  · change t ∈ server.session.connects.map Prod.fst
    rw [Server.connects_of_step hstep he]
    exact h.made t ht

/-- The connection gets a pick of its own. -/
theorem Inv.call (h : c.Inv env casing core) (hc : c.call core.picks.length = some c')
    (hlen : core.picks.length < core'.picks.length)
    (hreturned : ∀ (i : ℕ) (p : Picker.Pick τ) result, core.picks[i]? = some p →
      p.result = some result → core'.picks[i]? = some p) :
    c'.Inv env casing core' ∧ c.pick = none ∧ c'.pick = some core.picks.length := by
  rw [Conn.call] at hc
  split_ifs at hc with hpick
  obtain rfl := Option.some.inj hc
  have hcore := h.of_core hlen.le hreturned
  refine ⟨⟨hcore.follows, hcore.unwritten, hcore.bufferless, fun i hi => ?_,
    fun result hresult => ?_, hcore.called, hcore.made⟩, hpick.2, rfl⟩
  · exact Option.some.inj hi ▸ hlen
  · -- No connection that has not called the picker has a result.
    obtain ⟨i, p, hi, -⟩ := h.result result hresult
    exact absurd (hpick.2.symm.trans hi) (by simp)

/-- The pick has returned, and the handler goes on with its result. -/
theorem Inv.picked (h : c.Inv env casing core) (hc : c.picked env core = some c') :
    c'.Inv env casing core ∧ c'.pick = c.pick := by
  rw [Conn.picked] at hc
  split at hc
  · next result hnone hpick =>
    obtain ⟨server, hconnect, rfl⟩ := Option.map_eq_some_iff.1 hc
    obtain ⟨i, hi, hpi⟩ := Option.bind_eq_some_iff.1 hpick
    obtain ⟨p, hp, hp'⟩ := Option.bind_eq_some_iff.1 hpi
    have hleads := Server.leads_of_step (e := .connect) casing hconnect
    -- Which buffers there are does not depend on the picker.
    have hbufferless : Server.Bufferless (env.answering result) server.frame :=
      Server.bufferless_of_leads hleads h.bufferless
    refine ⟨⟨fun r hr => ?_, Server.unwritten_of_leads hleads h.unwritten, hbufferless, h.pick,
      fun r hr => ?_, fun _ => ?_, fun t ht => ?_⟩, rfl⟩
    · obtain rfl := hr result rfl
      have hadmits : c.Admits r := fun r' hr' => absurd (hnone.symm.trans hr') (by simp)
      exact (h.follows r hadmits).step (e := .connect) hconnect
    · obtain rfl := Option.some.inj hr
      exact ⟨i, p, hi, hp, hp'⟩
    · exact Server.called_of_connect hconnect
    · obtain rfl := Option.some.inj ht
      exact Server.mem_connects_of_connect hconnect
  · exact absurd hc (by simp)

/-- What the invariant says of the calls of `connect`. -/
theorem Inv.result_of_mem_connects (h : c.Inv env casing core) {q : τ × Text × UInt16}
    (hq : q ∈ c.server.session.connects) : c.result = some (.ok q.1) := by
  have hmem : ∀ result, c.Admits result → result = .ok q.1 := by
    intro result hresult
    have hfinal := (h.follows result hresult) [] fun _ => rfl
    have hextends := Server.extends_resume (env.answering result) casing c.server []
    rw [← hfinal] at hextends
    have hends := ensures_handleConnection (env.answering result) casing (c.server.reads ++ [])
      .new rfl
    exact hends.picked (hextends.connects.subset hq)
  rcases hresult : c.result with _ | result
  · -- Nothing was connected before a result: it could still be an error.
    have hadmits : c.Admits (.error .noHealthyTunnels) :=
      fun r' hr' => absurd (hresult.symm.trans hr') (by simp)
    exact absurd (hmem _ hadmits) (by simp)
  · have hadmits : c.Admits result := fun r' hr' => Option.some.inj (hresult.symm.trans hr')
    rw [hmem result hadmits]

end Conn

/-! ## The server -/

/-- A connection that keeps its pick, or its lack of one. -/
theorem filterMap_pick_set {l : List (Conn τ)} {k : ℕ} {c c' : Conn τ} (hk : l[k]? = some c)
    (h : c'.pick = c.pick) : (l.set k c').filterMap Conn.pick = l.filterMap Conn.pick := by
  obtain ⟨hlt, rfl⟩ := List.getElem?_eq_some_iff.1 hk
  obtain ⟨l₁, l₂, hl, -, hset⟩ := @List.exists_of_set _ _ c' _ hlt
  rw [hset]
  conv_rhs => rw [hl]
  rw [List.filterMap_append, List.filterMap_append, List.filterMap_cons, List.filterMap_cons, h]

/-- A connection that calls the picker. -/
theorem perm_filterMap_pick_set {l : List (Conn τ)} {k n : ℕ} {c c' : Conn τ}
    (hk : l[k]? = some c) (h : c.pick = none) (h' : c'.pick = some n) :
    ((l.set k c').filterMap Conn.pick).Perm (n :: l.filterMap Conn.pick) := by
  obtain ⟨hlt, rfl⟩ := List.getElem?_eq_some_iff.1 hk
  obtain ⟨l₁, l₂, hl, -, hset⟩ := @List.exists_of_set _ _ c' _ hlt
  rw [hset]
  conv_rhs => rw [hl]
  rw [List.filterMap_append, List.filterMap_append, List.filterMap_cons, List.filterMap_cons, h, h']
  exact List.perm_middle

namespace ProxyServer

/-- One connection is replaced, and nothing else. -/
theorem update_eq_some {s s' : ProxyServer w τ} {k : ℕ} {f : Conn τ → Option (Conn τ)}
    (h : s.update k f = some s') : ∃ c c', s.conns[k]? = some c ∧ f c = some c' ∧
      s' = { s with conns := s.conns.set k c' } := by
  obtain ⟨c', hc', rfl⟩ := Option.map_eq_some_iff.1 h
  obtain ⟨c, hk, hf⟩ := Option.bind_eq_some_iff.1 hc'
  exact ⟨c, c', hk, hf, rfl⟩

/-- A connection that can take a step does so in the server. -/
theorem isSome_update {s : ProxyServer w τ} {k : ℕ} {f : Conn τ → Option (Conn τ)} {c : Conn τ}
    (hk : s.conns[k]? = some c) (h : (f c).isSome) : (s.update k f).isSome := by
  rw [update, hk, Option.isSome_map, Option.bind_some]
  exact h

/-- The invariant: of the picks, of each connection, and of what they are to each other. -/
structure Inv (casing : CaseMapping) (envs : ℕ → Env τ) (r : Router w) (s : ProxyServer w τ) :
    Prop where
  core : s.core.Inv r
  conns : ∀ k (c : Conn τ), s.conns[k]? = some c → c.Inv (envs k) casing s.core
  own : (s.conns.filterMap Conn.pick).Perm (List.range s.core.picks.length)

variable {id : τ → Text} {casing : CaseMapping} {envs : ℕ → Env τ} {r : Router w}
  {s s' : ProxyServer w τ}

/-- A connection is replaced. -/
theorem forall_set {P : ℕ → Conn τ → Prop} {l : List (Conn τ)} {k : ℕ} {c : Conn τ}
    (h : ∀ j d, l[j]? = some d → P j d) (hc : P k c) :
    ∀ j d, (l.set k c)[j]? = some d → P j d := by
  intro j d hj
  rw [List.getElem?_set] at hj
  split_ifs at hj with hjk
  · obtain rfl := hjk
    exact Option.some.inj hj ▸ hc
  · exact h j d hj

/-- A connection takes a step, and keeps its pick. -/
theorem Inv.update (h : s.Inv casing envs r) {k : ℕ} {f : Conn τ → Option (Conn τ)}
    (hf : ∀ c c', c.Inv (envs k) casing s.core → f c = some c' →
      c'.Inv (envs k) casing s.core ∧ c'.pick = c.pick)
    (hs : s.update k f = some s') : s'.Inv casing envs r := by
  obtain ⟨c, c', hk, hc', rfl⟩ := update_eq_some hs
  obtain ⟨hinv, hpick⟩ := hf c c' (h.conns k c hk) hc'
  refine ⟨h.core, forall_set h.conns hinv, ?_⟩
  rw [filterMap_pick_set hk hpick]
  exact h.own

/-- Without connections, there is nothing to be shown. -/
theorem inv_start (pool : Pool τ) (healthy : τ → Bool) (r : Router w) :
    (start pool healthy r).Inv casing envs r where
  core := ⟨fun t ht => absurd ht (by simp [start, Picker.World.start]),
    fun p hp => absurd hp List.not_mem_nil, r.advance_zero.symm⟩
  conns k c hk := absurd hk (by simp [start])
  own := .nil

variable [DecidableEq τ]

/-- What is done is done by a process that lives. -/
theorem step_eq_some {e : Event τ} (h : s.step id casing envs e = some s') :
    s.aborted = false ∧ s.act id casing envs e = some s' := by
  rw [ProxyServer.step] at h
  split_ifs at h with haborted
  exact ⟨Bool.eq_false_iff.2 haborted, h⟩

/-- What can be done can be done while the process lives. -/
theorem isSome_step {e : Event τ} (haborted : s.aborted = false)
    (h : (s.act id casing envs e).isSome) : (s.step id casing envs e).isSome := by
  rw [ProxyServer.step, haborted, if_neg Bool.false_ne_true]
  exact h

/-- What happens to the picks is none of the connections' business. -/
theorem act_core {e : Picker.Event τ} (he : e ≠ .call) : s.act id casing envs (.core e) =
    (s.core.step id e).map fun core => { s with core := core } := by
  cases e with
  | call => exact absurd rfl he
  | _ => rfl

omit [DecidableEq τ] in
/-- What a connection does is none of the picker's business. -/
theorem core_update {k : ℕ} {f : Conn τ → Option (Conn τ)} (h : s.update k f = some s') :
    s'.core = s.core := by
  obtain ⟨_, _, -, -, rfl⟩ := update_eq_some h
  rfl

/-- The world of the picker sees its own events, and calls. -/
theorem core_of_step {e : Event τ} (h : s.step id casing envs e = some s') : s'.core = s.core ∨
    ∃ e', s.core.step id e' = some s'.core ∧ (e = .core e' ∨ e' = .call) := by
  obtain ⟨-, h⟩ := step_eq_some h
  cases e with
  | accept =>
    obtain rfl := Option.some.inj h
    exact .inl rfl
  | core e' =>
    by_cases he' : e' = .call
    · subst he'
      exact absurd h (by simp [act])
    · rw [act_core he'] at h
      obtain ⟨core, hcore, rfl⟩ := Option.map_eq_some_iff.1 h
      exact .inr ⟨e', hcore, .inl rfl⟩
  | on k e' => exact .inl (core_update h)
  | call k =>
    obtain ⟨t, ht, hcall⟩ := Option.bind_eq_some_iff.1 h
    obtain ⟨core, hcore, rfl⟩ := Option.map_eq_some_iff.1 hcall
    rw [core_update ht] at hcore
    exact .inr ⟨.call, hcore, .inr rfl⟩
  | picked k => exact .inl (core_update h)

/-- The transport that an event adds to the pool. -/
def Event.added : Event τ → Option τ
  | .core (.write (.add t)) => some t
  | _ => none

/-- What was added in a run. -/
def added (es : List (Event τ)) : List τ := es.filterMap Event.added

/-- Something happens to the picks, but none is made. -/
theorem Inv.of_core (h : s.Inv casing envs r) {e : Picker.Event τ} (he : e ≠ .call)
    {core : Picker.World w τ} (hs : s.core.step id e = some core) :
    ProxyServer.Inv casing envs r { s with core := core } := by
  have hlen := Picker.World.length_of_step hs he
  refine ⟨h.core.step hs, fun k c hk => ?_, ?_⟩
  · exact (h.conns k c hk).of_core hlen.ge fun i p result hi hp =>
      Picker.World.returned_of_step hs hi hp
  · rw [hlen]
    exact h.own

/-- Every event keeps the invariant. -/
theorem Inv.step (h : s.Inv casing envs r) {e : Event τ}
    (hs : s.step id casing envs e = some s') : s'.Inv casing envs r := by
  obtain ⟨-, hs⟩ := step_eq_some hs
  cases e with
  | accept =>
    obtain rfl := Option.some.inj hs
    refine ⟨h.core, fun k c hk => ?_, ?_⟩
    · rw [List.getElem?_append] at hk
      split_ifs at hk with hlt
      · exact h.conns k c hk
      · obtain rfl := List.mem_singleton.1 (List.mem_of_getElem? hk)
        exact Conn.inv_new
    · rw [List.filterMap_append]
      exact (List.append_nil _).symm ▸ h.own
  | core e =>
    by_cases he : e = .call
    · -- Calls of the picker are made by connections only.
      subst he
      exact absurd hs (by simp [act])
    · rw [act_core he] at hs
      obtain ⟨core, hcore, rfl⟩ := Option.map_eq_some_iff.1 hs
      exact h.of_core he hcore
  | on k e => exact h.update (fun c c' hc hon => hc.on hon) hs
  | call k =>
    -- Two things happen at once: the connection is given the number of its pick, and the pick
    -- is added to the world under this number.
    obtain ⟨t, ht, hcall⟩ := Option.bind_eq_some_iff.1 hs
    obtain ⟨core, hcore, rfl⟩ := Option.map_eq_some_iff.1 hcall
    obtain ⟨c, c', hk, hc', rfl⟩ := update_eq_some ht
    have hlen : core.picks.length = s.core.picks.length + 1 := by
      obtain rfl := Option.some.inj hcore
      exact List.length_append
    have hreturned : ∀ (i : ℕ) (p : Picker.Pick τ) result, s.core.picks[i]? = some p →
        p.result = some result → core.picks[i]? = some p :=
      fun i p result hi hp => Picker.World.returned_of_step hcore hi hp
    obtain ⟨hinv, hnone, hpick⟩ := (h.conns k c hk).call hc' (by omega) hreturned
    refine ⟨h.core.step hcore, forall_set (fun j d hj => ?_) hinv, ?_⟩
    · exact (h.conns j d hj).of_core (hlen ▸ Nat.le_succ _) hreturned
    · rw [hlen, List.range_succ]
      refine (perm_filterMap_pick_set hk hnone hpick).trans ?_
      exact (h.own.cons _).trans (List.perm_append_singleton _ _).symm
  | picked k => exact h.update (fun c c' hc hpicked => hc.picked hpicked) hs

/-! ### What the invariant says -/

omit [DecidableEq τ] in
/-- There are as many connections with such a pick as there are such picks. -/
theorem Inv.countP_pick (h : s.Inv casing envs r) (q : Picker.Pick τ → Bool) :
    s.conns.countP (fun c => c.pick.any fun i => s.core.picks[i]?.any q) =
      s.core.picks.countP q := by
  let holds (i : ℕ) : Bool := s.core.picks[i]?.any q
  have hconns : s.conns.countP (fun c => c.pick.any holds) =
      (s.conns.filterMap Conn.pick).countP holds := by
    rw [List.countP_filterMap]
    exact List.countP_congr fun c _ => by rcases c.pick <;> rfl
  have hpicks : s.core.picks.map q = (List.range s.core.picks.length).map holds := by
    refine List.ext_getElem (by simp) fun i hi _ => ?_
    have hlt : i < s.core.picks.length := by rwa [List.length_map] at hi
    simp [holds, hlt]
  calc s.conns.countP (fun c => c.pick.any holds)
      = (List.range s.core.picks.length).countP holds := hconns.trans (h.own.countP_eq _)
    _ = ((List.range s.core.picks.length).map holds).countP id := by rw [List.countP_map]; rfl
    _ = s.core.picks.countP q := by rw [← hpicks, List.countP_map]; rfl

omit [DecidableEq τ] in
/-- The process ends with a handler that has not got a buffer: no pick panics. -/
theorem Inv.aborts (h : s.Inv casing envs r) (haborted : s.aborted = true) :
    ∃ k c n fault, s.conns[k]? = some c ∧ c.server.frame = .failed fault ∧ 0 < n ∧
      (envs k).refuses n = some fault := by
  rcases Bool.or_eq_true_iff.1 haborted with hconn | hpick
  · obtain ⟨c, hmem, hfatal⟩ := List.any_eq_true.1 hconn
    obtain ⟨k, hk⟩ := List.getElem?_of_mem hmem
    obtain ⟨n, fault, hframe, hn, hbuffer⟩ := (h.conns k c hk).bufferless hfatal
    exact ⟨k, c, n, fault, hk, hframe, hn, hbuffer⟩
  · obtain ⟨p, hp, hpanicked⟩ := List.any_eq_true.1 hpick
    exact absurd (Picker.Pick.panicked_iff.1 hpanicked)
      ((Picker.World.safe_of_inv h.core).no_panic p hp)

/-- While the process lives, a connection goes on by itself, or can be read. -/
theorem Inv.goesOn (h : s.Inv casing envs r) (haborted : s.aborted = false) {k : ℕ} {c : Conn τ}
    (hk : s.conns[k]? = some c) :
    c.server.frame.Settled ∨
      (∃ e, Event.Of s k e ∧ (s.step id casing envs e).isSome) ∨
      (c.server.ended = false ∧
        ∀ bytes, (s.step id casing envs (.on k (.read bytes))).isSome) := by
  have hc := h.conns k c hk
  by_cases hcall : c.server.frame.AwaitsCall
  · have hnone : c.result = none := by
      rcases hresult : c.result with _ | result
      · rfl
      · exact absurd hcall (hc.called (by rw [hresult]; rfl)).not_awaitsCall
    refine .inr (.inl ?_)
    rcases hpick : c.pick with _ | i
    · refine ⟨.call k, rfl, isSome_step haborted ?_⟩
      have hsome : (s.update k fun c => c.call s.core.picks.length).isSome :=
        isSome_update hk (by rw [Conn.call, if_pos ⟨hcall, hpick⟩]; rfl)
      obtain ⟨t, ht⟩ := Option.isSome_iff_exists.1 hsome
      rw [act, ht]
      rfl
    · -- Its pick has returned, or can take a step.
      have hlt := hc.pick i hpick
      have hi := List.getElem?_eq_getElem hlt
      rcases hresult : s.core.picks[i].result with _ | result
      · refine ⟨.core (.step i 0), ⟨c, hk, hpick⟩, isSome_step haborted ?_⟩
        have hpanic := (Picker.World.safe_of_inv h.core).no_panic _ (List.getElem_mem hlt)
        have hstep : (s.core.picks[i].step s.core 0).isSome :=
          Picker.Pick.isSome_step_iff.2 ⟨hresult, hpanic⟩
        obtain ⟨⟨router, p⟩, hp⟩ := Option.isSome_iff_exists.1 hstep
        rw [act, Picker.World.step, hi]
        · dsimp only
          rw [hp]
          rfl
        · simp
      · refine ⟨.picked k, rfl, isSome_step haborted (isSome_update hk ?_)⟩
        rw [Conn.picked, hnone, hpick, Option.bind_some, hi, Option.bind_some, hresult]
        dsimp only
        rw [Option.isSome_map]
        exact Server.isSome_connect_of_awaitsCall hcall
  · have hon : ∀ {e : Server.Event}, e ≠ .connect → (c.server.step (envs k) casing e).isSome →
        (s.step id casing envs (.on k e)).isSome := by
      intro e he hsome
      refine isSome_step haborted (isSome_update hk ?_)
      rw [Conn.on_eq he, Option.isSome_map]
      exact hsome
    rcases Server.goesOn_of_unwritten (envs k) casing hc.unwritten with
      hsettled | ⟨e, hinner, hsome⟩ | ⟨hended, hread⟩
    · exact .inl hsettled
    · refine .inr (.inl ⟨.on k e, ⟨rfl, hinner⟩, hon ?_ hsome⟩)
      rintro rfl
      exact hcall (Server.connect_of_isSome hsome)
    · exact .inr (.inr ⟨hended, fun bytes => hon (by simp) (hread bytes)⟩)

/-- The invariant says that the connections do not disturb each other. -/
theorem Inv.isolated (h : s.Inv casing envs r) : s.Isolated id casing envs r where
  alone k c hk result hresult :=
    have hc := h.conns k c hk
    Server.refines_of_follows (hc.follows result hresult) hc.unwritten
  own := h.own
  result c hmem result hresult := by
    obtain ⟨k, hk⟩ := List.getElem?_of_mem hmem
    exact (h.conns k c hk).result result hresult
  live c hmem q hq := by
    obtain ⟨k, hk⟩ := List.getElem?_of_mem hmem
    have hc := h.conns k c hk
    obtain ⟨i, p, hpick, hp, hresult⟩ := hc.result _ (hc.result_of_mem_connects hq)
    obtain ⟨kept, hreturned⟩ := Picker.Pick.result_eq_some.1 hresult
    exact ⟨i, p, hpick, hp, (Picker.World.safe_of_inv h.core).live p
      (List.mem_of_getElem? hp) kept q.1 hreturned⟩
  counter := h.core.counter.trans (congrArg r.advance (h.countP_pick _).symm)
  aborts := h.aborts
  goesOn haborted k c hk := h.goesOn haborted hk

/-- In every run of the server, the connections do not disturb each other: whatever is sent
    on them, whatever comes of their calls and writes, and whatever happens to the pool and
    the transports meanwhile; only the end of the process is shared. -/
theorem run_isolated (id : τ → Text) (casing : CaseMapping) (envs : ℕ → Env τ) (pool : Pool τ)
    (healthy : τ → Bool) (r : Router w) (es : List (Event τ)) :
    Run.Always (ProxyServer.step id casing envs) (Isolated id casing envs r)
      (start pool healthy r) es := by
  exact (Run.always_of_inv (fun s e t hs hst => hs.step hst) (inv_start pool healthy r)).mono
    fun s hs => hs.isolated

omit [DecidableEq τ] in
/-- A world where everything succeeds, and nothing is answered. -/
def quietEnv : Env τ where
  picker _ _ := .error .noHealthyTunnels
  connect _ _ _ := .ok ()
  writeAgent _ := .ok ()
  writeTunnel _ _ := .ok ()
  flushTunnel := .ok ()
  allocates _ := true
  response := []

omit [DecidableEq τ] in
/-- The `k`-th connection is accepted, and calls the picker. -/
def askEvents (k : ℕ) : List (Event τ) :=
  [.accept, .on k (.read ⟨encodeUtf8 "CONNECT a:1\r\n\r\n".toList, by decide⟩), .on k .line,
    .on k .line, .call k]

end ProxyServer

end Proxy

end Houdinny
