import Houdinny.Docker.Agreement
import Houdinny.Lib.Run

/-!
# The state machine of the polling

`wait_for_healthy` is a system that goes from round to round (`pollStep`) until it
returns. Whatever the containers answer, and whenever the time is up: a VPN that is
connected or failed stays so, and is left alone (`Settled`); and the commands that were
run so far fit the states (`Polled`): `microsocks` was started once for each VPN that is
connected, and the proxy restarted once if the result is success, which it is if some
VPN is connected.

The function of `Docker.Start` is the run of this system up to the round in which it returns
(`exists_run_eq_waitFrom`). The two facts about steps are then

* `polled_of_pollStep`, in two parts: a round in which the VPNs are polled
  (`Polled.pollAll`), and the end of the loop (`Polled.finish`), which runs at most a restart;
* `settled_of_pollStep`, in the same two parts.

`waitForHealthy_polled` puts them together. As to the commands, all that is needed of a
single poll is which commands it may run, and how often it starts `microsocks`; so the
counting goes VPN by VPN (`count_pollAll`).
-/

namespace Houdinny.Docker

open Text

variable {casing : CaseMapping} {round : Round} {rounds : List Round} {w w' : Wait} {i : ℕ}
  {command : Command}

/-- The end of a round: the loop returns, or goes on. -/
def Wait.evaluate (round : Round) (w : Wait) : Wait :=
  if w.states.all VpnState.isResolved || round.timedOut then w.finish else w

/-- A round of `wait_for_healthy`, while it has not returned. -/
def pollStep (casing : CaseMapping) (w : Wait) (round : Round) : Option Wait :=
  if w.result = none then some ((w.pollAll casing round).evaluate round) else none

/-- The start of `wait_for_healthy`: all VPNs are waiting. -/
def Wait.initial (n : ℕ) : Wait := ⟨List.replicate n .waiting, [], none⟩

/-- The loop goes through the rounds, up to the one in which it returns. -/
theorem exists_run_eq_waitFrom (hw : w.result = none) : ∃ used, used <+: rounds ∧
    Run.run (pollStep casing) w used = some (waitFrom casing rounds w) ∧
      ((waitFrom casing rounds w).result = none → used = rounds) := by
  induction rounds generalizing w with
  | nil => exact ⟨[], List.nil_prefix, rfl, fun _ => rfl⟩
  | cons round rounds ih =>
    have hstep : pollStep casing w round = some ((w.pollAll casing round).evaluate round) :=
      if_pos hw
    rw [waitFrom]
    split_ifs with hend
    · refine ⟨[round], List.cons_prefix_cons.2 ⟨rfl, List.nil_prefix⟩, ?_, fun hnone => ?_⟩
      · rw [Run.run_cons, hstep, Wait.evaluate, if_pos hend]
        rfl
      · rw [Wait.finish] at hnone
        split_ifs at hnone
    · obtain ⟨used, hused, hrun, hnone⟩ := ih (w := w.pollAll casing round) hw
      refine ⟨round :: used, List.cons_prefix_cons.2 ⟨rfl, hused⟩, ?_, fun h => by rw [hnone h]⟩
      rw [Run.run_cons, hstep, Wait.evaluate, if_neg hend]
      exact hrun

/-! ## Commands -/

/-- The words of a poll's commands: one of them is the container. -/
theorem word_of_mem_poll {container word : Text} {a : Answers}
    (h : command ∈ (poll casing container a).2) (hword : word ∈ command) :
    word = container ∨ ¬"houdinny-vpn-".toList <+: word := by
  rw [poll] at h
  split_ifs at h
  all_goals
    simp only [List.mem_cons, List.not_mem_nil, or_false] at h
    rcases h with rfl | rfl | rfl | rfl
  all_goals
    simp only [inspectCommand, logsCommand, statusCommand, whitelistCommand, microsocksCommand,
      List.mem_cons, List.not_mem_nil, or_false] at hword
    rcases hword with rfl | rfl | rfl | rfl | rfl | rfl | rfl | rfl
  all_goals first | exact .inl rfl | exact .inr (by decide)

/-- Containers of different VPNs have different names. -/
theorem containerName_injective : Function.Injective containerName := fun _ _ h =>
  ofNat_injective (List.append_cancel_left h)

/-- A word that does not start like one is no container. -/
theorem containerName_ne {word : Text} (h : ¬"houdinny-vpn-".toList <+: word) (n : ℕ) :
    containerName n ≠ word := by
  rintro rfl
  exact h (List.prefix_append _ _)

/-- The restart is about no container of a VPN. -/
theorem containerName_notMem_restartCommand (n : ℕ) : containerName n ∉ restartCommand := by
  intro hmem
  rw [restartCommand, List.mem_cons, List.mem_singleton] at hmem
  rcases hmem with h | h
  · exact containerName_ne (by decide) n h
  · exact containerName_ne (by decide) n h

/-- A command about a container is about no other one. -/
theorem containerName_notMem {a : Answers} {j : ℕ} (hne : i ≠ j)
    (h : command ∈ (poll casing (containerName (j + 1)) a).2) :
    containerName (i + 1) ∉ command := by
  intro hmem
  rcases word_of_mem_poll h hmem with heq | hword
  · exact hne (Nat.succ_injective (containerName_injective heq))
  · exact hword (List.prefix_append _ _)

/-- What starts `microsocks` is about the container it is started in. -/
theorem containerName_mem_microsocks (i : ℕ) :
    containerName (i + 1) ∈ microsocksCommand (containerName (i + 1)) := by
  simp [microsocksCommand]

/-- Only the command that starts `microsocks` has that many words. -/
theorem ne_microsocks_of_mem {container : Text}
    (h : command ∈ [inspectCommand container, logsCommand container, statusCommand container,
      whitelistCommand container, restartCommand]) : command ≠ microsocksCommand container := by
  rintro rfl
  simp [inspectCommand, logsCommand, statusCommand, whitelistCommand, microsocksCommand,
    restartCommand] at h

/-- A poll starts `microsocks` once, if it finds the VPN connected. -/
theorem count_microsocks_poll (casing : CaseMapping) (container : Text) (a : Answers) :
    (poll casing container a).2.count (microsocksCommand container) =
      if verdict casing a = .connected then 1 else 0 := by
  have hne := @ne_microsocks_of_mem
  by_cases hrunning : a.running = true
  · by_cases hconnected : a.connected casing = true <;>
      simp [poll, verdict, hrunning, hconnected, hne]
  · simp [poll, verdict, hrunning, hne]

/-- No other command of a poll has the word `microsocks`. -/
theorem eq_microsocks_of_mem_poll {a : Answers} {container : Text}
    (hcontainer : container ≠ "microsocks".toList)
    (h : command ∈ (poll casing container a).2) (hmem : "microsocks".toList ∈ command) :
    command = microsocksCommand container := by
  rw [poll] at h
  split_ifs at h
  all_goals
    simp only [List.mem_cons, List.not_mem_nil, or_false] at h
    rcases h with rfl | rfl | rfl | rfl
  all_goals
    first
      | rfl
      | exact absurd hmem (by
          simpa [inspectCommand, logsCommand, statusCommand, whitelistCommand]
            using hcontainer.symm)

/-- The elements of a list are numbered, and `g` gives a list for each of them. What only
    the element number `i` can give, is counted there. -/
theorem count_flatMap_zipIdx {α β : Type} [BEq β] [LawfulBEq β] {g : α × ℕ → List β} {b : β}
    (h : ∀ a j, j ≠ i → b ∉ g (a, j)) (l : List α) :
    (l.zipIdx.flatMap g).count b = (l[i]?.map fun a => (g (a, i)).count b).getD 0 := by
  induction l using List.reverseRecOn with
  | nil => rfl
  | append_singleton l a ih =>
    -- The last element counts only if its place is the one that is asked for.
    have hlast : (([a].zipIdx (0 + l.length)).flatMap g).count b =
        if i = l.length then (g (a, i)).count b else 0 := by
      rw [Nat.zero_add, List.zipIdx_singleton, List.flatMap_singleton]
      split_ifs with hi
      · rw [hi]
      · exact List.count_eq_zero_of_not_mem (h a _ (Ne.symm hi))
    rw [List.zipIdx_append, List.flatMap_append, List.count_append, ih, hlast]
    rcases lt_trichotomy i l.length with hi | hi | hi
    · rw [List.getElem?_append_left hi, if_neg hi.ne, Nat.add_zero]
    · rw [if_pos hi, hi, List.getElem?_concat_length, List.getElem?_eq_none le_rfl]
      exact Nat.zero_add _
    · rw [if_neg hi.ne', List.getElem?_eq_none hi.le, List.getElem?_eq_none]
      · rfl
      · rw [List.length_append, List.length_singleton]
        exact hi

/-! ## Invariants -/

/-- What holds in every state of the polling. -/
structure Polled (w : Wait) : Prop where
  /-- `microsocks` was started once in the container of each VPN that is connected, and in
      that of no other VPN. -/
  once : ∀ i, w.commands.count (microsocksCommand (containerName (i + 1))) =
    if w.states[i]? = some .connected then 1 else 0
  /-- It was started in no other container, and in no other way. -/
  only : ∀ command ∈ w.commands, "microsocks".toList ∈ command →
    ∃ i, command = microsocksCommand (containerName (i + 1))
  /-- The result is success exactly if a VPN is connected. -/
  ok_iff : w.result ≠ none → (w.result = some (.ok ()) ↔ .connected ∈ w.states)
  /-- Then the proxy was restarted once, and no VPN is waiting. -/
  of_ok : w.result = some (.ok ()) →
    w.commands.count restartCommand = 1 ∧ .waiting ∉ w.states
  /-- Otherwise it was not restarted. -/
  of_ne_ok : w.result ≠ some (.ok ()) → restartCommand ∉ w.commands

/-- From `w` to `w'`, the VPNs that are connected or failed in `w` stay so, and no command
    is about their containers. -/
def Settled (w w' : Wait) : Prop :=
  ∃ commands, w'.commands = w.commands ++ commands ∧
    ∀ i state, w.states[i]? = some state → state.isResolved = true →
      w'.states[i]? = some state ∧ ∀ command ∈ commands, containerName (i + 1) ∉ command

/-- Nothing was run at the start. -/
theorem polled_initial (n : ℕ) : Polled (.initial n) where
  once i := by
    rw [if_neg]
    · rfl
    · intro h
      have hmem := List.mem_of_getElem? h
      exact absurd (List.eq_of_mem_replicate hmem) (by decide)
  only command h := absurd h List.not_mem_nil
  ok_iff h := absurd rfl h
  of_ok h := absurd h (by simp [Wait.initial])
  of_ne_ok _ := List.not_mem_nil

/-- The commands of a round for the VPN at a place. -/
def polledCommands (casing : CaseMapping) (round : Round) (p : VpnState × ℕ) : List Command :=
  if p.1.isResolved then [] else (poll casing (containerName (p.2 + 1)) (round.answers p.2)).2

/-- A round adds the commands of each VPN, in order. -/
theorem commands_pollAll (casing : CaseMapping) (round : Round) (w : Wait) :
    (w.pollAll casing round).commands =
      w.commands ++ w.states.zipIdx.flatMap (polledCommands casing round) := by
  rw [Wait.pollAll]
  simp only [List.flatMap_map]
  congr 2
  funext p
  rw [polledCommands]
  split_ifs <;> rfl

/-- A command of a round about a container is run for a VPN that is not resolved. -/
theorem of_mem_polledCommands {p : VpnState × ℕ} (h : command ∈ polledCommands casing round p)
    (hmem : containerName (i + 1) ∈ command) : p.2 = i ∧ p.1.isResolved = false := by
  rw [polledCommands] at h
  split_ifs at h with hresolved
  · exact absurd h List.not_mem_nil
  · refine ⟨?_, Bool.eq_false_iff.2 hresolved⟩
    by_contra hne
    exact containerName_notMem (Ne.symm hne) h hmem

/-- It starts `microsocks` in the container of a VPN once, if the VPN connects in this round. -/
theorem count_polledCommands (casing : CaseMapping) (round : Round) (state : VpnState) (i : ℕ) :
    (polledCommands casing round (state, i)).count (microsocksCommand (containerName (i + 1))) =
      if state.isResolved = false ∧ verdict casing (round.answers i) = .connected then 1
      else 0 := by
  rw [polledCommands]
  rcases hresolved : state.isResolved with _ | _
  · simp [count_microsocks_poll]
  · simp

/-- What is started in a round, is started for the VPNs that connect in it. -/
theorem count_pollAll (casing : CaseMapping) (round : Round) (w : Wait) (i : ℕ) :
    (w.pollAll casing round).commands.count (microsocksCommand (containerName (i + 1))) =
      w.commands.count (microsocksCommand (containerName (i + 1))) +
        (w.states[i]?.map fun state => if state.isResolved = false ∧
          verdict casing (round.answers i) = .connected then 1 else 0).getD 0 := by
  rw [commands_pollAll, List.count_append, count_flatMap_zipIdx]
  · congr 3
    funext state
    exact count_polledCommands casing round state i
  · intro state j hj hmem
    exact hj (of_mem_polledCommands hmem (containerName_mem_microsocks i)).1

namespace VpnState

variable {state : VpnState}

/-- A VPN that is resolved stays so when the time is up. -/
theorem timeOut_of_isResolved (h : state.isResolved = true) : state.timeOut = state := by
  cases state with
  | waiting => exact absurd h (by decide)
  | connected => rfl
  | failed reason => rfl

/-- None is connected by the timeout. -/
theorem timeOut_eq_connected : state.timeOut = connected ↔ state = connected := by
  cases state <;> simp [timeOut]

/-- And none waits any longer. -/
theorem timeOut_ne_waiting : state.timeOut ≠ waiting := by
  cases state <;> simp [timeOut]

/-- Only one of the states is that of a VPN that is connected. -/
theorem isConnected_iff : state.isConnected = true ↔ state = connected := by
  cases state <;> simp [isConnected]

end VpnState

/-- Some VPN is connected after the timeout exactly if one was before. -/
theorem connected_mem_timeOut {states : List VpnState} :
    .connected ∈ states.map VpnState.timeOut ↔ .connected ∈ states := by
  simp only [List.mem_map, VpnState.timeOut_eq_connected, exists_eq_right]

/-- No VPN waits after the timeout. -/
theorem waiting_notMem_timeOut (states : List VpnState) :
    .waiting ∉ states.map VpnState.timeOut := by
  simp [VpnState.timeOut_ne_waiting]

/-! ## Steps -/

/-- A round of polling that does not end the loop. -/
theorem Polled.pollAll (h : Polled w) (hw : w.result = none) (casing : CaseMapping)
    (round : Round) : Polled (w.pollAll casing round) where
  once i := by
    rw [count_pollAll, h.once, getElem?_pollAll]
    rcases w.states[i]? with _ | state
    · rfl
    · -- Only a VPN that is waiting is polled, and microsocks is started where the poll finds it
      -- connected.
      cases state <;> simp [VpnState.isResolved]
  only command hmem hword := by
    rw [commands_pollAll] at hmem
    rcases List.mem_append.1 hmem with hmem | hmem
    · exact h.only command hmem hword
    · obtain ⟨p, -, hp⟩ := List.mem_flatMap.1 hmem
      rw [polledCommands] at hp
      split_ifs at hp
      · exact absurd hp List.not_mem_nil
      · exact ⟨p.2, eq_microsocks_of_mem_poll (containerName_ne (by decide) _) hp hword⟩
  ok_iff hresult := absurd hw hresult
  of_ok hok := absurd (hw.symm.trans hok) (by simp)
  of_ne_ok _ hmem := by
    rw [commands_pollAll] at hmem
    rcases List.mem_append.1 hmem with hmem | hmem
    · exact h.of_ne_ok (by rw [hw]; simp) hmem
    · obtain ⟨p, -, hp⟩ := List.mem_flatMap.1 hmem
      rw [polledCommands] at hp
      split_ifs at hp
      · exact absurd hp List.not_mem_nil
      · exact containerName_notMem_restartCommand _ (mem_of_mem_poll hp)

/-- The end of the loop. -/
theorem Polled.finish (h : Polled w) (hw : w.result = none) : Polled w.finish := by
  -- The proxy has not been restarted before the end.
  have hrestart : restartCommand ∉ w.commands := h.of_ne_ok (by rw [hw]; simp)
  have hstates : ∀ i : ℕ, (w.states.map VpnState.timeOut)[i]? = some .connected ↔
      w.states[i]? = some .connected := by
    intro i
    rw [List.getElem?_map, Option.map_eq_some_iff]
    simp only [VpnState.timeOut_eq_connected, exists_eq_right]
  rw [Wait.finish]
  split_ifs with hcount
  · -- No VPN is connected: the result is an error, and no command is run.
    have hnone : .connected ∉ w.states := by
      intro hmem
      exact List.countP_eq_zero.1 hcount _ hmem rfl
    exact
      { once := fun i => by simp only [h.once, hstates]
        only := h.only
        ok_iff := fun _ => iff_of_false (by simp) (mt connected_mem_timeOut.1 hnone)
        of_ok := fun hok => absurd hok (by simp)
        of_ne_ok := fun _ => hrestart }
  · -- Some VPN is: the proxy is restarted, once, and no VPN is touched.
    have hsome : .connected ∈ w.states := by
      by_contra hmem
      refine hcount (List.countP_eq_zero.2 fun state hstate hconnected => hmem ?_)
      exact VpnState.isConnected_iff.1 hconnected ▸ hstate
    exact
      { once := fun i => by
          have hne : microsocksCommand (containerName (i + 1)) ∉ [restartCommand] := fun hmem =>
            ne_microsocks_of_mem (by simp) (List.mem_singleton.1 hmem).symm
          rw [List.count_append, h.once, List.count_eq_zero_of_not_mem hne, Nat.add_zero]
          simp only [hstates]
        only := fun command hmem hword => by
          rcases List.mem_append.1 hmem with hmem | hmem
          · exact h.only command hmem hword
          · exact absurd (List.mem_singleton.1 hmem ▸ hword) (by decide)
        ok_iff := fun _ => iff_of_true rfl (connected_mem_timeOut.2 hsome)
        of_ok := fun _ => ⟨by simp [List.count_eq_zero_of_not_mem hrestart],
          waiting_notMem_timeOut w.states⟩
        of_ne_ok := fun hne => absurd rfl hne }

/-- What is resolved is resolved. -/
theorem Settled.refl (w : Wait) : Settled w w :=
  ⟨[], (List.append_nil _).symm, fun _ _ hi _ => ⟨hi, fun _ h => absurd h List.not_mem_nil⟩⟩

/-- What stays so, and stays so again, does so all along. -/
theorem Settled.trans {w₁ w₂ w₃ : Wait} (h : Settled w₁ w₂) (h' : Settled w₂ w₃) :
    Settled w₁ w₃ := by
  obtain ⟨commands, hcommands, hstates⟩ := h
  obtain ⟨commands', hcommands', hstates'⟩ := h'
  refine ⟨commands ++ commands', by rw [hcommands', hcommands, List.append_assoc], ?_⟩
  intro i state hi hresolved
  obtain ⟨hi, hnew⟩ := hstates i state hi hresolved
  obtain ⟨hi, hnew'⟩ := hstates' i state hi hresolved
  exact ⟨hi, fun command hmem => (List.mem_append.1 hmem).elim (hnew command) (hnew' command)⟩

/-- A round of polling leaves the VPNs alone that are resolved. -/
theorem settled_pollAll (casing : CaseMapping) (round : Round) (w : Wait) :
    Settled w (w.pollAll casing round) := by
  refine ⟨_, commands_pollAll casing round w, fun i state hi hresolved => ⟨?_, ?_⟩⟩
  · rw [getElem?_pollAll, hi, Option.map_some, if_pos hresolved]
  · intro command hmem hcontainer
    obtain ⟨⟨state', j⟩, hp, hcommand⟩ := List.mem_flatMap.1 hmem
    obtain ⟨rfl, hwaiting⟩ := of_mem_polledCommands hcommand hcontainer
    have hj := (List.mem_zipIdx_iff_getElem?.1 hp).symm.trans hi
    rw [Option.some.inj hj, hresolved] at hwaiting
    exact absurd hwaiting (by decide)

/-- So does the end of the loop. -/
theorem settled_finish (w : Wait) : Settled w w.finish := by
  have hstates : ∀ (i : ℕ) (state : VpnState), w.states[i]? = some state →
      state.isResolved = true → w.finish.states[i]? = some state := by
    intro i state hi hresolved
    rw [states_finish, List.getElem?_map, hi, Option.map_some,
      VpnState.timeOut_of_isResolved hresolved]
  have hcommands : ∃ commands, w.finish.commands = w.commands ++ commands ∧
      commands ⊆ [restartCommand] := by
    rw [Wait.finish]
    split_ifs
    · exact ⟨[], (List.append_nil _).symm, List.nil_subset _⟩
    · exact ⟨[restartCommand], rfl, List.Subset.refl _⟩
  obtain ⟨commands, hcommands, hrestart⟩ := hcommands
  refine ⟨commands, hcommands, fun i state hi hresolved => ⟨hstates i state hi hresolved, ?_⟩⟩
  intro command hmem
  rw [List.mem_singleton.1 (hrestart hmem)]
  exact containerName_notMem_restartCommand _

/-- A round is polled as long as there is no result. -/
theorem pollStep_eq_some : pollStep casing w round = some w' ↔
    w.result = none ∧ (w.pollAll casing round).evaluate round = w' := by
  rw [pollStep]
  split_ifs with hw <;> simp [hw]

/-- Every round keeps the commands fitting the states. -/
theorem polled_of_pollStep (h : Polled w) (hstep : pollStep casing w round = some w') :
    Polled w' := by
  obtain ⟨hw, rfl⟩ := pollStep_eq_some.1 hstep
  have hpolled := h.pollAll hw casing round
  rw [Wait.evaluate]
  split_ifs
  · exact hpolled.finish hw
  · exact hpolled

/-- Every round leaves the VPNs alone that are resolved. -/
theorem settled_of_pollStep (hstep : pollStep casing w round = some w') : Settled w w' := by
  obtain ⟨-, rfl⟩ := pollStep_eq_some.1 hstep
  rw [Wait.evaluate]
  split_ifs
  · exact (settled_pollAll casing round w).trans (settled_finish _)
  · exact settled_pollAll casing round w

/-- Between any two states of the polling, VPNs that are resolved are left alone. -/
theorem settled_of_run (hrun : Run.run (pollStep casing) w rounds = some w') : Settled w w' :=
  Run.run_inv (fun _ _ _ _ h hstep => h.trans (settled_of_pollStep hstep)) (.refl w) hrun

/-- Whatever the number of VPNs, the answers and the timeout: `wait_for_healthy` is a run of the
    system, up to the round in which it returns; the commands run fit the states in each state
    that the system goes through; and VPNs that are resolved are left alone from then on. -/
theorem waitForHealthy_polled (casing : CaseMapping) (countries : List Text)
    (rounds : List Round) :
    (∃ used, used <+: rounds ∧
      Run.run (pollStep casing) (.initial countries.length) used =
        some (waitForHealthy casing countries rounds) ∧
      ((waitForHealthy casing countries rounds).result = none → used = rounds)) ∧
    Run.Always (pollStep casing) Polled (.initial countries.length) rounds ∧
    ∀ before after w w', Run.run (pollStep casing) (.initial countries.length) before = some w →
      Run.run (pollStep casing) w after = some w' → Settled w w' :=
  ⟨exists_run_eq_waitFrom rfl,
    Run.always_of_inv (fun _ _ _ h hstep => polled_of_pollStep h hstep)
      (polled_initial countries.length),
    fun _ _ _ _ _ hrun => settled_of_run hrun⟩

end Houdinny.Docker
