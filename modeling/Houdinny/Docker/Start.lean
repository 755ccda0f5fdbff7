import Houdinny.Docker.Addresses

/-!
# Starting the stack

`start` writes the files of the stack, brings it up, and waits for its VPNs. The
outside world is a `Machine`: the `docker` binary, what comes of writing files and
bringing the stack up, and what the containers answer in each round of polling.

A VPN is decided once: by the first poll that finds its container stopped or its
connection up, or by the timeout (`state_waitForHealthy`). `start` succeeds as soon as
one VPN has connected, and then restarts the proxy; the files of the stack are those that
were written before any VPN was polled (`start_ok`).

* `poll` is what is asked of one container in one round, and what is made of the answers.
  As far as the state of its VPN is concerned, this is `verdict`.
* `Wait` is the loop of `wait_for_healthy`: the states of the VPNs, the commands so far, and
  the result, once it has returned. It is recursive in the rounds (`waitFrom`).
* `Started` is what `start` leaves behind: the files written, how far it has come with the
  polling, and its result, if it has returned.

The time that passes is left out: a round says whether the time is up at its end. Where the
rounds given are used up, the loop is still running.
-/

namespace Houdinny.Docker

open Text

/-! ## Polling -/

/-- Per-VPN health state tracked during polling. -/
inductive VpnState
  | waiting
  | connected
  | failed (reason : Text)
  deriving DecidableEq

namespace VpnState

/-- The VPN has connected or failed. -/
def isResolved : VpnState → Bool
  | waiting => false
  | connected | failed _ => true

/-- The VPN has connected. -/
def isConnected : VpnState → Bool
  | connected => true
  | waiting | failed _ => false

end VpnState

/-- The output of a command, of which text that is not UTF-8 was replaced. -/
structure Output where
  stdout : Text
  stderr : Text
  success : Bool
  deriving DecidableEq

/-- What the commands about one container give in one round: nothing, where the
    command cannot be run. -/
structure Answers where
  inspect : Option Output
  status : Option Output
  logs : Option Output
  deriving DecidableEq

/-- A round of polling: what the container of each VPN answers, and whether the
    time is up at the end of it. -/
structure Round where
  answers : ℕ → Answers
  timedOut : Bool

/-- Inspect the last few log lines of a stopped container and return a
    human-readable reason for the failure. -/
def diagnoseContainer (casing : CaseMapping) (logs : Option Output) : Text :=
  let logText := match logs with
    | some out => out.stdout ++ out.stderr
    | none => []
  let lower := casing.toLowercase logText
  if "token".toList <:+: lower then "invalid or expired NordVPN token".toList
  else if "no such device".toList <:+: lower then
    "WireGuard/NordLynx not available — restart Docker Desktop".toList
  else
    trim (((logText.splitOn '\n').reverse.find? fun l => !(trim l).isEmpty).getD
      "unknown error".toList)

/-- The container of the VPN number `n`. -/
def containerName (n : ℕ) : Text := "houdinny-vpn-".toList ++ ofNat n

/-- The arguments of a `docker` command. -/
abbrev Command := List Text

/-- Is the container running? -/
def inspectCommand (container : Text) : Command :=
  ["inspect".toList, "-f".toList, "\x7b\x7b.State.Running\x7d\x7d".toList, container]

/-- The last lines that a container has logged. -/
def logsCommand (container : Text) : Command :=
  ["logs".toList, "--tail".toList, "20".toList, container]

/-- The state of the VPN within a container. -/
def statusCommand (container : Text) : Command :=
  ["exec".toList, container, "nordvpn".toList, "status".toList]

/-- Let the subnet of the stack past the firewall of the VPN. -/
def whitelistCommand (container : Text) : Command :=
  ["exec".toList, container, "nordvpn".toList, "whitelist".toList, "add".toList, "subnet".toList,
    "172.20.0.0/16".toList]

/-- Start the SOCKS5 server in the background. -/
def microsocksCommand (container : Text) : Command :=
  ["exec".toList, "-d".toList, container, "microsocks".toList, "-p".toList, "1080".toList,
    "-b".toList, "0.0.0.0".toList]

/-- Restart the proxy. -/
def restartCommand : Command := ["restart".toList, "houdinny".toList]

/-- Is the container still running? -/
def Answers.running (a : Answers) : Bool :=
  match a.inspect with
  | some out => eqIgnoreAsciiCase (trim out.stdout) "true".toList
  | none => false

/-- Does NordVPN report a connection? -/
def Answers.connected (casing : CaseMapping) (a : Answers) : Bool :=
  match a.status with
  | some out => "status: connected".toList <:+: casing.toLowercase out.stdout
  | none => false

/-- Poll the container of a VPN that is still waiting: its state after that, and
    the commands run. -/
def poll (casing : CaseMapping) (container : Text) (a : Answers) : VpnState × List Command :=
  if !a.running then
    (.failed (diagnoseContainer casing a.logs), [inspectCommand container, logsCommand container])
  else if a.connected casing then
    (.connected, [inspectCommand container, statusCommand container, whitelistCommand container,
      microsocksCommand container])
  else (.waiting, [inspectCommand container, statusCommand container])

/-- How far `wait_for_healthy` has come: it is still polling, or has returned. -/
structure Wait where
  states : List VpnState
  commands : List Command
  result : Option (Except Text Unit)

/-- Poll each unresolved VPN. -/
def Wait.pollAll (casing : CaseMapping) (round : Round) (w : Wait) : Wait :=
  let polled := w.states.zipIdx.map fun p =>
    if p.1.isResolved then (p.1, []) else poll casing (containerName (p.2 + 1)) (round.answers p.2)
  { w with states := polled.map Prod.fst, commands := w.commands ++ polled.flatMap Prod.snd }

/-- A VPN that is still waiting when the time is up has failed. -/
def VpnState.timeOut : VpnState → VpnState
  | waiting => failed "timed out".toList
  | state => state

/-- The error where no VPN has connected. -/
def noVpnsConnected : Text :=
  ("No VPNs connected. Troubleshooting:\n  1. Check your NordVPN token in .env — is it valid?\n" ++
    "  2. Run: docker logs houdinny-vpn-1\n  3. Try restarting Docker Desktop\n" ++
    "  4. Try a different country").toList

/-- Proceed with the VPNs that have connected, if there are any. -/
def Wait.finish (w : Wait) : Wait :=
  let states := w.states.map VpnState.timeOut
  if w.states.countP VpnState.isConnected = 0 then
    ⟨states, w.commands, some (.error noVpnsConnected)⟩
  else ⟨states, w.commands ++ [restartCommand], some (.ok ())⟩

/-- The loop of `wait_for_healthy`, round by round. -/
def waitFrom (casing : CaseMapping) : List Round → Wait → Wait
  | [], w => w
  | round :: rounds, w =>
    let polled := w.pollAll casing round
    if polled.states.all VpnState.isResolved || round.timedOut then polled.finish
    else waitFrom casing rounds polled

/-- Poll VPN containers until all are resolved or the time is up. -/
def waitForHealthy (casing : CaseMapping) (countries : List Text) (rounds : List Round) : Wait :=
  waitFrom casing rounds ⟨List.replicate countries.length .waiting, [], none⟩

/-! ## Start command -/

/-- What `start` finds outside. -/
structure Machine where
  /-- Is there a file at this path? -/
  present : Text → Bool
  /-- The output of `which docker`. -/
  which : Option Output
  /-- Is there a current directory? -/
  currentDir : Bool
  /-- Can the file of this name be written? -/
  writable : Text → Bool
  /-- The exit code of `docker compose up`: it may not run, or be killed. -/
  composeUp : Option (Option ℤ)
  rounds : List Round

/-- The `docker` binary. -/
def findDocker (m : Machine) : Except Text Text :=
  match (["/usr/local/bin/docker".toList, "/usr/bin/docker".toList,
    "/opt/homebrew/bin/docker".toList].find? m.present) with
  | some candidate => .ok candidate
  | none => match m.which with
    | none => .error "failed to search PATH for docker".toList
    | some out =>
      if out.success && !(trim out.stdout).isEmpty then .ok (trim out.stdout)
      else .error ("docker not found. Please install Docker Desktop or Docker Engine.\n" ++
        "https://docs.docker.com/get-docker/").toList

/-- Files, by name, with what was written to them. -/
abbrev Files := List (Text × Text)

/-- Write files, up to the first that cannot be written. -/
def writeFiles (m : Machine) : Files → Files × Except Text Unit
  | [] => ([], .ok ())
  | (name, content) :: files =>
    if m.writable name then ((name, content) :: (writeFiles m files).1, (writeFiles m files).2)
    else ([], .error ("failed to write ".toList ++ name))

/-- Generate .env file content. -/
def generateEnv (nordToken : Text) : Text := "NORD_TOKEN=".toList ++ nordToken ++ "\n".toList

/-- What `start` has done: the files written, the polling, and the result, once it
    returns. -/
structure Started where
  files : Files
  wait : Option Wait
  result : Option (Except Text Unit)

/-- The token for all VPNs: that of the command line, else the first configured. -/
def nordToken (cfg : DockerConfig) (tokenOverride : Option Text) : Text :=
  (tokenOverride.or (cfg.vpn.findSome? VpnConfig.token)).getD []

/-- The file that the proxy is configured with. -/
def tunnelsName : Text := "tunnels.docker.toml".toList

/-- The files of the stack. -/
def stackFiles (toYaml : ComposeFile → Text) (casing : CaseMapping) (countries : List Text)
    (token strategy : Text) (port : UInt16) : Files :=
  [("docker-compose.yml".toList, generateDockerCompose toYaml casing countries port),
    (".env".toList, generateEnv token),
    (tunnelsName, generateTunnelsConfig casing countries strategy port)]

/-- The part of `start` that checks the configuration, writes the files, and brings
    the stack up: the files written, and whether all went well. -/
def bringUp (toYaml : ComposeFile → Text) (casing : CaseMapping) (m : Machine) (cfg : DockerConfig)
    (tokenOverride : Option Text) (port : UInt16) (strategy : Text) : Files × Except Text Unit :=
  if cfg.vpn.isEmpty then
    ([], .error ("no VPN entries configured. Add [[docker.vpn]] sections to houdinny.toml " ++
      "or pass --nord-token + --countries.").toList)
  else if nordToken cfg tokenOverride = [] ∨ "$\x7b".toList <:+: nordToken cfg tokenOverride then
    ([], .error ("NordVPN token not set. Either:\n  1. Put NORD_TOKEN=... in .env and " ++
      "use $\x7bNORD_TOKEN\x7d in houdinny.toml\n" ++
      "  2. Pass --nord-token=... on the command line").toList)
  else match findDocker m with
  | .error e => ([], .error e)
  | .ok _ =>
    if !m.currentDir then ([], .error "failed to determine current directory".toList)
    else match writeFiles m (stackFiles toYaml casing (cfg.vpn.map VpnConfig.country)
        (nordToken cfg tokenOverride) strategy port) with
    | (files, .error e) => (files, .error e)
    | (files, .ok _) => match m.composeUp with
      | none => (files, .error "failed to run `docker compose up`".toList)
      | some status =>
        if status = some 0 then (files, .ok ())
        else (files, .error ("`docker compose up` exited with status ".toList ++
          (toString (status.getD (-1))).toList))

/-- Generate all config files and bring the Docker stack up. -/
def start (toYaml : ComposeFile → Text) (casing : CaseMapping) (m : Machine) (cfg : DockerConfig)
    (tokenOverride : Option Text) (port : UInt16) (strategy : Text) (noWait : Bool) : Started :=
  match bringUp toYaml casing m cfg tokenOverride port strategy with
  | (files, .error e) => ⟨files, none, some (.error e)⟩
  | (files, .ok _) =>
    if noWait then ⟨files, none, some (.ok ())⟩
    else
      let w := waitForHealthy casing (cfg.vpn.map VpnConfig.country) m.rounds
      ⟨files, some w, w.result⟩

/-! ## The state of a VPN -/

/-- What a poll makes of a VPN that is still waiting. -/
def verdict (casing : CaseMapping) (a : Answers) : VpnState :=
  if !a.running then .failed (diagnoseContainer casing a.logs)
  else if a.connected casing then .connected else .waiting

/-- The VPN number `i` connects: it is polled without a result in rounds at the end
    of which the time is not up, and then found running and connected. -/
def Connects (casing : CaseMapping) (rounds : List Round) (i : ℕ) : Prop :=
  ∃ before round after, rounds = before ++ round :: after ∧
    verdict casing (round.answers i) = .connected ∧
    ∀ r ∈ before, verdict casing (r.answers i) = .waiting ∧ r.timedOut = false

/-- The state after a poll is its verdict. -/
theorem poll_fst (casing : CaseMapping) (container : Text) (a : Answers) :
    (poll casing container a).1 = verdict casing a := by
  rw [poll, verdict]
  split_ifs <;> rfl

/-- A round of polling decides the VPNs that are still waiting, by themselves. -/
theorem getElem?_pollAll (casing : CaseMapping) (round : Round) (w : Wait) (i : ℕ) :
    (w.pollAll casing round).states[i]? = w.states[i]?.map fun state =>
      if state.isResolved then state else verdict casing (round.answers i) := by
  rw [Wait.pollAll, List.getElem?_map, List.getElem?_map, List.getElem?_zipIdx, Nat.zero_add,
    Option.map_map, Option.map_map]
  congr 1
  funext state
  simp only [Function.comp_apply]
  split_ifs
  · rfl
  · exact poll_fst casing _ _

/-- A VPN connects in this round, or goes on waiting and connects in a later one. -/
theorem connects_cons {casing : CaseMapping} {round : Round} {rounds : List Round} {i : ℕ} :
    Connects casing (round :: rounds) i ↔ verdict casing (round.answers i) = .connected ∨
      verdict casing (round.answers i) = .waiting ∧ round.timedOut = false ∧
        Connects casing rounds i := by
  constructor
  · rintro ⟨_ | ⟨first, before⟩, r, after, h, hr, hbefore⟩
    · obtain ⟨rfl, rfl⟩ := List.cons.inj h
      exact .inl hr
    · obtain ⟨rfl, rfl⟩ := List.cons.inj h
      rw [List.forall_mem_cons] at hbefore
      exact .inr ⟨hbefore.1.1, hbefore.1.2, before, r, after, rfl, hr, hbefore.2⟩
  · rintro (hr | ⟨hwaiting, htime, before, r, after, rfl, hr, hbefore⟩)
    · exact ⟨[], round, rounds, rfl, hr, fun r hr => absurd hr List.not_mem_nil⟩
    · exact ⟨round :: before, r, after, rfl, hr,
        List.forall_mem_cons.2 ⟨⟨hwaiting, htime⟩, hbefore⟩⟩

/-- The end of the loop fails the VPNs that are still waiting. -/
theorem states_finish (w : Wait) : w.finish.states = w.states.map VpnState.timeOut := by
  rw [Wait.finish]
  split_ifs <;> rfl

/-- When the loop has returned, a VPN is connected exactly if it was, or was still
    waiting and then connected in time. -/
theorem isConnected_waitFrom {casing : CaseMapping} {rounds : List Round} {w : Wait} {i : ℕ}
    {state state' : VpnState} (hw : w.result = none)
    (hresult : (waitFrom casing rounds w).result ≠ none) (hi : w.states[i]? = some state)
    (hi' : (waitFrom casing rounds w).states[i]? = some state') :
    state' = .connected ↔ state = .connected ∨ state = .waiting ∧ Connects casing rounds i := by
  -- Induction on the rounds: in each of them, a VPN that is resolved stays as it
  -- is, and one that is waiting gets its verdict, or waits for the next round.
  induction rounds generalizing w state with
  | nil => exact absurd hw hresult
  | cons round rounds ih =>
    rw [waitFrom] at hresult hi'
    have hpolled := getElem?_pollAll casing round w i
    rw [hi, Option.map_some] at hpolled
    by_cases hend : (w.pollAll casing round).states.all VpnState.isResolved || round.timedOut
    · rw [if_pos hend, states_finish, List.getElem?_map, hpolled, Option.map_some] at hi'
      obtain rfl := Option.some.inj hi'
      -- A VPN that is waiting still was not resolved, so the time is up.
      have htime : verdict casing (round.answers i) = .waiting → state = .waiting →
          round.timedOut = true := by
        rintro hverdict rfl
        rcases Bool.or_eq_true_iff.1 hend with hall | htime
        · have := List.all_eq_true.1 hall _ (List.mem_of_getElem? hpolled)
          rw [if_neg (by decide), hverdict] at this
          exact absurd this (by decide)
        · exact htime
      rw [connects_cons]
      cases state with
      | waiting =>
        rw [if_neg (by decide)]
        rcases hverdict : verdict casing (round.answers i) with _ | _ | reason
        · simp [VpnState.timeOut, htime hverdict rfl]
        · simp [VpnState.timeOut]
        · simp [VpnState.timeOut]
      | connected => simp [VpnState.timeOut, VpnState.isResolved]
      | failed reason => simp [VpnState.timeOut, VpnState.isResolved]
    · rw [if_neg hend] at hresult hi'
      have htime : round.timedOut = false := by
        rw [Bool.or_eq_true, not_or] at hend
        exact Bool.eq_false_iff.2 hend.2
      rw [ih (w := w.pollAll casing round) hw hresult hpolled hi', connects_cons]
      cases state with
      | waiting => simp [VpnState.isResolved, htime]
      | connected => simp [VpnState.isResolved]
      | failed reason => simp [VpnState.isResolved]

/-- A round leaves the number of VPNs as it is. -/
theorem length_pollAll (casing : CaseMapping) (round : Round) (w : Wait) :
    (w.pollAll casing round).states.length = w.states.length := by
  rw [Wait.pollAll, List.length_map, List.length_map, List.length_zipIdx]

/-- So does the loop. -/
theorem length_waitFrom (casing : CaseMapping) (rounds : List Round) (w : Wait) :
    (waitFrom casing rounds w).states.length = w.states.length := by
  induction rounds generalizing w with
  | nil => rfl
  | cons round rounds ih =>
    rw [waitFrom]
    split_ifs
    · rw [states_finish, List.length_map, length_pollAll]
    · rw [ih, length_pollAll]

/-- In a polling that has returned, the VPNs connected are those that connect in
    time. -/
theorem state_waitForHealthy {casing : CaseMapping} {countries : List Text} {rounds : List Round}
    (h : (waitForHealthy casing countries rounds).result ≠ none) {i : ℕ}
    (hi : i < countries.length) :
    (waitForHealthy casing countries rounds).states[i]? = some .connected ↔
      Connects casing rounds i := by
  have hlen : (waitForHealthy casing countries rounds).states.length = countries.length := by
    rw [waitForHealthy, length_waitFrom, List.length_replicate]
  have hstate := List.getElem?_eq_getElem (hlen ▸ hi)
  have hstart : (List.replicate countries.length VpnState.waiting)[i]? = some .waiting := by
    rw [List.getElem?_replicate, if_pos hi]
  rw [hstate, Option.some_inj, isConnected_waitFrom rfl h hstart hstate]
  simp

/-! ## A stack that was started -/

/-- Where no write fails, all files are written. -/
theorem writeFiles_ok {m : Machine} {files files' : Files} {u : Unit}
    (h : writeFiles m files = (files', .ok u)) : files' = files := by
  induction files generalizing files' with
  | nil => exact (Prod.mk.inj h).1.symm
  | cons file files ih =>
    obtain ⟨name, content⟩ := file
    rw [writeFiles] at h
    split_ifs at h
    · obtain ⟨rfl, hok⟩ := Prod.mk.inj h
      exact congrArg _ (ih (Prod.ext rfl hok))
    · exact absurd (Prod.mk.inj h).2 (by simp)

variable {toYaml : ComposeFile → Text} {casing : CaseMapping} {m : Machine} {cfg : DockerConfig}
  {tokenOverride : Option Text} {port : UInt16} {strategy : Text}

/-- A stack that is up has all of its files. -/
theorem bringUp_ok {files : Files} {u : Unit}
    (h : bringUp toYaml casing m cfg tokenOverride port strategy = (files, .ok u)) :
    files = stackFiles toYaml casing (cfg.vpn.map VpnConfig.country) (nordToken cfg tokenOverride)
      strategy port := by
  -- Each check returns its own error, and only the last branch is left.
  have hfail : ∀ {files' : Files} {e : Text}, (files', Except.error e) ≠ (files, Except.ok u) :=
    fun h => absurd (Prod.mk.inj h).2 (by simp)
  rw [bringUp] at h
  split at h
  · exact absurd h hfail
  split at h
  · exact absurd h hfail
  split at h
  · exact absurd h hfail
  split at h
  · exact absurd h hfail
  split at h
  · exact absurd h hfail
  next hwrite =>
    split at h
    · exact absurd h hfail
    split at h
    · obtain ⟨rfl, -⟩ := Prod.mk.inj h
      exact writeFiles_ok hwrite
    · exact absurd h hfail

/-- Where `start` succeeds, it has written all files, and waited for the VPNs. -/
theorem start_ok (h : (start toYaml casing m cfg tokenOverride port strategy false).result =
    some (.ok ())) : ∃ w, w = waitForHealthy casing (cfg.vpn.map VpnConfig.country) m.rounds ∧
      w.result = some (.ok ()) ∧ start toYaml casing m cfg tokenOverride port strategy false =
        ⟨stackFiles toYaml casing (cfg.vpn.map VpnConfig.country) (nordToken cfg tokenOverride)
          strategy port, some w, w.result⟩ := by
  rw [start] at h ⊢
  split at h
  · exact absurd h (by simp)
  · next files u hup =>
    obtain rfl := bringUp_ok hup
    exact ⟨_, rfl, h, rfl⟩

/-! ## Sample machines -/

/-- A machine on which all commands work, with one round of polling. -/
def workingMachine (answers : ℕ → Answers) : Machine where
  present _ := true
  which := none
  currentDir := true
  writable _ := true
  composeUp := some (some 0)
  rounds := [⟨answers, false⟩]

/-- The output of a command that has succeeded. -/
def outputOf (stdout : String) : Output := ⟨stdout.toList, [], true⟩

/-- A container whose VPN is connected. -/
def connectedAnswers : Answers := ⟨outputOf "true\n", outputOf "Status: Connected\n", none⟩

/-- A container that has stopped. -/
def stoppedAnswers : Answers := ⟨outputOf "false\n", none, outputOf "Whoops! Wrong token.\n"⟩

/-- A configuration with these countries. -/
def configOf (countries : List String) : DockerConfig :=
  ⟨true, countries.map fun c => ⟨"nordvpn".toList, none, c.toList⟩⟩

end Houdinny.Docker
