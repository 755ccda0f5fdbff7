import Mathlib.Data.List.Forall2
import Houdinny.Error
import Houdinny.Lib.Json
import Houdinny.Lib.Stream
import Houdinny.Status

/-!
# The MCP server

The server that exposes the pool to agents, as JSON-RPC requests over standard input, one a
line. The library for JSON is a parameter (`Json.Format`), and standard output takes what it
is given.

* `handleRequest`: what becomes of the pool with one request, and the response. It dispatches
  on the method (`respond`), and `tools/call` on the name of the tool (`handleToolsCall`).
* `runStdio`: the loop. It skips lines that are blank, and ends at the end of the input, or at
  the first line that is no text.
* `Answers`: the replies that JSON-RPC requires for a line, given without the server: one
  with its id for a request, none for a notification, and a refusal with a null id for what is
  neither.

Every response is well-formed, and has the id of its request (`isReply_respond`). But
`handleRequest` has a response to everything, also to notifications, which are to have none
(`not_conforms_notification`). And the loop fails at a line that is no text, which is to be
refused like any other that is no JSON. What is written conforms exactly if there is neither
(`conforms_iff`).

The tools that tell of the pool take their responses from it as it is: those are the responses
of calls that nothing comes between (`toolPoolStatus_runs`, `toolHealthCheck_runs`).
-/

namespace Houdinny

namespace Mcp

open Text Stream Json

variable {ν τ : Type}

/-! ## Error codes and tools -/

/-- JSON-RPC error code for a request that is no JSON. -/
def parseError : ℤ := -32700
/-- JSON-RPC error code for a request without a method. -/
def invalidRequest : ℤ := -32600
/-- JSON-RPC error code for a method, or a tool, that does not exist. -/
def methodNotFound : ℤ := -32601
/-- JSON-RPC error code for parameters that are missing. -/
def invalidParams : ℤ := -32602

/-- A property of a tool's input, which is a string. -/
def stringProperty (name description : Text) : Text × Json ν :=
  (name, object [("type".toList, string "string".toList),
    ("description".toList, string description)])

/-- A tool, and the properties that it requires, which are all that it has. -/
def toolDefinition (name description : Text) (properties : List (Text × Text)) : Json ν :=
  object [("name".toList, string name), ("description".toList, string description),
    ("inputSchema".toList, object [("type".toList, string "object".toList),
      ("properties".toList, object (properties.map fun p => stringProperty p.1 p.2)),
      ("required".toList, array (properties.map fun p => string p.1))])]

/-- Build the static tool list returned by `tools/list`. -/
def toolDefinitions : Json ν :=
  array [
    toolDefinition "pool_status".toList
      "Get tunnel pool status (total, healthy, per-tunnel details)".toList [],
    toolDefinition "pool_add".toList "Add a tunnel to the pool at runtime".toList
      [("protocol".toList, "Tunnel protocol (e.g. socks5, wireguard)".toList),
        ("address".toList, "Tunnel endpoint address".toList),
        ("label".toList, "Human-readable label".toList)],
    toolDefinition "pool_remove".toList "Remove a tunnel from the pool by its ID".toList
      [("id".toList, "Tunnel ID to remove".toList)],
    toolDefinition "health_check".toList
      "Health check returning status, version, and tunnel count".toList []]

/-! ## Responses -/

/-- Build a successful JSON-RPC 2.0 response. -/
def successResponse (id result : Json ν) : Json ν :=
  object [("jsonrpc".toList, string "2.0".toList), ("id".toList, id), ("result".toList, result)]

/-- Build a JSON-RPC 2.0 error response. -/
def errorResponse (f : Format ν) (id : Json ν) (code : ℤ) (message : Text) : Json ν :=
  object [("jsonrpc".toList, string "2.0".toList), ("id".toList, id),
    ("error".toList, object [("code".toList, number (f.ofInt code)),
      ("message".toList, string message)])]

/-- Build a tool result response with MCP text content. -/
def toolResult (id : Json ν) (text : Text) : Json ν :=
  successResponse id (object [("content".toList,
    array [object [("type".toList, string "text".toList), ("text".toList, string text)]])])

/-! ## Tools -/

/-- What a transport tells of itself. -/
structure Traits (τ : Type) where
  id : τ → Text
  label : τ → Text
  protocol : τ → Text
  healthy : τ → Bool

/-- MCP server backed by a tunnel pool. -/
structure McpServer (τ : Type) where
  pool : Pool τ

section

variable (f : Format ν) (tr : Traits τ) (server : McpServer τ) (id arguments : Json ν)

/-- `pool_status` — return pool status as JSON text content. -/
def toolPoolStatus : Json ν :=
  let r := Status.poolResponse tr.id tr.label tr.protocol tr.healthy server.pool
  let tunnels := r.tunnels.map fun t => object [("id".toList, string t.id),
    ("label".toList, string t.label), ("protocol".toList, string t.protocol),
    ("healthy".toList, bool t.healthy)]
  toolResult id (f.print (object [("total".toList, number (f.ofInt r.total)),
    ("healthy".toList, number (f.ofInt r.healthy)), ("tunnels".toList, array tunnels)]))

/-- `pool_add` — add a tunnel at runtime (placeholder). -/
def toolPoolAdd : Json ν :=
  match (arguments.get "protocol".toList).bind asStr with
  | none => errorResponse f id invalidParams "Missing required parameter: protocol".toList
  | some protocol =>
    match (arguments.get "address".toList).bind asStr with
    | none => errorResponse f id invalidParams "Missing required parameter: address".toList
    | some address =>
      match (arguments.get "label".toList).bind asStr with
      | none => errorResponse f id invalidParams "Missing required parameter: label".toList
      | some label =>
        toolResult id ("Tunnel add requested: protocol=".toList ++ protocol ++
          ", address=".toList ++ address ++ ", label=".toList ++ label ++
          ". Transport creation requires runtime provisioning — request queued.".toList)

/-- `pool_remove` — remove a tunnel by ID. -/
def toolPoolRemove : McpServer τ × Json ν :=
  match (arguments.get "id".toList).bind asStr with
  | none => (server, errorResponse f id invalidParams "Missing required parameter: id".toList)
  | some tunnelId =>
    let (pool, removed) := server.pool.remove tr.id tunnelId
    let msg := if removed then "Tunnel '".toList ++ tunnelId ++ "' removed successfully".toList
      else "Tunnel '".toList ++ tunnelId ++ "' not found in pool".toList
    (⟨pool⟩, toolResult id msg)

/-- `health_check` — return status, version, and tunnel count. -/
def toolHealthCheck : Json ν :=
  let r := Status.healthCheck tr.healthy server.pool
  toolResult id (f.print (object [("status".toList, string r.status),
    ("version".toList, string r.version),
    ("tunnels_total".toList, number (f.ofInt r.tunnelsTotal)),
    ("tunnels_healthy".toList, number (f.ofInt r.tunnelsHealthy))]))

/-- The listing is the response of a call that runs with the pool and the flags as they are. -/
theorem toolPoolStatus_runs : ∃ c r, c.phase = .returned (.pool r) ∧
    Status.Call.Runs tr.id tr.label tr.protocol ⟨server.pool, tr.healthy, []⟩
      (.new .poolStatus) c ∧
    toolPoolStatus f tr server id = toolResult id (f.print (object [
      ("total".toList, number (f.ofInt r.total)), ("healthy".toList, number (f.ofInt r.healthy)),
      ("tunnels".toList, array (r.tunnels.map fun t => object [("id".toList, string t.id),
        ("label".toList, string t.label), ("protocol".toList, string t.protocol),
        ("healthy".toList, bool t.healthy)]))])) := by
  have hrun := Status.Call.runs_poolStatus tr.id tr.label tr.protocol
    ⟨server.pool, tr.healthy, []⟩ (.new .poolStatus)
  exact ⟨_, _, rfl, hrun, rfl⟩

/-- So is a health check. -/
theorem toolHealthCheck_runs : ∃ c r, c.phase = .returned (.health r) ∧
    Status.Call.Runs tr.id tr.label tr.protocol ⟨server.pool, tr.healthy, []⟩
      (.new .healthCheck) c ∧
    toolHealthCheck f tr server id = toolResult id (f.print (object [
      ("status".toList, string r.status), ("version".toList, string r.version),
      ("tunnels_total".toList, number (f.ofInt r.tunnelsTotal)),
      ("tunnels_healthy".toList, number (f.ofInt r.tunnelsHealthy))])) := by
  obtain ⟨down, hrun⟩ := Status.Call.runs_healthCheck tr.id tr.label tr.protocol
    ⟨server.pool, tr.healthy, []⟩ (.new .healthCheck)
  exact ⟨_, _, rfl, hrun, rfl⟩

/-! ## Requests -/

/-- Handle `tools/list` — return all available tool definitions. -/
def handleToolsList : Json ν :=
  successResponse id (object [("tools".toList, toolDefinitions)])

/-- Handle `tools/call` — dispatch to the named tool. -/
def handleToolsCall (params : Json ν) : McpServer τ × Json ν :=
  match (params.get "name".toList).bind asStr with
  | none => (server, errorResponse f id invalidParams "Invalid params: missing tool name".toList)
  | some toolName =>
    let arguments := (params.get "arguments".toList).getD (object [])
    if toolName = "pool_status".toList then (server, toolPoolStatus f tr server id)
    else if toolName = "pool_add".toList then (server, toolPoolAdd f id arguments)
    else if toolName = "pool_remove".toList then toolPoolRemove f tr server id arguments
    else if toolName = "health_check".toList then (server, toolHealthCheck f tr server id)
    else (server, errorResponse f id methodNotFound ("Unknown tool: ".toList ++ toolName))

/-- The response to a request string, before it is printed, and the server after it. -/
def respond (request : Text) : McpServer τ × Json ν :=
  match f.parse request with
  | none => (server, errorResponse f null parseError "Parse error".toList)
  | some parsed =>
    let id := (parsed.get "id".toList).getD null
    match (parsed.get "method".toList).bind asStr with
    | none =>
      (server, errorResponse f id invalidRequest "Invalid request: missing method".toList)
    | some method =>
      let params := (parsed.get "params".toList).getD (object [])
      if method = "tools/list".toList then (server, handleToolsList id)
      else if method = "tools/call".toList then handleToolsCall f tr server id params
      else (server, errorResponse f id methodNotFound "Method not found".toList)

/-- Handle a single JSON-RPC 2.0 request string and return a JSON-RPC response string. -/
def handleRequest (request : Text) : McpServer τ × Text :=
  let (server, response) := respond f tr server request
  (server, f.print response)

end

/-- Read lines from stdin, dispatch each as a JSON-RPC request, and write responses to stdout,
    until stdin is closed: what is written, and how it ends. -/
def runStdio (f : Format ν) (tr : Traits τ) (server : McpServer τ) (reader : BufReader) :
    Text × Except IoError Unit :=
  match _h : reader.readLine with
  | none => ([], .error "stream did not contain valid UTF-8".toList)
  | some (line, reader') =>
    if _hl : line.isEmpty then ([], .ok ())
    else if line.trim.isEmpty then runStdio f tr server reader'
    else
      let (server', response) := handleRequest f tr server line.trim
      let (output, result) := runStdio f tr server' reader'
      (response ++ "\n".toList ++ output, result)
termination_by reader.remaining.length
decreasing_by
  all_goals exact BufReader.remaining_lt_of_readLine ‹_› fun h => _hl (List.isEmpty_iff.2 h)

/-! ## JSON-RPC -/

/-- A response: it has the id, and either a result or an error. -/
structure IsReply (id v : Json ν) : Prop where
  object : v.isObject = true
  version : v.get "jsonrpc".toList = some (string "2.0".toList)
  id : v.get "id".toList = some id
  one : (v.get "result".toList).isSome ≠ (v.get "error".toList).isSome

/-- A response to what is no request. -/
def IsRefusal (v : Json ν) : Prop := IsReply null v ∧ (v.get "error".toList).isSome

/-- A request that is to have no response: a method, and no id. -/
def IsNotification (v : Json ν) : Prop :=
  v.get "id".toList = none ∧ ∃ method, v.get "method".toList = some (string method)

/-- The line is a notification. -/
def Notifies (f : Format ν) (line : Text) : Prop :=
  line.trim ≠ [] ∧ ∃ v, f.parse line.trim = some v ∧ IsNotification v

/-- The replies that a line is to have. -/
inductive Answers (f : Format ν) (line : Text) : List (Json ν) → Prop
  | blank : line.trim = [] → Answers f line []
  | request {v id reply : Json ν} : line.trim ≠ [] → f.parse line.trim = some v →
      v.get "id".toList = some id → IsReply id reply → Answers f line [reply]
  | notification : Notifies f line → Answers f line []
  | invalid {reply : Json ν} : line.trim ≠ [] →
      (∀ v, f.parse line.trim = some v → v.get "id".toList = none ∧ ¬IsNotification v) →
      IsRefusal reply → Answers f line [reply]

/-- The replies that a line of the input is to have: one that is no text is no JSON either. -/
def AnswersBytes (f : Format ν) (l : Bytes) (replies : List (Json ν)) : Prop :=
  match decodeUtf8 l with
  | some line => Answers f line replies
  | none => ∃ reply, IsRefusal reply ∧ replies = [reply]

/-- What is written for the input are the replies that its lines are to have, in order, one a
    line, and the loop ends where the input does. -/
def Conforms (f : Format ν) (tr : Traits τ) (server : McpServer τ) (reader : BufReader) : Prop :=
  ∃ replies : List (List (Json ν)),
    List.Forall₂ (AnswersBytes f) (splitInclusive 10 reader.remaining) replies ∧
    splitInclusive '\n' (runStdio f tr server reader).1 =
      replies.flatten.map (fun v => f.print v ++ "\n".toList) ∧
    (runStdio f tr server reader).2 = .ok ()

/-- A line that the server answers as it should: a text, and no notification. -/
def Answerable (f : Format ν) (l : Bytes) : Prop :=
  ∃ line, decodeUtf8 l = some line ∧ ¬Notifies f line

/-! ### Replies -/

/-- A successful response has a result, and no error. -/
theorem isReply_successResponse (id result : Json ν) : IsReply id (successResponse id result) :=
  ⟨rfl, rfl, rfl, show true ≠ false by decide⟩

/-- A response with an error has no result. -/
theorem isReply_errorResponse (f : Format ν) (id : Json ν) (code : ℤ) (message : Text) :
    IsReply id (errorResponse f id code message) :=
  ⟨rfl, rfl, rfl, show false ≠ true by decide⟩

/-- An error with a null id refuses what is no request. -/
theorem isRefusal_errorResponse (f : Format ν) (code : ℤ) (message : Text) :
    IsRefusal (errorResponse f null code message) :=
  ⟨isReply_errorResponse f null code message, rfl⟩

section

variable (f : Format ν) (tr : Traits τ) (server : McpServer τ) (id : Json ν)

/-- Adding a tunnel is replied to, whatever is missing of the arguments. -/
theorem isReply_toolPoolAdd (arguments : Json ν) : IsReply id (toolPoolAdd f id arguments) := by
  rw [toolPoolAdd]
  split
  · exact isReply_errorResponse ..
  · split
    · exact isReply_errorResponse ..
    · split
      · exact isReply_errorResponse ..
      · exact isReply_successResponse ..

/-- So is removing one, whether there is one or not. -/
theorem isReply_toolPoolRemove (arguments : Json ν) :
    IsReply id (toolPoolRemove f tr server id arguments).2 := by
  rw [toolPoolRemove]
  split
  · exact isReply_errorResponse ..
  · exact isReply_successResponse ..

/-- So is every call of a tool, whatever its name. -/
theorem isReply_handleToolsCall (params : Json ν) :
    IsReply id (handleToolsCall f tr server id params).2 := by
  rw [handleToolsCall]
  split
  · exact isReply_errorResponse ..
  · dsimp only
    split_ifs
    · exact isReply_successResponse ..
    · exact isReply_toolPoolAdd ..
    · exact isReply_toolPoolRemove ..
    · exact isReply_successResponse ..
    · exact isReply_errorResponse ..

/-- Whatever the request, the response has its id, or null. -/
theorem isReply_respond {request : Text} {v : Json ν} (h : f.parse request = some v) :
    IsReply ((v.get "id".toList).getD null) (respond f tr server request).2 := by
  rw [respond, h]
  dsimp only
  split
  · exact isReply_errorResponse ..
  · split_ifs
    · exact isReply_successResponse ..
    · exact isReply_handleToolsCall ..
    · exact isReply_errorResponse ..

/-- The response to what is no request, and no notification. -/
theorem isRefusal_respond {request : Text} (h : ∀ v, f.parse request = some v →
    v.get "id".toList = none ∧ ¬IsNotification v) : IsRefusal (respond f tr server request).2 := by
  rcases hparse : f.parse request with _ | v
  · rw [respond, hparse]
    exact isRefusal_errorResponse ..
  · obtain ⟨hid, hnot⟩ := h v hparse
    have hmethod : (v.get "method".toList).bind asStr = none := by
      rcases hget : v.get "method".toList with _ | m
      · rfl
      · cases m with
        | string s => exact absurd ⟨hid, s, hget⟩ hnot
        | _ => rfl
    rw [respond, hparse]
    dsimp only
    rw [hmethod, hid]
    exact isRefusal_errorResponse ..

end

/-! ### Runs -/

section

variable (f : Format ν) (tr : Traits τ)

/-- The responses to lines, in order. -/
def responses (server : McpServer τ) : List Text → List (Json ν)
  | [] => []
  | line :: lines =>
    if line.trim = [] then responses server lines
    else
      let (server', response) := respond f tr server line.trim
      response :: responses server' lines

/-- What the loop does, line by line. -/
theorem runStdio_eq (server : McpServer τ) (reader : BufReader) : runStdio f tr server reader =
    match reader.readLine with
    | none => ([], .error "stream did not contain valid UTF-8".toList)
    | some (line, reader') =>
      if line.isEmpty then ([], .ok ())
      else if line.trim.isEmpty then runStdio f tr server reader'
      else
        let (server', response) := handleRequest f tr server line.trim
        let (output, result) := runStdio f tr server' reader'
        (response ++ "\n".toList ++ output, result) := by
  rw [runStdio]
  split
  · next h => rw [h]
  · next h => rw [h]; rfl

/-- The loop writes the responses to the lines of its input. -/
theorem runStdio_of_lines {ls : List Text} {reader : BufReader} (server : McpServer τ)
    (h : splitInclusive 10 reader.remaining = ls.map encodeUtf8) (hls : [] ∉ ls) :
    runStdio f tr server reader =
      (((responses f tr server ls).map fun v => f.print v ++ "\n".toList).flatten, .ok ()) := by
  induction ls generalizing server reader with
  | nil =>
    have hrem : reader.remaining = [] := by
      rw [← flatten_splitInclusive 10 reader.remaining, h]
      rfl
    -- At the end of the input, `read_line` returns zero.
    have hdecode : decodeUtf8 [] = some [] := decodeUtf8_encodeUtf8 []
    rw [runStdio_eq, BufReader.readLine, (readUntil_of_nil hrem).1, hdecode]
    rfl
  | cons line ls ih =>
    rw [List.mem_cons, not_or] at hls
    obtain ⟨hline, hrest⟩ := readUntil_of_splitInclusive h
    have hne : ¬line.isEmpty := fun he => hls.1 (List.isEmpty_iff.1 he).symm
    rw [runStdio_eq, BufReader.readLine, hline, decodeUtf8_encodeUtf8, Option.map_some]
    dsimp only
    rw [if_neg hne, responses]
    -- A blank line is passed over; the server goes on as the others have left it.
    by_cases hblank : line.trim = []
    · rw [if_pos (List.isEmpty_iff.2 hblank), if_pos hblank]
      exact ih server hrest hls.2
    · rw [if_neg (mt List.isEmpty_iff.1 hblank), if_neg hblank]
      dsimp only [handleRequest]
      rw [ih _ hrest hls.2]
      rfl

/-- It fails at a line that is no text. -/
theorem runStdio_error {ls : List Bytes} {reader : BufReader} (server : McpServer τ)
    (h : splitInclusive 10 reader.remaining = ls) (hls : ∃ l ∈ ls, decodeUtf8 l = none) :
    (runStdio f tr server reader).2 ≠ .ok () := by
  induction ls generalizing server reader with
  | nil => exact absurd hls (by simp)
  | cons l ls ih =>
    obtain ⟨hline, hrest⟩ := readUntil_of_splitInclusive h
    rw [runStdio_eq, BufReader.readLine, hline]
    rcases hdecode : decodeUtf8 l with _ | line
    · -- The first line that is no text ends the loop, and the lines after it are not read.
      exact fun hok => absurd hok (by simp)
    · have hlater : ∃ l' ∈ ls, decodeUtf8 l' = none := by
        obtain ⟨l', hl', hnone⟩ := hls
        rcases List.mem_cons.1 hl' with rfl | hl'
        · exact absurd (hdecode.symm.trans hnone) (by simp)
        · exact ⟨l', hl', hnone⟩
      -- A line that was read has a byte at least, so it is not taken for the end of the input.
      have hne : ¬line.isEmpty := fun he => by
        rw [List.isEmpty_iff.1 he] at hdecode
        obtain rfl : [] = l := encodeUtf8_of_decodeUtf8 hdecode
        exact nil_notMem_splitInclusive 10 reader.remaining (h ▸ List.mem_cons_self)
      rw [Option.map_some]
      dsimp only
      rw [if_neg hne]
      split
      · exact ih server hrest hlater
      · exact ih _ hrest hlater

/-- The loop responds to every line that is not blank. -/
theorem length_responses (server : McpServer τ) (ls : List Text) :
    (responses f tr server ls).length = ls.countP (trim · ≠ []) := by
  induction ls generalizing server with
  | nil => rfl
  | cons line ls ih =>
    rw [responses, List.countP_cons]
    by_cases hblank : line.trim = []
    · rw [if_pos hblank, ih, if_neg (by simpa using hblank), Nat.add_zero]
    · rw [if_neg hblank, if_pos (by simpa using hblank), ← ih]
      rfl

variable {f}

/-- A notification is to have no replies. -/
theorem Answers.eq_nil {line : Text} {rs : List (Json ν)} (h : Answers f line rs)
    (hn : Notifies f line) : rs = [] := by
  obtain ⟨-, v, hv, hnotification⟩ := hn
  cases h with
  | blank => rfl
  | request _ hparse hid =>
    obtain rfl := Option.some.inj (hv.symm.trans hparse)
    exact absurd (hid.symm.trans hnotification.1) (by simp)
  | notification => rfl
  | invalid _ hnone => exact absurd hnotification (hnone v hv).2

/-- There is at most one reply to a line, and none to one that is blank. -/
theorem Answers.length_le {line : Text} {rs : List (Json ν)} (h : Answers f line rs) :
    rs.length ≤ if trim line ≠ [] then 1 else 0 := by
  cases h with
  | blank => exact Nat.zero_le _
  | request hne => rw [if_pos hne, List.length_singleton]
  | notification => exact Nat.zero_le _
  | invalid hne => rw [if_pos hne, List.length_singleton]

/-- So there are as many replies as lines that are not blank, or fewer, if one of them is a
    notification. -/
theorem length_flatten_le {ls : List Text} {replies : List (List (Json ν))}
    (h : List.Forall₂ (Answers f) ls replies) :
    replies.flatten.length ≤ ls.countP (trim · ≠ []) ∧
      ∀ line ∈ ls, Notifies f line → replies.flatten.length < ls.countP (trim · ≠ []) := by
  induction h with
  | nil => exact ⟨le_rfl, fun _ hline => absurd hline List.not_mem_nil⟩
  | @cons line rs ls replies hline _ ih =>
    obtain ⟨hle, hlt⟩ := ih
    have hone := hline.length_le
    simp only [List.flatten_cons, List.length_append, List.countP_cons, decide_eq_true_eq]
    refine ⟨by omega, fun line' hline' hn => ?_⟩
    rcases List.mem_cons.1 hline' with rfl | hmem
    · rw [hline.eq_nil hn, List.length_nil, if_pos hn.1]
      omega
    · have := hlt line' hmem hn
      omega

/-- The responses are the replies that lines are to have, if none of them is a notification. -/
theorem exists_replies {ls : List Text} (h : ∀ line ∈ ls, ¬Notifies f line)
    (server : McpServer τ) : ∃ replies, List.Forall₂ (Answers f) ls replies ∧
      replies.flatten = responses f tr server ls := by
  induction ls generalizing server with
  | nil => exact ⟨[], .nil, rfl⟩
  | cons line ls ih =>
    rw [List.forall_mem_cons] at h
    rw [responses]
    by_cases hblank : line.trim = []
    · obtain ⟨replies, hreplies, hflatten⟩ := ih h.2 server
      rw [if_pos hblank]
      exact ⟨[] :: replies, .cons (.blank hblank) hreplies, hflatten⟩
    · obtain ⟨replies, hreplies, hflatten⟩ := ih h.2 (respond f tr server line.trim).1
      rw [if_neg hblank]
      refine ⟨[(respond f tr server line.trim).2] :: replies, .cons ?_ hreplies, ?_⟩
      · by_cases hinvalid : ∀ v, f.parse line.trim = some v →
            v.get "id".toList = none ∧ ¬IsNotification v
        · exact .invalid hblank hinvalid (isRefusal_respond f tr server hinvalid)
        · -- A line that is none of the others has an id.
          obtain ⟨v, hv, hid⟩ : ∃ v, f.parse line.trim = some v ∧ v.get "id".toList ≠ none := by
            by_contra hnone
            refine hinvalid fun v hv => ?_
            have hid : v.get "id".toList = none := by
              by_contra hid
              exact hnone ⟨v, hv, hid⟩
            exact ⟨hid, fun hn => h.1 ⟨hblank, v, hv, hn⟩⟩
          obtain ⟨id, hid⟩ := Option.ne_none_iff_exists'.1 hid
          have hreply := isReply_respond f tr server hv
          rw [hid] at hreply
          exact .request hblank hv hid hreply
      · rw [List.flatten_cons, hflatten]
        rfl

/-- What is written for lines of text are the responses to them, one a line. -/
theorem written_of_lines (hf : f.OneLine) (server : McpServer τ) {ls : List Text}
    {reader : BufReader} (h : splitInclusive 10 reader.remaining = ls.map encodeUtf8) :
    splitInclusive '\n' (runStdio f tr server reader).1 =
      (responses f tr server ls).map (fun v => f.print v ++ "\n".toList) ∧
      (runStdio f tr server reader).2 = .ok () := by
  have hprint : ∀ l ∈ (responses f tr server ls).map f.print, '\n' ∉ l :=
    List.forall_mem_map.2 fun v _ => hf v
  have hsplit := splitInclusive_flatten hprint
  rw [List.map_map] at hsplit
  have hls : [] ∉ ls := fun hnil =>
    nil_notMem_splitInclusive 10 reader.remaining (h ▸ List.mem_map_of_mem (f := encodeUtf8) hnil)
  rw [runStdio_of_lines f tr server h hls]
  exact ⟨hsplit, rfl⟩

/-- A line that is text is answered as that text. -/
theorem answersBytes_encodeUtf8 {line : Text} {rs : List (Json ν)} :
    AnswersBytes f (encodeUtf8 line) rs ↔ Answers f line rs := by
  rw [AnswersBytes, decodeUtf8_encodeUtf8]

/-- Lines that are all text are the encodings of texts. -/
theorem exists_lines {ls : List Bytes} (h : ∀ l ∈ ls, decodeUtf8 l ≠ none) :
    ∃ lines : List Text, ls = lines.map encodeUtf8 := by
  induction ls with
  | nil => exact ⟨[], rfl⟩
  | cons l ls ih =>
    rw [List.forall_mem_cons] at h
    obtain ⟨line, hline⟩ := Option.ne_none_iff_exists'.1 h.1
    obtain ⟨lines, hlines⟩ := ih h.2
    exact ⟨line :: lines, by rw [List.map_cons, encodeUtf8_of_decodeUtf8 hline, ← hlines]⟩

/-- Where there is a notification, there is a reply too many. -/
theorem Conforms.not_notifies {server : McpServer τ} {ls : List Text} {reader : BufReader}
    (h : Conforms f tr server reader) (hf : f.OneLine)
    (hls : splitInclusive 10 reader.remaining = ls.map encodeUtf8) :
    ∀ line ∈ ls, ¬Notifies f line := by
  intro line hline hn
  obtain ⟨replies, hreplies, houtput, -⟩ := h
  rw [hls, List.forall₂_map_left_iff] at hreplies
  have hanswers : List.Forall₂ (Answers f) ls replies :=
    hreplies.imp fun _ _ => answersBytes_encodeUtf8.1
  have hlength := congrArg List.length ((written_of_lines tr hf server hls).1.symm.trans houtput)
  rw [List.length_map, List.length_map, length_responses] at hlength
  exact absurd hlength ((length_flatten_le hanswers).2 line hline hn).ne'

/-- Whatever bytes come in: what is written is what JSON-RPC requires exactly if every line is a
    text, and none of them is a notification. So each request gets its reply in the order of the
    requests, on a line of its own and with its identifier, and each line that is no JSON gets
    an error. -/
theorem conforms_iff (hf : f.OneLine) (server : McpServer τ) (reader : BufReader) :
    Conforms f tr server reader ↔ ∀ l ∈ splitInclusive 10 reader.remaining, Answerable f l := by
  by_cases htext : ∀ l ∈ splitInclusive 10 reader.remaining, decodeUtf8 l ≠ none
  · obtain ⟨ls, hls⟩ := exists_lines htext
    rw [hls, List.forall_mem_map]
    constructor
    · intro h line hline
      exact ⟨line, decodeUtf8_encodeUtf8 line, h.not_notifies tr hf hls line hline⟩
    · intro h
      have hnone : ∀ line ∈ ls, ¬Notifies f line := fun line hline => by
        obtain ⟨line', hdecode, hn⟩ := h line hline
        obtain rfl := Option.some.inj ((decodeUtf8_encodeUtf8 line).symm.trans hdecode)
        exact hn
      obtain ⟨hwritten, hend⟩ := written_of_lines tr hf server hls
      obtain ⟨replies, hreplies, hflatten⟩ := exists_replies tr hnone server
      refine ⟨replies, ?_, by rw [hwritten, hflatten], hend⟩
      rw [hls, List.forall₂_map_left_iff]
      exact hreplies.imp fun _ _ => answersBytes_encodeUtf8.2
  · -- The loop ends in an error.
    push Not at htext
    refine iff_of_false ?_ fun h => ?_
    · rintro ⟨-, -, -, hend⟩
      exact runStdio_error f tr server rfl htext hend
    · obtain ⟨l, hl, hnone⟩ := htext
      obtain ⟨line, hline, -⟩ := h l hl
      exact absurd (hline.symm.trans hnone) (by simp)

end

/-! ### Notifications -/

/-- `{"id":1,"method":"ping"}` -/
def pingLine : Text := "\x7b\"id\":1,\"method\":\"ping\"\x7d".toList

/-- `{"method":"notifications/initialized"}` -/
def initializedLine : Text := "\x7b\"method\":\"notifications/initialized\"\x7d".toList

/-- A library, as far as these two lines and the responses to them are concerned. -/
def sampleFormat : Format ℤ where
  parse s :=
    if s = pingLine then
      some (object [("id".toList, number 1), ("method".toList, string "ping".toList)])
    else if s = initializedLine then
      some (object [("method".toList, string "notifications/initialized".toList)])
    else none
  print v :=
    let id := match v.get "id".toList with
      | some null => "null".toList
      | _ => "1".toList
    "\x7b\"error\":\x7b\"code\":-32601,\"message\":\"Method not found\"\x7d,\"id\":".toList ++ id ++
      ",\"jsonrpc\":\"2.0\"\x7d".toList
  ofInt n := n

/-- What it prints has no line breaks. -/
theorem sampleFormat_oneLine : sampleFormat.OneLine := by
  intro v
  change '\n' ∉ _ ++ (match v.get "id".toList with | some null => _ | _ => _) ++ _
  split <;> decide

/-- What a transport that has no name tells of itself. -/
def sampleTraits : Traits Unit := ⟨fun _ => [], fun _ => [], fun _ => [], fun _ => true⟩

/-- A request has its reply. -/
theorem conforms_ping :
    Conforms sampleFormat sampleTraits ⟨⟨[]⟩⟩ ⟨encodeUtf8 pingLine, []⟩ := by
  refine (conforms_iff sampleTraits sampleFormat_oneLine ⟨⟨[]⟩⟩ ⟨encodeUtf8 pingLine, []⟩).2 ?_
  have hlines : splitInclusive 10 (⟨encodeUtf8 pingLine, []⟩ : BufReader).remaining =
      [encodeUtf8 pingLine] := by decide +kernel
  have hparse : sampleFormat.parse pingLine.trim =
      some (object [("id".toList, number 1), ("method".toList, string "ping".toList)]) := rfl
  rw [hlines]
  refine List.forall_mem_singleton.2 ⟨pingLine, decodeUtf8_encodeUtf8 _, ?_⟩
  rintro ⟨-, v, hv, hid, -⟩
  obtain rfl := Option.some.inj (hparse.symm.trans hv)
  exact absurd hid (by rintro ⟨⟩)

/-- So has a notification, which is to have none: the error that is written for it has no
    identifier. -/
theorem not_conforms_notification : ¬∀ (f : Format ℤ) (tr : Traits Unit) (server : McpServer Unit)
    (reader : BufReader), f.OneLine → Conforms f tr server reader := by
  intro h
  have hconforms := h sampleFormat sampleTraits ⟨⟨[]⟩⟩ ⟨encodeUtf8 initializedLine, []⟩
    sampleFormat_oneLine
  have hlines : splitInclusive 10 (⟨encodeUtf8 initializedLine, []⟩ : BufReader).remaining =
      [initializedLine].map encodeUtf8 := by decide +kernel
  refine hconforms.not_notifies sampleTraits sampleFormat_oneLine hlines initializedLine
    (List.mem_singleton_self _) ⟨by decide, _, rfl, rfl, _, rfl⟩

end Mcp

end Houdinny
