import Houdinny.Mcp

/-!
# Removing tunnels over MCP

What a request does to the transports of the pool, for every request string and every pool:

* only a valid call of `pool_remove` touches the pool (`Removes`: an object with this method
  and tool, and a string for the identifier). All other requests leave the transports as they
  are, whatever they ask for: `pool_add` is a placeholder;
* a valid call takes out all transports with its identifier, no others, and leaves the rest in
  their order;
* its reply tells whether there were any, by one of two texts that are never the same
  (`removedText_ne`).

This is `handleRequest_removal`. The proof follows the dispatch: what each handler does with
the server is found by going down the branches of `respond` once (`respond_fst`), and a
request that changes the pool must have taken the one branch that can.
-/

namespace Houdinny.Mcp

open Text Json

variable {ν τ : Type}

/-- The request is a JSON object that calls `pool_remove` with the identifier `x`. -/
def Removes (f : Format ν) (request x : Text) : Prop :=
  ∃ v params arguments, f.parse request = some v ∧ v.isObject = true ∧
    v.get "method".toList = some (string "tools/call".toList) ∧
    v.get "params".toList = some params ∧
    params.get "name".toList = some (string "pool_remove".toList) ∧
    params.get "arguments".toList = some arguments ∧ arguments.get "id".toList = some (string x)

/-- What is said of a tunnel that was there. -/
def removedText (x : Text) : Text := "Tunnel '".toList ++ x ++ "' removed successfully".toList

/-- What is said of one that was not. -/
def notFoundText (x : Text) : Text := "Tunnel '".toList ++ x ++ "' not found in pool".toList

/-- The reply is the result of a tool, with this text. -/
def Tells (reply : Json ν) (text : Text) : Prop := ∃ id, reply = toolResult id text

/-- What a request does to the transports of the pool, and what the reply tells of it. -/
structure Removal (f : Format ν) (tr : Traits τ) (request : Text) (before after : List τ)
    (reply : Json ν) : Prop where
  frame : (∀ x, ¬Removes f request x) → after = before
  removed : ∀ x, Removes f request x → after = before.filter (tr.id · ≠ x)
  /-- A reply with an error tells that nothing was done. -/
  error : (reply.get "error".toList).isSome → after = before
  success : ∀ x, Removes f request x → (Tells reply (removedText x) ↔ after ≠ before)
  notFound : ∀ x, Removes f request x → (Tells reply (notFoundText x) ↔ after = before)

variable {f : Format ν} {tr : Traits τ} {server : McpServer τ} {id : Json ν} {request x : Text}

/-- A member that is read as a string is one. -/
theorem bind_asStr {o : Option (Json ν)} {s : Text} :
    o.bind asStr = some s ↔ o = some (string s) := by
  rcases o with _ | v
  · simp
  · cases v <;> simp [asStr]

/-- What has members is an object. -/
theorem isObject_of_get {v w : Json ν} {key : Text} (h : v.get key = some w) :
    v.isObject = true := by
  cases v with
  | object members => rfl
  | _ => exact absurd h (by simp [Json.get])

/-! ## Dispatch -/

/-- A member of a value that may not be there, and is empty then. -/
theorem get_getD {o : Option (Json ν)} {w : Json ν} {key : Text}
    (h : (o.getD (object [])).get key = some w) : ∃ v, o = some v ∧ v.get key = some w := by
  rcases o with _ | v
  · exact absurd h (by simp [Json.get])
  · exact ⟨v, rfl, h⟩

/-- A call that changes the server has the arguments for it. -/
theorem handleToolsCall_fst (f : Format ν) (tr : Traits τ) (server : McpServer τ)
    (id params : Json ν) : (handleToolsCall f tr server id params).1 = server ∨
      ∃ arguments x, params.get "name".toList = some (string "pool_remove".toList) ∧
        params.get "arguments".toList = some arguments ∧
        arguments.get "id".toList = some (string x) := by
  rw [handleToolsCall]
  split
  · exact .inl rfl
  next toolName hname =>
    dsimp only
    split_ifs with _ _ hremove
    · exact .inl rfl
    · exact .inl rfl
    · rw [toolPoolRemove]
      split
      · exact .inl rfl
      next x hx =>
        obtain ⟨arguments, harguments, hid⟩ := get_getD (bind_asStr.1 hx)
        exact .inr ⟨arguments, x, hremove ▸ bind_asStr.1 hname, harguments, hid⟩
    · exact .inl rfl
    · exact .inl rfl

/-- A request that changes the server is a valid call. -/
theorem respond_fst (h : ∀ x, ¬Removes f request x) : (respond f tr server request).1 = server := by
  rw [respond]
  split
  · rfl
  next v hparse =>
    dsimp only
    split
    · rfl
    next method hmethod =>
      split_ifs with _ hcall
      · rfl
      · refine (handleToolsCall_fst f tr server _ _).resolve_right ?_
        rintro ⟨arguments, x, hname, harguments, hid⟩
        have hobject := isObject_of_get (bind_asStr.1 hmethod)
        obtain ⟨params, hparams, hname⟩ := get_getD hname
        rw [hparams] at harguments
        exact h x ⟨v, params, arguments, hparse, hobject, hcall ▸ bind_asStr.1 hmethod, hparams,
          hname, harguments, hid⟩
      · rfl

/-- What a valid call does. -/
theorem respond_of_removes (h : Removes f request x) : ∃ id, respond f tr server request =
    (⟨(server.pool.remove tr.id x).1⟩, toolResult id
      (if (server.pool.remove tr.id x).2 then removedText x else notFoundText x)) := by
  obtain ⟨v, params, arguments, hparse, -, hmethod, hparams, hname, harguments, hid⟩ := h
  refine ⟨(v.get "id".toList).getD null, ?_⟩
  rw [respond, hparse]
  dsimp only
  rw [hmethod, hparams]
  dsimp only [Option.bind_some, asStr, Option.getD_some]
  rw [if_neg (by decide), if_pos rfl, handleToolsCall, hname]
  dsimp only [Option.bind_some, asStr]
  rw [if_neg (by decide), if_neg (by decide), if_pos rfl, harguments, Option.getD_some,
    toolPoolRemove, hid]
  rfl

/-! ## Replies -/

/-- The text of a tool's result can be read off it. -/
theorem tells_toolResult {text text' : Text} :
    Tells (toolResult id text) text' ↔ text = text' := by
  constructor
  · rintro ⟨id', h⟩
    have heq : id = id' ∧ text = text' := by simpa [toolResult, successResponse] using h
    exact heq.2
  · rintro rfl
    exact ⟨id, rfl⟩

/-- The two texts differ in their last words, whatever the identifier. -/
theorem removedText_ne (x : Text) : removedText x ≠ notFoundText x := fun h =>
  absurd (List.append_cancel_left h) (by decide)

/-- The pool tells whether it had the tunnel. -/
theorem remove_snd {α : Type} (ident : α → Text) (p : Pool α) (x : Text) :
    (p.remove ident x).2 = true ↔ (p.remove ident x).1.transports ≠ p.transports := by
  have hsub : (p.remove ident x).1.transports.Sublist p.transports := List.filter_sublist
  refine decide_eq_true_iff.trans ⟨fun hlt heq => ?_, fun hne => ?_⟩
  · exact hlt.ne (congrArg List.length heq)
  · exact lt_of_le_of_ne hsub.length_le fun heq => hne (hsub.eq_of_length heq)

/-- Whatever the pool and the request: the transports change only by a valid call of
    `pool_remove`, which takes out those with its identifier, and tells whether there were any.
    Every other request leaves the pool as it is, and a removal leaves the other transports in
    their order. -/
theorem handleRequest_removal (f : Format ν) (tr : Traits τ) (server : McpServer τ)
    (request : Text) : ∃ reply, (handleRequest f tr server request).2 = f.print reply ∧
      Removal f tr request server.pool.transports
        (handleRequest f tr server request).1.pool.transports reply := by
  have hfst : (handleRequest f tr server request).1 = (respond f tr server request).1 := rfl
  refine ⟨(respond f tr server request).2, rfl, ?_⟩
  rw [hfst]
  -- A valid call removes from the pool, and its reply has one of two texts, which differ.
  have htells : ∀ x, Removes f request x →
      (respond f tr server request).1.pool = (server.pool.remove tr.id x).1 ∧
        ∀ text, Tells (respond f tr server request).2 text ↔
          (if (server.pool.remove tr.id x).2 then removedText x else notFoundText x) = text := by
    intro x hx
    obtain ⟨id, hrespond⟩ := @respond_of_removes ν τ f tr server request x hx
    rw [hrespond]
    exact ⟨rfl, fun text => tells_toolResult⟩
  constructor
  · intro h
    rw [respond_fst h]
  · intro x hx
    rw [(htells x hx).1]
    rfl
  · intro herror
    rw [respond_fst]
    intro x hx
    obtain ⟨id, hrespond⟩ := @respond_of_removes ν τ f tr server request x hx
    rw [hrespond] at herror
    exact absurd herror Bool.false_ne_true
  · intro x hx
    rw [(htells x hx).1, (htells x hx).2, ← remove_snd]
    split_ifs with hremoved
    · exact iff_of_true rfl hremoved
    · exact iff_of_false (removedText_ne x).symm hremoved
  · intro x hx
    rw [(htells x hx).1, (htells x hx).2, ← not_iff_not, ← ne_eq (_ : List τ), ← remove_snd]
    split_ifs with hremoved
    · exact iff_of_true (removedText_ne x) hremoved
    · exact iff_of_false (fun h => h rfl) hremoved

end Houdinny.Mcp
