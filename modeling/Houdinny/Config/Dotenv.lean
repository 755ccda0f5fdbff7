import Houdinny.Config
import Houdinny.Lib.Run

/-!
# The `.env` file

`main` loads environment variables from a `.env` file before anything else
(`loadDotenv`), line by line. Setting a variable panics for some arguments
(`Settable`), and the lines are not checked for that: loading goes well exactly if
every line is `Harmless` (`loadsSafely_iff`).

A line is what is between its white space (`loadLine_trim`). If it has a `=`, it is split
at the first one (`loadLine_assign`), and otherwise skipped (`loadLine_of_notMem`). So all
that is to be known of a line is whether it is a comment, what its key is, and what its
value.

What a line binds is a value on one line, without a NUL, and with no white space around it
(`Bindable`, `bindable_of_loadLine`): this is what the token of a VPN provider can be, if it
comes from the file.
-/

namespace Houdinny

open Text

/-- The arguments that `std::env::set_var` takes. It panics for all others. -/
structure Settable (key value : Text) : Prop where
  ne_nil : key ≠ []
  assign : '=' ∉ key
  null_key : '\x00' ∉ key
  null_value : '\x00' ∉ value

instance (key value : Text) : Decidable (Settable key value) :=
  decidable_of_iff (key ≠ [] ∧ '=' ∉ key ∧ '\x00' ∉ key ∧ '\x00' ∉ value)
    ⟨fun h => ⟨h.1, h.2.1, h.2.2.1, h.2.2.2⟩, fun h => ⟨h.1, h.2, h.3, h.4⟩⟩

/-- `std::env::set_var`: the environment after it, if it does not panic. -/
def setVar (env : Text → Option Text) (key value : Text) : Option (Text → Option Text) :=
  if Settable key value then some (Function.update env key (some value)) else none

/-- The step of `load_dotenv` for a line. -/
def loadLine (env : Text → Option Text) (line : Text) : Option (Text → Option Text) :=
  let line := trim line
  if line.isEmpty || line.head? = some '#' then some env
  else match splitOnce "=".toList line with
    | some (key, value) => setVar env (trim key) (trim value)
    | none => some env

/-- Load environment variables from a `.env` file. Nothing is loaded from a file that
    cannot be read. -/
def loadDotenv (os : Os) (path : Text) (env : Text → Option Text) :
    Option (Text → Option Text) :=
  match os.readFile path with
  | .ok content => Run.run loadLine env (lines content)
  | .error _ => some env

variable {env env' : Text → Option Text} {key value line k v : Text}

/-- The variable is set. -/
theorem setVar_eq_some (h : Settable key value) :
    setVar env key value = some (Function.update env key (some value)) := if_pos h

/-- The call panics. -/
theorem setVar_eq_none (h : ¬Settable key value) : setVar env key value = none := if_neg h

/-! ## Lines -/

/-- Only what is between the white space of a line matters. -/
theorem loadLine_trim (env : Text → Option Text) (line : Text) :
    loadLine env (trim line) = loadLine env line := by
  rw [loadLine, trim_trim]
  rfl

/-- A line that assigns a value to a key sets a variable, unless it is a comment. -/
theorem loadLine_assign (hk : '=' ∉ k) : loadLine env (k ++ '=' :: v) =
    if (trimStart k).head? = some '#' then some env else setVar env (trim k) (trim v) := by
  have htrim : trim (k ++ '=' :: v) = trimStart k ++ '=' :: trimEnd v :=
    trim_append_cons (by decide) k v
  have hhead : (trimStart k ++ '=' :: trimEnd v).head? = some '#' ↔
      (trimStart k).head? = some '#' := by
    rcases trimStart k with _ | ⟨c, t⟩
    · exact iff_of_false (by simp) (by simp)
    · rfl
  have hsplit : splitOnce "=".toList (trimStart k ++ '=' :: trimEnd v) =
      some (trimStart k, trimEnd v) := by
    -- Trimming takes nothing from the line but white space, so the first `=` is still this one.
    have hkey : '=' ∉ trimStart k := fun hmem => hk ((List.dropWhile_sublist _).subset hmem)
    rw [← @splitOnce_append '=' [] _ (trimEnd v) hkey, List.append_assoc]
    rfl
  rw [loadLine, htrim, hsplit]
  simp only [hhead, trim_trimStart, trim_trimEnd]
  simp

/-- A line that assigns nothing is skipped. -/
theorem loadLine_of_notMem (h : '=' ∉ line) : loadLine env line = some env := by
  rw [loadLine]
  split_ifs
  · rfl
  · split
    · next key value hsplit =>
      have hmem : '=' ∈ trim line := by
        rw [eq_of_splitOnce hsplit]
        simp
      exact absurd ((mem_trim (by decide)).1 hmem) h
    · rfl

/-! ## Values -/

/-- A value that a line can bind: one line, without a NUL, and no white space around it. -/
structure Bindable (value : Text) : Prop where
  newline : '\n' ∉ value
  null : '\x00' ∉ value
  trimmed : trim value = value

/-- What is set to a part of a line, is bindable. -/
theorem Settable.bindable {part : Text} (h : Settable key (trim part)) (hpart : '\n' ∉ part) :
    Bindable (trim part) := by
  refine ⟨fun hmem => hpart ?_, h.null_value, trim_trim part⟩
  exact (List.dropWhile_sublist _).subset ((List.rdropWhile_prefix _ _).subset hmem)

/-- What a line binds, is bindable. -/
theorem bindable_of_loadLine (hline : '\n' ∉ line) {env' : Text → Option Text}
    (henv : ∀ v, env key = some v → Bindable v) (h : loadLine env line = some env') :
    ∀ v, env' key = some v → Bindable v := by
  by_cases hassign : '=' ∈ line
  · obtain ⟨k, w, rfl, hk⟩ := List.eq_append_cons_of_mem hassign
    rw [loadLine_assign hk, setVar] at h
    split_ifs at h with hcomment hset
    · rwa [← Option.some.inj h]
    · obtain rfl := Option.some.inj h
      intro v hv
      rw [Function.update_apply] at hv
      split_ifs at hv with hkey
      · obtain rfl := Option.some.inj hv
        exact hset.bindable fun hmem =>
          hline (List.mem_append_right k (List.mem_cons_of_mem _ hmem))
      · exact henv v hv
  · rw [loadLine_of_notMem hassign] at h
    rwa [← Option.some.inj h]

/-! ## Panics -/

/-- The line assigns nothing, or is a comment, or starts with a key and has no NUL. -/
def Harmless (line : Text) : Prop :=
  '=' ∈ line → (trimStart line).head? = some '#' ∨
    (trimStart line).head? ≠ some '=' ∧ '\x00' ∉ line

instance (line : Text) : Decidable (Harmless line) :=
  inferInstanceAs (Decidable ('=' ∈ line → _ ∨ _ ∧ _))

/-- A variable is set without a panic, exactly if there is a key, and no NUL. -/
theorem settable_trim_iff (hk : '=' ∉ k) : Settable (trim k) (trim v) ↔
    trimStart k ≠ [] ∧ '\x00' ∉ k ++ '=' :: v := by
  have hnull : ∀ s, '\x00' ∈ trim s ↔ '\x00' ∈ s := fun s => mem_trim (by decide)
  have hkey : '=' ∉ trim k := fun hmem => hk ((mem_trim (by decide)).1 hmem)
  constructor
  · intro h
    refine ⟨fun hnil => h.ne_nil (trim_eq_nil_iff.2 hnil), fun hmem => ?_⟩
    rcases List.mem_append.1 hmem with hmem | hmem
    · exact h.null_key ((hnull k).2 hmem)
    · exact h.null_value ((hnull v).2 ((List.mem_cons.1 hmem).resolve_left (by decide)))
  · rintro ⟨hne, hmem⟩
    rw [List.mem_append, List.mem_cons, not_or, not_or] at hmem
    exact ⟨fun hnil => hne (trim_eq_nil_iff.1 hnil), hkey, fun h => hmem.1 ((hnull k).1 h),
      fun h => hmem.2.2 ((hnull v).1 h)⟩

/-- An assignment is harmless if it is a comment, or sets a variable without a panic. -/
theorem harmless_assign (hk : '=' ∉ k) : Harmless (k ++ '=' :: v) ↔
    (trimStart k).head? = some '#' ∨ Settable (trim k) (trim v) := by
  have hassign : '=' ∈ k ++ '=' :: v := List.mem_append_right k List.mem_cons_self
  rw [Harmless, settable_trim_iff hk, trimStart_append_cons (by decide)]
  rcases hstart : trimStart k with _ | ⟨c, t⟩
  · simp
  · have hc : c ≠ '=' := by
      rintro rfl
      exact hk ((List.dropWhile_sublist _).subset (hstart ▸ List.mem_cons_self))
    simp [hc]

/-- A line is skipped, or sets a variable with arguments that do not panic. -/
def SafeLine (line : Text) : Prop :=
  (∀ env, loadLine env line = some env) ∨
    ∃ key value, Settable key value ∧
      ∀ env, loadLine env line = some (Function.update env key (some value))

/-- A line that is not harmless panics, whatever the environment. -/
theorem loadLine_eq_none (env : Text → Option Text) (h : ¬Harmless line) :
    loadLine env line = none := by
  have hassign : '=' ∈ line := by
    by_contra hassign
    exact h fun hmem => absurd hmem hassign
  obtain ⟨k, v, rfl, hk⟩ := List.eq_append_cons_of_mem hassign
  rw [harmless_assign hk, not_or] at h
  rw [loadLine_assign hk, if_neg h.1, setVar_eq_none h.2]

/-- A harmless line calls `set_var` with arguments that do not panic, or not at all. -/
theorem Harmless.safeLine (h : Harmless line) : SafeLine line := by
  by_cases hassign : '=' ∈ line
  · obtain ⟨k, v, rfl, hk⟩ := List.eq_append_cons_of_mem hassign
    by_cases hcomment : (trimStart k).head? = some '#'
    · refine .inl fun env => ?_
      rw [loadLine_assign hk, if_pos hcomment]
    · have hset := ((harmless_assign hk).1 h).resolve_left hcomment
      refine .inr ⟨trim k, trim v, hset, fun env => ?_⟩
      rw [loadLine_assign hk, if_neg hcomment, setVar_eq_some hset]
  · exact .inl fun env => loadLine_of_notMem hassign

/-- Such a line goes well in every environment. -/
theorem SafeLine.isSome (h : SafeLine line) (env : Text → Option Text) :
    (loadLine env line).isSome := by
  rcases h with h | ⟨key, value, -, h⟩ <;> rw [h env] <;> rfl

/-- A line goes well exactly if it is harmless. -/
theorem isSome_loadLine_iff (env : Text → Option Text) (line : Text) :
    (loadLine env line).isSome ↔ Harmless line := by
  refine ⟨fun h => ?_, fun h => h.safeLine.isSome env⟩
  by_contra hline
  rw [loadLine_eq_none env hline] at h
  exact absurd h (by decide)

/-- Loading the file at this path calls `set_var` only with arguments on which it does
    not panic: every other line is skipped, and nothing crashes. -/
structure LoadsSafely (os : Os) (path : Text) : Prop where
  safe : ∀ content, os.readFile path = .ok content → ∀ line ∈ lines content, SafeLine line
  runs : ∀ env, (loadDotenv os path env).isSome

/-- A file is loaded safely, exactly if each of its lines is harmless: it has no `=`, or is a
    comment, or has a key before it and no NUL in the key or the value. The condition is on the
    lines as they are in the file; the environment does not matter, nor what the lines before
    have set. -/
theorem loadsSafely_iff (os : Os) (path : Text) : LoadsSafely os path ↔
    ∀ content, os.readFile path = .ok content → ∀ line ∈ lines content, Harmless line := by
  constructor
  · intro h content hfile line hline
    exact (isSome_loadLine_iff (fun _ => none) line).1 ((h.safe content hfile line hline).isSome _)
  · refine fun h => ⟨fun content hfile line hline => (h content hfile line hline).safeLine,
      fun env => ?_⟩
    rw [loadDotenv]
    split
    · next content hfile => exact (Run.isSome_run_iff isSome_loadLine_iff).2 (h content hfile)
    · rfl

/-- A `.env` file with the given content. -/
def dotenvOs (content : Text) : Os where
  env _ := none
  readFile _ := .ok content
  pathExists _ := true

/-- A line without a key, `=value`: the empty name is passed to `set_var`, which panics. -/
theorem not_loadsSafely : ¬∀ os path, LoadsSafely os path := by
  intro h
  have hruns := (h (dotenvOs "=x".toList) ".env".toList).runs fun _ => none
  exact absurd hruns (by decide)

end Houdinny
