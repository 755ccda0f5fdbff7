import Houdinny.Config.Fields

/-!
# References to environment variables

References are replaced in the text of a configuration file, before it is parsed.
A string field that is written as `"${NAME}"` is loaded as the value of the
variable, and nothing else is changed by it, exactly if the value needs no escapes
(`fromFile_loadsAs_iff`).

The TOML library is assumed to follow TOML 1.0, which is what the reader of this
development reads (`TomlCrate.Follows`).

* `Referring` is a file in which a field is written so: the text before the reference, which
  leaves none open (`closes`), the name, and the text after it. That the field is there at
  all is said by the file with a placeholder in its place, which is loaded.
* `LoadsAs` is what is wanted: the configuration of the placeholder, but for the value of
  the variable in the field.

A value with a quote or a newline ends the string, or is another string, and so the rest of
the value is read as a part of the file (`not_loadsAs_quote`).
-/

namespace Houdinny

open Toml

/-- The library follows TOML 1.0: it parses the documents of TOML, and no other
    text, each to its value. -/
def TomlCrate.Follows (crate : TomlCrate) : Prop :=
  ∀ s t, crate.parse s = .ok t ↔ Toml.parse s = some t

/-- The library that is the reader. -/
def readerCrate : TomlCrate where
  parse s := match Toml.parse s with
    | some t => .ok t
    | none => .error "TOML parse error".toList
  refusal _ := "invalid configuration".toList

/-- The reader follows itself. -/
theorem readerCrate_follows : readerCrate.Follows := by
  intro s t
  change (match Toml.parse s with
    | some t => .ok t
    | none => .error "TOML parse error".toList) = Except.ok t ↔ _
  rcases Toml.parse s with _ | t' <;> simp

variable {crate : TomlCrate} {os : Os} {path pre name post v p s : Text} {field : Field}
  {config : Config} {env : Text → Option Text}

/-- A text is parsed to the configuration that its value is. -/
theorem TomlCrate.Follows.parseToml_eq_ok (hcrate : crate.Follows) :
    Config.parseToml crate s = .ok config ↔
      ∃ t, Toml.parse s = some t ∧ Config.decode t = some config := by
  rw [Config.parseToml]
  rcases hparse : crate.parse s with e | t
  · refine iff_of_false (by simp) ?_
    rintro ⟨t, ht, -⟩
    exact absurd (hparse.symm.trans ((hcrate s t).2 ht)) (by simp)
  · have ht := (hcrate s t).1 hparse
    rw [ht]
    simp only [Option.some.injEq, exists_eq_left']
    rcases Config.decode t with _ | c <;> simp

/-! ## References -/

/-- No reference is left open at the end of a text, which begins within a reference
    or outside of any. -/
def closes : Bool → Text → Bool
  | false, [] => true
  | false, '$' :: '{' :: rest => closes true rest
  | false, _ :: rest => closes false rest
  | true, [] => false
  | true, c :: rest => if c = '}' then closes false rest else closes true rest

/-- A character that does not start a reference. -/
theorem resolveFrom_cons {c : Char} (h : ∀ rest, c = '$' → s = '{' :: rest → False) :
    resolveFrom env none (c :: s) = c :: resolveFrom env none s := by
  rw [resolveFrom]
  exact h

/-- A text at the end of which no reference is left open is resolved on its own. -/
theorem resolveFrom_append {inside : Bool} (h : closes inside pre = true) (s : Text) :
    ∀ o : Option Text, o.isSome = inside → resolveFrom env o (pre ++ '"' :: s) =
      resolveFrom env o pre ++ '"' :: resolveFrom env none s := by
  have hquote : resolveFrom env none ('"' :: s) = '"' :: resolveFrom env none s :=
    resolveFrom_cons fun _ h => absurd h (by decide)
  fun_induction closes inside pre with
  | case1 =>
    intro o ho
    obtain rfl := Option.isNone_iff_eq_none.1 (Option.isSome_eq_false_iff.1 ho)
    exact hquote
  | case2 rest ih =>
    intro o ho
    obtain rfl := Option.isNone_iff_eq_none.1 (Option.isSome_eq_false_iff.1 ho)
    exact ih h (some []) rfl
  | case3 c rest hne ih =>
    intro o ho
    obtain rfl := Option.isNone_iff_eq_none.1 (Option.isSome_eq_false_iff.1 ho)
    rw [List.cons_append, resolveFrom_cons hne, resolveFrom_cons, ih h none rfl, List.cons_append]
    -- The quote does not complete the start of a reference.
    rintro rest' rfl hrest
    rcases rest with _ | ⟨b, rest⟩
    · exact absurd (List.cons.inj hrest).1 (by decide)
    · exact hne rest rfl (by rw [(List.cons.inj hrest).1])
  | case4 => exact absurd h (by simp)
  | case5 rest ih =>
    intro o ho
    obtain ⟨name, rfl⟩ := Option.isSome_iff_exists.1 ho
    rw [List.cons_append, resolveFrom, if_pos rfl, ih h none rfl, resolveFrom, if_pos rfl,
      List.append_assoc]
  | case6 c rest hc ih =>
    intro o ho
    obtain ⟨name, rfl⟩ := Option.isSome_iff_exists.1 ho
    rw [List.cons_append, resolveFrom, if_neg hc, ih h (some (name ++ [c])) rfl, resolveFrom,
      if_neg hc]

/-- A name is collected up to its end. -/
theorem resolveFrom_name (h : '}' ∉ name) (acc : Text) :
    resolveFrom env (some acc) (name ++ '}' :: s) =
      resolveReference env (acc ++ name) ++ resolveFrom env none s := by
  induction name generalizing acc with
  | nil => rw [List.nil_append, resolveFrom, if_pos rfl, List.append_nil]
  | cons c name ih =>
    rw [List.mem_cons, not_or] at h
    rw [List.cons_append, resolveFrom, if_neg (Ne.symm h.1), ih h.2, List.append_assoc]
    rfl

/-- A file in which a string is written between two texts. -/
def withString (pre s post : Text) : Text := pre ++ '"' :: (s ++ '"' :: post)

/-- A reference to a variable. -/
def reference (name : Text) : Text := ['$', '{'] ++ name ++ ['}']

/-- A string without references is resolved to itself. -/
theorem resolveEnvVars_withString (hpre : closes false pre = true) (hs : '$' ∉ s) (post : Text) :
    resolveEnvVars env (withString pre s post) =
      withString (resolveEnvVars env pre) s (resolveEnvVars env post) := by
  have hplain : ∀ t, '$' ∉ t → resolveFrom env none (t ++ '"' :: post) =
      t ++ '"' :: resolveFrom env none post := by
    intro t ht
    induction t with
    | nil => exact resolveFrom_cons fun _ h => absurd h (by decide)
    | cons c t ih =>
      rw [List.mem_cons, not_or] at ht
      rw [List.cons_append, resolveFrom_cons fun _ hc => absurd hc.symm ht.1, ih ht.2]
      rfl
  rw [resolveEnvVars, withString, resolveFrom_append hpre _ none rfl, hplain s hs]
  rfl

/-- A string that is a reference is resolved to the value of the variable. -/
theorem resolveEnvVars_reference (hpre : closes false pre = true) (hne : name ≠ [])
    (hname : '}' ∉ name) (hv : env name = some v) (post : Text) :
    resolveEnvVars env (withString pre (reference name) post) =
      withString (resolveEnvVars env pre) v (resolveEnvVars env post) := by
  have href : resolveFrom env none (reference name ++ '"' :: post) =
      v ++ '"' :: resolveFrom env none post := by
    rw [reference, List.append_assoc, List.append_assoc]
    change resolveFrom env (some []) (name ++ '}' :: ('"' :: post)) = _
    rw [resolveFrom_name hname, List.nil_append, resolveReference,
      if_neg (by rwa [List.isEmpty_iff]), hv, resolveFrom_cons fun _ h => absurd h (by decide)]
    rfl
  rw [resolveEnvVars, withString, resolveFrom_append hpre _ none rfl, href]
  rfl

/-! ## Loading -/

/-- The file is loaded with the string as the value of the field, and everything else
    as in the configuration. -/
def LoadsAs (crate : TomlCrate) (os : Os) (path : Text) (field : Field) (s : Text)
    (config : Config) : Prop :=
  ∃ config', Config.fromFile crate os path = .ok config' ∧ field.get config' = some s ∧
    config' = field.set s config

/-- A file in which a string field is written as a reference to a variable that is set
    to `v`. With the plain string `p` in its place, it is loaded as `config`. -/
structure Referring (crate : TomlCrate) (os : Os) (path pre name post v p : Text) (field : Field)
    (config : Config) : Prop where
  file : os.readFile path = .ok (withString pre (reference name) post)
  /-- The reference is none within another reference. -/
  closes : closes false pre = true
  name_ne : name ≠ []
  brace_notMem : '}' ∉ name
  env : os.env name = some v
  place : valuePath (resolveEnvVars os.env pre) = some field.path
  plain : Plain p
  ne_nil : p ≠ []
  dollar_notMem : '$' ∉ p
  loads : Config.parseToml crate (resolveEnvVars os.env (withString pre p post)) = .ok config

/-- What is parsed, is the file with the value of the variable. -/
theorem Referring.fromFile_eq (h : Referring crate os path pre name post v p field config) :
    Config.fromFile crate os path = Config.parseToml crate
      (withString (resolveEnvVars os.env pre) v (resolveEnvVars os.env post)) := by
  rw [Config.fromFile_of_readFile h.file,
    resolveEnvVars_reference h.closes h.name_ne h.brace_notMem h.env]

/-- A value that needs no escapes is loaded. -/
theorem Referring.loadsAs (hcrate : crate.Follows)
    (h : Referring crate os path pre name post v p field config) (hv : Plain v) :
    LoadsAs crate os path field v config := by
  have hloads := h.loads
  rw [resolveEnvVars_withString h.closes h.dollar_notMem, hcrate.parseToml_eq_ok] at hloads
  obtain ⟨t, ht, hdecode⟩ := hloads
  obtain ⟨t', ht', hdiff⟩ := parse_replace h.place h.plain h.ne_nil hv ht
  have hdecode' : Config.decode t' = some (field.set v config) := by
    rw [field.decode_eq_map hdiff, hdecode]
    rfl
  refine ⟨_, ?_, field.get_of_decode hdiff.right hdecode', rfl⟩
  rw [h.fromFile_eq]
  exact hcrate.parseToml_eq_ok.2 ⟨t', ht', hdecode'⟩

/-- A value that is loaded needs no escapes. -/
theorem Referring.plain_of_loadsAs (hcrate : crate.Follows)
    (h : Referring crate os path pre name post v p field config)
    (hv : LoadsAs crate os path field v config) : Plain v := by
  have hloads := h.loads
  rw [resolveEnvVars_withString h.closes h.dollar_notMem, hcrate.parseToml_eq_ok] at hloads
  obtain ⟨t, ht, -⟩ := hloads
  obtain ⟨config', hfile, hget, -⟩ := hv
  rw [h.fromFile_eq, hcrate.parseToml_eq_ok] at hfile
  obtain ⟨t', ht', hdecode'⟩ := hfile
  obtain ⟨x, hat, hplain⟩ := exists_of_parse h.place h.plain h.ne_nil ht ht'
  exact hplain (Option.some.inj ((field.get_of_decode hat hdecode').symm.trans hget))

/-- A string field that is written as a reference is loaded as the value of the variable, and
    everything else as it is without it, exactly if the value needs no escapes: it has no quote,
    no backslash and no control character but a tab. The value is pasted into the text before it
    is parsed, and nothing escapes it. -/
theorem fromFile_loadsAs_iff (crate : TomlCrate) (os : Os) (path pre name post v p : Text)
    (field : Field) (config : Config) (hcrate : crate.Follows)
    (h : Referring crate os path pre name post v p field config) :
    LoadsAs crate os path field v config ↔ Plain v :=
  ⟨h.plain_of_loadsAs hcrate, h.loadsAs hcrate⟩

/-- The text before the private key of a tunnel. -/
def keyPrefix : Text := "[[tunnel]]\nprotocol = \"wireguard\"\nprivate_key = ".toList

/-- A file with a private key that is a reference to the variable `WG_KEY`, set to the
    given value. -/
def keyOs (v : Text) : Os where
  env name := if name = "WG_KEY".toList then some v else none
  readFile _ := .ok (withString keyPrefix (reference "WG_KEY".toList) "\n".toList)
  pathExists _ := true

/-- The file with a placeholder. -/
def keyConfig : Config where
  proxy := default
  docker := default
  tunnel := [{ TunnelConfig.ofProtocol "wireguard".toList with privateKey := some "key".toList }]

/-- The private key of a tunnel is written so. -/
theorem referring_key (path v : Text) : Referring readerCrate (keyOs v) path keyPrefix
    "WG_KEY".toList "\n".toList v "key".toList (.tunnel 0 .privateKey) keyConfig := by
  have hpre : resolveEnvVars (keyOs v).env keyPrefix = keyPrefix :=
    resolveEnvVars_of_notMem (by decide)
  have hfile : resolveEnvVars (keyOs v).env
      (withString keyPrefix "key".toList "\n".toList) =
      withString keyPrefix "key".toList "\n".toList := resolveEnvVars_of_notMem (by decide)
  exact
    { file := rfl
      closes := by decide
      name_ne := by decide
      brace_notMem := by decide
      env := rfl
      place := by
        rw [hpre]
        decide +kernel
      plain := by decide
      ne_nil := by decide
      dollar_notMem := by decide
      loads := by
        rw [hfile]
        decide +kernel }

/-- A key that needs no escapes is loaded as the private key of the tunnel. -/
theorem fromFile_loadsAs_iff_key : LoadsAs readerCrate (keyOs "cHJpdmF0ZQ==".toList)
    "houdinny.toml".toList (.tunnel 0 .privateKey) "cHJpdmF0ZQ==".toList keyConfig :=
  (fromFile_loadsAs_iff readerCrate _ _ keyPrefix "WG_KEY".toList "\n".toList _ "key".toList
    (.tunnel 0 .privateKey) keyConfig readerCrate_follows (referring_key _ _)).2 (by decide)

/-- A quote in the value of a variable ends the string, and the key is not loaded as it is. -/
theorem not_loadsAs_quote : ¬∀ (crate : TomlCrate) (os : Os) (path pre name post v p : Text)
    (field : Field) (config : Config), crate.Follows →
    Referring crate os path pre name post v p field config →
    LoadsAs crate os path field v config := by
  intro h
  have href := referring_key "houdinny.toml".toList "a\"b".toList
  have hplain := href.plain_of_loadsAs readerCrate_follows
    (h _ _ _ _ _ _ _ _ _ _ readerCrate_follows href)
  exact absurd hplain (by decide)

end Houdinny
