import Houdinny.Config.Environment

/-!
# Scanning for references

The text of a configuration file is scanned from left to right, and falls into
pieces (`Scans`): a `${` starts a reference, which goes on to the next `}`,
wherever that is. A reference with a name that is set is replaced by the value, and
every other piece is kept (`exists_substituted`).

So a `${` without its own `}` takes the next one, with the references before that:
a reference is replaced exactly if no earlier one is still open where it starts
(`replacesAll_iff`).

`Scans` is a relation, and every text has a scan (`exists_scans`). What `resolveEnvVars`
computes is read off any scan, piece by piece (`Scans.resolveEnvVars_eq`). From there on the
function is not unfolded any more: what is said of it is said of pieces.
-/

namespace Houdinny

/-! ## Pieces -/

/-- What a text is made up of, for the scan. -/
inductive Piece
  | char (c : Char)
  | reference (name : Text)
  /-- The start of a reference that the text ends in. -/
  | unclosed (s : Text)
  deriving DecidableEq

namespace Piece

/-- The text of a piece. -/
def source : Piece → Text
  | char c => [c]
  | .reference name => Houdinny.reference name
  | unclosed s => '$' :: '{' :: s

/-- What a piece is replaced by, if it is. -/
def replacement (env : Text → Option Text) : Piece → Option Text
  | .reference name => if name = [] then none else env name
  | char _ | unclosed _ => none

/-- What becomes of a piece. -/
def value (env : Text → Option Text) (p : Piece) : Text := (p.replacement env).getD p.source

end Piece

/-- Scanned from left to right, the text falls into the pieces. -/
inductive Scans : Text → List Piece → Prop
  | nil : Scans [] []
  | char {c : Char} {s : Text} {ps : List Piece} :
    ¬['$', '{'] <+: c :: s → Scans s ps → Scans (c :: s) (.char c :: ps)
  | reference {name s : Text} {ps : List Piece} :
    '}' ∉ name → Scans s ps → Scans (reference name ++ s) (.reference name :: ps)
  | unclosed {s : Text} : '}' ∉ s → Scans ('$' :: '{' :: s) [.unclosed s]

variable {env : Text → Option Text} {s pre name post v : Text} {ps : List Piece}

/-- Every text can be scanned. -/
theorem exists_scans (s : Text) : ∃ ps, Scans s ps := by
  induction hn : s.length using Nat.strong_induction_on generalizing s with
  | _ n ih =>
    rcases s with _ | ⟨c, s⟩
    · exact ⟨[], .nil⟩
    -- The induction is on the length, as a reference is taken off the text as a whole.
    by_cases hstart : ['$', '{'] <+: c :: s
    · obtain ⟨rest, hrest⟩ := hstart
      rw [← hrest] at hn ⊢
      by_cases hclose : '}' ∈ rest
      · obtain ⟨name, rest', rfl, hname⟩ := List.eq_append_cons_of_mem hclose
        obtain ⟨ps, hps⟩ := ih rest'.length (by simp at hn; omega) rest' rfl
        refine ⟨.reference name :: ps, ?_⟩
        have h := Scans.reference hname hps
        rwa [reference, List.append_assoc, List.append_assoc] at h
      · exact ⟨[.unclosed rest], .unclosed hclose⟩
    · obtain ⟨ps, hps⟩ := ih s.length (by simp at hn; omega) s rfl
      exact ⟨.char c :: ps, .char hstart hps⟩

/-- The pieces make up the text. -/
theorem Scans.flatMap_source (h : Scans s ps) : ps.flatMap Piece.source = s := by
  induction h with
  | nil => rfl
  | char _ _ ih => rw [List.flatMap_cons, ih]; rfl
  | reference _ _ ih => rw [List.flatMap_cons, ih]; rfl
  | unclosed => exact List.append_nil _

/-- A reference that is not closed is collected up to the end. -/
theorem resolveFrom_unclosed (h : '}' ∉ s) (acc : Text) :
    resolveFrom env (some acc) s = '$' :: '{' :: (acc ++ s) := by
  induction s generalizing acc with
  | nil => rw [resolveFrom, List.append_nil]; rfl
  | cons c s ih =>
    rw [List.mem_cons, not_or] at h
    rw [resolveFrom, if_neg (Ne.symm h.1), ih h.2, List.append_assoc]
    rfl

/-- A reference becomes what its piece becomes. -/
theorem resolveReference_eq (name : Text) :
    resolveReference env name = (Piece.reference name).value env := by
  rcases name with _ | ⟨c, name⟩ <;> rfl

/-- What the scan makes of a text, is what it makes of the pieces. -/
theorem Scans.resolveEnvVars_eq (h : Scans s ps) :
    resolveEnvVars env s = ps.flatMap (Piece.value env) := by
  rw [resolveEnvVars]
  induction h with
  | nil => rfl
  | @char c s ps hstart _ ih =>
    rw [resolveFrom_cons, ih, List.flatMap_cons]
    · rfl
    · rintro rest rfl rfl
      exact hstart ⟨rest, rfl⟩
  | @reference name s ps hname _ ih =>
    rw [List.flatMap_cons, ← ih, ← resolveReference_eq, Houdinny.reference,
      List.append_assoc, List.append_assoc]
    exact resolveFrom_name hname []
  | unclosed hclose => exact (resolveFrom_unclosed hclose []).trans (List.append_nil _).symm

/-- A name in a scan ends at the first closing brace. -/
theorem Scans.notMem_of_reference (h : Scans s ps) (hmem : .reference name ∈ ps) :
    '}' ∉ name := by
  induction h with
  | nil => exact absurd hmem List.not_mem_nil
  | char _ _ ih => exact ih ((List.mem_cons.1 hmem).resolve_left Piece.noConfusion)
  | reference hname _ ih =>
    rcases List.mem_cons.1 hmem with heq | hmem
    · rwa [Piece.reference.inj heq]
    · exact ih hmem
  | unclosed => exact absurd (List.mem_singleton.1 hmem) Piece.noConfusion

/-- What is replaced, is a reference with a name that is set. -/
theorem Piece.replacement_eq_some {p : Piece} (h : p.replacement env = some v) :
    ∃ name, p = .reference name ∧ name ≠ [] ∧ env name = some v := by
  rcases p with c | name | s
  · exact absurd h (by simp [replacement])
  · rw [replacement] at h
    split_ifs at h with hname
    exact ⟨name, rfl, hname, h⟩
  · exact absurd h (by simp [replacement])

/-- The text `out` is `s` with some references replaced: those with a name that is not
    empty, has no `}`, and is set. The pieces are those of the scan from left to right,
    and every other piece is kept. -/
structure Substituted (env : Text → Option Text) (s out : Text) (ps : List Piece) : Prop where
  scans : Scans s ps
  source : ps.flatMap Piece.source = s
  result : ps.flatMap (Piece.value env) = out
  replaced : ∀ p ∈ ps, ∀ v, p.replacement env = some v →
    ∃ name, p = .reference name ∧ name ≠ [] ∧ '}' ∉ name ∧ env name = some v

/-- The references to variables that are set are replaced, and everything else stays as it is:
    all of the text, if no variable is set. The values are not scanned again, so a reference in
    a value stays there. -/
theorem exists_substituted (env : Text → Option Text) (s : Text) :
    (∃ ps, Substituted env s (resolveEnvVars env s) ps) ∧
      ((∀ name, env name = none) → resolveEnvVars env s = s) := by
  obtain ⟨ps, hps⟩ := exists_scans s
  have hresult : resolveEnvVars env s = ps.flatMap (Piece.value env) := hps.resolveEnvVars_eq
  refine ⟨⟨ps, hps, hps.flatMap_source, hresult.symm, fun p hp v hv => ?_⟩, fun henv => ?_⟩
  · obtain ⟨name, rfl, hname, hset⟩ := Piece.replacement_eq_some hv
    exact ⟨name, rfl, hname, hps.notMem_of_reference hp, hset⟩
  · have hkept : Piece.value env = Piece.source := by
      funext p
      rcases hp : p.replacement env with _ | v
      · rw [Piece.value, hp, Option.getD_none]
      · obtain ⟨name, -, -, hset⟩ := Piece.replacement_eq_some hp
        exact absurd (hset.symm.trans (henv name)) (by simp)
    rw [hresult, hkept, hps.flatMap_source]

/-! ## References that are not reached -/

/-- A name without the characters of a reference. -/
structure Clean (name : Text) : Prop where
  ne_nil : name ≠ []
  dollar : '$' ∉ name
  opening : '{' ∉ name
  closing : '}' ∉ name

/-- At the end of the text, a `${` is still without a `}`. -/
def LeftOpen (s : Text) : Prop := ∃ u v, s = u ++ '$' :: '{' :: v ∧ '}' ∉ v

/-- The reference between two texts is replaced by `v`: the scan comes to it, and puts
    the value in its place. -/
def ReplacedBy (env : Text → Option Text) (pre name post v : Text) : Prop :=
  ∃ ps qs : List Piece, Scans (pre ++ reference name ++ post) (ps ++ .reference name :: qs) ∧
    ps.flatMap Piece.source = pre ∧ qs.flatMap Piece.source = post ∧
    resolveEnvVars env (pre ++ reference name ++ post) =
      ps.flatMap (Piece.value env) ++ v ++ qs.flatMap (Piece.value env)

/-- Every clean reference to a variable that is set is replaced by the value. -/
def ReplacesAll (env : Text → Option Text) (s : Text) : Prop :=
  ∀ pre name post v, s = pre ++ reference name ++ post → Clean name → env name = some v →
    ReplacedBy env pre name post v

/-- A text that leaves nothing open is scanned on its own, before a reference. -/
theorem exists_scans_append (h : ¬LeftOpen pre) (rest : Text) :
    ∃ ps, ps.flatMap Piece.source = pre ∧
      ∀ qs, Scans ('$' :: rest) qs → Scans (pre ++ '$' :: rest) (ps ++ qs) := by
  induction hn : pre.length using Nat.strong_induction_on generalizing pre with
  | _ n ih =>
    rcases pre with _ | ⟨c, pre⟩
    · exact ⟨[], rfl, fun qs hqs => hqs⟩
    by_cases hstart : ['$', '{'] <+: c :: pre
    · -- What is opened here, is closed within the text.
      obtain ⟨body, hbody⟩ := hstart
      have hclose : '}' ∈ body := by
        by_contra hclose
        exact h ⟨[], body, hbody.symm, hclose⟩
      obtain ⟨name, pre', rfl, hname⟩ := List.eq_append_cons_of_mem hclose
      have heq : c :: pre = reference name ++ pre' := by
        rw [← hbody, reference, List.append_assoc, List.append_assoc]
        rfl
      rw [heq] at h hn ⊢
      obtain ⟨ps, hsource, hscans⟩ := ih pre'.length
        (by simp only [reference, List.length_append, List.length_cons] at hn; omega)
        (by
          rintro ⟨u, v, rfl, hv⟩
          exact h ⟨reference name ++ u, v, (List.append_assoc _ _ _).symm, hv⟩) rfl
      refine ⟨.reference name :: ps, ?_, fun qs hqs => ?_⟩
      · rw [List.flatMap_cons, hsource]
        rfl
      · rw [List.append_assoc]
        exact .reference hname (hscans qs hqs)
    · obtain ⟨ps, hsource, hscans⟩ := ih pre.length (by simp at hn; omega)
        (by
          rintro ⟨u, v, rfl, hv⟩
          exact h ⟨c :: u, v, rfl, hv⟩) rfl
      refine ⟨.char c :: ps, ?_, fun qs hqs => .char ?_ (hscans qs hqs)⟩
      · rw [List.flatMap_cons, hsource]
        rfl
      · -- The dollar after the text does not complete the start of a reference.
        rintro ⟨t, ht⟩
        rcases pre with _ | ⟨b, pre⟩
        · exact absurd (List.cons.inj (List.cons.inj ht).2).1 (by decide)
        · have hb := List.cons.inj (List.cons.inj ht).2
          exact hstart ⟨pre, by rw [(List.cons.inj ht).1, hb.1]; rfl⟩

/-- Nothing is open where the scan comes to a reference. -/
theorem Scans.not_leftOpen (h : Scans s ps) {qs rs : List Piece}
    (hps : ps = qs ++ .reference name :: rs) : ¬LeftOpen (qs.flatMap Piece.source) := by
  induction h generalizing qs with
  | nil => exact absurd hps (by simp)
  | @char c s ps hstart hrest ih =>
    rintro ⟨u, v, huv, hv⟩
    rcases qs with _ | ⟨q, qs⟩
    · exact absurd huv (by simp)
    obtain ⟨rfl, rfl⟩ := List.cons.inj hps
    rcases u with _ | ⟨d, u⟩
    · -- The start of a reference is no single character.
      obtain ⟨rfl, htail⟩ := List.cons.inj huv
      refine hstart ⟨v ++ (.reference name :: rs).flatMap Piece.source, ?_⟩
      have hs : s = '{' :: v ++ (.reference name :: rs).flatMap Piece.source := by
        rw [← hrest.flatMap_source, ← htail]
        exact List.flatMap_append
      rw [hs]
      rfl
    · exact ih rfl ⟨u, v, (List.cons.inj huv).2, hv⟩
  | @reference m s ps hm hrest ih =>
    rintro ⟨u, v, huv, hv⟩
    rcases qs with _ | ⟨q, qs⟩
    · exact absurd huv (by simp)
    obtain ⟨rfl, rfl⟩ := List.cons.inj hps
    have hsource : ['$', '{'] ++ m ++ '}' :: qs.flatMap Piece.source = u ++ '$' :: '{' :: v := by
      rw [← huv]
      exact (List.append_assoc _ ['}'] _).symm
    rcases List.append_eq_append_iff.1 hsource with ⟨t, rfl, ht⟩ | ⟨t, -, ht⟩
    · rcases t with _ | ⟨d, t⟩
      · exact absurd (List.cons.inj ht).1 (by decide)
      · exact ih rfl ⟨t, v, (List.cons.inj ht).2, hv⟩
    · -- The brace that closes the reference comes after the start.
      have hmem : '}' ∈ '$' :: '{' :: v := ht ▸ List.mem_append_right t List.mem_cons_self
      exact hv (by simpa using hmem)
  | unclosed =>
    rcases qs with _ | ⟨q, qs⟩
    · exact absurd (List.cons.inj hps).1 Piece.noConfusion
    · exact absurd (List.cons.inj hps).2 (by simp)

/-- The scan comes to a reference to a variable that is set, exactly if nothing is open
    before it. -/
theorem replacedBy_iff (hname : Clean name) (hset : env name = some v) :
    ReplacedBy env pre name post v ↔ ¬LeftOpen pre := by
  constructor
  · rintro ⟨ps, qs, hscans, rfl, -, -⟩
    exact hscans.not_leftOpen rfl
  · intro hpre
    obtain ⟨qs, hqs⟩ := exists_scans post
    obtain ⟨ps, hsource, hps⟩ := exists_scans_append hpre ('{' :: (name ++ ['}'] ++ post))
    have hscans : Scans (pre ++ reference name ++ post) (ps ++ .reference name :: qs) := by
      rw [List.append_assoc]
      exact hps _ (.reference hname.closing hqs)
    -- Nothing is open where the reference starts, so it is a piece of its own.
    have hvalue : (Piece.reference name).value env = v := by
      rw [Piece.value, Piece.replacement, if_neg hname.ne_nil, hset, Option.getD_some]
    refine ⟨ps, qs, hscans, hsource, hqs.flatMap_source, ?_⟩
    rw [hscans.resolveEnvVars_eq, List.flatMap_append, List.flatMap_cons, hvalue,
      List.append_assoc]

/-- Every clean reference to a variable that is set is replaced, exactly if none of them comes
    after a `${` without a `}` in between. The condition is on the text before each reference
    alone. -/
theorem replacesAll_iff (env : Text → Option Text) (s : Text) :
    ReplacesAll env s ↔ ∀ pre name post, s = pre ++ reference name ++ post → Clean name →
      (env name).isSome → ¬LeftOpen pre := by
  constructor
  · intro h pre name post hs hname hset
    obtain ⟨v, hv⟩ := Option.isSome_iff_exists.1 hset
    exact (replacedBy_iff hname hv).1 (h pre name post v hs hname hv)
  · intro h pre name post v hs hname hv
    exact (replacedBy_iff hname hv).2 (h pre name post hs hname (hv ▸ rfl))

/-- The start of a reference takes the closing brace of the next one: the name that is looked up
    has a `${` in it, and no variable has such a name. -/
theorem not_replacesAll : ¬∀ env s, ReplacesAll env s := by
  intro h
  have hname : Clean "A".toList := ⟨by decide, by decide, by decide, by decide⟩
  let env : Text → Option Text := fun name => if name = "A".toList then some "v".toList else none
  have hset : env "A".toList = some "v".toList := rfl
  have hreplaced : ReplacedBy env "$\x7bX ".toList "A".toList [] "v".toList :=
    h env _ _ _ _ _ rfl hname hset
  exact (replacedBy_iff hname hset).1 hreplaced ⟨[], "X ".toList, rfl, by decide⟩

end Houdinny
