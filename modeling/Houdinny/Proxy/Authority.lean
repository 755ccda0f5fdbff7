import Houdinny.Proxy.Parse

/-!
# Authorities

What the parsers of the proxy accept as an authority: a name or an IPv6 address in
brackets, and a port, if there is one. The authorities that are accepted are given by
their forms, those of URLs in `ReadsAuthority` (`parseUrlAuthority_eq_ok`) and those of
CONNECT in `ReadsConnect` (`parseHostPort_eq_ok`). A request line in absolute form is cut
into its parts at the first slash (`parseHttpRequest_eq_ok`).

The two relations are inductive, with one constructor for each form, and they are what the
rest of the development looks at: the parsers are not unfolded after this module. The forms
do not overlap, so the host and the port are determined by the text
(`ReadsAuthority.unique`). What CONNECT accepts is accepted in a URL as well
(`ReadsConnect.readsAuthority`), and the difference is in the brackets
(`readsConnect_of_readsAuthority`).
-/

namespace Houdinny.Proxy

open Text

variable {port : UInt16}

/-! ## Ports and addresses -/

/-- A port is a number of at most 65535. -/
theorem parsePort_eq_ok {msg s : Text} :
    parsePort msg s = .ok port ↔ parseUnsigned 65535 s = some port.toNat := by
  rw [parsePort]
  rcases h : parseUnsigned 65535 s with _ | n
  · exact iff_of_false (by rintro ⟨⟩) (by rintro ⟨⟩)
  · obtain ⟨⟨-, -, hle⟩, rfl⟩ := parseUnsigned_eq_some.1 h
    constructor
    · intro hport
      rw [← Except.ok.inj hport, UInt16.toNat_ofNat', Nat.mod_eq_of_lt (Nat.lt_succ_of_le hle)]
    · intro hport
      rw [Option.some.inj hport]
      exact congrArg _ UInt16.ofNat_toNat

/-- The authority of an IPv6 address, cut at the first closing bracket. -/
theorem parseIpv6Authority_append {s : Text} (h : ']' ∉ s) (rest : Text) (defaultPort : UInt16) :
    parseIpv6Authority ('[' :: s ++ ']' :: rest) defaultPort = (do
      let port ← match rest.dropPrefix? ":".toList with
        | some portStr => parsePort "invalid port in IPv6 authority: ".toList portStr
        | none => pure defaultPort
      if s.isEmpty then
        throw (.proxy ("empty host in IPv6 authority: ".toList ++ ('[' :: s ++ ']' :: rest)))
      return (s, port)) := by
  have hs : ']' ∉ '[' :: s := by
    rw [List.mem_cons, not_or]
    exact ⟨by decide, h⟩
  have hcut : splitOnce "]".toList ('[' :: s ++ [']'] ++ rest) = some ('[' :: s, rest) :=
    splitOnce_append hs
  rw [List.append_assoc, List.singleton_append] at hcut
  rw [parseIpv6Authority, hcut]
  rfl

/-- An address without a port has the default port, whatever stands after the bracket. -/
theorem parseIpv6Authority_default {s rest text : Text} {defaultPort : UInt16} (hs : ']' ∉ s)
    (hrest : rest.head? ≠ some ':') :
    parseIpv6Authority ('[' :: s ++ ']' :: rest) defaultPort = .ok (text, port) ↔
      s ≠ [] ∧ text = s ∧ port = defaultPort := by
  have hport : rest.dropPrefix? ":".toList = none := by
    rcases rest with _ | ⟨c, rest⟩
    · rfl
    · have hc : c ≠ ':' := fun h => hrest (congrArg some h)
      simp [List.dropPrefix?, hc]
  rw [parseIpv6Authority_append hs, hport]
  rcases s with _ | ⟨c, s⟩
  · exact iff_of_false (by rintro ⟨⟩) fun h => h.1 rfl
  · constructor
    · rintro ⟨⟩
      exact ⟨List.cons_ne_nil _ _, rfl, rfl⟩
    · rintro ⟨-, rfl, rfl⟩
      rfl

/-- The authority of an IPv6 address with a port. -/
theorem parseIpv6Authority_port {s digits text : Text} {defaultPort : UInt16} (hs : ']' ∉ s) :
    parseIpv6Authority ('[' :: s ++ ']' :: ':' :: digits) defaultPort = .ok (text, port) ↔
      s ≠ [] ∧ text = s ∧ parseUnsigned 65535 digits = some port.toNat := by
  have hport : (':' :: digits).dropPrefix? ":".toList = some digits := dropPrefix?_append [':'] _
  rw [parseIpv6Authority_append hs, hport,
    ← @parsePort_eq_ok _ "invalid port in IPv6 authority: ".toList]
  dsimp only
  rcases parsePort "invalid port in IPv6 authority: ".toList digits with e | port'
  · exact iff_of_false (by rintro ⟨⟩) (by rintro ⟨_, _, ⟨⟩⟩)
  · rcases s with _ | ⟨c, s⟩
    · exact iff_of_false (by rintro ⟨⟩) fun h => h.1 rfl
    · constructor
      · rintro ⟨⟩
        exact ⟨List.cons_ne_nil _ _, rfl, rfl⟩
      · rintro ⟨-, rfl, ⟨⟩⟩
        rfl

/-! ## The authorities of URLs -/

/-- What is read as an authority, with the host and the port that are found. -/
inductive ReadsAuthority (defaultPort : UInt16) : Text → Text → UInt16 → Prop
  | name {s : Text} : s ≠ [] → s.head? ≠ some '[' → ':' ∉ s →
      ReadsAuthority defaultPort s s defaultPort
  | namePort {s digits : Text} {port : UInt16} : s ≠ [] → s.head? ≠ some '[' →
      parseUnsigned 65535 digits = some port.toNat →
      ReadsAuthority defaultPort (s ++ ':' :: digits) s port
  | ipv6 {s rest : Text} : s ≠ [] → ']' ∉ s → rest.head? ≠ some ':' →
      ReadsAuthority defaultPort ('[' :: s ++ ']' :: rest) s defaultPort
  | ipv6Port {s digits : Text} {port : UInt16} : s ≠ [] → ']' ∉ s →
      parseUnsigned 65535 digits = some port.toNat →
      ReadsAuthority defaultPort ('[' :: s ++ ']' :: ':' :: digits) s port

variable {defaultPort : UInt16} {t text : Text}

/-- What is written of a name starts as the name does. -/
theorem head?_append_ne {s : Text} (hne : s ≠ []) (h : s.head? ≠ some '[') (rest : Text) :
    (s ++ rest).head? ≠ some '[' := by
  rwa [List.head?_append_of_ne_nil _ hne]

/-- A host that is read is not empty. -/
theorem ReadsAuthority.text_ne (h : ReadsAuthority defaultPort t text port) : text ≠ [] := by
  cases h <;> assumption

/-- Digits have no colon. -/
theorem colon_notMem_of_parseUnsigned {bound n : ℕ} {digits : Text}
    (h : parseUnsigned bound digits = some n) : ':' ∉ digits := fun hmem =>
  absurd (isDigit_of_parseUnsigned h ':' hmem) (by decide)

/-- What is accepted in brackets. -/
theorem readsAuthority_of_parseIpv6Authority (hhead : t.head? = some '[')
    (h : parseIpv6Authority t defaultPort = .ok (text, port)) :
    ReadsAuthority defaultPort t text port := by
  obtain ⟨t, rfl⟩ := List.head?_eq_some_iff.1 hhead
  by_cases hbracket : ']' ∈ t
  · obtain ⟨s, rest, rfl, hs⟩ := List.eq_append_cons_of_mem hbracket
    by_cases hrest : rest.head? = some ':'
    · obtain ⟨digits, rfl⟩ := List.head?_eq_some_iff.1 hrest
      obtain ⟨hs', rfl, hdigits⟩ := (parseIpv6Authority_port hs).1 h
      exact .ipv6Port hs' hs hdigits
    · obtain ⟨hs', rfl, rfl⟩ := (parseIpv6Authority_default hs hrest).1 h
      exact .ipv6 hs' hs hrest
  · -- Without a closing bracket there is nothing to cut at.
    have hcut : splitOnce "]".toList ('[' :: t) = none := by
      rw [Option.eq_none_iff_forall_ne_some]
      rintro ⟨before, rest⟩ hcut
      have hmem : ']' ∈ before ++ "]".toList ++ rest := by simp
      rw [← eq_of_splitOnce hcut, List.mem_cons] at hmem
      exact hmem.elim (by decide) hbracket
    rw [parseIpv6Authority, hcut] at h
    exact absurd h (by simp)

/-- The authorities of URLs that are accepted with a host. -/
theorem parseUrlAuthority_eq_ok : parseUrlAuthority t defaultPort = .ok (text, port) ∧ text ≠ [] ↔
    ReadsAuthority defaultPort t text port := by
  constructor
  · rintro ⟨h, hne⟩
    rw [parseUrlAuthority] at h
    split_ifs at h with hhead
    · exact readsAuthority_of_parseIpv6Authority hhead h
    · -- Without brackets, the authority is cut at its last colon, if it has one.
      split at h
      · next s digits hcut =>
        obtain ⟨rfl, -⟩ := eq_of_rsplitOnce hcut
        rcases hparse : parsePort "invalid port in URL: ".toList digits with e | port'
        · rw [hparse] at h
          exact absurd h (by rintro ⟨⟩)
        · rw [hparse] at h
          obtain ⟨rfl, rfl⟩ : s = text ∧ port' = port := Prod.mk.inj (Except.ok.inj h)
          refine .namePort hne ?_ (parsePort_eq_ok.1 hparse)
          rwa [List.head?_append_of_ne_nil _ hne] at hhead
      · next hcut =>
        obtain ⟨rfl, rfl⟩ : t = text ∧ defaultPort = port := Prod.mk.inj (Except.ok.inj h)
        exact .name hne hhead fun hcolon => rsplitOnce_ne_none hcolon hcut
  · intro h
    refine ⟨?_, h.text_ne⟩
    cases h with
    | name hne hhead hcolon =>
      rw [parseUrlAuthority, if_neg hhead, rsplitOnce_eq_none hcolon]
    | namePort hne hhead hdigits =>
      rw [parseUrlAuthority, if_neg (head?_append_ne hne hhead _),
        rsplitOnce_append _ (colon_notMem_of_parseUnsigned hdigits)]
      dsimp only
      rw [parsePort_eq_ok.2 hdigits]
      rfl
    | ipv6 hne hs hrest =>
      exact (if_pos rfl).trans ((parseIpv6Authority_default hs hrest).2 ⟨hne, rfl, rfl⟩)
    | ipv6Port hne hs hdigits =>
      exact (if_pos rfl).trans ((parseIpv6Authority_port hs).2 ⟨hne, rfl, hdigits⟩)

/-- A text that is accepted as an authority. -/
def IsAuthority (t : Text) : Prop := ∃ defaultPort host port, ReadsAuthority defaultPort t host port

/-- What is read does not depend on the default port, but for the port. -/
theorem ReadsAuthority.of_isAuthority (h : IsAuthority t) (defaultPort : UInt16) :
    ∃ host port, ReadsAuthority defaultPort t host port := by
  obtain ⟨_, _, _, h⟩ := h
  cases h with
  | name hne hhead hcolon => exact ⟨_, _, .name hne hhead hcolon⟩
  | namePort hne hhead hdigits => exact ⟨_, _, .namePort hne hhead hdigits⟩
  | ipv6 hne hs hrest => exact ⟨_, _, .ipv6 hne hs hrest⟩
  | ipv6Port hne hs hdigits => exact ⟨_, _, .ipv6Port hne hs hdigits⟩

/-- The host and the port are determined. -/
theorem ReadsAuthority.unique {host host' : Text} {port port' : UInt16}
    (h : ReadsAuthority defaultPort t host port) (h' : ReadsAuthority defaultPort t host' port') :
    host = host' ∧ port = port' :=
  Prod.mk.inj (Except.ok.inj
    ((parseUrlAuthority_eq_ok.2 h).1.symm.trans (parseUrlAuthority_eq_ok.2 h').1))

/-- A host that is written without brackets stands at the start of its authority, before
    a port, if there is one. -/
theorem ReadsAuthority.of_head? {host : Text} (h : ReadsAuthority defaultPort t host port)
    (hhead : t.head? ≠ some '[') : t = host ∨ ∃ digits, t = host ++ ':' :: digits ∧
      parseUnsigned 65535 digits = some port.toNat := by
  cases h with
  | name => exact .inl rfl
  | namePort _ _ hdigits => exact .inr ⟨_, rfl, hdigits⟩
  | ipv6 => exact absurd rfl hhead
  | ipv6Port => exact absurd rfl hhead

/-! ## The authorities of CONNECT -/

/-- What is read as the authority of a CONNECT. An address in brackets has no port zero. -/
inductive ReadsConnect : Text → Text → UInt16 → Prop
  | namePort {s digits : Text} {port : UInt16} : s ≠ [] → s.head? ≠ some '[' →
      parseUnsigned 65535 digits = some port.toNat → ReadsConnect (s ++ ':' :: digits) s port
  | ipv6Port {s digits : Text} {port : UInt16} : s ≠ [] → ']' ∉ s →
      parseUnsigned 65535 digits = some port.toNat → port ≠ 0 →
      ReadsConnect ('[' :: s ++ ']' :: ':' :: digits) s port

/-- It is read as the authority of a URL, too. -/
theorem ReadsConnect.readsAuthority (h : ReadsConnect t text port) (defaultPort : UInt16) :
    ReadsAuthority defaultPort t text port := by
  cases h with
  | namePort hne hhead hdigits => exact .namePort hne hhead hdigits
  | ipv6Port hne hs hdigits _ => exact .ipv6Port hne hs hdigits

/-- In brackets, the port zero stands for no port. -/
theorem readsConnect_of_readsAuthority (hhead : t.head? = some '[')
    (h : ReadsAuthority 0 t text port) (hport : port ≠ 0) : ReadsConnect t text port := by
  cases h with
  | name _ hne => exact absurd hhead hne
  | namePort hne hname => exact absurd hhead (head?_append_ne hne hname _)
  | ipv6 => exact absurd rfl hport
  | ipv6Port hne hs hdigits => exact .ipv6Port hne hs hdigits hport

/-- The authorities of CONNECT that are accepted. -/
theorem parseHostPort_eq_ok :
    parseHostPort t = .ok (text, port) ↔ ReadsConnect t text port := by
  constructor
  · intro h
    rw [parseHostPort] at h
    -- In brackets, the default port of zero stands for no port; without, a port must be there.
    split_ifs at h with hhead
    · rcases hparse : parseIpv6Authority t 0 with e | ⟨host, port'⟩
      · rw [hparse] at h
        exact absurd h (by rintro ⟨⟩)
      · rw [hparse] at h
        by_cases hport : port' = 0
        · rw [hport] at h
          exact absurd h (by rintro ⟨⟩)
        · change (if port' = 0 then _ else _) = _ at h
          rw [if_neg hport] at h
          obtain ⟨rfl, rfl⟩ : host = text ∧ port' = port := Prod.mk.inj (Except.ok.inj h)
          exact readsConnect_of_readsAuthority hhead
            (readsAuthority_of_parseIpv6Authority hhead hparse) hport
    · split at h
      · next s digits hcut =>
        obtain ⟨rfl, -⟩ := eq_of_rsplitOnce hcut
        rcases hparse : parsePort "invalid port: ".toList digits with e | port'
        · rw [hparse] at h
          exact absurd h (by rintro ⟨⟩)
        · rw [hparse] at h
          rcases s with _ | ⟨c, s⟩
          · exact absurd h (by rintro ⟨⟩)
          · obtain ⟨rfl, rfl⟩ : c :: s = text ∧ port' = port := Prod.mk.inj (Except.ok.inj h)
            exact .namePort (List.cons_ne_nil _ _) hhead (parsePort_eq_ok.1 hparse)
      · exact absurd h (by simp)
  · intro h
    cases h with
    | namePort hne hhead hdigits =>
      rw [parseHostPort, if_neg (head?_append_ne hne hhead _),
        rsplitOnce_append _ (colon_notMem_of_parseUnsigned hdigits)]
      obtain ⟨c, s, rfl⟩ := List.exists_cons_of_ne_nil hne
      dsimp only
      rw [parsePort_eq_ok.2 hdigits]
      rfl
    | @ipv6Port _ digits _ hne hs hdigits hport =>
      have hparse : parseIpv6Authority ('[' :: text ++ ']' :: ':' :: digits) 0 =
          .ok (text, port) := (parseIpv6Authority_port hs).2 ⟨hne, rfl, hdigits⟩
      have hhead : ('[' :: text ++ ']' :: ':' :: digits).head? = some '[' := rfl
      rw [parseHostPort, if_pos hhead, hparse]
      exact if_neg hport

/-! ## Request lines -/

/-- The path that the proxy finds in a target without its scheme. -/
def slashPath (s : Text) : Text :=
  if (s.dropWhile (· ≠ '/')).isEmpty then "/".toList else s.dropWhile (· ≠ '/')

/-- What a request line in absolute form is parsed to. -/
theorem parseHttpRequest_eq_ok {line method url s : Text} {words : List Text}
    {defaultPort : UInt16} {req : HttpRequest}
    (hwords : splitWhitespace line = method :: url :: words)
    (hscheme : stripScheme url = .ok (s, defaultPort)) :
    parseHttpRequest line = .ok req ↔ ∃ host port,
      parseUrlAuthority (s.takeWhile (· ≠ '/')) defaultPort = .ok (host, port) ∧ host ≠ [] ∧
        req = ⟨method, host, port, slashPath s⟩ := by
  have hparse : parseHttpRequest line = (do
      let p ← parseUrlAuthority (s.takeWhile (· ≠ '/')) defaultPort
      if p.1.isEmpty then
        throw (.proxy ("empty host in URL: ".toList ++ url))
      return ⟨method, p.1, p.2, slashPath s⟩) := by
    rw [parseHttpRequest, hwords]
    dsimp only
    rw [hscheme]
    rfl
  rw [hparse]
  -- The authority is refused, or has an empty host, or is accepted.
  rcases parseUrlAuthority (s.takeWhile (· ≠ '/')) defaultPort with e | ⟨_ | ⟨c, host⟩, port⟩
  · exact iff_of_false (by rintro ⟨⟩) (by rintro ⟨_, _, ⟨⟩, _⟩)
  · refine iff_of_false (by rintro ⟨⟩) ?_
    rintro ⟨_, _, ⟨⟩, hne, _⟩
    exact hne rfl
  · constructor
    · rintro ⟨⟩
      exact ⟨_, _, rfl, List.cons_ne_nil _ _, rfl⟩
    · rintro ⟨_, _, ⟨⟩, -, rfl⟩
      rfl

end Houdinny.Proxy
