import Houdinny.Proxy.Injection
import Houdinny.Proxy.Targets

/-!
# The grammar of authorities

An authority is a host, with a port in decimal digits or without one (`IsWritten`). The
parsers accept more than that: a `+` before the digits, a host that is no host by the
grammar, and, in a URL, any text after the brackets of an address (`Loose`). They accept
a line only by the grammar exactly if its authority is not of these forms
(`onlyByGrammar_iff`).

The parser of CONNECT and that of URLs read an authority with a port the same way, but for
an address in brackets with other text after it, or with port zero (`readAlike_iff`).

Both parsers are covered at once: `HasAuthority` finds the authority of a line of either
kind, with the port that it has by default, if any, and `Reads` is what that parser reads of
it. A text in brackets is cut at the first closing one, and any other at its last colon, by the
grammar as by the parsers (`ipv6_inj`, `namePort_inj`): this is what makes the two comparable.
-/

namespace Houdinny.Proxy

open Text

variable {line a text digits : Text} {defaultPort : Option UInt16} {port : UInt16}

/-! ## What is written -/

/-- A port, written in decimal digits. -/
def IsPort (digits : Text) (port : UInt16) : Prop :=
  digits ≠ [] ∧ (∀ c ∈ digits, c.isDigit = true) ∧ Nat.ofDigitChars 10 digits 0 = port.toNat

/-- An authority: a host, with a port or without one. -/
inductive IsWritten : Text → Host → Option UInt16 → Prop
  | bare {host : Host} : host.Valid → IsWritten host.render host none
  | port {host : Host} {digits : Text} {port : UInt16} : host.Valid → IsPort digits port →
      IsWritten (host.render ++ ':' :: digits) host (some port)

/-- What is read as a port is written in decimal digits, unless it starts with a sign. -/
theorem isPort_of_parseUnsigned (h : parseUnsigned 65535 digits = some port.toNat)
    (hsign : digits.head? ≠ some '+') : IsPort digits port := by
  have hsame : unsignedDigits digits = digits := by
    unfold unsignedDigits
    split
    · exact absurd rfl hsign
    · rfl
  obtain ⟨⟨hne, hall, -⟩, hvalue⟩ := parseUnsigned_eq_some.1 h
  rw [hsame] at hne hall hvalue
  exact ⟨hne, List.all_eq_true.1 hall, hvalue⟩

/-- It is made of digits only. -/
theorem IsPort.notMem (h : IsPort digits port) {c : Char} (hc : c.isDigit = false) :
    c ∉ digits := fun hmem =>
  Bool.false_ne_true (hc.symm.trans (h.2.1 c hmem))

/-- The digits are read as the port. -/
theorem IsPort.parseUnsigned (h : IsPort digits port) :
    parseUnsigned 65535 digits = some port.toNat := by
  rw [parseUnsigned_eq_some, unsignedDigits_of_notMem (h.notMem (by decide))]
  obtain ⟨hne, hall, hvalue⟩ := h
  rw [hvalue]
  exact ⟨⟨hne, List.all_eq_true.2 hall, Nat.le_of_lt_succ port.toNat_lt⟩, rfl⟩

/-! ## What is accepted -/

/-- The authority of a request line: that of a CONNECT, which has no default port, or that
    of a URL, with the default port of its scheme. -/
inductive HasAuthority (line : Text) : Option UInt16 → Text → Prop
  | connect {method a : Text} {words : List Text} :
      splitWhitespace line = method :: a :: words →
      eqIgnoreAsciiCase method "CONNECT".toList = true → HasAuthority line none a
  | url {method url s : Text} {words : List Text} {defaultPort : UInt16} :
      splitWhitespace line = method :: url :: words → stripScheme url = .ok (s, defaultPort) →
      HasAuthority line (some defaultPort) (s.takeWhile (· ≠ '/'))

/-- The parser of CONNECT, or that of URLs, accepts the line with the authority `a`, and
    returns the host and the port. -/
inductive Accepts (line : Text) : Option UInt16 → Text → Text → UInt16 → Prop
  | connect {method a host : Text} {words : List Text} {port : UInt16} :
      splitWhitespace line = method :: a :: words → parseConnect line = .ok (host, port) →
      Accepts line none a host port
  | url {method url s : Text} {words : List Text} {defaultPort : UInt16} {req : HttpRequest} :
      splitWhitespace line = method :: url :: words → stripScheme url = .ok (s, defaultPort) →
      parseHttpRequest line = .ok req →
      Accepts line (some defaultPort) (s.takeWhile (· ≠ '/')) req.host req.port

/-- What is read as an authority, where there is a default port and where there is none. -/
def Reads : Option UInt16 → Text → Text → UInt16 → Prop
  | none => ReadsConnect
  | some defaultPort => ReadsAuthority defaultPort

/-- The authority is the second word of the line. -/
theorem parseConnect_eq_ok {method : Text} {words : List Text}
    (hwords : splitWhitespace line = method :: a :: words) :
    parseConnect line = .ok (text, port) ↔
      eqIgnoreAsciiCase method "CONNECT".toList = true ∧ ReadsConnect a text port := by
  rw [parseConnect, hwords, ← parseHostPort_eq_ok]
  dsimp only
  split_ifs with hmethod
  · rw [and_iff_right hmethod]
  · exact iff_of_false (by rintro ⟨⟩) fun h => hmethod h.1

/-- A line is accepted exactly if its authority is. -/
theorem accepts_iff : Accepts line defaultPort a text port ↔
    HasAuthority line defaultPort a ∧ Reads defaultPort a text port := by
  constructor
  · intro h
    cases h with
    | connect hwords hparse =>
      obtain ⟨hmethod, hreads⟩ := (parseConnect_eq_ok hwords).1 hparse
      exact ⟨.connect hwords hmethod, hreads⟩
    | url hwords hscheme hparse =>
      obtain ⟨host, port, hauthority, hne, rfl⟩ :=
        (parseHttpRequest_eq_ok hwords hscheme).1 hparse
      exact ⟨.url hwords hscheme, parseUrlAuthority_eq_ok.1 ⟨hauthority, hne⟩⟩
  · rintro ⟨h, hreads⟩
    cases h with
    | connect hwords hmethod =>
      exact .connect hwords ((parseConnect_eq_ok hwords).2 ⟨hmethod, hreads⟩)
    | url hwords hscheme =>
      obtain ⟨hauthority, hne⟩ := parseUrlAuthority_eq_ok.2 hreads
      exact .url hwords hscheme
        ((parseHttpRequest_eq_ok hwords hscheme).2 ⟨_, _, hauthority, hne, rfl⟩)

/-- The authority is without white space, and that of a URL has no slash. -/
theorem HasAuthority.solid (h : HasAuthority line defaultPort a) :
    Solid a ∧ (defaultPort ≠ none → '/' ∉ a) := by
  cases h with
  | connect hwords _ =>
    have hmem : a ∈ splitWhitespace line := by simp [hwords]
    exact ⟨(solid_of_mem_splitWhitespace hmem).2, fun h => absurd rfl h⟩
  | @url _ url _ _ _ hwords hscheme =>
    have hmem : url ∈ splitWhitespace line := by simp [hwords]
    refine ⟨solid_of_subset (solid_of_mem_splitWhitespace hmem).2 ?_, fun _ hslash => ?_⟩
    · exact fun c hc => subset_of_stripScheme hscheme ((List.takeWhile_prefix _).subset hc)
    · exact absurd (List.mem_takeWhile_imp hslash) (by decide)

/-! ## Acceptance by the grammar -/

/-- Every authority that is accepted in the line is written by the grammar, and the host and
    the port are those of the text, or the default port if there is none. -/
def OnlyByGrammar (line : Text) : Prop :=
  ∀ defaultPort a text port, Accepts line defaultPort a text port →
    ∃ host written, IsWritten a host written ∧ host.text = text ∧
      written.or defaultPort = some port

/-- The authorities that are accepted, and are not written by the grammar. -/
inductive Loose (defaultPort : Option UInt16) : Text → Prop
  | namePort {s digits : Text} {port : UInt16} : s ≠ [] → s.head? ≠ some '[' →
      parseUnsigned 65535 digits = some port.toNat →
      digits.head? = some '+' ∨ ':' ∈ s ∨ '/' ∈ s → Loose defaultPort (s ++ ':' :: digits)
  | ipv6Port {s digits : Text} {port : UInt16} : s ≠ [] → ']' ∉ s →
      parseUnsigned 65535 digits = some port.toNat → defaultPort ≠ none ∨ port ≠ 0 →
      digits.head? = some '+' ∨ '/' ∈ s → Loose defaultPort ('[' :: s ++ ']' :: ':' :: digits)
  | ipv6 {s rest : Text} : s ≠ [] → ']' ∉ s → defaultPort ≠ none → rest ≠ [] →
      rest.head? ≠ some ':' → Loose defaultPort ('[' :: s ++ ']' :: rest)

/-- Text that has one of these forms is accepted. -/
theorem Loose.reads (h : Loose defaultPort a) : ∃ text port, Reads defaultPort a text port := by
  cases h with
  | namePort hne hhead hdigits _ =>
    cases defaultPort with
    | none => exact ⟨_, _, ReadsConnect.namePort hne hhead hdigits⟩
    | some => exact ⟨_, _, ReadsAuthority.namePort hne hhead hdigits⟩
  | ipv6Port hne hs hdigits hport _ =>
    cases defaultPort with
    | none => exact ⟨_, _, ReadsConnect.ipv6Port hne hs hdigits (hport.resolve_left (by simp))⟩
    | some => exact ⟨_, _, ReadsAuthority.ipv6Port hne hs hdigits⟩
  | ipv6 hne hs hsome _ hrest =>
    cases defaultPort with
    | none => exact absurd rfl hsome
    | some => exact ⟨_, _, ReadsAuthority.ipv6 hne hs hrest⟩

/-- An authority in brackets is cut at the first closing one. -/
theorem ipv6_inj {s s' rest rest' : Text} (hs : ']' ∉ s) (hs' : ']' ∉ s')
    (h : '[' :: s ++ ']' :: rest = '[' :: s' ++ ']' :: rest') : s = s' ∧ rest = rest' :=
  cut_inj hs hs' (List.cons.inj h).2

/-- An authority is cut at the last colon. -/
theorem namePort_inj {s s' digits' : Text} (hdigits : ':' ∉ digits) (hdigits' : ':' ∉ digits')
    (h : s ++ ':' :: digits = s' ++ ':' :: digits') : s = s' ∧ digits = digits' := by
  have hsome := congrArg (rsplitOnce ':') h
  rw [rsplitOnce_append s hdigits, rsplitOnce_append s' hdigits'] at hsome
  exact Prod.mk.inj (Option.some.inj hsome)

/-- A name and a port, without one of these forms. -/
theorem isWritten_namePort {s : Text} (hsolid : Solid (s ++ ':' :: digits))
    (hloose : ¬Loose defaultPort (s ++ ':' :: digits)) (hne : s ≠ []) (hhead : s.head? ≠ some '[')
    (hdigits : parseUnsigned 65535 digits = some port.toNat) :
    IsWritten (s ++ ':' :: digits) (.name s) (some port) := by
  have hstrict := mt (@Loose.namePort defaultPort _ _ _ hne hhead hdigits) hloose
  rw [not_or, not_or] at hstrict
  obtain ⟨hsign, hcolon, hslash⟩ := hstrict
  have hvalid : (Host.name s).Valid := ⟨hne, hcolon, hslash, (solid_append.1 hsolid).1, hhead⟩
  exact .port hvalid (isPort_of_parseUnsigned hdigits hsign)

/-- An address and a port, without one of these forms. -/
theorem isWritten_ipv6Port {s : Text} (hsolid : Solid ('[' :: s ++ ']' :: ':' :: digits))
    (hloose : ¬Loose defaultPort ('[' :: s ++ ']' :: ':' :: digits)) (hne : s ≠ []) (hs : ']' ∉ s)
    (hdigits : parseUnsigned 65535 digits = some port.toNat)
    (hport : defaultPort ≠ none ∨ port ≠ 0) :
    IsWritten ('[' :: s ++ ']' :: ':' :: digits) (.ipv6 s) (some port) := by
  have hstrict := mt (Loose.ipv6Port hne hs hdigits hport) hloose
  rw [not_or] at hstrict
  obtain ⟨hsign, hslash⟩ := hstrict
  have hwritten : (Host.ipv6 s).render ++ ':' :: digits = '[' :: s ++ ']' :: ':' :: digits := by
    rw [Host.render, List.append_assoc]
    rfl
  have hvalid : (Host.ipv6 s).Valid :=
    ⟨hne, hs, hslash, (List.forall_mem_cons.1 (solid_append.1 hsolid).1).2⟩
  rw [← hwritten]
  exact .port hvalid (isPort_of_parseUnsigned hdigits hsign)

/-- What is accepted, and is not of these forms, is written by the grammar. -/
theorem isWritten_of_not_loose (ha : Solid a ∧ (defaultPort ≠ none → '/' ∉ a))
    (hloose : ¬Loose defaultPort a) (h : Reads defaultPort a text port) :
    ∃ host written, IsWritten a host written ∧ host.text = text ∧
      written.or defaultPort = some port := by
  obtain ⟨hsolid, hslash⟩ := ha
  cases defaultPort with
  | none =>
    cases h with
    | namePort hne hhead hdigits =>
      exact ⟨_, _, isWritten_namePort hsolid hloose hne hhead hdigits, rfl, rfl⟩
    | ipv6Port hne hs hdigits hport =>
      exact ⟨_, _, isWritten_ipv6Port hsolid hloose hne hs hdigits (.inr hport), rfl, rfl⟩
  | some defaultPort =>
    have hsome : some defaultPort ≠ none := Option.some_ne_none _
    have hno := hslash hsome
    cases h with
    | name hne hhead hcolon =>
      have hvalid : (Host.name a).Valid := ⟨hne, hcolon, hno, hsolid, hhead⟩
      exact ⟨_, none, .bare hvalid, rfl, rfl⟩
    | namePort hne hhead hdigits =>
      exact ⟨_, _, isWritten_namePort hsolid hloose hne hhead hdigits, rfl, rfl⟩
    | @ipv6 _ rest hne hs hrest =>
      -- Nothing stands after the brackets.
      obtain rfl : rest = [] := by
        by_contra hrest'
        exact hloose (.ipv6 hne hs hsome hrest' hrest)
      have hvalid : (Host.ipv6 text).Valid := by
        refine ⟨hne, hs, fun hmem => hno ?_,
          (List.forall_mem_cons.1 (solid_append.1 hsolid).1).2⟩
        exact List.mem_append_left _ (List.mem_cons_of_mem _ hmem)
      exact ⟨_, none, .bare hvalid, rfl, rfl⟩
    | ipv6Port hne hs hdigits =>
      exact ⟨_, _, isWritten_ipv6Port hsolid hloose hne hs hdigits (.inl hsome), rfl, rfl⟩

/-- What is written is a host, and what follows it. -/
theorem IsWritten.exists_rest {host : Host} {written : Option UInt16}
    (h : IsWritten a host written) : host.Valid ∧ ∃ rest, a = host.render ++ rest ∧
      (rest = [] ∨ ∃ digits port, rest = ':' :: digits ∧ IsPort digits port) := by
  cases h with
  | bare hvalid => exact ⟨hvalid, [], (List.append_nil _).symm, .inl rfl⟩
  | port hvalid hport => exact ⟨hvalid, _, rfl, .inr ⟨_, _, rfl, hport⟩⟩

/-- What does not start with a bracket is written with a name. -/
theorem IsWritten.of_head?_ne {host : Host} {written : Option UInt16}
    (h : IsWritten a host written) (hhead : a.head? ≠ some '[') : ∃ s, host = .name s := by
  cases host with
  | name s => exact ⟨s, rfl⟩
  | ipv6 s =>
    obtain ⟨-, rest, rfl, -⟩ := h.exists_rest
    exact absurd rfl hhead

/-- What starts with a bracket is written with an address, up to the first closing one. -/
theorem IsWritten.of_ipv6 {s rest : Text} {host : Host} {written : Option UInt16}
    (h : IsWritten ('[' :: s ++ ']' :: rest) host written) (hs : ']' ∉ s) :
    '/' ∉ s ∧ (rest = [] ∨ ∃ digits port, rest = ':' :: digits ∧ IsPort digits port) := by
  obtain ⟨hvalid, rest', heq, hrest'⟩ := h.exists_rest
  cases host with
  | name s' =>
    have hhead := head?_append_ne hvalid.1 hvalid.2.2.2.2 rest'
    exact absurd (heq ▸ rfl) hhead
  | ipv6 s' =>
    rw [Host.render, List.append_assoc] at heq
    obtain ⟨rfl, rfl⟩ := ipv6_inj hs hvalid.2.1 heq
    exact ⟨hvalid.2.2.1, hrest'⟩

/-- What is written by the grammar is not of these forms. -/
theorem IsWritten.not_loose {host : Host} {written : Option UInt16}
    (h : IsWritten a host written) : ¬Loose defaultPort a := by
  intro hloose
  cases hloose with
  | @namePort s digits _ hne hhead hdigits hwrong =>
    obtain ⟨s', rfl⟩ := h.of_head?_ne (head?_append_ne hne hhead _)
    obtain ⟨hvalid, rest, heq, rfl | ⟨digits', _, rfl, hport⟩⟩ := h.exists_rest
    · -- A name without a port has no colon.
      rw [List.append_nil, Host.render] at heq
      exact hvalid.2.1 (heq ▸ List.mem_append_right _ List.mem_cons_self)
    · obtain ⟨rfl, rfl⟩ := namePort_inj (colon_notMem_of_parseUnsigned hdigits)
        (hport.notMem (by decide)) heq
      rcases hwrong with hsign | hcolon | hslash
      · exact hport.notMem (by decide) (List.mem_of_head? hsign)
      · exact hvalid.2.1 hcolon
      · exact hvalid.2.2.1 hslash
  | ipv6Port _ hs _ _ hwrong =>
    obtain ⟨hslash, hrest⟩ := h.of_ipv6 hs
    obtain ⟨digits', _, heq, hport⟩ := hrest.resolve_left (List.cons_ne_nil _ _)
    obtain rfl := (List.cons.inj heq).2
    rcases hwrong with hsign | hmem
    · exact hport.notMem (by decide) (List.mem_of_head? hsign)
    · exact hslash hmem
  | ipv6 _ hs _ hne hhead =>
    obtain ⟨_, _, rfl, -⟩ := (h.of_ipv6 hs).2.resolve_left hne
    exact hhead rfl

/-- Every line is accepted only by the grammar exactly if its authorities are not of these
    forms: a sign before the digits of a port, a name that is no host, or text after the
    brackets of an address. The line may be one of CONNECT or one with a URL. -/
theorem onlyByGrammar_iff (line : Text) : OnlyByGrammar line ↔
    ∀ defaultPort a, HasAuthority line defaultPort a → ¬Loose defaultPort a := by
  constructor
  · intro h defaultPort a ha hloose
    obtain ⟨text, port, hreads⟩ := hloose.reads
    obtain ⟨_, _, hwritten, -⟩ := h _ _ _ _ (accepts_iff.2 ⟨ha, hreads⟩)
    exact hwritten.not_loose hloose
  · intro h defaultPort a text port haccepts
    obtain ⟨ha, hreads⟩ := accepts_iff.1 haccepts
    exact isWritten_of_not_loose ha.solid (h _ _ ha) hreads

/-- A URL with other text after an address in brackets. -/
def looseLine : Text := "GET http://[::1]x/ HTTP/1.1".toList

/-- It is accepted, though it is not written by the grammar. -/
theorem not_onlyByGrammar_loose : ¬∀ line, OnlyByGrammar line := by
  intro h
  have haccepts : Accepts looseLine (some 80) "[::1]x".toList "::1".toList 80 :=
    @Accepts.url looseLine "GET".toList "http://[::1]x/".toList "[::1]x/".toList
      ["HTTP/1.1".toList] 80 ⟨"GET".toList, "::1".toList, 80, "/".toList⟩ rfl rfl rfl
  obtain ⟨_, _, hwritten, -⟩ := h _ _ _ _ _ haccepts
  have hloose : Loose (some 80) "[::1]x".toList :=
    @Loose.ipv6 _ "::1".toList "x".toList (by decide) (by decide) (by decide) (by decide)
      (by decide)
  exact hwritten.not_loose hloose

/-! ## Both parsers -/

/-- The parsers of CONNECT and of URLs read the authority the same way. -/
def ReadAlike (a : Text) : Prop :=
  ∀ host port, parseConnect ("CONNECT ".toList ++ a ++ " HTTP/1.1".toList) = .ok (host, port) ↔
    parseHttpRequest ("GET http://".toList ++ a ++ "/ HTTP/1.1".toList) =
      .ok ⟨"GET".toList, host, port, "/".toList⟩

/-- An address in brackets, with other text after it than a port that is not zero. -/
def OddIpv6 (a : Text) : Prop :=
  ∃ s rest, a = '[' :: s ++ ']' :: rest ∧ s ≠ [] ∧ ']' ∉ s ∧
    (rest.head? ≠ some ':' ∨ ∃ digits, rest = ':' :: digits ∧ IsPort digits 0)

/-- The authority in a line of the usual form of a CONNECT. -/
theorem parseConnect_line (hsolid : Solid a) (hne : a ≠ []) :
    parseConnect ("CONNECT ".toList ++ a ++ " HTTP/1.1".toList) = .ok (text, port) ↔
      ReadsConnect a text port := by
  have hmethod : "CONNECT".toList ≠ [] ∧ Solid "CONNECT".toList := by decide
  have hwords : splitWhitespace ("CONNECT ".toList ++ a ++ " HTTP/1.1".toList) =
      ["CONNECT".toList, a, "HTTP/1.1".toList] :=
    splitWhitespace_line hmethod.1 hmethod.2 hne hsolid
  have hconnect : eqIgnoreAsciiCase "CONNECT".toList "CONNECT".toList = true := by decide
  rw [parseConnect_eq_ok hwords, and_iff_right hconnect]

/-- The authority in a line of the usual form of a plain request. -/
theorem parseHttpRequest_line (hsolid : Solid a) (hslash : '/' ∉ a) :
    parseHttpRequest ("GET http://".toList ++ a ++ "/ HTTP/1.1".toList) =
      .ok ⟨"GET".toList, text, port, "/".toList⟩ ↔ ReadsAuthority 80 a text port := by
  have hmethod : "GET".toList ≠ [] ∧ Solid "GET".toList := by decide
  have hscheme : Solid "http://".toList := by decide
  have hend : Solid "/".toList := by decide
  have hline : "GET http://".toList ++ a ++ "/ HTTP/1.1".toList =
      "GET".toList ++ " ".toList ++ (Scheme.http.text ++ (a ++ "/".toList)) ++
        " HTTP/1.1".toList := by
    have hstart : "GET http://".toList = "GET".toList ++ " ".toList ++ Scheme.http.text := by decide
    have hrest : "/ HTTP/1.1".toList = "/".toList ++ " HTTP/1.1".toList := by decide
    simp only [hstart, hrest, List.append_assoc]
  have hurl : Scheme.http.text ++ (a ++ "/".toList) ≠ [] := by simp
  -- The line has three words, and the second of them is cut at the slash that follows the
  -- authority.
  have hwords := splitWhitespace_line hmethod.1 hmethod.2 hurl
    (solid_append.2 ⟨hscheme, solid_append.2 ⟨hsolid, hend⟩⟩)
  have hbefore : ∀ c ∈ a, decide (c ≠ '/') = true := fun c hc =>
    decide_eq_true fun heq => hslash (heq ▸ hc)
  have htake : (a ++ "/".toList).takeWhile (· ≠ '/') = a :=
    (List.takeWhile_append_of_pos hbefore).trans (List.append_nil _)
  have hpath : slashPath (a ++ "/".toList) = "/".toList := by
    rw [slashPath, List.dropWhile_append_of_pos hbefore]
    rfl
  rw [hline, parseHttpRequest_eq_ok hwords (stripScheme_text _ _), htake, hpath,
    ← parseUrlAuthority_eq_ok]
  constructor
  · rintro ⟨host, port', hparse, hne, heq⟩
    obtain ⟨-, rfl, rfl, -⟩ := HttpRequest.mk.inj heq
    exact ⟨hparse, hne⟩
  · intro h
    exact ⟨_, _, h.1, h.2, rfl⟩

/-- An address in brackets has a port that is not zero, and nothing else after it. -/
theorem ReadsConnect.of_ipv6 {s rest : Text} (hs : ']' ∉ s)
    (h : ReadsConnect ('[' :: s ++ ']' :: rest) text port) : ∃ digits, rest = ':' :: digits ∧
      parseUnsigned 65535 digits = some port.toNat ∧ port ≠ 0 := by
  generalize heq : '[' :: s ++ ']' :: rest = t at h
  cases h with
  | namePort hne hhead => exact absurd (congrArg List.head? heq).symm (head?_append_ne hne hhead _)
  | ipv6Port _ hs' hdigits hport =>
    obtain ⟨-, rfl⟩ := ipv6_inj hs hs' heq
    exact ⟨_, rfl, hdigits, hport⟩

/-- The parsers read an authority that ends in a port the same way exactly if it is not an
    address in brackets with other text after it than a port that is not zero. -/
theorem readAlike_iff {s : Text} {written : UInt16} (hsolid : Solid a) (hslash : '/' ∉ a)
    (ha : a = s ++ ':' :: digits) (hport : IsPort digits written) :
    ReadAlike a ↔ ¬OddIpv6 a := by
  have hnil : a ≠ [] := ha ▸ List.append_ne_nil_of_right_ne_nil _ (List.cons_ne_nil _ _)
  simp only [ReadAlike, parseConnect_line hsolid hnil, parseHttpRequest_line hsolid hslash]
  constructor
  · rintro h ⟨t, rest, rfl, hne, ht, hhead | ⟨zero, rfl, hzero⟩⟩
    · -- The URL has the default port, whatever stands after the brackets.
      obtain ⟨_, rfl, -⟩ := ((h _ _).2 (.ipv6 hne ht hhead)).of_ipv6 ht
      exact hhead rfl
    · obtain ⟨_, -, -, hport⟩ := ((h _ _).2 (.ipv6Port hne ht hzero.parseUnsigned)).of_ipv6 ht
      exact hport rfl
  · intro hodd host port
    refine ⟨fun h => h.readsAuthority 80, fun h => ?_⟩
    cases h with
    | name _ _ hcolon => exact absurd (ha ▸ List.mem_append_right _ List.mem_cons_self) hcolon
    | namePort hne hhead hdigits => exact .namePort hne hhead hdigits
    | ipv6 hne ht hhead => exact absurd ⟨_, _, rfl, hne, ht, .inl hhead⟩ hodd
    | @ipv6Port _ digits' _ hne ht hdigits =>
      refine .ipv6Port hne ht hdigits fun hzero => hodd ⟨_, _, rfl, hne, ht, .inr ⟨_, rfl, ?_⟩⟩
      -- The port is that which the authority ends in.
      have heq : ('[' :: host ++ [']']) ++ ':' :: digits' = s ++ ':' :: digits := by
        rw [← ha, List.append_assoc]
        rfl
      obtain ⟨-, rfl⟩ := namePort_inj (colon_notMem_of_parseUnsigned hdigits)
        (hport.notMem (by decide)) heq
      obtain rfl : written = port :=
        UInt16.toNat_inj.1 (Option.some.inj (hport.parseUnsigned.symm.trans hdigits))
      exact hzero ▸ hport

/-- An address with a port is read alike. -/
theorem readAlike_address : ReadAlike "[::1]:443".toList := by
  have hport : IsPort "443".toList 443 :=
    ⟨by decide, forall_mem_of_all (by decide), by decide⟩
  refine (@readAlike_iff _ _ "[::1]".toList 443 (by decide) (by decide) (by decide) hport).2 ?_
  rintro ⟨s, rest, heq, -, hs, hrest⟩
  have hcut : '[' :: "::1".toList ++ ']' :: ":443".toList = '[' :: s ++ ']' :: rest := heq
  obtain ⟨-, rfl⟩ := ipv6_inj (by decide) hs hcut
  rcases hrest with hhead | ⟨digits, hdigits, -, -, hzero⟩
  · exact hhead (by decide)
  · obtain rfl : "443".toList = digits := (List.cons.inj hdigits).2
    exact absurd hzero (by decide)

/-- An address with port zero is read in a URL only. -/
theorem not_readAlike_zero : ¬∀ a s digits : Text, ∀ port, Solid a → '/' ∉ a →
    a = s ++ ':' :: digits → IsPort digits port → ReadAlike a := by
  intro h
  have hport : IsPort "0".toList 0 :=
    ⟨by decide, forall_mem_of_all (by decide), by decide⟩
  have halike := h "[::1]:0".toList "[::1]".toList "0".toList 0 (by decide) (by decide) (by decide)
    hport
  have hconnect := (halike "::1".toList 0).2 rfl
  rw [parseConnect_line (by decide) (by decide)] at hconnect
  have hreads : ReadsConnect ('[' :: "::1".toList ++ ']' :: ":0".toList) "::1".toList 0 := hconnect
  obtain ⟨_, -, -, hzero⟩ := hreads.of_ipv6 (by decide)
  exact hzero rfl

end Houdinny.Proxy
