import Houdinny.Proxy.Authority

/-!
# Request targets

What the parsers make of the targets that clients write. A target in absolute form has
a scheme, a host (`Host`), an optional port and a path (`Target`), and the parsers give
back exactly these parts (`parse_target`), for names and for IPv6 addresses in brackets.

So here the text is made from its parts, while `Proxy.Authority` starts from a text. What must
be asked of the parts is that they can be told from what stands around them
(`Host.Valid`): a name has no colon, slash or white space, and an address no closing bracket.
-/

namespace Houdinny.Proxy

open Text

/-- A host, as it is written in an authority. -/
inductive Host
  | name (s : Text)
  | ipv6 (s : Text)
  deriving DecidableEq

namespace Host

/-- The host itself. -/
def text : Host → Text
  | name s | ipv6 s => s

/-- What is written: an IPv6 address stands in brackets. -/
def render : Host → Text
  | name s => s
  | ipv6 s => '[' :: s ++ [']']

/-- The host can be told from what stands around it. -/
def Valid : Host → Prop
  | name s => s ≠ [] ∧ ':' ∉ s ∧ '/' ∉ s ∧ Solid s ∧ s.head? ≠ some '['
  | ipv6 s => s ≠ [] ∧ ']' ∉ s ∧ '/' ∉ s ∧ Solid s

end Host

/-- The schemes that the proxy knows. -/
inductive Scheme
  | http
  | https
  deriving DecidableEq

namespace Scheme

/-- The scheme, with what separates it from the authority. -/
def text : Scheme → Text
  | http => "http://".toList
  | https => "https://".toList

/-- The port of a scheme, where none is given. -/
def defaultPort : Scheme → UInt16
  | http => 80
  | https => 443

end Scheme

/-- A host and a port, as they are written in an authority. -/
def authority (host : Host) : Option UInt16 → Text
  | none => host.render
  | some port => host.render ++ ":".toList ++ ofNat port.toNat

/-- A request line in absolute form, in its parts. -/
structure Target where
  method : Text
  scheme : Scheme
  host : Host
  port : Option UInt16
  path : Text
  method_ne : method ≠ []
  method_solid : Solid method
  host_valid : host.Valid
  path_head : path.head? = some '/'
  path_solid : Solid path

namespace Target

/-- The request line. -/
def line (t : Target) : Text :=
  t.method ++ " ".toList ++ (t.scheme.text ++ (authority t.host t.port ++ t.path)) ++
    " HTTP/1.1".toList

/-- The parts that the parser is to find. -/
def request (t : Target) : HttpRequest where
  method := t.method
  host := t.host.text
  port := t.port.getD t.scheme.defaultPort
  path := t.path

end Target

/-- The line that asks for a tunnel. -/
def connectLine (host : Host) (port : UInt16) : Text :=
  "CONNECT ".toList ++ authority host (some port) ++ " HTTP/1.1".toList

variable {host : Host} {port : UInt16}

/-! ## Authorities -/

/-- An address with a port stands in brackets. -/
theorem authority_ipv6 (s : Text) (port : UInt16) :
    authority (.ipv6 s) (some port) = '[' :: s ++ ']' :: ':' :: ofNat port.toNat := by
  rw [authority, Host.render, List.append_assoc, List.append_assoc]
  rfl

/-- The host and the port in the authority of a URL are found. -/
theorem readsAuthority_authority (h : host.Valid) (port : Option UInt16) (defaultPort : UInt16) :
    ReadsAuthority defaultPort (authority host port) host.text (port.getD defaultPort) := by
  have hdigits (port : UInt16) : parseUnsigned 65535 (ofNat port.toNat) = some port.toNat :=
    parseUnsigned_ofNat (Nat.le_of_lt_succ port.toNat_lt)
  cases host with
  | name s =>
    obtain ⟨hne, hcolon, -, -, hhead⟩ := h
    cases port with
    | none => exact .name hne hhead hcolon
    | some port =>
      rw [authority, List.append_assoc]
      exact .namePort hne hhead (hdigits port)
  | ipv6 s =>
    obtain ⟨hne, hbracket, -, -⟩ := h
    cases port with
    | none => exact .ipv6 hne hbracket (by simp)
    | some port =>
      rw [authority_ipv6]
      exact .ipv6Port hne hbracket (hdigits port)

/-- So are those in the authority of a CONNECT, whose port is not zero. -/
theorem parseHostPort_authority (h : host.Valid) (hport : port ≠ 0) :
    parseHostPort (authority host (some port)) = .ok (host.text, port) := by
  have hdigits := parseUnsigned_ofNat (Nat.le_of_lt_succ port.toNat_lt)
  rw [parseHostPort_eq_ok]
  cases host with
  | name s =>
    obtain ⟨hne, -, -, -, hhead⟩ := h
    rw [authority, List.append_assoc]
    exact .namePort hne hhead hdigits
  | ipv6 s =>
    obtain ⟨hne, hbracket, -, -⟩ := h
    rw [authority_ipv6]
    exact .ipv6Port hne hbracket hdigits hport

/-! ## Request lines -/

/-- Digits are no white space. -/
theorem solid_ofNat (n : ℕ) : Solid (ofNat n) := by
  intro c hc
  have hdigit := isDigit_of_mem_ofNat hc
  have hle : c.toNat ≤ 57 :=
    UInt32.le_iff_toNat_le.1 (of_decide_eq_true (Bool.and_eq_true_iff.1 hdigit).2)
  have hall : ∀ n < 128, (Char.ofNat n).isDigit = true → isWhitespace (Char.ofNat n) = false := by
    decide
  exact forall_ascii (p := fun c => c.isDigit = true → isWhitespace c = false) hall (by omega)
    hdigit

/-- An authority is a word without a slash. -/
theorem authority_solid (h : host.Valid) (port : Option UInt16) :
    Solid (authority host port) ∧ '/' ∉ authority host port ∧ authority host port ≠ [] := by
  have hhost : Solid host.render ∧ '/' ∉ host.render ∧ host.render ≠ [] := by
    cases host with
    | name s => exact ⟨h.2.2.2.1, h.2.2.1, h.1⟩
    | ipv6 s =>
      obtain ⟨-, -, hslash, hsolid⟩ := h
      have hclose : '/' ∉ [']'] := by decide
      refine ⟨solid_append.2 ⟨List.forall_mem_cons.2 ⟨by decide, hsolid⟩, by decide⟩, ?_,
        List.cons_ne_nil _ _⟩
      rw [Host.render, List.mem_append, List.mem_cons, not_or, not_or]
      exact ⟨⟨by decide, hslash⟩, hclose⟩
  cases port with
  | none => exact hhost
  | some port =>
    have hcolon : '/' ∉ ":".toList := by decide
    have hdigits : '/' ∉ ofNat port.toNat := notMem_ofNat (by decide) _
    rw [authority, List.append_assoc]
    refine ⟨solid_append.2 ⟨hhost.1, solid_append.2 ⟨by decide, solid_ofNat _⟩⟩, ?_,
      List.append_ne_nil_of_left_ne_nil hhost.2.2 _⟩
    rw [List.mem_append, List.mem_append, not_or, not_or]
    exact ⟨hhost.2.1, hcolon, hdigits⟩

/-- Three words between spaces. -/
theorem splitWhitespace_line {method url : Text} (hm : method ≠ []) (hmethod : Solid method)
    (hu : url ≠ []) (hurl : Solid url) :
    splitWhitespace (method ++ " ".toList ++ url ++ " HTTP/1.1".toList) =
      [method, url, "HTTP/1.1".toList] := by
  have hspace : isWhitespace ' ' = true := rfl
  have hwords : method ++ " ".toList ++ url ++ " HTTP/1.1".toList =
      method ++ ' ' :: (url ++ ' ' :: "HTTP/1.1".toList) := by
    rw [List.append_assoc, List.append_assoc]
    rfl
  rw [hwords, splitWhitespace_append_cons hm hmethod hspace,
    splitWhitespace_append_cons hu hurl hspace]
  rfl

/-- A URL that starts so is one of this scheme, -/
theorem stripScheme_https {url rest : Text} (h : url.dropPrefix? "https://".toList = some rest) :
    stripScheme url = .ok (rest, 443) := by
  rw [stripScheme, h]

/-- and so is one of the other. -/
theorem stripScheme_http {url rest : Text} (hother : url.dropPrefix? "https://".toList = none)
    (h : url.dropPrefix? "http://".toList = some rest) : stripScheme url = .ok (rest, 80) := by
  rw [stripScheme, hother]
  dsimp only
  rw [h]

/-- The scheme is cut off. -/
theorem stripScheme_text (scheme : Scheme) (rest : Text) :
    stripScheme (scheme.text ++ rest) = .ok (rest, scheme.defaultPort) := by
  cases scheme with
  | https => exact stripScheme_https (dropPrefix?_append _ _)
  | http =>
    refine stripScheme_http ?_ (dropPrefix?_append _ _)
    have hhttp : Scheme.http.text = ['h', 't', 't', 'p', ':', '/', '/'] := by decide
    have hhttps : "https://".toList = ['h', 't', 't', 'p', 's', ':', '/', '/'] := by decide
    rw [hhttp, hhttps]
    simp [List.dropPrefix?]

/-- The parsers find the parts that a request line was put together of: the method, the host
    without its brackets, the port or the default of the scheme, and the path; and, in a line
    that asks for a tunnel, the host and the port. -/
theorem parse_target (t : Target) : parseHttpRequest t.line = .ok t.request ∧
    ∀ port : UInt16, 1 ≤ port →
      parseConnect (connectLine t.host port) = .ok (t.host.text, port) := by
  constructor
  · obtain ⟨hsolid, hslash, hne⟩ := authority_solid t.host_valid t.port
    have hscheme : Solid t.scheme.text := by
      cases t.scheme <;> decide
    have hurl : t.scheme.text ++ (authority t.host t.port ++ t.path) ≠ [] := by simp [hne]
    have hwords := splitWhitespace_line t.method_ne t.method_solid hurl
      (solid_append.2 ⟨hscheme, solid_append.2 ⟨hsolid, t.path_solid⟩⟩)
    -- The path starts at the first slash.
    obtain ⟨rest, hpath⟩ : ∃ rest, t.path = '/' :: rest := List.head?_eq_some_iff.1 t.path_head
    have hbefore : ∀ c ∈ authority t.host t.port, decide (c ≠ '/') = true := fun c hc =>
      decide_eq_true fun heq => hslash (heq ▸ hc)
    have htake : (authority t.host t.port ++ t.path).takeWhile (· ≠ '/') =
        authority t.host t.port := by
      rw [List.takeWhile_append_of_pos hbefore, hpath]
      exact List.append_nil _
    have hdrop : slashPath (authority t.host t.port ++ t.path) = t.path := by
      rw [slashPath, List.dropWhile_append_of_pos hbefore, hpath]
      rfl
    rw [Target.line, parseHttpRequest_eq_ok hwords (stripScheme_text _ _), htake, hdrop]
    obtain ⟨hparse, hhost⟩ :=
      parseUrlAuthority_eq_ok.2 (readsAuthority_authority t.host_valid t.port t.scheme.defaultPort)
    exact ⟨_, _, hparse, hhost, rfl⟩
  · intro port hport
    obtain ⟨hsolid, -, hne⟩ := authority_solid t.host_valid (some port)
    have hmethod : "CONNECT".toList ≠ [] ∧ Solid "CONNECT".toList := by decide
    have hwords := splitWhitespace_line hmethod.1 hmethod.2 hne hsolid
    have hline : connectLine t.host port = "CONNECT".toList ++ " ".toList ++
        authority t.host (some port) ++ " HTTP/1.1".toList := rfl
    have hzero : port ≠ 0 := fun h => by
      rw [h] at hport
      exact absurd hport (by decide)
    rw [parseConnect, hline, hwords]
    exact (if_pos rfl).trans (parseHostPort_authority t.host_valid hzero)

/-- `GET http://[::1]:8080/a:b HTTP/1.1`. -/
def sampleTarget : Target where
  method := "GET".toList
  scheme := .http
  host := .ipv6 "::1".toList
  port := some 8080
  path := "/a:b".toList
  method_ne := by decide
  method_solid := by decide
  host_valid := by rw [Host.Valid]; decide
  path_head := by decide
  path_solid := by decide

/-- Its parts are found, in this line and in one for a tunnel. -/
theorem parse_sampleTarget : parseHttpRequest sampleTarget.line = .ok sampleTarget.request ∧
    parseConnect (connectLine sampleTarget.host 443) = .ok (sampleTarget.host.text, 443) :=
  ⟨(parse_target sampleTarget).1, (parse_target sampleTarget).2 443 (by decide)⟩

end Houdinny.Proxy
