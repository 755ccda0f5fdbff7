import Houdinny.Lib.Program
import Houdinny.Proxy.Authority
import Houdinny.Proxy.Upstream
import Houdinny.Transport.Reply

/-!
# Injection

An agent chooses the host and the path of its request, and both go into heads that are
written to someone else: the transport names the host twice in its CONNECT request to an
upstream proxy, and the handler of a plain request writes the path into the request line
that the server gets. A line break in either would let the agent write header lines of its
own.

There is none. What a parser returns is a part of a word of the request line, words are
without white space (`Solid`), and all line breaks are white space. So the one block that
the transport writes has the lines that it is to have (`requestLines`) and no others, and
the first block that the handler writes is one line, of three words (`no_injection`). Both
are said of what `connect` and `handle_plain_http` write, for any network and any
environment, and not of a text that is built as they build it.
-/

namespace Houdinny.Proxy

open Text Stream Program

variable {line host : Text} {port : UInt16}

/-! ## Parts of words -/

/-- A host that is read is a part of its text. -/
theorem ReadsAuthority.subset {defaultPort : UInt16} {t : Text}
    (h : ReadsAuthority defaultPort t host port) : host ⊆ t := by
  cases h <;> simp

/-- So it is in the authority of a URL, -/
theorem subset_of_parseUrlAuthority {defaultPort : UInt16} {t : Text}
    (h : parseUrlAuthority t defaultPort = .ok (host, port)) : host ⊆ t := by
  by_cases hne : host = []
  · exact hne ▸ List.nil_subset t
  · exact (parseUrlAuthority_eq_ok.1 ⟨h, hne⟩).subset

/-- and in that of a CONNECT. -/
theorem subset_of_parseHostPort {t : Text} (h : parseHostPort t = .ok (host, port)) : host ⊆ t :=
  ((parseHostPort_eq_ok.1 h).readsAuthority 0).subset

/-- A URL ends with what stands after its scheme. -/
theorem subset_of_stripScheme {url s : Text} {defaultPort : UInt16}
    (h : stripScheme url = .ok (s, defaultPort)) : s ⊆ url := by
  rw [stripScheme] at h
  split at h
  · next rest hrest =>
    obtain ⟨rfl, -⟩ : rest = s ∧ 443 = defaultPort := by simpa using h
    rw [eq_append_of_dropPrefix? hrest]
    exact List.subset_append_right _ _
  · split at h
    · next rest hrest =>
      obtain ⟨rfl, -⟩ : rest = s ∧ 80 = defaultPort := by simpa using h
      rw [eq_append_of_dropPrefix? hrest]
      exact List.subset_append_right _ _
    · exact absurd h (by simp)

/-- A part of a word is without white space. -/
theorem solid_of_subset {s t : Text} (h : Solid t) (hs : s ⊆ t) : Solid s :=
  fun c hc => h c (hs hc)

/-- The host of a CONNECT is without white space. -/
theorem solid_of_parseConnect (h : parseConnect line = .ok (host, port)) : Solid host := by
  rw [parseConnect] at h
  split at h
  · next method authority words hwords =>
    have hmem : authority ∈ splitWhitespace line := by simp [hwords]
    split_ifs at h
    exact solid_of_subset (solid_of_mem_splitWhitespace hmem).2 (subset_of_parseHostPort h)
  · exact absurd h (by simp)

/-- So are the parts of a request line in absolute form, and none of them is empty. -/
theorem solid_of_parseHttpRequest {req : HttpRequest} (h : parseHttpRequest line = .ok req) :
    (req.method ≠ [] ∧ Solid req.method) ∧ Solid req.host ∧ req.path ≠ [] ∧ Solid req.path := by
  rcases hwords : splitWhitespace line with _ | ⟨method, _ | ⟨url, words⟩⟩
  · rw [parseHttpRequest, hwords] at h
    exact absurd h (by simp)
  · rw [parseHttpRequest, hwords] at h
    exact absurd h (by simp)
  · have hmethod : method ∈ splitWhitespace line := by simp [hwords]
    have hurl : url ∈ splitWhitespace line := by simp [hwords]
    rcases hscheme : stripScheme url with e | ⟨s, defaultPort⟩
    · rw [parseHttpRequest, hwords] at h
      dsimp only at h
      rw [hscheme] at h
      exact absurd h (by rintro ⟨⟩)
    · have hs : Solid s :=
        solid_of_subset (solid_of_mem_splitWhitespace hurl).2 (subset_of_stripScheme hscheme)
      -- The host and the path are parts of the second word, so they have no white space.
      obtain ⟨host, port, hparse, -, rfl⟩ := (parseHttpRequest_eq_ok hwords hscheme).1 h
      refine ⟨solid_of_mem_splitWhitespace hmethod, ?_, ?_⟩
      · exact solid_of_subset hs fun c hc =>
          List.takeWhile_subset _ (subset_of_parseUrlAuthority hparse hc)
      · change slashPath s ≠ [] ∧ Solid (slashPath s)
        rw [slashPath]
        split_ifs with hempty
        · exact ⟨by decide, by decide⟩
        · exact ⟨by simpa using hempty, solid_of_subset hs (List.dropWhile_subset _)⟩

/-! ## Heads -/

/-- No line break, as bytes. -/
def Unbroken (bs : Bytes) : Prop := 13 ∉ bs ∧ 10 ∉ bs

instance (bs : Bytes) : Decidable (Unbroken bs) := inferInstanceAs (Decidable (13 ∉ bs ∧ 10 ∉ bs))

/-- The bytes of a text have a line break where the text has one. -/
theorem unbroken_encodeUtf8 {s : Text} : Unbroken (encodeUtf8 s) ↔ '\r' ∉ s ∧ '\n' ∉ s :=
  and_congr (not_congr (mem_encodeUtf8 (c := '\r') (by decide)))
    (not_congr (mem_encodeUtf8 (c := '\n') (by decide)))

/-- No line break comes in between two texts. -/
theorem unbroken_append {s t : Text} (hs : Unbroken (encodeUtf8 s)) (ht : Unbroken (encodeUtf8 t)) :
    Unbroken (encodeUtf8 (s ++ t)) := by
  rw [unbroken_encodeUtf8] at hs ht ⊢
  simp [hs, ht]

/-- Line breaks are white space. -/
theorem unbroken_of_solid {s : Text} (h : Solid s) : Unbroken (encodeUtf8 s) :=
  unbroken_encodeUtf8.2 ⟨fun hmem => absurd (h _ hmem) (by decide),
    fun hmem => absurd (h _ hmem) (by decide)⟩

/-- No number has a line break. -/
theorem unbroken_ofNat (n : ℕ) : Unbroken (encodeUtf8 (ofNat n)) :=
  unbroken_encodeUtf8.2 ⟨notMem_ofNat (by decide) n, notMem_ofNat (by decide) n⟩

/-- A character of the standard alphabet of Base64, or its padding. -/
def IsBase64 (c : Char) : Prop := c.isAlphanum ∨ c = '+' ∨ c = '/' ∨ c = '='

instance (c : Char) : Decidable (IsBase64 c) :=
  inferInstanceAs (Decidable (c.isAlphanum ∨ c = '+' ∨ c = '/' ∨ c = '='))

/-- Nor have encoded credentials. -/
theorem unbroken_of_isBase64 {s : Text} (h : ∀ c ∈ s, IsBase64 c) : Unbroken (encodeUtf8 s) :=
  unbroken_encodeUtf8.2 ⟨fun hmem => absurd (h _ hmem) (by decide),
    fun hmem => absurd (h _ hmem) (by decide)⟩

/-- The parser of either kind of request line finds the host and the port. -/
def Finds (line host : Text) (port : UInt16) : Prop :=
  parseConnect line = .ok (host, port) ∨
    ∃ req, parseHttpRequest line = .ok req ∧ req.host = host ∧ req.port = port

/-- The host and the port, as they stand in both lines of the head. -/
def hostPort (host : Text) (port : UInt16) : Text := host ++ ":".toList ++ ofNat port.toNat

/-- The lines that the transport is to send: those of the request and of the host, one with
    the credentials, if there are any, and none besides. -/
def requestLines (base64 : Text → Text) (t : HttpProxyTransport) (host : Text) (port : UInt16) :
    List Text :=
  ("CONNECT ".toList ++ hostPort host port ++ " HTTP/1.1".toList) ::
    ("Host: ".toList ++ hostPort host port) ::
    match t.auth with
    | some (user, pass) =>
      ["Proxy-Authorization: Basic ".toList ++ base64 (user ++ ":".toList ++ pass)]
    | none => []

/-- The lines of a head that have no line break in them are found again, with the two empty
    ones that end it. -/
theorem splitPair_lines {ls : List Text} (h : ∀ l ∈ ls, Unbroken (encodeUtf8 l)) :
    splitPair 13 10 (encodeUtf8 ((ls.map (· ++ "\r\n".toList)).flatten ++ "\r\n".toList)) =
      ls.map encodeUtf8 ++ [[], []] := by
  induction ls with
  | nil => decide
  | cons l ls ih =>
    rw [List.forall_mem_cons] at h
    rw [List.map_cons, List.flatten_cons, List.append_assoc, List.append_assoc, encodeUtf8_append,
      encodeUtf8_append]
    exact (splitPair_append h.1.1 10 _).trans (congrArg _ (ih h.2))

/-- The request is made of these lines. -/
theorem connectRequest_eq (base64 : Text → Text) (t : HttpProxyTransport) (host : Text)
    (port : UInt16) : t.connectRequest base64 host port =
      ((requestLines base64 t host port).map (· ++ "\r\n".toList)).flatten ++ "\r\n".toList := by
  -- The text between the two places of the host has a line break in it.
  let request (between : Text) : Text :=
    "CONNECT ".toList ++ host ++ ":".toList ++ ofNat port.toNat ++ between ++ host ++ ":".toList ++
      ofNat port.toNat ++ "\r\n".toList ++ t.authHeader base64 ++ "\r\n".toList
  have hbetween : " HTTP/1.1\r\nHost: ".toList =
      " HTTP/1.1".toList ++ ("\r\n".toList ++ "Host: ".toList) := by decide
  refine (congrArg request hbetween).trans ?_
  dsimp only [request]
  rw [HttpProxyTransport.authHeader, requestLines, hostPort]
  rcases t.auth with _ | ⟨user, pass⟩
  · simp only [List.map_cons, List.map_nil, List.flatten_cons, List.flatten_nil, List.append_assoc,
      List.nil_append]
  · simp only [List.map_cons, List.map_nil, List.flatten_cons, List.flatten_nil, List.append_assoc,
      List.nil_append]

/-- No line of a head that is sent for a host without white space has a line break. -/
theorem unbroken_requestLines {base64 : Text → Text} (hbase64 : ∀ s, ∀ c ∈ base64 s, IsBase64 c)
    (t : HttpProxyTransport) (hhost : Solid host) (port : UInt16) :
    ∀ l ∈ requestLines base64 t host port, Unbroken (encodeUtf8 l) := by
  have hliterals : ∀ s ∈ ["CONNECT ".toList, " HTTP/1.1".toList, "Host: ".toList, ":".toList,
      "Proxy-Authorization: Basic ".toList], Unbroken (encodeUtf8 s) := by decide
  simp only [List.forall_mem_cons] at hliterals
  obtain ⟨hconnect, hversion, hfield, hcolon, hauth, -⟩ := hliterals
  have hhostPort : Unbroken (encodeUtf8 (hostPort host port)) :=
    unbroken_append (unbroken_append (unbroken_of_solid hhost) hcolon) (unbroken_ofNat _)
  rw [requestLines, List.forall_mem_cons, List.forall_mem_cons]
  refine ⟨unbroken_append (unbroken_append hconnect hhostPort) hversion,
    unbroken_append hfield hhostPort, ?_⟩
  rcases t.auth with _ | ⟨user, pass⟩
  · exact fun l hl => absurd hl List.not_mem_nil
  · exact List.forall_mem_singleton.2 (unbroken_append hauth (unbroken_of_isBase64 (hbase64 _)))

/-- A line of three words is split at its two spaces. -/
theorem splitOn_words {a b c : Text} (ha : ' ' ∉ a) (hb : ' ' ∉ b) (hc : ' ' ∉ c) :
    (encodeUtf8 (a ++ " ".toList ++ b ++ " ".toList ++ c)).splitOn 32 =
      [encodeUtf8 a, encodeUtf8 b, encodeUtf8 c] := by
  have hspace (s : Text) : 32 ∈ encodeUtf8 s ↔ ' ' ∈ s := mem_encodeUtf8 (c := ' ') (by decide)
  have hencode : encodeUtf8 (a ++ " ".toList ++ b ++ " ".toList ++ c) =
      encodeUtf8 a ++ 32 :: (encodeUtf8 b ++ 32 :: encodeUtf8 c) := by
    simp only [encodeUtf8_append, List.append_assoc]
    rfl
  rw [hencode, List.splitOn_append_cons_self_of_not_mem (mt (hspace a).1 ha),
    List.splitOn_append_cons_self_of_not_mem (mt (hspace b).1 hb),
    List.splitOn_eq_singleton (mt (hspace c).1 hc)]

/-- The request line that is forwarded, without its end. -/
def rewrittenLine (req : HttpRequest) : Text :=
  req.method ++ " ".toList ++ req.path ++ " ".toList ++ "HTTP/1.1".toList

/-- The first block is this line with its end. -/
theorem encodeUtf8_rewrittenLine (req : HttpRequest) :
    encodeUtf8 (req.method ++ " ".toList ++ req.path ++ " HTTP/1.1\r\n".toList) =
      encodeUtf8 (rewrittenLine req) ++ [13, 10] := by
  have hend : " HTTP/1.1\r\n".toList = " ".toList ++ "HTTP/1.1".toList ++ "\r\n".toList := by
    decide
  rw [hend, rewrittenLine, ← List.append_assoc, ← List.append_assoc,
    encodeUtf8_append _ "\r\n".toList]
  rfl

/-- It has no line break, and is of three words. -/
theorem rewrittenLine_spec {req : HttpRequest} (h : parseHttpRequest line = .ok req) :
    Unbroken (encodeUtf8 (rewrittenLine req)) ∧ (encodeUtf8 (rewrittenLine req)).splitOn 32 =
      [encodeUtf8 req.method, encodeUtf8 req.path, encodeUtf8 "HTTP/1.1".toList] := by
  obtain ⟨⟨-, hmethod⟩, -, -, hpath⟩ := solid_of_parseHttpRequest h
  have hversion : Solid "HTTP/1.1".toList := by decide
  have hspace : Unbroken (encodeUtf8 " ".toList) := by decide
  have hnot {s : Text} (hs : Solid s) : ' ' ∉ s := fun hmem => absurd (hs _ hmem) (by decide)
  refine ⟨?_, splitOn_words (hnot hmethod) (hnot hpath) (hnot hversion)⟩
  exact unbroken_append (unbroken_append (unbroken_append (unbroken_append
    (unbroken_of_solid hmethod) hspace) (unbroken_of_solid hpath)) hspace)
    (unbroken_of_solid hversion)

/-! ## What the handler writes first -/

section

variable {τ α : Type} {env : Env τ} {first : Bytes} {t : τ}

/-- Nothing has been written to the tunnel. -/
def Unwritten (s : Session τ) : Prop := s.toTunnel = []

/-- The block was written to the tunnel first. -/
def Begun (first : Bytes) (s : Session τ) : Prop := ∃ rest, s.toTunnel = first :: rest

/-- If anything was written to the tunnel, then the block was, first. -/
def Begins (first : Bytes) (_ : Except Fault Unit) (s : Session τ) : Prop :=
  Unwritten s ∨ Begun first s

/-- Using a result changes nothing, whether it is one or an error. -/
theorem keeps_ofExcept {P : Session τ → Prop} (hP : ∀ s r, P s → Begins first r s)
    (r : Except Error α) :
    Ensures P (Handler.ofExcept r) (GoesOn (fun _ => P) (Begins first)) := by
  intro s hs
  rcases r with e | a
  · exact hP s (.ok ()) hs
  · exact hs

/-- So it does with a result of an I/O operation. -/
theorem keeps_ofIo {P : Session τ → Prop} (hP : ∀ s r, P s → Begins first r s)
    (r : Except IoError α) : Ensures P (Handler.ofIo r) (GoesOn (fun _ => P) (Begins first)) := by
  intro s hs
  rcases r with e | a
  · exact hP s (.ok ()) hs
  · exact hs

/-- Nothing was written, or -/
theorem begins_of_unwritten (s : Session τ) (r : Except Fault Unit) (h : Unwritten s) :
    Begins first r s := .inl h

/-- the block was, first. -/
theorem begins_of_begun (s : Session τ) (r : Except Fault Unit) (h : Begun first s) :
    Begins first r s := .inr h

/-- The calls of the picker and of `connect` write nothing. -/
theorem unwritten_pick : Ensures Unwritten (env.pick host port)
    (GoesOn (fun _ => Unwritten) (Begins first)) :=
  fun s hs => keeps_ofExcept begins_of_unwritten (env.picker host port)
    { s with picks := s.picks ++ [(host, port)] } hs

/-- Nor does the call of `connect`. -/
theorem unwritten_connectThrough : Ensures Unwritten (env.connectThrough t host port)
    (GoesOn (fun _ => Unwritten) (Begins first)) :=
  fun s hs => keeps_ofExcept begins_of_unwritten (env.connect t host port)
    { s with connects := s.connects ++ [(t, host, port)] } hs

/-- The first write has its block first, if it succeeds. -/
theorem begun_writeAllTunnel : Ensures Unwritten (env.writeAllTunnel first)
    (GoesOn (fun _ => Begun first) (Begins first)) := by
  intro s hs
  rcases hwrite : env.writeTunnel s.toTunnel first with e | u
  · rw [Env.writeAllTunnel_error hwrite]
    exact Or.inl hs
  · rw [Env.writeAllTunnel_ok hwrite]
    exact ⟨[], congrArg (· ++ [first]) hs⟩

/-- A later one leaves it there. -/
theorem begun_writeAllTunnel_of_begun (bs : Bytes) : Ensures (Begun first)
    (env.writeAllTunnel bs) (GoesOn (fun _ => Begun first) (Begins first)) := by
  rintro s ⟨rest, hrest⟩
  rcases hwrite : env.writeTunnel s.toTunnel bs with e | u
  · rw [Env.writeAllTunnel_error hwrite]
    exact Or.inr ⟨rest, hrest⟩
  · rw [Env.writeAllTunnel_ok hwrite]
    exact ⟨rest ++ [bs], congrArg (· ++ [bs]) hrest⟩

/-- So does what is done about the body. -/
theorem begins_forwardBody (n : ℕ) (reader : BufReader) :
    Ensures (Begun first) (forwardBody env n reader) (Begins first) := by
  have hrespond : Ensures (Begun first)
      (do Handler.ofIo env.flushTunnel; env.copyResponse) (Begins first) :=
    (keeps_ofIo begins_of_begun _).bind fun _ s hs => .inr hs
  rw [forwardBody]
  by_cases hn : n > 0
  · rw [if_pos hn]
    rcases env.refuses n with _ | fault
    · exact (keeps_ofIo begins_of_begun _).bind fun body =>
        (begun_writeAllTunnel_of_begun body).bind fun _ => hrespond
    · exact ensures_throw fun s hs => .inr hs
  · rw [if_neg hn]
    exact hrespond

/-- What the handler of a plain request writes to the tunnel begins with the request line, if
    there is one. -/
theorem begins_handlePlainHttp {req : HttpRequest} (hreq : parseHttpRequest line = .ok req)
    (reader : BufReader) : Ensures Unwritten (env.handlePlainHttp reader line)
      (Begins (encodeUtf8 (req.method ++ " ".toList ++ req.path ++ " HTTP/1.1\r\n".toList))) := by
  rw [Env.handlePlainHttp, hreq]
  refine (keeps_ofIo begins_of_unwritten _).bind fun p => ?_
  obtain ⟨headers, n, reader⟩ := p
  refine unwritten_pick.bind fun t => unwritten_connectThrough.bind fun _ => ?_
  refine begun_writeAllTunnel.bind fun _ => ?_
  refine (ensures_forM fun header _ =>
    begun_writeAllTunnel_of_begun (encodeUtf8 header)).bind fun _ => ?_
  exact (begun_writeAllTunnel_of_begun _).bind fun _ => begins_forwardBody n reader

end

/-- Whatever line the proxy reads, and whatever the credentials. For a host and a port that
    it finds in the line, `connect` writes one block to the upstream proxy, whose lines are
    those that it is to have, with no other line break. And the first block that the handler
    of a plain request writes to a tunnel is the end of one line after three words. -/
theorem no_injection (base64 : Text → Text) (hbase64 : ∀ s, ∀ c ∈ base64 s, IsBase64 c)
    (t : HttpProxyTransport) (line : Text) :
    (∀ host port, Finds line host port → ∃ block,
      (∀ (σ : Type) (net : HttpProxyTransport.Network σ), t.Writes net base64 host port block) ∧
      splitPair 13 10 block = (requestLines base64 t host port).map encodeUtf8 ++ [[], []] ∧
      ∀ l ∈ requestLines base64 t host port, Unbroken (encodeUtf8 l)) ∧
    ∀ (τ : Type) (env : Env τ) (reader : BufReader) (first : Bytes) (rest : List Bytes),
      (env.handlePlainHttp reader line .new).2.toTunnel = first :: rest →
      ∃ req l, parseHttpRequest line = .ok req ∧ first = l ++ [13, 10] ∧ Unbroken l ∧
        l.splitOn 32 = [encodeUtf8 req.method, encodeUtf8 req.path, encodeUtf8 "HTTP/1.1".toList] ∧
        req.method ≠ [] ∧ req.path ≠ [] := by
  constructor
  · intro host port hfinds
    have hhost : Solid host := by
      rcases hfinds with hconnect | ⟨req, hreq, rfl, rfl⟩
      · exact solid_of_parseConnect hconnect
      · exact (solid_of_parseHttpRequest hreq).2.1
    have hlines := unbroken_requestLines hbase64 t hhost port
    refine ⟨encodeUtf8 (t.connectRequest base64 host port), fun σ net => ?_, ?_, hlines⟩
    · exact HttpProxyTransport.writes_connectRequest net base64 t host port
    · rw [connectRequest_eq, splitPair_lines hlines]
  · intro τ env reader first rest hfirst
    rcases hreq : parseHttpRequest line with e | req
    · -- A line that is not accepted leaves the tunnel without anything.
      have hnothing : env.handlePlainHttp reader line .new = (.error (.err e), .new) := by
        rw [Env.handlePlainHttp, hreq]
        exact Handler.bind_error rfl
      rw [hnothing] at hfirst
      exact absurd hfirst (List.cons_ne_nil _ _).symm
    · obtain ⟨⟨hmethod, -⟩, -, hpath, -⟩ := solid_of_parseHttpRequest hreq
      obtain ⟨hunbroken, hwords⟩ := rewrittenLine_spec hreq
      refine ⟨req, encodeUtf8 (rewrittenLine req), rfl, ?_, hunbroken, hwords, hmethod, hpath⟩
      rcases begins_handlePlainHttp hreq reader .new rfl with hnil | ⟨rest', hrest'⟩
      · exact absurd (hfirst.symm.trans hnil) (List.cons_ne_nil _ _)
      · rw [← encodeUtf8_rewrittenLine]
        exact (List.cons.inj (hfirst.symm.trans hrest')).1

/-- The encoding of the credentials `user:pass`. -/
def sampleBase64 (s : Text) : Text :=
  if s = "user:pass".toList then "dXNlcjpwYXNz".toList else []

/-- A proxy with these credentials. -/
def sampleProxy : HttpProxyTransport :=
  .new "proxy:3128".toList (some ("user".toList, "pass".toList)) "sample".toList

/-- A request for a host with an odd name is sent with the credentials; and a plain request
    with a tab and a carriage return between its words is forwarded as one line. -/
theorem sends_sampleProxy :
    (∃ block, (∀ (σ : Type) (net : HttpProxyTransport.Network σ),
        sampleProxy.Writes net sampleBase64 "a]b".toList 443 block) ∧
      splitPair 13 10 block = ["CONNECT a]b:443 HTTP/1.1".toList, "Host: a]b:443".toList,
        "Proxy-Authorization: Basic dXNlcjpwYXNz".toList].map encodeUtf8 ++ [[], []]) ∧
    ∃ l, encodeUtf8 "GET /p HTTP/1.1\r\n".toList = l ++ [13, 10] ∧ Unbroken l ∧
      l.splitOn 32 = ["GET".toList, "/p".toList, "HTTP/1.1".toList].map encodeUtf8 := by
  have hbase64 : ∀ s, ∀ c ∈ sampleBase64 s, IsBase64 c := by
    intro s
    rw [sampleBase64]
    split_ifs
    · exact forall_mem_of_all (by decide)
    · exact fun c hc => absurd hc List.not_mem_nil
  constructor
  · have hfinds : Finds "CONNECT a]b:443 HTTP/1.1".toList "a]b".toList 443 := .inl rfl
    have hlines : requestLines sampleBase64 sampleProxy "a]b".toList 443 =
        ["CONNECT a]b:443 HTTP/1.1".toList, "Host: a]b:443".toList,
          "Proxy-Authorization: Basic dXNlcjpwYXNz".toList] := by decide +kernel
    obtain ⟨block, hwrites, hsplit, -⟩ :=
      (no_injection sampleBase64 hbase64 sampleProxy _).1 _ _ hfinds
    exact ⟨block, hwrites, hlines ▸ hsplit⟩
  · have hparse : parseHttpRequest "GET\thttp://a/p\rHTTP/1.1".toList =
        .ok ⟨"GET".toList, "a".toList, 80, "/p".toList⟩ := by decide +kernel
    have hwritten : (sampleEnv.handlePlainHttp (.new []) "GET\thttp://a/p\rHTTP/1.1".toList
        .new).2.toTunnel = ["GET /p HTTP/1.1\r\n".toList, "\r\n".toList].map encodeUtf8 := by
      have hheaders : readHeaders (.new []) [] 0 = .ok ([], 0, .new []) := by
        rw [readHeaders]
        rfl
      rw [Env.handlePlainHttp, hparse, hheaders]
      rfl
    obtain ⟨req, l, hreq, hl, hunbroken, hwords, -⟩ :=
      (no_injection sampleBase64 hbase64 sampleProxy _).2 Unit sampleEnv (.new []) _ _ hwritten
    obtain rfl := Except.ok.inj (hparse.symm.trans hreq)
    exact ⟨l, hl, hunbroken, hwords⟩

end Houdinny.Proxy
