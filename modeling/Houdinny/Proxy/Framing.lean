import Houdinny.Proxy.Transparency

/-!
# Framing of forwarded requests

A plain HTTP request is forwarded with its header lines as they are, and a body
of the length that the proxy has found in them. The lines in which the proxy
looks for it (`recognizedLength`) are spelled in one of two ways; those in which
the server finds it (`declaredLength`) in any upper and lower case. So the two
need not agree on where the body ends (`not_framed_mixedCase`). They do exactly if
each line that declares a length declares that of the last line recognized
(`handlePlainHttp_framed_iff`).

The proof follows a request through the handler: the header loop returns the lines and the
length of the last one recognized (`contentLength_of_readHeaders`), and what is forwarded then
is the rewritten line, the header lines, and as many bytes as that
(`delivered_of_handlePlainHttp`). `Framed` compares the number of these bytes with what the
header lines declare.
-/

namespace Houdinny.Proxy

open Stream Text

/-- The length of the body that a header line declares: its field name is
    Content-Length, in upper or lower case, and its value a decimal number. -/
def declaredLength (line : Text) : Option ℕ :=
  match splitOnce ":".toList line with
  | none => none
  | some (name, value) =>
    if eqIgnoreAsciiCase name "Content-Length".toList ∧ trim value ≠ [] ∧
        (trim value).all Char.isDigit then
      some (Nat.ofDigitChars 10 (trim value) 0)
    else none

/-- The length that the proxy reads off a header line: in one of two spellings,
    and not too large for a `usize`. -/
def recognizedLength (line : Text) : Option ℕ :=
  ((line.dropPrefix? "Content-Length:".toList).or
    (line.dropPrefix? "content-length:".toList)).bind fun val => parseUnsigned usizeMax (trim val)

/-- The last of the lines that the proxy recognizes has the length `v`. -/
def LastRecognized (headers : List Text) (v : ℕ) : Prop :=
  ∃ before line after, headers = before ++ line :: after ∧ recognizedLength line = some v ∧
    ∀ l ∈ after, recognizedLength l = none

/-- Each header line that declares a length declares that of the last line that the
    proxy recognizes, or zero, if it recognizes none. -/
def Agree (headers : List Text) : Prop :=
  ∀ line ∈ headers, ∀ v, declaredLength line = some v →
    LastRecognized headers v ∨ v = 0 ∧ ∀ l ∈ headers, recognizedLength l = none

/-- What is forwarded before the body: the request line, the header lines and an
    empty line. -/
def forwardedHead (req : HttpRequest) (headers : List Text) : Bytes :=
  encodeUtf8 (req.method ++ " ".toList ++ req.path ++ " HTTP/1.1\r\n".toList) ++
    (headers.map encodeUtf8).flatten ++ encodeUtf8 "\r\n".toList

/-- The bytes forwarded are the head and a body, of the length that each of the
    header lines that declare one declares. -/
def Framed {τ : Type} (req : HttpRequest) (headers : List Text) (s : Session τ) : Prop :=
  ∃ body, s.delivered = forwardedHead req headers ++ body ∧
    ∀ line ∈ headers, ∀ v, declaredLength line = some v → body.length = v

/-! ## The length that the proxy finds -/

/-- A line that is recognized sets the length. -/
theorem trackContentLength_eq (n : ℕ) (line : Text) :
    trackContentLength n line = (recognizedLength line).getD n := by
  rw [trackContentLength, recognizedLength]
  rcases ((line.dropPrefix? "Content-Length:".toList).or
    (line.dropPrefix? "content-length:".toList)).bind _ <;> rfl

/-- The last line recognized is among the others, or is the first one if none of them is. -/
theorem lastRecognized_cons {line : Text} {headers : List Text} {v : ℕ} :
    LastRecognized (line :: headers) v ↔ LastRecognized headers v ∨
      recognizedLength line = some v ∧ ∀ l ∈ headers, recognizedLength l = none := by
  constructor
  · rintro ⟨_ | ⟨a, before⟩, l, after, h, hl, hafter⟩
    · obtain ⟨rfl, rfl⟩ := List.cons.inj h
      exact .inr ⟨hl, hafter⟩
    · obtain ⟨rfl, rfl⟩ := List.cons.inj h
      exact .inl ⟨before, l, after, rfl, hl, hafter⟩
  · rintro (⟨before, l, after, rfl, hl, hafter⟩ | ⟨hl, hafter⟩)
    · exact ⟨line :: before, l, after, rfl, hl, hafter⟩
    · exact ⟨[], line, headers, rfl, hl, hafter⟩

/-- The length found is that of the last line recognized, if there is one. -/
theorem foldl_trackContentLength {headers : List Text} {n v : ℕ} :
    headers.foldl trackContentLength n = v ↔
      LastRecognized headers v ∨ v = n ∧ ∀ l ∈ headers, recognizedLength l = none := by
  induction headers generalizing n with
  | nil =>
    refine ⟨fun h => .inr ⟨h.symm, fun l hl => absurd hl List.not_mem_nil⟩, ?_⟩
    rintro (⟨before, line, after, h, _⟩ | ⟨rfl, _⟩)
    · exact absurd h (by simp)
    · rfl
  | cons line headers ih =>
    rw [List.foldl_cons, ih, trackContentLength_eq, lastRecognized_cons, List.forall_mem_cons,
      or_assoc]
    rcases recognizedLength line with _ | m <;> simp [eq_comm]

/-- What the header loop does, line by line. -/
theorem readHeaders_eq (r : BufReader) (headers : List Text) (n : ℕ) :
    readHeaders r headers n =
      match readLine r with
      | .error e => .error e
      | .ok (line, r') =>
        if line.trim.isEmpty then .ok (headers, n, r')
        else readHeaders r' (headers ++ [line]) (trackContentLength n line) := by
  rw [readHeaders]
  split
  · next h => rw [h]
  · next h => rw [h]; rfl

/-- The length that the loop returns is found in the lines that it returns. -/
theorem contentLength_of_readHeaders {r r' : BufReader} {headers : List Text} {n : ℕ}
    (h : readHeaders r [] 0 = .ok (headers, n, r')) : n = headers.foldl trackContentLength 0 := by
  suffices hloop : ∀ (k : ℕ) (r : BufReader) (seen : List Text), r.remaining.length = k →
      readHeaders r seen (seen.foldl trackContentLength 0) = .ok (headers, n, r') →
      n = headers.foldl trackContentLength 0 from hloop _ r [] rfl h
  -- Induction on what remains to be read, as the loop itself.
  intro k
  induction k using Nat.strongRecOn with
  | ind k ih =>
    intro r seen hk h
    rw [readHeaders_eq] at h
    rcases hline : readLine r with e | ⟨line, r₁⟩
    · rw [hline] at h
      exact absurd h (by simp)
    · rw [hline] at h
      dsimp only at h
      by_cases hempty : line.trim.isEmpty
      · rw [if_pos hempty] at h
        obtain ⟨rfl, rfl, rfl⟩ : seen = headers ∧ _ = n ∧ r₁ = r' := by simpa using h
        rfl
      · rw [if_neg hempty] at h
        have hlt := remaining_lt_of_readLine hline hempty
        refine ih _ (hk ▸ hlt) r₁ (seen ++ [line]) rfl ?_
        rw [List.foldl_append, List.foldl_cons, List.foldl_nil]
        exact h

/-! ## What is forwarded -/

variable {τ : Type} {env : Env τ} {s s' : Session τ}

/-- The call of the picker delivers nothing, -/
theorem delivered_of_pick {host : Text} {port : UInt16} {t : τ}
    (h : env.pick host port s = (.ok t, s')) : s'.delivered = s.delivered := by
  obtain ⟨_, s₁, h₁, h⟩ := Handler.bind_eq_ok h
  obtain ⟨-, rfl⟩ := Handler.ofExcept_eq_ok h
  rw [← (Prod.mk.inj h₁).2]
  rfl

/-- nor does that of `connect`. -/
theorem delivered_of_connectThrough {t : τ} {host : Text} {port : UInt16}
    (h : env.connectThrough t host port s = (.ok (), s')) : s'.delivered = s.delivered := by
  obtain ⟨_, s₁, h₁, h⟩ := Handler.bind_eq_ok h
  obtain ⟨-, rfl⟩ := Handler.ofExcept_eq_ok h
  rw [← (Prod.mk.inj h₁).2]
  rfl

/-- A write delivers its block. -/
theorem delivered_of_writeAllTunnel {bs : Bytes} (h : env.writeAllTunnel bs s = (.ok (), s')) :
    s'.delivered = s.delivered ++ bs := by
  obtain ⟨s₀, s₁, h₀, hwrite⟩ := Handler.bind_eq_ok h
  obtain ⟨_, s₂, h₂, hrecord⟩ := Handler.bind_eq_ok hwrite
  obtain ⟨-, rfl⟩ := Handler.ofIo_eq_ok h₂
  obtain rfl := (Prod.mk.inj h₀).2
  rw [← (Prod.mk.inj hrecord).2]
  change (s.toTunnel ++ [bs]).flatten = _
  rw [List.flatten_append, List.flatten_singleton]
  rfl

/-- The header lines are delivered as they are. -/
theorem delivered_of_forM {headers : List Text}
    (h : (headers.forM fun header => env.writeAllTunnel (encodeUtf8 header)) s = (.ok (), s')) :
    s'.delivered = s.delivered ++ (headers.map encodeUtf8).flatten := by
  induction headers generalizing s with
  | nil =>
    obtain ⟨-, rfl⟩ := Prod.mk.inj h
    exact (List.append_nil _).symm
  | cons header headers ih =>
    obtain ⟨_, s₁, h₁, h⟩ := Handler.bind_eq_ok h
    rw [ih h, delivered_of_writeAllTunnel h₁, List.map_cons, List.flatten_cons, List.append_assoc]

/-- Nothing is forwarded after the body. -/
theorem delivered_of_flush (h : (do Handler.ofIo env.flushTunnel; env.copyResponse) s =
    (.ok (), s')) : s'.delivered = s.delivered := by
  obtain ⟨_, s₁, h₁, hcopy⟩ := Handler.bind_eq_ok h
  obtain ⟨-, rfl⟩ := Handler.ofIo_eq_ok h₁
  rw [← (Prod.mk.inj hcopy).2]
  rfl

/-- Where a request is forwarded, the tunnel gets the head, and as many bytes of the
    body as the header loop has found. -/
theorem delivered_of_handlePlainHttp {r : BufReader} {firstLine : Text}
    (h : env.handlePlainHttp r firstLine .new = (.ok (), s)) :
    ∃ req headers n r' body, parseHttpRequest firstLine = .ok req ∧
      readHeaders r [] 0 = .ok (headers, n, r') ∧
      s.delivered = forwardedHead req headers ++ body ∧ body.length = n := by
  -- The handler has succeeded, and so has each of its parts, one after the other.
  obtain ⟨req, s₁, h₁, hread⟩ := Handler.bind_eq_ok h
  obtain ⟨hreq, rfl⟩ := Handler.ofExcept_eq_ok h₁
  obtain ⟨⟨headers, n, r'⟩, s₂, h₂, hpick⟩ := Handler.bind_eq_ok hread
  obtain ⟨hheaders, rfl⟩ := Handler.ofIo_eq_ok h₂
  obtain ⟨t, s₃, h₃, hconnect⟩ := Handler.bind_eq_ok hpick
  obtain ⟨_, s₄, h₄, hline⟩ := Handler.bind_eq_ok hconnect
  obtain ⟨_, s₅, h₅, hlines⟩ := Handler.bind_eq_ok hline
  obtain ⟨_, s₆, h₆, hend⟩ := Handler.bind_eq_ok hlines
  obtain ⟨_, s₇, h₇, hbody⟩ := Handler.bind_eq_ok hend
  have hhead : s₇.delivered = forwardedHead req headers := by
    rw [delivered_of_writeAllTunnel h₇, delivered_of_forM h₆, delivered_of_writeAllTunnel h₅,
      delivered_of_connectThrough h₄, delivered_of_pick h₃]
    rfl
  refine ⟨req, headers, n, r', ?_⟩
  -- A body is read only if a length was found that is not zero.
  by_cases hn : n > 0
  · rw [if_pos hn] at hbody
    rcases hbuffer : env.refuses n with _ | fault <;> rw [hbuffer] at hbody
    · obtain ⟨body, s₈, h₈, hwrite⟩ := Handler.bind_eq_ok hbody
      obtain ⟨hexact, rfl⟩ := Handler.ofIo_eq_ok h₈
      obtain ⟨_, s₉, h₉, hflush⟩ := Handler.bind_eq_ok hwrite
      rw [readExact] at hexact
      split_ifs at hexact with hle
      obtain rfl := Except.ok.inj hexact
      refine ⟨_, hreq, hheaders, ?_, List.length_take_of_le hle⟩
      rw [delivered_of_flush hflush, delivered_of_writeAllTunnel h₉, hhead]
    · exact absurd (Prod.mk.inj hbody).1 (by simp)
  · rw [if_neg hn] at hbody
    refine ⟨[], hreq, hheaders, ?_, (Nat.eq_zero_of_not_pos hn).symm⟩
    rw [delivered_of_flush hbody, hhead, List.append_nil]

/-- Whatever the request and the rest of the world, where the request is forwarded
    without error: the body that the tunnel gets has the length that each header
    line declares exactly if each declares that of the last line recognized. -/
theorem handlePlainHttp_framed_iff (env : Env τ) (r : BufReader) (firstLine : Text)
    (s : Session τ) (h : env.handlePlainHttp r firstLine .new = (.ok (), s)) :
    ∃ req headers n r', parseHttpRequest firstLine = .ok req ∧
      readHeaders r [] 0 = .ok (headers, n, r') ∧ (Framed req headers s ↔ Agree headers) := by
  obtain ⟨req, headers, n, r', body, hreq, hheaders, hs, hbody⟩ := delivered_of_handlePlainHttp h
  refine ⟨req, headers, n, r', hreq, hheaders, ?_⟩
  have hn := contentLength_of_readHeaders hheaders
  have hlast : ∀ v, body.length = v ↔
      LastRecognized headers v ∨ v = 0 ∧ ∀ l ∈ headers, recognizedLength l = none :=
    fun v => by rw [hbody, hn, foldl_trackContentLength]
  constructor
  · rintro ⟨body', hbody', hlength⟩ line hline v hv
    obtain rfl := (List.append_right_inj _).1 (hs.symm.trans hbody')
    exact (hlast v).1 (hlength line hline v hv)
  · exact fun hagree => ⟨body, hs, fun line hline v hv => (hlast v).2 (hagree line hline v hv)⟩

/-! ## Spellings -/

/-- A connection whose first line has been read, and the rest of which arrives in
    one read. -/
def readerOf (rest : Text) (h : encodeUtf8 rest ≠ []) : BufReader := .new [⟨encodeUtf8 rest, h⟩]

/-- The rest of a request with a body of two bytes. -/
def canonicalRest : BufReader := readerOf "Content-Length: 2\r\n\r\nhi".toList (by decide)

/-- The same with five bytes, and another spelling of the field name. -/
def mixedCaseRest : BufReader := readerOf "Content-length: 5\r\n\r\nhello".toList (by decide)

/-- A request line in absolute form. -/
def postLine : Text := "POST http://a/ HTTP/1.1".toList

/-- Its parts. -/
def postRequest : HttpRequest := ⟨"POST".toList, "a".toList, 80, "/".toList⟩

/-- They are found. -/
theorem parse_postLine : parseHttpRequest postLine = .ok postRequest := rfl

/-- The length in its usual spelling is the length forwarded. -/
theorem handlePlainHttp_framed_canonical : ∃ s req headers,
    sampleEnv.handlePlainHttp canonicalRest postLine .new = (.ok (), s) ∧ Framed req headers s := by
  have hread : readHeaders canonicalRest [] 0 =
      .ok (["Content-Length: 2\r\n".toList], 2, ⟨encodeUtf8 "hi".toList, []⟩) := by
    rw [readHeaders_eq]
    change readHeaders _ _ _ = _
    rw [readHeaders_eq]
    rfl
  obtain ⟨s, hs⟩ : ∃ s, sampleEnv.handlePlainHttp canonicalRest postLine .new = (.ok (), s) := by
    rw [Env.handlePlainHttp, parse_postLine, Handler.bind_ok (Handler.ofExcept_ok _ _), hread,
      Handler.bind_ok (Handler.ofIo_ok _ _)]
    exact ⟨_, rfl⟩
  obtain ⟨req, headers, n, r', -, hheaders, hiff⟩ :=
    handlePlainHttp_framed_iff sampleEnv canonicalRest postLine s hs
  obtain ⟨rfl, -⟩ := Prod.mk.inj (Except.ok.inj (hread.symm.trans hheaders))
  refine ⟨s, req, _, hs, hiff.2 fun line hline v hv => .inl ⟨[], line, [], ?_, ?_, by simp⟩⟩
  · rw [List.mem_singleton.1 hline]
    rfl
  · -- The line is recognized, with the length that it declares.
    obtain rfl := List.mem_singleton.1 hline
    obtain rfl : 2 = v := Option.some.inj hv
    rfl

/-- A length spelled otherwise is not: the server finds it in `Content-length`, and waits for a
    body that is not forwarded. -/
theorem not_framed_mixedCase : ¬∀ (env : Env Unit) (r r' : BufReader) (firstLine : Text)
    (s : Session Unit) (req : HttpRequest) (headers : List Text) (n : ℕ),
    env.handlePlainHttp r firstLine .new = (.ok (), s) → parseHttpRequest firstLine = .ok req →
    readHeaders r [] 0 = .ok (headers, n, r') → Framed req headers s := by
  intro h
  have hread : readHeaders mixedCaseRest [] 0 =
      .ok (["Content-length: 5\r\n".toList], 0, ⟨encodeUtf8 "hello".toList, []⟩) := by
    rw [readHeaders_eq]
    change readHeaders _ _ _ = _
    rw [readHeaders_eq]
    rfl
  obtain ⟨s, hs⟩ : ∃ s, sampleEnv.handlePlainHttp mixedCaseRest postLine .new = (.ok (), s) := by
    rw [Env.handlePlainHttp, parse_postLine, Handler.bind_ok (Handler.ofExcept_ok _ _), hread,
      Handler.bind_ok (Handler.ofIo_ok _ _)]
    exact ⟨_, rfl⟩
  obtain ⟨body, hbody, hlength⟩ := h sampleEnv mixedCaseRest _ postLine s _ _ _ hs
    parse_postLine hread
  -- Nothing is forwarded behind the head.
  obtain ⟨req, headers, n, r', body', hreq, hheaders, hbody', hn⟩ := delivered_of_handlePlainHttp hs
  obtain rfl := Except.ok.inj (parse_postLine.symm.trans hreq)
  obtain ⟨rfl, hn', -⟩ : _ = headers ∧ 0 = n ∧ _ = r' := by simpa using hread.symm.trans hheaders
  obtain rfl := (List.append_right_inj _).1 (hbody.symm.trans hbody')
  have hdeclared : declaredLength "Content-length: 5\r\n".toList = some 5 := rfl
  have hfive := hlength _ List.mem_cons_self 5 hdeclared
  omega

end Houdinny.Proxy
