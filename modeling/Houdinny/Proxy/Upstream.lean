import Houdinny.Proxy.Heads

/-!
# What goes upstream

A plain HTTP request is forwarded as its rewritten request line, its header lines as
they came, and as many bytes of its body as the last header line recognized says. What
the tunnel gets is determined by the agent's stream, however it is cut into reads.

The body is read into a buffer of that length, which is asked for before any of the body
has arrived. A length that no allocation can have is a panic, and one that the allocator
refuses ends the process as well. So the body is forwarded, or missed, only where there is
a buffer for it (`forwardsExactly_iff`), and elsewhere the handler never returns
(`returns_iff`).

* `handlePlainHttp_congr`: two readers of one stream lead to the same result and session, so
  that the stream may be taken to arrive in one read.
* `forward` and `forwardBody` are the rests of the handler after the head is read, and after
  it is forwarded. There are three cases for the body: it is there, it is not, or there is no
  buffer (`forwardBody_of_le`, `forwardBody_of_lt`, `forwardBody_of_refuses`).
* `FatalOnly` is the converse for the last one: a handler that has ended the process has done
  so for want of a buffer, whatever else has failed.
-/

namespace Houdinny.Proxy

open Stream Text

/-- The length of the body that the proxy finds: that of the last line that it
    recognizes, or zero. -/
def BodyLength (headers : List Text) (n : ℕ) : Prop :=
  LastRecognized headers n ∨ n = 0 ∧ ∀ l ∈ headers, recognizedLength l = none

variable {τ : Type} {env : Env τ} {s : Session τ}

/-! ## Streams that are cut otherwise -/

section

variable {r r' : BufReader}

/-- Two readers of the same stream fail both, or return the same and are readers of the
    same stream again. -/
def Agrees {α : Type} (x y : Except IoError (α × BufReader)) : Prop :=
  (∃ e, x = .error e ∧ y = .error e) ∨
    ∃ a r r', x = .ok (a, r) ∧ y = .ok (a, r') ∧ r.remaining = r'.remaining

/-- They read the same line. -/
theorem readLine_agrees (h : r.remaining = r'.remaining) : Agrees (readLine r) (readLine r') := by
  obtain ⟨hl, hrem⟩ := readUntil_congr (d := 10) h
  rw [readLine, readLine, BufReader.readLine, BufReader.readLine, hl]
  rcases decodeUtf8 (r'.readUntil 10).1 with _ | line
  · exact .inl ⟨_, rfl, rfl⟩
  · exact .inr ⟨line, _, _, rfl, rfl, hrem⟩

/-- So do the header loops. -/
theorem readHeaders_agrees (h : r.remaining = r'.remaining) (seen : List Text) (n : ℕ) :
    (∃ e, readHeaders r seen n = .error e ∧ readHeaders r' seen n = .error e) ∨
      ∃ headers n' r₁ r₁', readHeaders r seen n = .ok (headers, n', r₁) ∧
        readHeaders r' seen n = .ok (headers, n', r₁') ∧ r₁.remaining = r₁'.remaining := by
  induction hk : r.remaining.length using Nat.strongRecOn generalizing r r' seen n with
  | ind k ih =>
    rw [readHeaders_eq r, readHeaders_eq r']
    rcases readLine_agrees h with ⟨e, he, he'⟩ | ⟨line, r₁, r₁', hr₁, hr₁', hrem⟩
    · rw [he, he']
      exact .inl ⟨e, rfl, rfl⟩
    · rw [hr₁, hr₁']
      dsimp only
      by_cases hempty : line.trim.isEmpty
      · rw [if_pos hempty, if_pos hempty]
        exact .inr ⟨seen, n, r₁, r₁', rfl, rfl, hrem⟩
      · rw [if_neg hempty, if_neg hempty]
        exact ih _ (hk ▸ remaining_lt_of_readLine hr₁ hempty) hrem _ _ rfl

/-- They read the same body. -/
theorem readExact_congr (h : r.remaining = r'.remaining) (n : ℕ) :
    readExact n r = readExact n r' := by
  rw [readExact, readExact, h]

/-- What the handler does depends on the stream only. -/
theorem handlePlainHttp_congr (env : Env τ) (h : r.remaining = r'.remaining) (firstLine : Text) :
    env.handlePlainHttp r firstLine = env.handlePlainHttp r' firstLine := by
  rw [Env.handlePlainHttp, Env.handlePlainHttp]
  rcases readHeaders_agrees h [] 0 with ⟨e, he, he'⟩ | ⟨headers, n, r₁, r₁', hr₁, hr₁', hrem⟩
  · rw [he, he']
  · rw [hr₁, hr₁']
    refine bind_congr fun req => ?_
    change Env.pick env req.host req.port >>= _ = Env.pick env req.host req.port >>= _
    simp only [readExact_congr hrem]

end

/-! ## Forwarding -/

/-- The picker and `connect` succeed, and so do all writes to the tunnel. -/
structure Env.Forwards (env : Env τ) (req : HttpRequest) (t : τ) : Prop where
  pick : env.picker req.host req.port = .ok t
  connect : env.connect t req.host req.port = .ok ()
  write : ∀ before bs, env.writeTunnel before bs = .ok ()

/-- The block is forwarded. -/
theorem writeAllTunnel_ok (h : ∀ before bs, env.writeTunnel before bs = .ok ()) (bs : Bytes) :
    ∃ s', env.writeAllTunnel bs s = (.ok (), s') ∧ s'.delivered = s.delivered ++ bs := by
  have hwrite : env.writeAllTunnel bs s = (.ok (), { s with toTunnel := s.toTunnel ++ [bs] }) := by
    change (Handler.ofIo (env.writeTunnel s.toTunnel bs) >>= _) s = _
    rw [h, Handler.bind_ok (Handler.ofIo_ok _ s)]
    rfl
  exact ⟨_, hwrite, delivered_of_writeAllTunnel hwrite⟩

/-- So are the header lines. -/
theorem forM_writeAllTunnel_ok (h : ∀ before bs, env.writeTunnel before bs = .ok ())
    (headers : List Text) : ∃ s',
    (headers.forM fun header => env.writeAllTunnel (encodeUtf8 header)) s = (.ok (), s') := by
  induction headers generalizing s with
  | nil => exact ⟨s, rfl⟩
  | cons header headers ih =>
    obtain ⟨s₁, h₁, -⟩ := writeAllTunnel_ok (s := s) h (encodeUtf8 header)
    obtain ⟨s', h'⟩ := ih (s := s₁)
    exact ⟨s', (Handler.bind_ok h₁).trans h'⟩

/-- What the handler does after it has forwarded a head. -/
def forwardBody (env : Env τ) (n : ℕ) (r : BufReader) : Handler τ Unit := do
  if n > 0 then
    if let some fault := env.refuses n then throw fault
    let bodyBuf ← Handler.ofIo (readExact n r)
    env.writeAllTunnel bodyBuf
  Handler.ofIo env.flushTunnel
  env.copyResponse

/-- What the handler does after it has read a head. -/
def forward (env : Env τ) (req : HttpRequest) (headers : List Text) (n : ℕ) (r : BufReader) :
    Handler τ Unit := do
  let transport ← env.pick req.host req.port
  env.connectThrough transport req.host req.port
  env.writeAllTunnel
    (encodeUtf8 (req.method ++ " ".toList ++ req.path ++ " HTTP/1.1\r\n".toList))
  headers.forM fun header => env.writeAllTunnel (encodeUtf8 header)
  env.writeAllTunnel (encodeUtf8 "\r\n".toList)
  forwardBody env n r

/-- After a head that was read, the rest is `forward`. -/
theorem handlePlainHttp_eq_forward {r r' : BufReader} {firstLine : Text} {req : HttpRequest}
    {headers : List Text} {n : ℕ} (hreq : parseHttpRequest firstLine = .ok req)
    (hread : readHeaders r [] 0 = .ok (headers, n, r')) :
    env.handlePlainHttp r firstLine s = forward env req headers n r' s := by
  rw [Env.handlePlainHttp, hreq, Handler.bind_ok (Handler.ofExcept_ok _ _), hread,
    Handler.bind_ok (Handler.ofIo_ok _ _)]
  rfl

/-- If nothing fails before it, the head is forwarded. -/
theorem handlePlainHttp_eq {r r' : BufReader} {firstLine : Text} {req : HttpRequest}
    {headers : List Text} {n : ℕ} {t : τ} (hreq : parseHttpRequest firstLine = .ok req)
    (hread : readHeaders r [] 0 = .ok (headers, n, r')) (henv : env.Forwards req t) :
    ∃ s, s.delivered = forwardedHead req headers ∧
      env.handlePlainHttp r firstLine .new = forwardBody env n r' s := by
  obtain ⟨s₁, h₁, hd₁⟩ := writeAllTunnel_ok (s := ⟨[(req.host, req.port)],
    [(t, req.host, req.port)], [], []⟩) henv.write
    (encodeUtf8 (req.method ++ " ".toList ++ req.path ++ " HTTP/1.1\r\n".toList))
  obtain ⟨s₂, h₂⟩ := forM_writeAllTunnel_ok (s := s₁) henv.write headers
  obtain ⟨s₃, h₃, hd₃⟩ := writeAllTunnel_ok (s := s₂) henv.write (encodeUtf8 "\r\n".toList)
  refine ⟨s₃, ?_, ?_⟩
  · rw [hd₃, delivered_of_forM h₂, hd₁]
    rfl
  · rw [handlePlainHttp_eq_forward hreq hread, forward, Handler.bind_ok (Env.pick_ok henv.pick),
      Handler.bind_ok (Env.connectThrough_ok henv.connect)]
    exact (Handler.bind_ok h₁).trans ((Handler.bind_ok h₂).trans (Handler.bind_ok h₃))

/-- Enough of the body is there, and a buffer: it is forwarded. -/
theorem forwardBody_of_le (h : ∀ before bs, env.writeTunnel before bs = .ok ()) {n : ℕ}
    {r : BufReader} (hbuffer : n = 0 ∨ env.refuses n = none) (hn : n ≤ r.remaining.length) :
    (forwardBody env n r s).2.delivered = s.delivered ++ r.remaining.take n := by
  have hflush (s : Session τ) :
      ((do Handler.ofIo env.flushTunnel; env.copyResponse) s).2.delivered = s.delivered := by
    rcases hf : env.flushTunnel with e | _
    · rw [Handler.bind_error (Handler.ofIo_error _ _)]
    · rw [Handler.bind_ok (Handler.ofIo_ok _ _)]
      rfl
  rw [forwardBody]
  rcases Nat.eq_zero_or_pos n with rfl | hpos
  · rw [if_neg (lt_irrefl 0), List.take_zero, List.append_nil]
    exact hflush s
  · obtain ⟨s', hs', hd⟩ := writeAllTunnel_ok (s := s) h (r.remaining.take n)
    have hexact : readExact n r = .ok (r.remaining.take n) := if_pos hn
    rw [if_pos hpos, hbuffer.resolve_left hpos.ne', hexact]
    dsimp only
    rw [Handler.bind_ok (Handler.ofIo_ok _ _), Handler.bind_ok hs']
    exact (hflush s').trans hd

/-- It is not: the handler fails, with nothing more forwarded. -/
theorem forwardBody_of_lt {n : ℕ} {r : BufReader} (hbuffer : env.refuses n = none)
    (hn : r.remaining.length < n) : ∃ e, forwardBody env n r s = (.error (.err e), s) := by
  have hexact : readExact n r = .error "early eof".toList := if_neg (Nat.not_le.2 hn)
  refine ⟨.io "early eof".toList, ?_⟩
  rw [forwardBody, if_pos (Nat.zero_lt_of_lt hn), hbuffer, hexact]
  exact Handler.bind_error (Handler.ofIo_error _ _)

/-- There is no buffer for it: the process ends, however much of it is there. -/
theorem forwardBody_of_refuses {n : ℕ} {r : BufReader} {fault : Fault} (hn : 0 < n)
    (hbuffer : env.refuses n = some fault) : forwardBody env n r s = (.error fault, s) := by
  rw [forwardBody, if_pos hn, hbuffer]
  rfl

/-- The lines of a head are forwarded as they came. -/
theorem map_encodeUtf8_of_mapM {ls : List Bytes} {headers : List Text}
    (h : ls.mapM decodeUtf8 = some headers) : headers.map encodeUtf8 = ls := by
  induction ls generalizing headers with
  | nil =>
    obtain rfl : [] = headers := Option.some.inj h
    rfl
  | cons l ls ih =>
    rw [List.mapM_cons] at h
    obtain ⟨line, hline, h⟩ := Option.bind_eq_some_iff.1 h
    obtain ⟨headers', hheaders, heq⟩ := Option.bind_eq_some_iff.1 h
    obtain rfl : line :: headers' = headers := Option.some.inj heq
    rw [List.map_cons, encodeUtf8_of_decodeUtf8 hline, ih hheaders]

/-- The first line is read, without the white space at its end. -/
theorem readRequestLine_ok {reads : Reads} {first : Bytes} {rest : List Bytes} {line : Text}
    (h : splitInclusive 10 reads.bytes = first :: rest) (hline : decodeUtf8 first = some line) :
    ∃ r, readRequestLine reads = .ok (line.trimEnd, r) ∧ splitInclusive 10 r.remaining = rest := by
  have hremaining : (BufReader.new reads).remaining = reads.bytes := rfl
  obtain ⟨r, hr, hread⟩ := readLine_of_lines (hremaining ▸ h)
  exact ⟨r, by rw [readRequestLine, hread line hline]; rfl, hr⟩

/-- What the tunnel gets of a request: its request line rewritten, its header lines as they
    came, and the first `n` bytes of what follows them. If there are fewer, it gets the head
    only, and the handler returns an error. All this is the same for all ways to cut the
    stream into reads, and it is what `handle_connection` does as well. -/
def ForwardsExactly (env : Env τ) (stream : Bytes) (line : Text) (rest : List Bytes)
    (req : HttpRequest) (n : ℕ) : Prop :=
  ∃ result : Except Fault Unit × Session τ,
    (∀ reads : Reads, reads.bytes = stream →
      (∃ reader, readRequestLine reads = .ok (line.trimEnd, reader) ∧
        env.handlePlainHttp reader line.trimEnd .new = result) ∧
      ∀ casing : CaseMapping,
        ¬"CONNECT ".toList.isPrefixOf (casing.toUppercase line.trimEnd) →
        env.handleConnection casing reads .new = result) ∧
    (n ≤ (afterHead rest).length → result.2.delivered =
      encodeUtf8 (req.method ++ " ".toList ++ req.path ++ " HTTP/1.1\r\n".toList) ++
        (headLines rest).flatten ++ encodeUtf8 "\r\n".toList ++ (afterHead rest).take n) ∧
    ((afterHead rest).length < n → (∃ e, result.1 = .error (.err e)) ∧ result.2.delivered =
      encodeUtf8 (req.method ++ " ".toList ++ req.path ++ " HTTP/1.1\r\n".toList) ++
        (headLines rest).flatten ++ encodeUtf8 "\r\n".toList)

section

variable {stream first : Bytes} {rest : List Bytes} {line : Text} {headers : List Text}
  {req : HttpRequest} {n : ℕ} {t : τ}

/-- The result is that for a stream which arrives in one read. -/
theorem handles_congr {reads reads' : Reads}
    (hlines : splitInclusive 10 reads'.bytes = first :: rest)
    (hline : decodeUtf8 first = some line) (hreads : reads.bytes = reads'.bytes)
    (hreq : parseHttpRequest line.trimEnd = .ok req) {r' : BufReader}
    (hrest' : splitInclusive 10 r'.remaining = rest) :
    (∃ reader, readRequestLine reads = .ok (line.trimEnd, reader) ∧
      env.handlePlainHttp reader line.trimEnd .new = env.handlePlainHttp r' line.trimEnd .new) ∧
    ∀ casing : CaseMapping, ¬"CONNECT ".toList.isPrefixOf (casing.toUppercase line.trimEnd) →
      env.handleConnection casing reads .new = env.handlePlainHttp r' line.trimEnd .new := by
  obtain ⟨r, hr, hrest⟩ := readRequestLine_ok (hreads ▸ hlines) hline
  have hremaining : r.remaining = r'.remaining := by
    rw [← flatten_splitInclusive 10 r.remaining, hrest, ← hrest', flatten_splitInclusive]
  have hsame := handlePlainHttp_congr env hremaining line.trimEnd
  refine ⟨⟨r, hr, by rw [hsame]⟩, fun casing hcasing => ?_⟩
  have hne : ¬line.trimEnd.isEmpty := fun hempty => by
    rw [List.isEmpty_iff.1 hempty] at hreq
    exact absurd hreq (by rintro ⟨⟩)
  rw [Env.handleConnection, hr, Handler.bind_ok (Handler.ofIo_ok _ _)]
  dsimp only
  rw [if_neg hne, if_neg hcasing, hsame]

/-- After the head, the handler does what it does with the body. -/
theorem handlePlainHttp_eq_body (hheaders : (headLines rest).mapM decodeUtf8 = some headers)
    (hreq : parseHttpRequest line.trimEnd = .ok req) (henv : env.Forwards req t)
    (hn : BodyLength headers n) {r : BufReader} (hrest : splitInclusive 10 r.remaining = rest) :
    ∃ r' s, r'.remaining = afterHead rest ∧ s.delivered =
        encodeUtf8 (req.method ++ " ".toList ++ req.path ++ " HTTP/1.1\r\n".toList) ++
          (headLines rest).flatten ++ encodeUtf8 "\r\n".toList ∧
      env.handlePlainHttp r line.trimEnd .new = forwardBody env n r' s := by
  obtain ⟨r', hafter, hread⟩ := readHeaders_of_lines hrest hheaders [] 0
  rw [List.nil_append, foldl_trackContentLength.2 hn] at hread
  obtain ⟨s, hs, heq⟩ := handlePlainHttp_eq hreq hread henv
  exact ⟨r', s, hafter, by rw [hs, forwardedHead, map_encodeUtf8_of_mapM hheaders], heq⟩

end

/-- If the picker, `connect` and the writes succeed, a request is forwarded so exactly if there
    is a buffer for its body: it has none, or the allocator grants as many bytes as are
    declared. What is forwarded is determined by the stream, however it is cut into reads; a
    body that is cut short is an error, with nothing of it forwarded. -/
theorem forwardsExactly_iff (env : Env τ) (stream first : Bytes) (rest : List Bytes) (line : Text)
    (headers : List Text) (req : HttpRequest) (n : ℕ) (t : τ)
    (hlines : splitInclusive 10 stream = first :: rest) (hline : decodeUtf8 first = some line)
    (hheaders : (headLines rest).mapM decodeUtf8 = some headers)
    (hreq : parseHttpRequest line.trimEnd = .ok req) (henv : env.Forwards req t)
    (hn : BodyLength headers n) (hmax : n ≤ isizeMax) :
    ForwardsExactly env stream line rest req n ↔ n = 0 ∨ env.allocates n = true := by
  have hstream : stream ≠ [] := fun hnil => by
    rw [hnil] at hlines
    exact absurd hlines (by simp [splitInclusive])
  let whole : Reads := [⟨stream, hstream⟩]
  have hwhole : whole.bytes = stream := List.append_nil _
  obtain ⟨r, hr, hrest⟩ := readRequestLine_ok (hwhole.symm ▸ hlines) hline
  obtain ⟨r', s, hafter, hhead, heq⟩ := handlePlainHttp_eq_body hheaders hreq henv hn hrest
  constructor
  · rintro ⟨result, hreads, hle, hlt⟩
    by_contra hrefused
    obtain ⟨hpos, hrefused⟩ := not_or.1 hrefused
    have hfault : env.refuses n = some (.outOfMemory n) := by
      rw [Env.refuses, if_neg (Nat.not_lt.2 hmax), if_neg hrefused]
    -- The process ends after the head, whether the body is there or not.
    obtain ⟨⟨r₀, hr₀, hresult⟩, -⟩ := hreads whole hwhole
    obtain rfl := (Prod.mk.inj (Except.ok.inj (hr.symm.trans hr₀))).2
    rw [heq, forwardBody_of_refuses (Nat.pos_of_ne_zero hpos) hfault] at hresult
    subst hresult
    rcases Nat.lt_or_ge (afterHead rest).length n with hless | hmore
    · obtain ⟨⟨e, he⟩, -⟩ := hlt hless
      exact absurd he (by simp)
    · have hbody := hle hmore
      rw [hhead] at hbody
      have hlength := congrArg List.length (List.append_right_eq_self.1 hbody.symm)
      rw [List.length_take_of_le hmore] at hlength
      exact hpos hlength
  · intro hgranted
    have hbuffer : n = 0 ∨ env.refuses n = none :=
      hgranted.imp_right fun h => Env.refuses_eq_none_iff.2 ⟨hmax, h⟩
    refine ⟨env.handlePlainHttp r line.trimEnd .new, fun reads hreads => ?_, fun hle => ?_,
      fun hlt => ?_⟩
    · exact handles_congr (hwhole.symm ▸ hlines) hline (hreads.trans hwhole.symm) hreq hrest
    · rw [heq, forwardBody_of_le henv.write hbuffer (hafter ▸ hle), hhead, hafter]
    · have hnone := hbuffer.resolve_left (Nat.ne_of_gt (Nat.zero_lt_of_lt hlt))
      have hfails : ∃ e, forwardBody env n r' s = (.error (.err e), s) :=
        forwardBody_of_lt hnone (hafter ▸ hlt)
      obtain ⟨e, he⟩ := hfails
      rw [heq, he]
      exact ⟨⟨e, rfl⟩, hhead⟩

/-- A request with a body of two bytes, and one byte more. -/
def postStream : Text := postLine ++ "\r\nContent-Length: 2\r\n\r\nhi!".toList

/-- Its head and the two bytes are forwarded. -/
theorem forwardsExactly_postStream : ForwardsExactly sampleEnv (encodeUtf8 postStream)
    (postLine ++ "\r\n".toList)
    (["Content-Length: 2\r\n".toList, "\r\n".toList, "hi!".toList].map encodeUtf8)
    postRequest 2 := by
  have hlines : splitInclusive 10 (encodeUtf8 postStream) =
      encodeUtf8 (postLine ++ "\r\n".toList) ::
        ["Content-Length: 2\r\n".toList, "\r\n".toList, "hi!".toList].map encodeUtf8 := by
    decide +kernel
  have hlast : BodyLength ["Content-Length: 2\r\n".toList] 2 :=
    .inl ⟨[], _, [], rfl, rfl, fun l hl => absurd hl List.not_mem_nil⟩
  exact (forwardsExactly_iff sampleEnv _ _ _ _ ["Content-Length: 2\r\n".toList] postRequest 2 ()
    hlines (decodeUtf8_encodeUtf8 _) rfl rfl ⟨rfl, rfl, fun _ _ => rfl⟩ hlast (by decide)).2
    (.inr rfl)

/-- The end of a head that declares a body of 2^46 bytes, which does not come. -/
def largeRest : List Text := ["Content-Length: 70368744177664\r\n".toList, "\r\n".toList]

/-- An allocator without so many bytes to give. -/
def smallEnv : Env Unit := { sampleEnv with allocates := (Nat.blt · 70368744177664) }

/-- The process ends instead of returning an error, although no byte of the body has come. -/
theorem not_forwardsExactly_large : ¬∀ (env : Env Unit) (stream first : Bytes) (rest : List Bytes)
    (line : Text) (headers : List Text) (req : HttpRequest) (n : ℕ) (t : Unit),
    splitInclusive 10 stream = first :: rest → decodeUtf8 first = some line →
    (headLines rest).mapM decodeUtf8 = some headers →
    parseHttpRequest line.trimEnd = .ok req → env.Forwards req t → BodyLength headers n →
    n ≤ isizeMax → ForwardsExactly env stream line rest req n := by
  intro h
  let stream := encodeUtf8 (postLine ++ "\r\n".toList ++ largeRest.flatten)
  have hlines : splitInclusive 10 stream =
      encodeUtf8 (postLine ++ "\r\n".toList) :: largeRest.map encodeUtf8 := by
    decide +kernel
  have hheaders : (headLines (largeRest.map encodeUtf8)).mapM decodeUtf8 =
      some ["Content-Length: 70368744177664\r\n".toList] := by
    decide +kernel
  have hlast : BodyLength ["Content-Length: 70368744177664\r\n".toList] (2 ^ 46) :=
    .inl ⟨[], _, [], rfl, by decide +kernel, fun l hl => absurd hl List.not_mem_nil⟩
  have hforwards : smallEnv.Forwards postRequest () := ⟨rfl, rfl, fun _ _ => rfl⟩
  obtain ⟨result, hreads, -, hlt⟩ := h smallEnv stream _ _ _ _ postRequest (2 ^ 46) () hlines
    (decodeUtf8_encodeUtf8 _) hheaders rfl hforwards hlast (by decide)
  -- No byte of the body is there, so there would have to be an error.
  have hshort : (afterHead (largeRest.map encodeUtf8)).length < 2 ^ 46 := by decide +kernel
  obtain ⟨⟨e, he⟩, -⟩ := hlt hshort
  obtain ⟨⟨r, hr, hresult⟩, -⟩ := hreads [⟨stream, by decide⟩] (List.append_nil _)
  have hbytes : Reads.bytes [⟨stream, by decide⟩] = stream := List.append_nil _
  obtain ⟨r₀, hr₀, hrest⟩ :=
    readRequestLine_ok (hbytes.symm ▸ hlines) (decodeUtf8_encodeUtf8 (postLine ++ "\r\n".toList))
  obtain rfl := (Prod.mk.inj (Except.ok.inj (hr.symm.trans hr₀))).2
  obtain ⟨r', s, -, -, heq⟩ := handlePlainHttp_eq_body hheaders
    (show parseHttpRequest (trimEnd (postLine ++ "\r\n".toList)) = .ok postRequest from rfl)
    hforwards hlast hrest
  -- But the buffer is refused before a byte is read.
  have hfault : smallEnv.refuses (2 ^ 46) = some (.outOfMemory (2 ^ 46)) := by decide
  rw [heq, forwardBody_of_refuses (by decide) hfault] at hresult
  rw [← hresult] at he
  exact absurd he (by simp)

/-! ## Lengths that are too large -/

/-- The handler returns, with a request forwarded or an error, whatever comes of its calls and
    writes; the allocator grants these lengths. -/
def Returns (allocates : ℕ → Bool) (r : BufReader) (firstLine : Text) : Prop :=
  ∀ (τ : Type) (env : Env τ), env.allocates = allocates →
    (env.handlePlainHttp r firstLine .new).1 = .ok () ∨
      ∃ e, (env.handlePlainHttp r firstLine .new).1 = .error (.err e)

/-- Where the process ends with a handler, it has ended so. -/
def FatalOnly {α : Type} (P : Fault → Prop) (x : Handler τ α) : Prop :=
  ∀ s e s', x s = (.error e, s') → e.fatal = true → P e

section

variable {α β : Type} {P : Fault → Prop}

/-- A handler in two parts. -/
theorem FatalOnly.bind {x : Handler τ α} {f : α → Handler τ β} (hx : FatalOnly P x)
    (hf : ∀ a, FatalOnly P (f a)) : FatalOnly P (x >>= f) := by
  intro s e s' h hfatal
  rcases hxs : x s with ⟨e' | a, s₁⟩
  · rw [Handler.bind_error hxs] at h
    obtain ⟨he, rfl⟩ := Prod.mk.inj h
    exact hx s e s₁ (Except.error.inj he ▸ hxs) hfatal
  · rw [Handler.bind_ok hxs] at h
    exact hf a s₁ e s' h hfatal

/-- A result does not end the process, -/
theorem fatalOnly_pure (a : α) : FatalOnly P (pure a : Handler τ α) :=
  fun _ _ _ h => absurd (Prod.mk.inj h).1 (by simp)

/-- An error that is returned does not end the process. -/
theorem fatalOnly_throw (e : Error) : FatalOnly P (throw (.err e) : Handler τ α) := by
  intro s fault s' h hfatal
  obtain rfl := Except.error.inj (Prod.mk.inj h).1
  exact absurd hfatal (by simp [Fault.fatal])

/-- nor does using a result, -/
theorem fatalOnly_ofExcept (x : Except Error α) :
    FatalOnly P (Handler.ofExcept x : Handler τ α) := by
  rcases x with e | a
  · exact fatalOnly_throw e
  · exact fatalOnly_pure a

/-- nor using one of an I/O operation, -/
theorem fatalOnly_ofIo (x : Except IoError α) : FatalOnly P (Handler.ofIo x : Handler τ α) := by
  rcases x with e | a
  · exact fatalOnly_throw (.io e)
  · exact fatalOnly_pure a

/-- nor recording something, -/
theorem fatalOnly_modify (f : Session τ → Session τ) :
    FatalOnly P (modify f : Handler τ Unit) :=
  fun _ _ _ h => absurd (Prod.mk.inj h).1 (by simp)

/-- nor the call of the picker, -/
theorem fatalOnly_pick (env : Env τ) (host : Text) (port : UInt16) :
    FatalOnly P (env.pick host port) :=
  (fatalOnly_modify _).bind fun _ => fatalOnly_ofExcept _

/-- nor that of `connect`, -/
theorem fatalOnly_connectThrough (env : Env τ) (t : τ) (host : Text) (port : UInt16) :
    FatalOnly P (env.connectThrough t host port) :=
  (fatalOnly_modify _).bind fun _ => fatalOnly_ofExcept _

/-- nor a write to the tunnel, -/
theorem fatalOnly_writeAllTunnel (env : Env τ) (bs : Bytes) :
    FatalOnly P (env.writeAllTunnel bs) :=
  FatalOnly.bind (fun _ _ _ h => absurd (Prod.mk.inj h).1 (by simp)) fun _ =>
    (fatalOnly_ofIo _).bind fun _ => fatalOnly_modify _

/-- nor many of them. -/
theorem fatalOnly_forM (env : Env τ) (headers : List Text) :
    FatalOnly P (headers.forM fun header => env.writeAllTunnel (encodeUtf8 header)) := by
  induction headers with
  | nil => exact fatalOnly_pure ()
  | cons header headers ih => exact (fatalOnly_writeAllTunnel env _).bind fun _ => ih

end

/-- The process ends where there is no buffer for the body. -/
theorem fatalOnly_forwardBody (env : Env τ) (n : ℕ) (r : BufReader) :
    FatalOnly (fun e => 0 < n ∧ env.refuses n = some e) (forwardBody env n r) := by
  have hflush {P : Fault → Prop} :
      FatalOnly P (do Handler.ofIo env.flushTunnel; env.copyResponse) :=
    (fatalOnly_ofIo _).bind fun _ => fatalOnly_modify _
  rw [forwardBody]
  by_cases hpos : n > 0
  · rw [if_pos hpos]
    rcases hbuffer : env.refuses n with _ | fault
    · exact (fatalOnly_ofIo _).bind fun _ => (fatalOnly_writeAllTunnel env _).bind fun _ => hflush
    · intro s e s' h _
      obtain rfl := Except.error.inj (Prod.mk.inj h).1
      exact ⟨hpos, rfl⟩
  · rw [if_neg hpos]
    exact hflush

/-- So it is the body that does, if anything does. -/
theorem fatalOnly_forward (env : Env τ) (req : HttpRequest) (headers : List Text) (n : ℕ)
    (r : BufReader) : FatalOnly (fun e => 0 < n ∧ env.refuses n = some e)
      (forward env req headers n r) :=
  (fatalOnly_pick env _ _).bind fun t => (fatalOnly_connectThrough env t _ _).bind fun _ =>
    (fatalOnly_writeAllTunnel env _).bind fun _ => (fatalOnly_forM env headers).bind fun _ =>
      (fatalOnly_writeAllTunnel env _).bind fun _ => fatalOnly_forwardBody env n r

/-- There is no buffer for the body: the handler does not return. -/
theorem fault_of_refuses {r r' : BufReader} {firstLine : Text} {req : HttpRequest}
    {headers : List Text} {n : ℕ} {t : τ} {fault : Fault}
    (hreq : parseHttpRequest firstLine = .ok req)
    (hread : readHeaders r [] 0 = .ok (headers, n, r')) (henv : env.Forwards req t)
    (hpos : 0 < n) (hbuffer : env.refuses n = some fault) :
    (env.handlePlainHttp r firstLine .new).1 = .error fault := by
  obtain ⟨s, -, heq⟩ := handlePlainHttp_eq hreq hread henv
  rw [heq, forwardBody_of_refuses hpos hbuffer]

/-- The handler returns, whatever fails or does not, exactly if there is a buffer for the body:
    the length that it finds in the header lines is zero, or is one of an allocation that is
    granted. -/
theorem returns_iff (allocates : ℕ → Bool) (r : BufReader) (firstLine : Text) :
    Returns allocates r firstLine ↔
      ∀ req headers n, parseHttpRequest firstLine = .ok req →
        (headLines (splitInclusive 10 r.remaining)).mapM decodeUtf8 = some headers →
        BodyLength headers n → Grants allocates n := by
  constructor
  · intro h req headers n hreq hheaders hn
    by_contra hnone
    obtain ⟨hpos, hrefused⟩ := not_or.1 hnone
    obtain ⟨r', -, hread⟩ := readHeaders_of_lines rfl hheaders [] 0
    rw [List.nil_append, foldl_trackContentLength.2 hn] at hread
    -- Everything else succeeds.
    let env : Env Unit := { sampleEnv with allocates := allocates }
    obtain ⟨fault, hbuffer⟩ : ∃ fault, env.refuses n = some fault :=
      Option.ne_none_iff_exists'.1 fun hbuffer => hrefused (Env.refuses_eq_none_iff.1 hbuffer)
    have hfault := fault_of_refuses hreq hread
      (show env.Forwards req () from ⟨rfl, rfl, fun _ _ => rfl⟩) (Nat.pos_of_ne_zero hpos) hbuffer
    rcases h Unit env rfl with hok | ⟨e, he⟩
    · exact absurd (hfault.symm.trans hok) (by simp)
    · obtain rfl := Except.error.inj (hfault.symm.trans he)
      exact absurd (Env.fatal_of_refuses hbuffer) (by simp [Fault.fatal])
  · rintro h τ env rfl
    rcases hreq : parseHttpRequest firstLine with e | req
    · rw [Env.handlePlainHttp, hreq]
      exact .inr ⟨e, rfl⟩
    · rcases hheaders : (headLines (splitInclusive 10 r.remaining)).mapM decodeUtf8 with _ | headers
      · obtain ⟨e, he⟩ := readHeaders_eq_error rfl hheaders [] 0
        rw [Env.handlePlainHttp, hreq, Handler.bind_ok (Handler.ofExcept_ok _ _), he,
          Handler.bind_error (Handler.ofIo_error _ _)]
        exact .inr ⟨_, rfl⟩
      · obtain ⟨r', -, hread⟩ := readHeaders_of_lines rfl hheaders [] 0
        have hbuffer := h req headers _ hreq hheaders (foldl_trackContentLength.1 rfl)
        rw [List.nil_append] at hread
        rw [handlePlainHttp_eq_forward hreq hread]
        rcases hrun : forward env req headers _ r' .new with ⟨fault | u, s⟩
        · by_cases hfatal : fault.fatal = true
          · obtain ⟨hpos, hrefuses⟩ := fatalOnly_forward env req headers _ r' _ _ _ hrun hfatal
            have hnone := Env.refuses_eq_none_iff.2 (hbuffer.resolve_left hpos.ne')
            exact absurd (hnone.symm.trans hrefuses) (by simp)
          · rcases fault with e | msg | k
            · exact .inr ⟨e, rfl⟩
            · exact absurd rfl hfatal
            · exact absurd rfl hfatal
        · exact .inl rfl

/-- The end of a head that declares a body of 2^63 bytes. -/
def hugeRest : Text := "Content-Length: 9223372036854775808\r\n\r\n".toList

/-- It brings the process down, with any allocator, as `vec!` panics for such a length. -/
theorem not_returns_huge :
    ¬∀ (r : BufReader) (firstLine : Text), Returns (fun _ => true) r firstLine := by
  intro h
  have hlines : splitInclusive 10 (readerOf hugeRest (by decide)).remaining =
      ["Content-Length: 9223372036854775808\r\n".toList, "\r\n".toList].map encodeUtf8 := by
    decide +kernel
  have hheaders : (headLines (["Content-Length: 9223372036854775808\r\n".toList,
      "\r\n".toList].map encodeUtf8)).mapM decodeUtf8 =
        some ["Content-Length: 9223372036854775808\r\n".toList] := by
    decide +kernel
  obtain ⟨r', -, hread⟩ := readHeaders_of_lines hlines hheaders [] 0
  have hpanic := fault_of_refuses parse_postLine hread
    (show sampleEnv.Forwards postRequest () from ⟨rfl, rfl, fun _ _ => rfl⟩) (by decide +kernel)
    (show sampleEnv.refuses _ = some (.panicked "capacity overflow".toList) by decide +kernel)
  rcases h (readerOf hugeRest (by decide)) postLine Unit sampleEnv rfl with hok | ⟨e, he⟩
  · exact absurd (hpanic.symm.trans hok) (by simp)
  · exact absurd (hpanic.symm.trans he) (by simp)

end Houdinny.Proxy
