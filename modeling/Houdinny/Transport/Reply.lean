import Houdinny.Lib.Source
import Houdinny.Transport

/-!
# Replies of HTTP proxies

To be connected through an HTTP proxy, a transport sends a CONNECT request, and reads the
reply byte by byte until an empty line ends its head (`readResponse`). What the loop does is
said once and for all in `readResponse_spec`. So what is consumed of the reply is the head
and nothing else, and the loop ends, for every source of bytes (`consumes_head`).

The limit of 8 KiB is tested after the end of the head, and is exceeded by one byte: it is
exact unless the head is of 8193 bytes (`limited_iff`).

* `Network` is what the transport asks for: a TCP stream, writes, and reads of one byte. The
  states of a stream are of any type, so a stream may be one that never ends.
* `Outcome` lists what may come of the loop: a head is returned, the stream ends before its
  head does, or the head is too long. It is closed under reading one more byte before
  (`Outcome.cons`), which is the step of the induction.
* `Network.recording` is a network that keeps the blocks written beside the stream. The loop
  does the same on both (`readResponse_sim`), so what is written is known as well
  (`writes_connectRequest`).
-/

namespace Houdinny.HttpProxyTransport

open Text Stream

/-! ## Connecting -/

/-- The network, with the states `σ` of a TCP stream. -/
structure Network (σ : Type) where
  /-- `TcpStream::connect`. -/
  connect : Text → Except IoError σ
  writeAll : Bytes → σ → Except IoError Unit × σ
  readU8 : σ → Except IoError UInt8 × σ

/-- An error of a transport, which names the proxy. -/
def tunnelError (proxyAddr msg : Text) : Error :=
  .tunnelConnect ("HTTP CONNECT proxy ".toList ++ proxyAddr ++ msg)

/-- The end of a head. -/
def endOfHeaders : Bytes := [13, 10, 13, 10]

/-- Reading of the reply failed. -/
def readFailed (proxyAddr : Text) (e : IoError) : Error :=
  tunnelError proxyAddr (": read response failed: ".toList ++ e)

/-- The safety limit was exceeded. -/
def tooLarge (proxyAddr : Text) : Error :=
  tunnelError proxyAddr ": response headers too large (>8KiB)".toList

variable {σ : Type}

/-- Read the response until the end of its headers, after the bytes in `buf`: these with
    those read, and what is left of the stream. -/
def readResponse (readU8 : σ → Except IoError UInt8 × σ) (proxyAddr : Text) (s : σ)
    (buf : Bytes) : Except Error Bytes × σ :=
  match readU8 s with
  | (.error e, s) => (.error (readFailed proxyAddr e), s)
  | (.ok byte, s) =>
    let pushed := buf ++ [byte]
    if 4 ≤ pushed.length ∧ pushed.drop (pushed.length - 4) = endOfHeaders then (.ok pushed, s)
    else if 8192 < pushed.length then (.error (tooLarge proxyAddr), s)
    else readResponse readU8 proxyAddr s pushed
termination_by 8193 - buf.length
decreasing_by
  have hle : (buf ++ [byte]).length ≤ 8192 := Nat.le_of_not_lt ‹_›
  simp only [List.length_append, List.length_singleton] at hle ⊢
  omega

/-- `lines().next().unwrap_or("")`. -/
def firstLine (s : Text) : Text := (lines s).headD []

/-- The status code in a status line, or zero. -/
def statusCode (statusLine : Text) : ℕ :=
  (((splitWhitespace statusLine)[1]?).bind (parseUnsigned 65535)).getD 0

/-- Connect to `addr:port` through the proxy: the stream is then a tunnel. -/
def connect (net : Network σ) (base64 : Text → Text) (t : HttpProxyTransport) (addr : Text)
    (port : UInt16) : Except Error σ :=
  match net.connect t.proxyAddr with
  | .error e => .error (tunnelError t.proxyAddr (": TCP connect failed: ".toList ++ e))
  | .ok s =>
    match net.writeAll (encodeUtf8 (t.connectRequest base64 addr port)) s with
    | (.error e, _) => .error (tunnelError t.proxyAddr (": write CONNECT failed: ".toList ++ e))
    | (.ok (), s) =>
      match readResponse net.readU8 t.proxyAddr s [] with
      | (.error e, _) => .error e
      | (.ok buf, s) =>
        let statusLine := firstLine (fromUtf8Lossy buf)
        if statusCode statusLine ≠ 200 then
          .error (tunnelError t.proxyAddr (" returned status ".toList ++
            ofNat (statusCode statusLine) ++ ": ".toList ++ statusLine))
        else .ok s

/-! ## The response loop -/

variable {readU8 : σ → Except IoError UInt8 × σ} {proxyAddr : Text} {s t : σ} {buf : Bytes}

/-- The test of the source: the last four bytes are the end of a head. -/
theorem endOfHeaders_suffix : endOfHeaders <:+ buf ↔
    4 ≤ buf.length ∧ buf.drop (buf.length - 4) = endOfHeaders := by
  rw [List.suffix_iff_eq_drop]
  have hlen : endOfHeaders.length = 4 := rfl
  rw [hlen]
  refine ⟨fun h => ⟨?_, h.symm⟩, fun h => h.2.symm⟩
  have := congrArg List.length h
  rw [List.length_drop, hlen] at this
  omega

/-- What the loop does in one pass. -/
theorem readResponse_eq (readU8 : σ → Except IoError UInt8 × σ) (proxyAddr : Text) (s : σ)
    (buf : Bytes) : readResponse readU8 proxyAddr s buf =
      match readU8 s with
      | (.error e, t) => (.error (readFailed proxyAddr e), t)
      | (.ok byte, t) =>
        if endOfHeaders <:+ buf ++ [byte] then (.ok (buf ++ [byte]), t)
        else if 8192 < (buf ++ [byte]).length then (.error (tooLarge proxyAddr), t)
        else readResponse readU8 proxyAddr t (buf ++ [byte]) := by
  rw [readResponse]
  simp only [endOfHeaders_suffix]

/-- What may come of the loop, for the bytes that it reads after those in `buf`. -/
inductive Outcome (readU8 : σ → Except IoError UInt8 × σ) (proxyAddr : Text) (s : σ)
    (buf : Bytes) : Except Error Bytes × σ → Prop
  | head {bs : Bytes} {t : σ} : Yields readU8 s bs t → EndsFirst endOfHeaders (buf ++ bs) →
      (buf ++ bs).length ≤ 8193 → Outcome readU8 proxyAddr s buf (.ok (buf ++ bs), t)
  | failed {bs : Bytes} {t u : σ} {e : IoError} : Yields readU8 s bs t →
      ¬endOfHeaders <:+: buf ++ bs → (buf ++ bs).length ≤ 8192 → readU8 t = (.error e, u) →
      Outcome readU8 proxyAddr s buf (.error (readFailed proxyAddr e), u)
  | exceeded {bs : Bytes} {t : σ} : Yields readU8 s bs t → ¬endOfHeaders <:+: buf ++ bs →
      (buf ++ bs).length = 8193 →
      Outcome readU8 proxyAddr s buf (.error (tooLarge proxyAddr), t)

/-- What comes of the loop after a byte comes of the loop with it. -/
theorem Outcome.cons {byte : UInt8} {r : Except Error Bytes × σ} (hbyte : readU8 s = (.ok byte, t))
    (h : Outcome readU8 proxyAddr t (buf ++ [byte]) r) : Outcome readU8 proxyAddr s buf r := by
  have hassoc (bs : Bytes) : buf ++ [byte] ++ bs = buf ++ byte :: bs := List.append_assoc ..
  cases h with
  | head hbs hend hlen =>
    rw [hassoc] at hend hlen ⊢
    exact .head (.cons hbyte hbs) hend hlen
  | failed hbs hno hlen he =>
    rw [hassoc] at hno hlen
    exact .failed (.cons hbyte hbs) hno hlen he
  | exceeded hbs hno hlen =>
    rw [hassoc] at hno hlen
    exact .exceeded (.cons hbyte hbs) hno hlen

/-- What comes of the loop, as long as the headers have not ended. -/
theorem readResponse_spec (hno : ¬endOfHeaders <:+: buf) (hlen : buf.length ≤ 8192) :
    Outcome readU8 proxyAddr s buf (readResponse readU8 proxyAddr s buf) := by
  -- Induction on how many more bytes may be read.
  induction hn : 8193 - buf.length generalizing s buf with
  | zero => omega
  | succ n ih =>
    have hpushed (byte : UInt8) : (buf ++ [byte]).length = buf.length + 1 := List.length_append
    rw [readResponse_eq]
    rcases hread : readU8 s with ⟨e | byte, t⟩
    · exact .failed .nil (by rwa [List.append_nil]) (by rwa [List.append_nil]) hread
    · dsimp only
      split_ifs with hend hlarge
      · refine .head (.cons hread .nil) ((endsFirst_concat hno byte).2 hend) ?_
        rw [hpushed]
        omega
      · refine .exceeded (.cons hread .nil) (not_infix_concat hno hend) ?_
        rw [hpushed] at hlarge ⊢
        omega
      · rw [hpushed] at hlarge
        exact .cons hread (ih (not_infix_concat hno hend) (by rw [hpushed]; omega)
          (by rw [hpushed]; omega))

/-- What comes of the loop. -/
theorem readResponse_nil (readU8 : σ → Except IoError UInt8 × σ) (proxyAddr : Text) (s : σ) :
    Outcome readU8 proxyAddr s [] (readResponse readU8 proxyAddr s []) :=
  readResponse_spec (by decide) (by decide)

/-- Two sources that go along with each other give the same result. -/
theorem readResponse_sim {τ : Type} {readU8' : τ → Except IoError UInt8 × τ} (R : σ → τ → Prop)
    (hR : ∀ s a, R s a → (readU8 s).1 = (readU8' a).1 ∧ R (readU8 s).2 (readU8' a).2) {a : τ}
    (h : R s a) (buf : Bytes) :
    (readResponse readU8 proxyAddr s buf).1 = (readResponse readU8' proxyAddr a buf).1 ∧
      R (readResponse readU8 proxyAddr s buf).2 (readResponse readU8' proxyAddr a buf).2 := by
  induction hn : 8193 - buf.length using Nat.strongRecOn generalizing s a buf with
  | ind n ih =>
    -- Both sources give the same byte, and go on along with each other.
    obtain ⟨hresult, hnext⟩ := hR s a h
    rw [readResponse_eq readU8, readResponse_eq readU8']
    rcases hs : readU8 s with ⟨r, t⟩
    rcases ha : readU8' a with ⟨r', b⟩
    rw [hs, ha] at hresult hnext
    dsimp only at hresult hnext
    subst hresult
    rcases r with e | byte
    · exact ⟨rfl, hnext⟩
    · dsimp only
      split_ifs with hend hlarge
      · exact ⟨rfl, hnext⟩
      · exact ⟨rfl, hnext⟩
      · have hpushed : (buf ++ [byte]).length = buf.length + 1 := List.length_append
        exact ih _ (by omega) hnext _ rfl

/-! ## What is consumed of a reply -/

/-- The proxy is connected to, and the request is written: the reply is to be read from `s`. -/
def Reaches (net : Network σ) (base64 : Text → Text) (t : HttpProxyTransport) (addr : Text)
    (port : UInt16) (s : σ) : Prop :=
  ∃ s₀, net.connect t.proxyAddr = .ok s₀ ∧
    net.writeAll (encodeUtf8 (t.connectRequest base64 addr port)) s₀ = (.ok (), s)

/-- What is consumed of a reply is its head, and the tunnel is the rest of the stream. -/
structure ConsumesHead (net : Network σ) (base64 : Text → Text) (t : HttpProxyTransport)
    (addr : Text) (port : UInt16) : Prop where
  /-- The head is the shortest prefix that ends in an empty line. The status in its first line
      is 200, and the tunnel yields what the stream yields after the head. -/
  ok : ∀ tunnel, t.connect net base64 addr port = .ok tunnel → ∃ s head,
    t.Reaches net base64 addr port s ∧ Yields net.readU8 s head tunnel ∧
      EndsFirst endOfHeaders head ∧
      (∃ token, (splitWhitespace (firstLine (fromUtf8Lossy head)))[1]? = some token ∧
        parseUnsigned 65535 token = some 200) ∧
      ∀ bs u, Yields net.readU8 s (head ++ bs) u ↔ Yields net.readU8 tunnel bs u
  /-- Where the stream ends first, there is no tunnel. -/
  ended : ∀ s bs u e u', t.Reaches net base64 addr port s → Yields net.readU8 s bs u →
    net.readU8 u = (.error e, u') → ¬endOfHeaders <:+: bs →
      ∃ err, t.connect net base64 addr port = .error err
  /-- Where there is no empty line in the first 8193 bytes, there is none either. -/
  endless : ∀ s bs u, t.Reaches net base64 addr port s → Yields net.readU8 s bs u →
    bs.length = 8193 → ¬endOfHeaders <:+: bs → ∃ err, t.connect net base64 addr port = .error err
  /-- The loop ends after 8193 reads at most. -/
  bounded : ∀ s, ∃ n ≤ 8193, readResponse (counting net.readU8) t.proxyAddr (s, 0) [] =
    ((readResponse net.readU8 t.proxyAddr s []).1, (readResponse net.readU8 t.proxyAddr s []).2, n)

variable {net : Network σ} {base64 : Text → Text} {p : HttpProxyTransport} {addr : Text}
  {port : UInt16} {head bs : Bytes} {u : σ}

/-- What is made of a head that was read, and of the stream after it. -/
def finish (p : HttpProxyTransport) (head : Bytes) (s : σ) : Except Error σ :=
  let statusLine := firstLine (fromUtf8Lossy head)
  if statusCode statusLine ≠ 200 then
    .error (tunnelError p.proxyAddr (" returned status ".toList ++
      ofNat (statusCode statusLine) ++ ": ".toList ++ statusLine))
  else .ok s

/-- What comes of `connect` is what is made of what the loop reads. -/
theorem connect_of_reaches (h : p.Reaches net base64 addr port s) :
    p.connect net base64 addr port =
      match readResponse net.readU8 p.proxyAddr s [] with
      | (.error e, _) => .error e
      | (.ok head, s) => p.finish head s := by
  obtain ⟨s₀, hconnect, hwrite⟩ := h
  simp only [connect, hconnect, hwrite]
  rfl

/-- Without the proxy there is no tunnel. -/
theorem reaches_of_connect (h : p.connect net base64 addr port = .ok t) :
    ∃ s, p.Reaches net base64 addr port s := by
  rw [connect] at h
  split at h
  · exact absurd h (by simp)
  · next s₀ hconnect =>
    split at h
    · exact absurd h (by simp)
    · next s hwrite => exact ⟨s, s₀, hconnect, hwrite⟩

/-- There is one such stream at most. -/
theorem Reaches.unique (h : p.Reaches net base64 addr port s)
    (h' : p.Reaches net base64 addr port t) : s = t := by
  obtain ⟨s₀, hconnect, hwrite⟩ := h
  obtain ⟨t₀, hconnect', hwrite'⟩ := h'
  obtain rfl := Except.ok.inj (hconnect.symm.trans hconnect')
  exact (Prod.mk.inj (hwrite.symm.trans hwrite')).2

/-- The tunnel is there exactly if the status is 200. -/
theorem finish_eq_ok : p.finish head s = .ok t ↔
    statusCode (firstLine (fromUtf8Lossy head)) = 200 ∧ s = t := by
  rw [finish]
  split_ifs with hstatus
  · exact iff_of_false (by simp) fun h => hstatus h.1
  · rw [and_iff_right (not_not.1 hstatus), Except.ok.injEq]

/-- The status code is 200 only where the second word of the line is read so. -/
theorem statusCode_eq_200 {line : Text} (h : statusCode line = 200) : ∃ token,
    (splitWhitespace line)[1]? = some token ∧ parseUnsigned 65535 token = some 200 := by
  rw [statusCode] at h
  rcases htoken : (splitWhitespace line)[1]? with _ | token
  · rw [htoken] at h
    exact absurd h (by decide)
  · rw [htoken, Option.bind_some] at h
    rcases hcode : parseUnsigned 65535 token with _ | code
    · rw [hcode] at h
      exact absurd h (by decide)
    · rw [hcode] at h
      exact ⟨token, rfl, hcode.trans (congrArg _ h)⟩

/-- A head that can be read is returned, if it is not too long. -/
theorem Outcome.of_head {r : Except Error Bytes × σ} (hr : Outcome readU8 proxyAddr s [] r)
    (h : Yields readU8 s head u) (hend : EndsFirst endOfHeaders head) :
    head.length ≤ 8193 ∧ r = (.ok head, u) ∨
      8193 < head.length ∧ r.1 = .error (tooLarge proxyAddr) := by
  cases hr with
  | head hbs hend' hlen =>
    obtain ⟨rfl, rfl⟩ := hend.yields_unique hend' h hbs
    exact .inl ⟨hlen, rfl⟩
  | failed hbs hno _ he =>
    obtain ⟨_, _, -, hds⟩ := hend.goes_on h hbs hno
    exact absurd (hds.eq_nil_of_error he) (List.cons_ne_nil _ _)
  | exceeded hbs hno hlen =>
    obtain ⟨_, _, rfl, -⟩ := hend.goes_on h hbs hno
    refine .inr ⟨?_, rfl⟩
    rw [List.length_append, List.length_cons]
    change _ = 8193 at hlen
    rw [List.nil_append] at hlen
    omega

/-- What is returned is a head. -/
theorem Outcome.of_ok (hr : Outcome readU8 proxyAddr s [] (.ok head, u)) :
    Yields readU8 s head u ∧ EndsFirst endOfHeaders head ∧ head.length ≤ 8193 := by
  cases hr with
  | head hbs hend hlen => exact ⟨hbs, hend, hlen⟩

/-- The source is read 8193 times at most. -/
theorem Outcome.reads_le {r : Except Error Bytes × (σ × ℕ)}
    (hr : Outcome (counting readU8) proxyAddr (s, 0) [] r) : r.2.2 ≤ 8193 := by
  cases hr with
  | head hbs _ hlen =>
    rw [hbs.count, Nat.zero_add]
    exact hlen
  | failed hbs _ hlen he =>
    have hlast := congrArg (fun r => r.2.2) he
    dsimp only [counting] at hlast
    rw [← hlast, hbs.count, Nat.zero_add]
    exact Nat.succ_le_succ hlen
  | exceeded hbs _ hlen =>
    rw [hbs.count, Nat.zero_add]
    exact hlen.le

/-- The loop reads as often with a count. -/
theorem readResponse_counting : ∃ n ≤ 8193, readResponse (counting readU8) proxyAddr (s, 0) [] =
    ((readResponse readU8 proxyAddr s []).1, (readResponse readU8 proxyAddr s []).2, n) := by
  have houtcome := readResponse_nil (counting readU8) proxyAddr (s, 0)
  have hsim : ∀ s (q : σ × ℕ), s = q.1 →
      (readU8 s).1 = (counting readU8 q).1 ∧ (readU8 s).2 = (counting readU8 q).2.1 := by
    rintro _ q rfl
    exact ⟨rfl, rfl⟩
  obtain ⟨hresult, hrest⟩ : (readResponse readU8 proxyAddr s []).1 =
        (readResponse (counting readU8) proxyAddr (s, 0) []).1 ∧
      (readResponse readU8 proxyAddr s []).2 =
        (readResponse (counting readU8) proxyAddr (s, 0) []).2.1 :=
    readResponse_sim (fun s (q : σ × ℕ) => s = q.1) hsim (rfl : s = (s, 0).1) []
  exact ⟨_, houtcome.reads_le, Prod.ext hresult.symm (Prod.ext hrest.symm rfl)⟩

/-- A tunnel is what is left of the stream after a head with status 200. -/
theorem connect_eq_ok (h : p.connect net base64 addr port = .ok t) : ∃ s head,
    p.Reaches net base64 addr port s ∧ Yields net.readU8 s head t ∧
      EndsFirst endOfHeaders head ∧ head.length ≤ 8193 ∧
      statusCode (firstLine (fromUtf8Lossy head)) = 200 := by
  obtain ⟨s, hs⟩ := reaches_of_connect h
  have houtcome := readResponse_nil net.readU8 p.proxyAddr s
  rw [connect_of_reaches hs] at h
  rcases hread : readResponse net.readU8 p.proxyAddr s [] with ⟨e | head, u⟩
  · rw [hread] at h
    exact absurd h (by simp)
  · rw [hread] at h houtcome
    obtain ⟨hstatus, rfl⟩ := finish_eq_ok.1 h
    obtain ⟨hyields, hend, hlen⟩ := houtcome.of_ok
    exact ⟨s, head, hs, hyields, hend, hlen, hstatus⟩

/-- Without a head that is not too long, there is no tunnel. -/
theorem connect_eq_error (hs : p.Reaches net base64 addr port s)
    (h : ∀ head u, Yields net.readU8 s head u → EndsFirst endOfHeaders head → 8193 < head.length) :
    ∃ e, p.connect net base64 addr port = .error e := by
  rcases hconnect : p.connect net base64 addr port with e | t
  · exact ⟨e, rfl⟩
  · obtain ⟨s', head, hs', hyields, hend, hlen, -⟩ := connect_eq_ok hconnect
    obtain rfl := hs.unique hs'
    exact absurd (h head t hyields hend) (Nat.not_lt.2 hlen)

/-- Of every reply, the head is consumed and nothing else, and the loop ends: what is left of
    the stream is the tunnel, if the status is 200, and otherwise there is an error. The source
    may be cut into reads in any way, or never end. -/
theorem consumes_head (net : Network σ) (base64 : Text → Text) (p : HttpProxyTransport)
    (addr : Text) (port : UInt16) : p.ConsumesHead net base64 addr port where
  ok t h := by
    obtain ⟨s, head, hs, hyields, hend, -, hstatus⟩ := connect_eq_ok h
    exact ⟨s, head, hs, hyields, hend, statusCode_eq_200 hstatus, fun _ _ => hyields.append_iff⟩
  ended s bs u e u' hs hbs he hno := by
    refine connect_eq_error hs fun head v hhead hend => ?_
    obtain ⟨_, _, -, hds⟩ := hend.goes_on hhead hbs hno
    exact absurd (hds.eq_nil_of_error he) (List.cons_ne_nil _ _)
  endless s bs u hs hbs hlen hno := by
    refine connect_eq_error hs fun head v hhead hend => ?_
    obtain ⟨_, _, rfl, -⟩ := hend.goes_on hhead hbs hno
    rw [List.length_append, List.length_cons]
    omega
  bounded _ := readResponse_counting

/-! ## What is written -/

/-- The network with a record, beside a stream, of the blocks that the stream was given to
    write. -/
def Network.recording (net : Network σ) : Network (σ × List Bytes) where
  connect addr := (net.connect addr).map fun s => (s, [])
  writeAll block s := ((net.writeAll block s.1).1, (net.writeAll block s.1).2, s.2 ++ [block])
  readU8 s := ((net.readU8 s.1).1, (net.readU8 s.1).2, s.2)

/-- One block is all that `connect` writes. What comes of `connect` is the same whatever
    `write_all` would make of other blocks, and a stream that is returned has been given this
    one only. -/
structure Writes (net : Network σ) (base64 : Text → Text) (t : HttpProxyTransport) (addr : Text)
    (port : UInt16) (block : Bytes) : Prop where
  only : ∀ net' : Network σ, net'.connect = net.connect → net'.readU8 = net.readU8 →
    (∀ s, net'.writeAll block s = net.writeAll block s) →
      t.connect net' base64 addr port = t.connect net base64 addr port
  recorded : ∀ s blocks, t.connect net.recording base64 addr port = .ok (s, blocks) →
    blocks = [block]

/-- Reading leaves the record as it is. -/
theorem recorded_of_yields {s u : σ × List Bytes} (h : Yields net.recording.readU8 s bs u) :
    u.2 = s.2 := by
  induction h with
  | nil => rfl
  | @cons s t u b bs hb _ ih =>
    have hrecord : s.2 = t.2 := congrArg (fun r => r.2.2) hb
    rw [ih, hrecord]

/-- The block is the request, whatever the network makes of it. -/
theorem writes_connectRequest (net : Network σ) (base64 : Text → Text) (p : HttpProxyTransport)
    (addr : Text) (port : UInt16) :
    p.Writes net base64 addr port (encodeUtf8 (p.connectRequest base64 addr port)) where
  only net' hconnect hreadU8 hwriteAll := by
    rw [connect, connect, hconnect, hreadU8]
    rcases net.connect p.proxyAddr with e | s
    · rfl
    · dsimp only
      rw [hwriteAll]
  recorded s blocks hconnect := by
    obtain ⟨written, head, ⟨opened, hopened, hwrite⟩, hyields, -⟩ := connect_eq_ok hconnect
    -- The record starts empty, gets the request, and stays as it is while the reply is read.
    have hstart : opened.2 = [] := by
      change Except.map (fun s => (s, [])) (net.connect p.proxyAddr) = .ok opened at hopened
      rcases hnet : net.connect p.proxyAddr with e | t <;> rw [hnet] at hopened
      · exact absurd hopened (by rintro ⟨⟩)
      · obtain rfl := Except.ok.inj hopened
        rfl
    generalize encodeUtf8 (p.connectRequest base64 addr port) = block at hwrite ⊢
    have hrecord : opened.2 ++ [block] = written.2 := congrArg (fun r => r.2.2) hwrite
    rw [hstart, List.nil_append] at hrecord
    exact (recorded_of_yields hyields).trans hrecord.symm

/-! ## The limit -/

/-- There is a tunnel only if the head of the reply is of 8 KiB at most, and a longer head is
    rejected as too large. -/
structure Limited (net : Network σ) (base64 : Text → Text) (p : HttpProxyTransport)
    (addr : Text) (port : UInt16) : Prop where
  accepts : ∀ t, p.connect net base64 addr port = .ok t → ∃ s head u,
    p.Reaches net base64 addr port s ∧ Yields net.readU8 s head u ∧
      EndsFirst endOfHeaders head ∧ head.length ≤ 8192
  rejects : ∀ s head u, p.Reaches net base64 addr port s → Yields net.readU8 s head u →
    EndsFirst endOfHeaders head → 8192 < head.length →
      p.connect net base64 addr port = .error (tooLarge p.proxyAddr)

/-- What is made of a head is never that it is too large. -/
theorem finish_ne_tooLarge : p.finish head s ≠ .error (tooLarge p.proxyAddr) := by
  intro h
  rw [finish] at h
  split_ifs at h with hstatus
  obtain h := List.append_cancel_left (Error.tunnelConnect.inj (Except.error.inj h))
  exact absurd (congrArg List.head? h) (by simp)

/-- The limit is exact exactly if the head of the reply is not of 8193 bytes: one byte more than
    the limit says is accepted, since the end of the head is looked for first. -/
theorem limited_iff (net : Network σ) (base64 : Text → Text) (p : HttpProxyTransport)
    (addr : Text) (port : UInt16) : p.Limited net base64 addr port ↔
      ∀ s head u, p.Reaches net base64 addr port s → Yields net.readU8 s head u →
        EndsFirst endOfHeaders head → head.length ≠ 8193 := by
  constructor
  · intro h s head u hs hyields hend hlen
    have herror := h.rejects s head u hs hyields hend (by omega)
    -- The end of the head is seen before the limit is tested.
    obtain ⟨-, hread⟩ | ⟨hlt, -⟩ :=
      (readResponse_nil net.readU8 p.proxyAddr s).of_head hyields hend
    · rw [connect_of_reaches hs, hread] at herror
      exact finish_ne_tooLarge herror
    · omega
  · intro h
    constructor
    · intro t ht
      obtain ⟨s, head, hs, hyields, hend, hlen, -⟩ := connect_eq_ok ht
      exact ⟨s, head, t, hs, hyields, hend, Nat.le_of_lt_succ
        (Nat.lt_of_le_of_ne hlen (h s head t hs hyields hend))⟩
    · intro s head u hs hyields hend hlen
      have hne := h s head u hs hyields hend
      obtain ⟨hle, -⟩ | ⟨-, hread⟩ :=
        (readResponse_nil net.readU8 p.proxyAddr s).of_head hyields hend
      · omega
      · rw [connect_of_reaches hs]
        rcases hr : readResponse net.readU8 p.proxyAddr s [] with ⟨e | head', u'⟩
        · rw [hr] at hread
          exact congrArg _ (Except.error.inj hread)
        · rw [hr] at hread
          exact absurd hread (by simp)

/-! ## A long head -/

/-- A network whose proxy takes any request, and sends the stream. -/
def replying (stream : Bytes) : Network Bytes where
  connect _ := .ok stream
  writeAll _ s := (.ok (), s)
  readU8
    | [] => (.error "unexpected end of file".toList, [])
    | b :: bs => (.ok b, bs)

/-- The stream is read as it is sent. -/
theorem yields_replying (stream bs cs : Bytes) :
    Yields (replying stream).readU8 (bs ++ cs) bs cs := by
  induction bs with
  | nil => exact .nil
  | cons b bs ih => exact .cons rfl ih

/-- A status line of any length, and the head with this line only. -/
def longLine (n : ℕ) : Text := "HTTP/1.1 200 ".toList ++ List.replicate n 'a'

/-- A head of that line only. -/
def longHead (n : ℕ) : Bytes := encodeUtf8 (longLine n) ++ endOfHeaders

/-- The line has no other characters than these. -/
theorem notMem_longLine {c : Char} (h : c ∉ "HTTP/1.1 200 a".toList) (n : ℕ) :
    c ∉ longLine n := by
  have hstart : "HTTP/1.1 200 ".toList ⊆ "HTTP/1.1 200 a".toList := by decide
  have hlast : 'a' ∈ "HTTP/1.1 200 a".toList := by decide
  intro hmem
  rcases List.mem_append.1 hmem with hmem | hmem
  · exact h (hstart hmem)
  · exact h ((List.mem_replicate.1 hmem).2 ▸ hlast)

/-- The length of the head. -/
theorem length_longHead (n : ℕ) : (longHead n).length = n + 17 := by
  have hreplicate : (encodeUtf8 (List.replicate n 'a')).length = n := by
    induction n with
    | zero => rfl
    | succ n ih =>
      change (97 :: encodeUtf8 (List.replicate n 'a')).length = n + 1
      rw [List.length_cons, ih]
  have hstart : (encodeUtf8 "HTTP/1.1 200 ".toList).length = 13 := by decide
  have hend : endOfHeaders.length = 4 := rfl
  change (encodeUtf8 ("HTTP/1.1 200 ".toList ++ List.replicate n 'a') ++ endOfHeaders).length = _
  rw [encodeUtf8_append, List.length_append, List.length_append, hreplicate, hstart, hend]
  omega

/-- It ends at its first empty line. -/
theorem endsFirst_longHead (n : ℕ) : EndsFirst endOfHeaders (longHead n) := by
  have hcr : 13 ∉ encodeUtf8 (longLine n) :=
    mt (mem_encodeUtf8 (c := '\r') (by decide)).1 (notMem_longLine (by decide) n)
  exact endsFirst_append hcr

/-- A line that ends in CRLF is found without its end. -/
theorem firstLine_append {line : Text} (h : '\n' ∉ line) (rest : Text) :
    firstLine (line ++ ['\r'] ++ '\n' :: rest) = line := by
  have hno : '\n' ∉ line ++ ['\r'] := by
    rw [List.mem_append, not_or]
    exact ⟨h, by decide⟩
  rw [firstLine, lines_append_cons hno, List.headD_cons, stripReturn, if_pos List.getLast?_concat,
    List.dropLast_concat]

/-- Its status is 200. -/
theorem statusCode_longHead (n : ℕ) :
    statusCode (firstLine (fromUtf8Lossy (longHead n))) = 200 := by
  have hhead : longHead n = encodeUtf8 (longLine n ++ ['\r'] ++ '\n' :: "\r\n".toList) := by
    rw [encodeUtf8_append, encodeUtf8_append, List.append_assoc]
    rfl
  have hwords : splitWhitespace (longLine n) =
      "HTTP/1.1".toList :: "200".toList :: splitWhitespace (List.replicate n 'a') := by
    have hspace : isWhitespace ' ' = true := by decide
    have hversion : "HTTP/1.1".toList ≠ [] ∧ Solid "HTTP/1.1".toList := by decide
    have hcode : "200".toList ≠ [] ∧ Solid "200".toList := by decide
    have hline : longLine n =
        "HTTP/1.1".toList ++ ' ' :: ("200".toList ++ ' ' :: List.replicate n 'a') := rfl
    rw [hline, splitWhitespace_append_cons hversion.1 hversion.2 hspace,
      splitWhitespace_append_cons hcode.1 hcode.2 hspace]
  rw [hhead, fromUtf8Lossy_encodeUtf8, firstLine_append (notMem_longLine (by decide) n),
    statusCode, hwords]
  rfl

/-- A head of 8193 bytes is accepted, with a status of 200 in it. -/
theorem not_limited_longHead : ¬∀ (net : Network Bytes) (base64 : Text → Text)
    (p : HttpProxyTransport) (addr : Text) (port : UInt16), p.Limited net base64 addr port := by
  intro h
  let net := replying (longHead 8176)
  let p : HttpProxyTransport := .new "proxy:3128".toList none "sample".toList
  have hs : p.Reaches net (fun s => s) "example.com".toList 443 (longHead 8176) := ⟨_, rfl, rfl⟩
  have hyields : Yields net.readU8 (longHead 8176) (longHead 8176) [] := by
    have h := yields_replying (longHead 8176) (longHead 8176) []
    rwa [List.append_nil] at h
  have hend := endsFirst_longHead 8176
  have hconnect : p.connect net (fun s => s) "example.com".toList 443 = .ok [] := by
    obtain ⟨-, hread⟩ | ⟨hlt, -⟩ :=
      (readResponse_nil net.readU8 p.proxyAddr (longHead 8176)).of_head hyields hend
    · rw [connect_of_reaches hs, hread]
      exact finish_eq_ok.2 ⟨statusCode_longHead 8176, rfl⟩
    · rw [length_longHead] at hlt
      omega
  obtain ⟨s, head, u, hs', hyields', hend', hlen⟩ :=
    (h net (fun s => s) p "example.com".toList 443).accepts _ hconnect
  obtain rfl := hs.unique hs'
  obtain ⟨rfl, -⟩ := hend.yields_unique hend' hyields hyields'
  rw [length_longHead] at hlen
  omega

end Houdinny.HttpProxyTransport
