import Houdinny.Proxy.Handler

/-!
# Transparency of CONNECT

A CONNECT head (`ConnectHead`) is a request line that `parseConnect` accepts, any
header lines, and the first empty line. The agent may send data right after it,
and the network may cut head and data into reads anywhere.

The handler ends the head at the first line that is *blank*, which has nothing but
white space (`ConnectHead.taken`); that is the empty line, unless a header line is
blank. The reader takes in whole reads. What came in the same read as the end of
what the handler took is left in its buffer, which `into_inner` discards: what the
tunnel gets are the reads after that one (`delivered_handleConnect`).

So the tunnel gets exactly the data if that read ends where the head does
(`handleConnect_delivers_iff`). Where no header line is blank, a read has to end
there, as it does if there is no data.

Where the reader is, is the invariant `At` of `Lib.Stream`: it has consumed the lines that
were read, and has taken in no more reads than it had to. The header loop keeps it, line by
line (`discardHeaders_eq`).
-/

namespace Houdinny.Proxy

open Stream

/-- A line that ends a head. -/
def Blank (l : Bytes) : Prop := ∃ line, Text.decodeUtf8 l = some line ∧ line.trim = []

instance (l : Bytes) : Decidable (Blank l) :=
  decidable_of_iff ((Text.decodeUtf8 l).any fun line => line.trim.isEmpty)
    (by simp [Blank, Option.any_eq_true])

/-- An empty line of HTTP. -/
def IsEmptyLine (l : Bytes) : Prop := l = [13, 10] ∨ l = [10]

/-- A complete CONNECT head that `parseConnect` accepts. -/
structure ConnectHead where
  requestLine : Bytes
  headers : List Bytes
  emptyLine : Bytes
  line : Text
  host : Text
  port : UInt16
  requestLine_ends : EndsAt 10 requestLine
  requestLine_text : Text.decodeUtf8 requestLine = some line
  parse : parseConnect line.trimEnd = .ok (host, port)
  headers_ends : ∀ l ∈ headers, EndsAt 10 l
  /-- The empty line is the first one. -/
  headers_nonempty : ∀ l ∈ headers, ¬IsEmptyLine l
  emptyLine_empty : IsEmptyLine emptyLine

/-- An empty line ends at its newline. -/
theorem IsEmptyLine.endsAt {l : Bytes} (h : IsEmptyLine l) : EndsAt 10 l := by
  rcases h with rfl | rfl
  · exact ⟨[13], rfl, by decide⟩
  · exact ⟨[], rfl, List.not_mem_nil⟩

/-- An empty line is blank. -/
theorem IsEmptyLine.blank {l : Bytes} (h : IsEmptyLine l) : Blank l := by
  rcases h with rfl | rfl
  · exact ⟨['\r', '\n'], by decide, rfl⟩
  · exact ⟨['\n'], by decide, rfl⟩

/-- The lines up to the first blank one. -/
def takenLines : List Bytes → List Bytes
  | [] => []
  | l :: ls => if Blank l then [l] else l :: takenLines ls

namespace ConnectHead

/-- The bytes of a head. -/
def bytes (head : ConnectHead) : Bytes :=
  head.requestLine ++ (head.headers.flatten ++ head.emptyLine)

/-- The header lines that are taken for the head, with the blank one that ends it. -/
def lines (head : ConnectHead) : List Bytes := takenLines (head.headers ++ [head.emptyLine])

/-- What is taken for the head. -/
def taken (head : ConnectHead) : Bytes := head.requestLine ++ head.lines.flatten

/-- All header lines that are taken are valid UTF-8. -/
def Utf8 (head : ConnectHead) : Prop := ∀ l ∈ head.lines, Text.decodeUtf8 l ≠ none

end ConnectHead

/-! ## Reading a head -/

/-- Reading a line that is valid UTF-8. -/
theorem readLine_ok {rs : Reads} {h l t : Bytes} {r : BufReader} {line : Text} (hr : At rs h r)
    (hl : EndsAt 10 l) (hrem : r.remaining = l ++ t) (hline : Text.decodeUtf8 l = some line) :
    ∃ r', readLine r = .ok (line, r') ∧ At rs (h ++ l) r' ∧ r'.remaining = t := by
  obtain ⟨r', hr', hat, ht⟩ := hr.readLine hl hrem hline
  exact ⟨r', by rw [readLine, hr'], hat, ht⟩

/-- Reading a line that is not. -/
theorem readLine_error {l t : Bytes} {r : BufReader} (hl : EndsAt 10 l)
    (hrem : r.remaining = l ++ t) (hline : Text.decodeUtf8 l = none) :
    ∃ e, readLine r = .error e := by
  have hnone : r.readLine = none := by
    rw [BufReader.readLine, (readUntil_of_remaining hl hrem).1, hline, Option.map_none]
  exact ⟨_, by rw [readLine, hnone]⟩

/-- What the header loop does, line by line. -/
theorem discardHeaders_eq (r : BufReader) : discardHeaders r =
    match readLine r with
    | .error e => .error e
    | .ok (line, r') => if line.trim.isEmpty then .ok r' else discardHeaders r' := by
  rw [discardHeaders]
  split
  · next h => rw [h]
  · next h => rw [h]; rfl

/-- The header loop ends after the first blank line, if all lines up to there are valid UTF-8. -/
theorem discardHeaders_ok {rs : Reads} {h t : Bytes} {r : BufReader} {ls : List Bytes}
    (hr : At rs h r) (hends : ∀ l ∈ ls, EndsAt 10 l) (hblank : ∃ l ∈ ls, Blank l)
    (hutf8 : ∀ l ∈ takenLines ls, Text.decodeUtf8 l ≠ none) (hrem : r.remaining = ls.flatten ++ t) :
    ∃ r' x, discardHeaders r = .ok r' ∧ At rs (h ++ (takenLines ls).flatten) r' ∧
      ls.flatten = (takenLines ls).flatten ++ x ∧ r'.remaining = x ++ t := by
  induction ls generalizing r h with
  | nil => exact absurd hblank (by simp)
  | cons l ls ih =>
    rw [List.forall_mem_cons] at hends
    rw [List.flatten_cons, List.append_assoc] at hrem
    rw [takenLines] at hutf8 ⊢
    by_cases hl : Blank l
    · -- The first blank line is the last that is taken. What is left of the head is of lines
      -- after it.
      obtain ⟨line, hline, htrim⟩ := hl
      obtain ⟨r', hr', hat, ht⟩ := readLine_ok hr hends.1 hrem hline
      rw [if_pos ⟨line, hline, htrim⟩]
      refine ⟨r', ls.flatten, ?_, by simpa using hat, by simp, ht⟩
      rw [discardHeaders_eq, hr']
      simp only [htrim, List.isEmpty_nil, if_true]
    · rw [if_neg hl, List.forall_mem_cons] at hutf8
      rw [if_neg hl]
      obtain ⟨line, hline⟩ := Option.ne_none_iff_exists'.1 hutf8.1
      obtain ⟨r₁, hr₁, hat₁, ht₁⟩ := readLine_ok hr hends.1 hrem hline
      have hne : ¬line.trim.isEmpty := fun he => hl ⟨line, hline, List.isEmpty_iff.1 he⟩
      -- The blank line is still to come.
      have hlater : ∃ l' ∈ ls, Blank l' := by
        obtain ⟨l', hl', hblank'⟩ := hblank
        rcases List.mem_cons.1 hl' with rfl | hl'
        · exact absurd hblank' hl
        · exact ⟨l', hl', hblank'⟩
      obtain ⟨r', x, hr', hat, hx, ht⟩ := ih hat₁ hends.2 hlater hutf8.2 ht₁
      refine ⟨r', x, ?_, by simpa using hat, by simp [hx], ht⟩
      rw [discardHeaders_eq, hr₁]
      simpa only [if_neg hne] using hr'

/-- The header loop fails at a line that is not valid UTF-8, if there is one up to there. -/
theorem discardHeaders_error {rs : Reads} {h t : Bytes} {r : BufReader} {ls : List Bytes}
    (hr : At rs h r) (hends : ∀ l ∈ ls, EndsAt 10 l)
    (hutf8 : ¬∀ l ∈ takenLines ls, Text.decodeUtf8 l ≠ none)
    (hrem : r.remaining = ls.flatten ++ t) : ∃ e, discardHeaders r = .error e := by
  induction ls generalizing r h with
  | nil => exact absurd (fun _ hl => absurd hl List.not_mem_nil) hutf8
  | cons l ls ih =>
    rw [List.forall_mem_cons] at hends
    rw [List.flatten_cons, List.append_assoc] at hrem
    rw [takenLines] at hutf8
    rcases hline : Text.decodeUtf8 l with _ | line
    · obtain ⟨e, he⟩ := readLine_error hends.1 hrem hline
      exact ⟨e, by rw [discardHeaders_eq, he]⟩
    · have hl : ¬Blank l := fun hl => by
        rw [if_pos hl] at hutf8
        exact hutf8 fun l' hl' => by simp [List.mem_singleton.1 hl', hline]
      rw [if_neg hl, List.forall_mem_cons] at hutf8
      obtain ⟨r₁, hr₁, hat₁, ht₁⟩ := readLine_ok hr hends.1 hrem hline
      have hne : ¬line.trim.isEmpty := fun he => hl ⟨line, hline, List.isEmpty_iff.1 he⟩
      obtain ⟨e, he⟩ := ih hat₁ hends.2 (fun hall => hutf8 ⟨by simp [hline], hall⟩) ht₁
      refine ⟨e, ?_⟩
      rw [discardHeaders_eq, hr₁]
      simpa only [if_neg hne] using he

/-! ## Delivery -/

variable {τ : Type} {env : Env τ}

/-- What a CONNECT delivers to the tunnel, when the picker and `connect` succeed:
    the reads that its reader has not taken in. -/
theorem delivered_handleConnect {r : BufReader} {line host : Text} {port : UInt16} {t : τ}
    (hparse : parseConnect line = .ok (host, port)) (hpick : env.picker host port = .ok t)
    (hconnect : env.connect t host port = .ok ()) :
    (env.handleConnect r line .new).2.delivered =
      match discardHeaders r, env.writeAgent Env.connectResponse with
      | .ok r', .ok _ => r'.intoInner.bytes
      | _, _ => [] := by
  rw [Env.handleConnect, hparse, Handler.bind_ok (Handler.ofExcept_ok _ _)]
  dsimp only
  rcases discardHeaders r with e | r'
  · rw [Handler.bind_error (Handler.ofIo_error _ _)]
    rfl
  · rw [Handler.bind_ok (Handler.ofIo_ok _ _), Handler.bind_ok (Env.pick_ok hpick),
      Handler.bind_ok (Env.connectThrough_ok hconnect)]
    rcases hw : env.writeAgent Env.connectResponse with e | u
    · rw [Handler.bind_error (Env.writeAllAgent_error hw)]
      rfl
    · -- Nothing was written to the tunnel before the rest of the agent's reads.
      rw [Handler.bind_ok (Env.writeAllAgent_ok hw)]
      change (List.map Subtype.val r'.inner).flatten = r'.inner.bytes
      exact (List.flatMap_def ..).symm

/-- CONNECT is transparent exactly for these streams: the bytes that reach the tunnel are the
    data `D` behind the head if the first read that reaches the end of what is taken for the
    head ends where the head does (the lines taken being text, and the reply being written).
    Otherwise nothing reaches it, as it should only if there is no data. -/
theorem handleConnect_delivers_iff (env : Env τ) (head : ConnectHead) (D : Bytes) (reads : Reads)
    (t : τ) (hreads : reads.bytes = head.bytes ++ D)
    (hpick : env.picker head.host head.port = .ok t)
    (hconnect : env.connect t head.host head.port = .ok ()) :
    ∃ firstLine reader, readRequestLine reads = .ok (firstLine, reader) ∧
      ((env.handleConnect reader firstLine .new).2.delivered = D ↔
        (head.Utf8 ∧ env.writeAgent Env.connectResponse = .ok ()) ∧
            reads.Reaches head.taken head.bytes ∨
          ¬(head.Utf8 ∧ env.writeAgent Env.connectResponse = .ok ()) ∧ D = []) := by
  have hflatten : (head.headers ++ [head.emptyLine]).flatten =
      head.headers.flatten ++ head.emptyLine := by simp
  have hrem : (BufReader.new reads).remaining =
      head.requestLine ++ ((head.headers ++ [head.emptyLine]).flatten ++ D) := by
    change reads.bytes = _
    rw [hreads, ConnectHead.bytes, hflatten, List.append_assoc]
  have hends : ∀ l ∈ head.headers ++ [head.emptyLine], EndsAt 10 l := by
    intro l hl
    rcases List.mem_append.1 hl with hl | hl
    · exact head.headers_ends l hl
    · exact List.mem_singleton.1 hl ▸ head.emptyLine_empty.endsAt
  obtain ⟨r, hr, hat, hrem⟩ :=
    readLine_ok (at_new reads) head.requestLine_ends hrem head.requestLine_text
  refine ⟨head.line.trimEnd, r, by rw [readRequestLine, hr]; rfl, ?_⟩
  rw [delivered_handleConnect head.parse hpick hconnect]
  by_cases hutf8 : head.Utf8
  · obtain ⟨r', x, hr', hat', hx, hrem'⟩ := discardHeaders_ok hat hends
      ⟨head.emptyLine, by simp, head.emptyLine_empty.blank⟩ hutf8 hrem
    rw [hr']
    rcases hw : env.writeAgent Env.connectResponse with e | u
    · simp [eq_comm]
    · -- What remains is what is left of the head, and the data.
      have hbytes : head.bytes = head.taken ++ x := by
        rw [ConnectHead.bytes, ConnectHead.taken, ConnectHead.lines, ← hflatten, hx,
          List.append_assoc]
      have hne : head.taken ≠ [] := by
        rw [ConnectHead.taken]
        exact List.append_ne_nil_of_left_ne_nil head.requestLine_ends.ne_nil _
      rw [or_iff_left fun h => h.1 ⟨hutf8, rfl⟩, and_iff_right ⟨hutf8, rfl⟩, hbytes]
      exact At.inner_bytes_eq_iff hat' hne hrem'
  · obtain ⟨e, he⟩ := discardHeaders_error hat hends hutf8 hrem
    rw [he]
    simp [hutf8, eq_comm]

/-! ## Early data -/

/-- A transport that connects, and an agent that gets its reply. -/
def sampleEnv : Env Unit where
  picker _ _ := .ok ()
  connect _ _ _ := .ok ()
  allocates _ := true
  writeAgent _ := .ok ()
  writeTunnel _ _ := .ok ()
  flushTunnel := .ok ()
  response := []

/-- `CONNECT a:443 HTTP/1.1` and an empty line. -/
def sampleHead : ConnectHead where
  requestLine := Text.encodeUtf8 "CONNECT a:443 HTTP/1.1\r\n".toList
  headers := []
  emptyLine := [13, 10]
  line := "CONNECT a:443 HTTP/1.1\r\n".toList
  host := "a".toList
  port := 443
  requestLine_ends := ⟨Text.encodeUtf8 "CONNECT a:443 HTTP/1.1\r".toList, by decide, by decide⟩
  requestLine_text := Text.decodeUtf8_encodeUtf8 _
  parse := rfl
  headers_ends _ h := absurd h List.not_mem_nil
  headers_nonempty _ h := absurd h List.not_mem_nil
  emptyLine_empty := .inl rfl

/-- The head, and the data behind it in a read of its own. -/
def separateReads : Reads := [⟨sampleHead.bytes, by decide⟩, ⟨[22], by decide⟩]

/-- The head, and the first byte of a TLS record, in one read. -/
def earlyData : Reads := [⟨sampleHead.bytes ++ [22], by decide⟩]

/-- Data in a read of its own is delivered. -/
theorem handleConnect_delivers_separateReads :
    ∃ firstLine reader, readRequestLine separateReads = .ok (firstLine, reader) ∧
      (sampleEnv.handleConnect reader firstLine .new).2.delivered = [22] := by
  obtain ⟨firstLine, reader, hread, hiff⟩ :=
    handleConnect_delivers_iff sampleEnv sampleHead [22] separateReads () rfl rfl rfl
  have hutf8 : sampleHead.Utf8 := by
    rw [ConnectHead.Utf8]
    decide
  exact ⟨firstLine, reader, hread,
    hiff.2 (.inl ⟨⟨hutf8, rfl⟩, [], _, _, rfl, by decide, by decide⟩)⟩

/-- Data in the same read as the head is lost. -/
theorem not_transparent_earlyData : ¬∀ (env : Env Unit) (head : ConnectHead) (D : Bytes)
    (reads : Reads) (t : Unit), reads.bytes = head.bytes ++ D →
    env.picker head.host head.port = .ok t → env.connect t head.host head.port = .ok () →
    ∀ firstLine reader, readRequestLine reads = .ok (firstLine, reader) →
      (env.handleConnect reader firstLine .new).2.delivered = D := by
  intro h
  have hread : readRequestLine earlyData =
      .ok ("CONNECT a:443 HTTP/1.1".toList, ⟨[13, 10, 22], []⟩) := rfl
  have hparse : parseConnect "CONNECT a:443 HTTP/1.1".toList = .ok ("a".toList, 443) := rfl
  have hdiscard : discardHeaders ⟨[13, 10, 22], []⟩ = .ok ⟨[22], []⟩ := by
    rw [discardHeaders_eq]
    rfl
  have hlost := h sampleEnv sampleHead [22] earlyData () rfl rfl rfl _ _ hread
  rw [delivered_handleConnect hparse rfl rfl, hdiscard] at hlost
  exact absurd hlost (by decide)

end Houdinny.Proxy
