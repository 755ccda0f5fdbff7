import Houdinny.Proxy.Framing

/-!
# Complete heads

The header loops take lines from the stream up to one that is blank after trimming
(`Blank`), or to the end of the stream (`readHeaders_of_lines`); that of a CONNECT is
the same loop, which keeps nothing (`discardHeaders_eq_map`).

A head ends at its first *empty* line (`EmptyLine`). Where the stream ends before it, or
a line of only white space stands before it, the loops end there, and the proxy acts on
a part of the head (`not_waits_truncated`): it waits for the end of the head exactly if
there is one, and no header line before it is blank (`waits_iff`).

That the proxy waits is said of a whole environment: where the stream ends before the head
does, the handler is to fail with nothing done (`ConnectWaits`, `PlainWaits`). So a picker
that refuses every request is enough to tell whether it has waited (`refusingEnv`): if the
loop has ended, it was called.
-/

namespace Houdinny.Proxy

open Stream Text

/-! ## The lines of a head -/

/-- The lines before the first blank one, or the end of the stream. -/
def headLines (ls : List Bytes) : List Bytes := ls.takeWhile fun l => ¬Blank l

/-- The stream after the first blank line. -/
def afterHead (ls : List Bytes) : Bytes := (ls.dropWhile fun l => ¬Blank l).tail.flatten

/-- A blank line ends the head, and the rest is left. -/
theorem head_cons_of_blank {l : Bytes} (h : Blank l) (ls : List Bytes) :
    headLines (l :: ls) = [] ∧ afterHead (l :: ls) = ls.flatten := by
  simp [headLines, afterHead, h]

/-- Any other line is one of the head. -/
theorem head_cons_of_not_blank {l : Bytes} (h : ¬Blank l) (ls : List Bytes) :
    headLines (l :: ls) = l :: headLines ls ∧ afterHead (l :: ls) = afterHead ls := by
  simp [headLines, afterHead, h]

/-- A line of text is blank if it has white space only. -/
theorem blank_encodeUtf8 {line : Text} : Blank (encodeUtf8 line) ↔ line.trim = [] := by
  rw [Blank, decodeUtf8_encodeUtf8]
  simp

/-- What is read is a line of the stream. -/
theorem readLine_of_lines {r : BufReader} {l : Bytes} {ls : List Bytes}
    (h : splitInclusive 10 r.remaining = l :: ls) :
    ∃ r', splitInclusive 10 r'.remaining = ls ∧
      ∀ line, decodeUtf8 l = some line → readLine r = .ok (line, r') := by
  obtain ⟨hl, hls⟩ := readUntil_of_splitInclusive h
  refine ⟨(r.readUntil 10).2, hls, fun line hline => ?_⟩
  rw [readLine, BufReader.readLine, hl, hline, Option.map_some]

/-- What is read is no text. -/
theorem readLine_eq_error {r : BufReader} {l : Bytes} {ls : List Bytes}
    (h : splitInclusive 10 r.remaining = l :: ls) (hl : decodeUtf8 l = none) :
    ∃ e, readLine r = .error e := by
  have hnone : r.readLine = none := by
    rw [BufReader.readLine, (readUntil_of_splitInclusive h).1, hl, Option.map_none]
  exact ⟨_, by rw [readLine, hnone]⟩

/-- At the end of the stream, the line read is empty. -/
theorem readLine_of_nil {r : BufReader} (h : splitInclusive 10 r.remaining = []) :
    ∃ r', r'.remaining = [] ∧ readLine r = .ok ([], r') := by
  have hrem : r.remaining = [] := by rw [← flatten_splitInclusive 10 r.remaining, h]; rfl
  obtain ⟨hl, hnil⟩ := readUntil_of_nil (d := 10) hrem
  refine ⟨(r.readUntil 10).2, hnil, ?_⟩
  have hdecode : decodeUtf8 [] = some [] := decodeUtf8_encodeUtf8 []
  rw [readLine, BufReader.readLine, hl, hdecode, Option.map_some]

/-! ## The header loops -/

/-- The header loop returns the lines of the head, and leaves what comes after it. -/
theorem readHeaders_of_lines {r : BufReader} {ls : List Bytes} {headers : List Text}
    (h : splitInclusive 10 r.remaining = ls)
    (hheaders : (headLines ls).mapM decodeUtf8 = some headers)
    (seen : List Text) (n : ℕ) : ∃ r', r'.remaining = afterHead ls ∧
      readHeaders r seen n = .ok (seen ++ headers, headers.foldl trackContentLength n, r') := by
  induction ls generalizing r seen n headers with
  | nil =>
    obtain ⟨r', hr', hline⟩ := readLine_of_nil h
    obtain rfl : [] = headers := Option.some.inj hheaders
    refine ⟨r', hr', ?_⟩
    rw [readHeaders_eq, hline, List.append_nil]
    rfl
  | cons l ls ih =>
    obtain ⟨r₁, hr₁, hline⟩ := readLine_of_lines h
    rw [readHeaders_eq]
    by_cases hblank : Blank l
    · -- A blank line ends the loop, with what comes after it left on the stream.
      obtain ⟨hhead, hafter⟩ := head_cons_of_blank hblank ls
      obtain ⟨line, hdecode, htrim⟩ := hblank
      rw [hhead] at hheaders
      obtain rfl : [] = headers := Option.some.inj hheaders
      refine ⟨r₁, ?_, ?_⟩
      · rw [hafter, ← hr₁, flatten_splitInclusive]
      · rw [hline line hdecode, List.append_nil]
        simp only [htrim, List.isEmpty_nil, if_true, List.foldl_nil]
    · obtain ⟨hhead, hafter⟩ := head_cons_of_not_blank hblank ls
      rw [hhead, List.mapM_cons] at hheaders
      obtain ⟨line, hdecode, hheaders⟩ := Option.bind_eq_some_iff.1 hheaders
      obtain ⟨headers', hheaders', heq⟩ := Option.bind_eq_some_iff.1 hheaders
      obtain rfl : line :: headers' = headers := Option.some.inj heq
      obtain ⟨r', hr', hread⟩ := ih hr₁ hheaders' (seen ++ [line]) (trackContentLength n line)
      have hne : ¬line.trim.isEmpty := fun he => hblank ⟨line, hdecode, List.isEmpty_iff.1 he⟩
      refine ⟨r', by rw [hr', hafter], ?_⟩
      rw [hline line hdecode]
      simp only [if_neg hne, hread, List.append_assoc, List.singleton_append, List.foldl_cons]

/-- It fails at a line that is not valid UTF-8. -/
theorem readHeaders_eq_error {r : BufReader} {ls : List Bytes}
    (h : splitInclusive 10 r.remaining = ls) (hheaders : (headLines ls).mapM decodeUtf8 = none)
    (seen : List Text) (n : ℕ) : ∃ e, readHeaders r seen n = .error e := by
  induction ls generalizing r seen n with
  | nil => exact absurd hheaders (by simp [headLines])
  | cons l ls ih =>
    have hblank : ¬Blank l := fun hblank => by
      rw [(head_cons_of_blank hblank ls).1] at hheaders
      exact absurd hheaders (by simp)
    rw [(head_cons_of_not_blank hblank ls).1, List.mapM_cons] at hheaders
    rcases hdecode : decodeUtf8 l with _ | line
    · -- The first line that is no text is an error; the lines before it are read.
      obtain ⟨e, he⟩ := readLine_eq_error h hdecode
      exact ⟨e, by rw [readHeaders_eq, he]⟩
    · obtain ⟨r₁, hr₁, hline⟩ := readLine_of_lines h
      have hne : ¬line.trim.isEmpty := fun he => hblank ⟨line, hdecode, List.isEmpty_iff.1 he⟩
      have hrest : (headLines ls).mapM decodeUtf8 = none := by
        rcases hsome : (headLines ls).mapM decodeUtf8 with _ | headers
        · rfl
        · rw [hdecode, hsome] at hheaders
          exact absurd hheaders (by simp)
      obtain ⟨e, he⟩ := ih hr₁ hrest (seen ++ [line]) (trackContentLength n line)
      refine ⟨e, ?_⟩
      rw [readHeaders_eq, hline line hdecode]
      simpa only [if_neg hne] using he

/-- The header loop of a CONNECT is that of a forwarded request, and keeps nothing. -/
theorem discardHeaders_eq_map (r : BufReader) (seen : List Text) (n : ℕ) :
    discardHeaders r = (readHeaders r seen n).map fun p => p.2.2 := by
  -- Induction on what remains to be read, as the loops themselves.
  induction hk : r.remaining.length using Nat.strongRecOn generalizing r seen n with
  | ind k ih =>
    rw [discardHeaders_eq, readHeaders_eq]
    rcases hline : readLine r with e | ⟨line, r₁⟩
    · rfl
    · dsimp only
      by_cases hempty : line.trim.isEmpty
      · rw [if_pos hempty, if_pos hempty]
        rfl
      · rw [if_neg hempty, if_neg hempty]
        exact ih _ (hk ▸ remaining_lt_of_readLine hline hempty) r₁ _ _ rfl

/-! ## The end of a head -/

/-- A line that ends a head. -/
def EmptyLine (l : Text) : Prop := l = "\r\n".toList ∨ l = "\n".toList

instance (l : Text) : Decidable (EmptyLine l) :=
  inferInstanceAs (Decidable (l = "\r\n".toList ∨ l = "\n".toList))

/-- The stream `s` has the lines `headers`, none of them empty, before its first empty
    line, and the lines `rest` after it. -/
def CompleteHead (s : Text) (headers rest : List Text) : Prop :=
  ∃ l, EmptyLine l ∧ splitInclusive '\n' s = headers ++ l :: rest ∧ ∀ h ∈ headers, ¬EmptyLine h

/-- A CONNECT whose stream ends before its head does fails, with nothing done; otherwise
    the head ends at its first empty line. -/
def ConnectWaits (r : BufReader) (firstLine s : Text) : Prop :=
  ((∀ l ∈ splitInclusive '\n' s, ¬EmptyLine l) → ∀ (τ : Type) (env : Env τ),
    ∃ e, env.handleConnect r firstLine .new = (.error (.err e), .new)) ∧
  ∀ headers rest, CompleteHead s headers rest →
    ∀ host port, parseConnect firstLine = .ok (host, port) →
    ∃ r', discardHeaders r = .ok r' ∧ r'.remaining = encodeUtf8 rest.flatten

/-- A plain HTTP request whose stream ends before its head does fails, with nothing done;
    otherwise the head ends at its first empty line, and all header lines before it are
    forwarded. -/
def PlainWaits (r : BufReader) (firstLine s : Text) : Prop :=
  ((∀ l ∈ splitInclusive '\n' s, ¬EmptyLine l) → ∀ (τ : Type) (env : Env τ),
    ∃ e, env.handlePlainHttp r firstLine .new = (.error (.err e), .new)) ∧
  ∀ headers rest, CompleteHead s headers rest → ∀ req, parseHttpRequest firstLine = .ok req →
    (∃ n r', readHeaders r [] 0 = .ok (headers, n, r') ∧
      r'.remaining = encodeUtf8 rest.flatten) ∧
    ∀ (τ : Type) (env : Env τ) (session : Session τ),
      env.handlePlainHttp r firstLine .new = (.ok (), session) →
      ∃ body, session.delivered = forwardedHead req headers ++ body

/-- The head is complete, and no header line is blank. -/
def Ended (s : Text) : Prop :=
  (∃ l ∈ splitInclusive '\n' s, EmptyLine l) ∧
    ∀ headers rest, CompleteHead s headers rest → ∀ l ∈ headers, l.trim ≠ []

/-- An empty line has nothing but white space. -/
theorem EmptyLine.trim {l : Text} (h : EmptyLine l) : l.trim = [] := by
  rcases h with rfl | rfl <;> rfl

/-- It has its end. -/
theorem EmptyLine.ne_nil {l : Text} (h : EmptyLine l) : l ≠ [] := by
  rcases h with rfl | rfl <;> decide

variable {r r' : BufReader} {s : Text} {headers rest : List Text} {l : Text}

/-- What the header loop makes of a text. -/
theorem readHeaders_of_text (hr : r.remaining = encodeUtf8 s) : ∃ n r',
    readHeaders r [] 0 = .ok ((splitInclusive '\n' s).takeWhile (trim · ≠ []), n, r') ∧
      r'.remaining = encodeUtf8 ((splitInclusive '\n' s).dropWhile (trim · ≠ [])).tail.flatten := by
  have hlines : splitInclusive 10 r.remaining = (splitInclusive '\n' s).map encodeUtf8 := by
    rw [hr, splitInclusive_encodeUtf8]
  have hblank : (fun l => decide ¬Blank l) ∘ encodeUtf8 = fun line => decide (line.trim ≠ []) := by
    funext line
    simp [blank_encodeUtf8]
  have hdecode (ls : List Text) : (ls.map encodeUtf8).mapM decodeUtf8 = some ls := by
    induction ls with
    | nil => rfl
    | cons l ls ih =>
      rw [List.map_cons, List.mapM_cons, decodeUtf8_encodeUtf8, ih]
      rfl
  have hheaders : (headLines ((splitInclusive '\n' s).map encodeUtf8)).mapM decodeUtf8 =
      some ((splitInclusive '\n' s).takeWhile (trim · ≠ [])) := by
    rw [headLines, List.takeWhile_map, hblank, hdecode]
  obtain ⟨r', hr', hread⟩ := readHeaders_of_lines hlines hheaders [] 0
  refine ⟨_, r', hread, ?_⟩
  rw [hr', afterHead, List.dropWhile_map, hblank, ← List.map_tail, ← encodeUtf8_flatten]

/-- The header loop ends at the first line that is blank. -/
theorem readHeaders_of_append (hr : r.remaining = encodeUtf8 s)
    (hlines : splitInclusive '\n' s = headers ++ l :: rest) (hheaders : ∀ h ∈ headers, h.trim ≠ [])
    (hl : l.trim = []) : ∃ n r',
    readHeaders r [] 0 = .ok (headers, n, r') ∧ r'.remaining = encodeUtf8 rest.flatten := by
  have hpos : ∀ h ∈ headers, decide (h.trim ≠ []) = true := fun h hh =>
    decide_eq_true (hheaders h hh)
  obtain ⟨n, r', hread, hr'⟩ := readHeaders_of_text hr
  refine ⟨n, r', ?_, ?_⟩
  · rw [hread, hlines, List.takeWhile_append_of_pos hpos]
    simp [hl]
  · rw [hr', hlines, List.dropWhile_append_of_pos hpos]
    simp [hl]

/-- Where the loop ends at the first empty line, no line before it is blank. -/
theorem CompleteHead.not_blank (h : CompleteHead s headers rest) (hr : r.remaining = encodeUtf8 s)
    {hs : List Text} {n : ℕ} (hread : readHeaders r [] 0 = .ok (hs, n, r'))
    (hrem : r'.remaining = encodeUtf8 rest.flatten) : ∀ l ∈ headers, l.trim ≠ [] := by
  obtain ⟨l, hempty, hlines, -⟩ := h
  intro b hb htrim
  -- The loop has ended at the first blank line, and left the empty one.
  have hsome : (headers.find? (trim · = [])).isSome :=
    List.find?_isSome.2 ⟨b, hb, decide_eq_true htrim⟩
  obtain ⟨b, hfind⟩ := Option.isSome_iff_exists.1 hsome
  obtain ⟨hblank, before, after, rfl, hbefore⟩ := List.find?_eq_some_iff_append.1 hfind
  rw [List.append_assoc, List.cons_append] at hlines
  obtain ⟨n', r₁, hread', hrem'⟩ := readHeaders_of_append hr hlines
    (fun h hh => by simpa using hbefore h hh) (of_decide_eq_true hblank)
  obtain ⟨-, -, rfl⟩ : hs = before ∧ n = n' ∧ r' = r₁ := by simpa using hread.symm.trans hread'
  have hlength := congrArg List.length (encodeUtf8_injective (hrem.symm.trans hrem'))
  have hpos := List.length_pos_iff.2 hempty.ne_nil
  rw [List.flatten_append, List.flatten_cons, List.length_append, List.length_append] at hlength
  omega

/-! ## Waiting for the end -/

/-- A picker that refuses every request. -/
def refusingEnv : Env Unit := { sampleEnv with picker := fun _ _ => .error .noHealthyTunnels }

/-- The call is recorded, and fails. -/
theorem refuses_pick (host : Text) (port : UInt16) : refusingEnv.pick host port .new =
    (.error (.err .noHealthyTunnels), { Session.new with picks := [(host, port)] }) := rfl

variable {firstLine : Text}

/-- Where the header loop of a CONNECT has ended, the picker is called. -/
theorem exists_pick_handleConnect {host : Text} {port : UInt16}
    (hparse : parseConnect firstLine = .ok (host, port)) (hloop : discardHeaders r = .ok r') :
    ∃ env : Env Unit, (env.handleConnect r firstLine .new).2.picks ≠ [] := by
  refine ⟨refusingEnv, ?_⟩
  rw [Env.handleConnect, hparse, Handler.bind_ok (Handler.ofExcept_ok _ _)]
  dsimp only
  rw [hloop, Handler.bind_ok (Handler.ofIo_ok _ _), Handler.bind_error (refuses_pick _ _)]
  exact List.cons_ne_nil _ _

/-- Where that of a forwarded request has ended, so it is. -/
theorem exists_pick_handlePlainHttp {req : HttpRequest} {n : ℕ}
    (hparse : parseHttpRequest firstLine = .ok req)
    (hloop : readHeaders r [] 0 = .ok (headers, n, r')) :
    ∃ env : Env Unit, (env.handlePlainHttp r firstLine .new).2.picks ≠ [] := by
  refine ⟨refusingEnv, ?_⟩
  rw [Env.handlePlainHttp, hparse, Handler.bind_ok (Handler.ofExcept_ok _ _), hloop,
    Handler.bind_ok (Handler.ofIo_ok _ _)]
  dsimp only
  rw [Handler.bind_error (refuses_pick _ _)]
  exact List.cons_ne_nil _ _

/-- The handler of a CONNECT waits exactly if its line is refused, or the head has ended. -/
theorem connectWaits_iff (hr : r.remaining = encodeUtf8 s) : ConnectWaits r firstLine s ↔
    (∃ e, parseConnect firstLine = .error e) ∨ Ended s := by
  obtain ⟨n, r₁, hread, -⟩ := readHeaders_of_text hr
  have hloop : discardHeaders r = .ok r₁ := by rw [discardHeaders_eq_map r [] 0, hread]; rfl
  rcases hparse : parseConnect firstLine with e | ⟨host, port⟩
  · refine iff_of_true ⟨fun _ τ env => ⟨e, ?_⟩, fun _ _ _ _ _ h => ?_⟩ (.inl ⟨e, rfl⟩)
    · rw [Env.handleConnect, hparse]
      rfl
    · exact absurd (hparse.symm.trans h) (by simp)
  · rw [or_iff_right (by simp)]
    constructor
    · rintro ⟨hincomplete, hcomplete⟩
      refine ⟨?_, fun headers rest hhead => ?_⟩
      · -- Otherwise the handler fails before the picker is called.
        by_contra hnone
        obtain ⟨env, hpicks⟩ := exists_pick_handleConnect hparse hloop
        obtain ⟨e, he⟩ := hincomplete (fun l hl hempty => hnone ⟨l, hl, hempty⟩) Unit env
        exact hpicks (congrArg (·.2.picks) he)
      · obtain ⟨r', hr', hrem⟩ := hcomplete headers rest hhead host port hparse
        obtain rfl := Except.ok.inj (hloop.symm.trans hr')
        exact hhead.not_blank hr hread hrem
    · rintro ⟨⟨l, hl, hempty⟩, hblank⟩
      refine ⟨fun hnone => absurd hempty (hnone l hl), fun headers rest hhead _ _ _ => ?_⟩
      obtain ⟨l, hempty, hlines, -⟩ := id hhead
      obtain ⟨n, r', hread, hrem⟩ :=
        readHeaders_of_append hr hlines (hblank headers rest hhead) hempty.trim
      exact ⟨r', by rw [discardHeaders_eq_map r [] 0, hread]; rfl, hrem⟩

/-- So does that of a plain request. -/
theorem plainWaits_iff (hr : r.remaining = encodeUtf8 s) : PlainWaits r firstLine s ↔
    (∃ e, parseHttpRequest firstLine = .error e) ∨ Ended s := by
  obtain ⟨n, r₁, hread, -⟩ := readHeaders_of_text hr
  rcases hparse : parseHttpRequest firstLine with e | req
  · refine iff_of_true ⟨fun _ τ env => ⟨e, ?_⟩, fun _ _ _ _ h => ?_⟩ (.inl ⟨e, rfl⟩)
    · rw [Env.handlePlainHttp, hparse]
      rfl
    · exact absurd (hparse.symm.trans h) (by simp)
  · rw [or_iff_right (by simp)]
    constructor
    · rintro ⟨hincomplete, hcomplete⟩
      refine ⟨?_, fun headers rest hhead => ?_⟩
      · by_contra hnone
        obtain ⟨env, hpicks⟩ := exists_pick_handlePlainHttp hparse hread
        obtain ⟨e, he⟩ := hincomplete (fun l hl hempty => hnone ⟨l, hl, hempty⟩) Unit env
        exact hpicks (congrArg (·.2.picks) he)
      · obtain ⟨⟨n', r', hread', hrem⟩, -⟩ := hcomplete headers rest hhead req hparse
        exact hhead.not_blank hr hread' hrem
    · rintro ⟨⟨l, hl, hempty⟩, hblank⟩
      refine ⟨fun hnone => absurd hempty (hnone l hl), fun headers rest hhead req' hreq => ?_⟩
      obtain ⟨l, hempty, hlines, -⟩ := id hhead
      obtain ⟨n, r', hread, hrem⟩ :=
        readHeaders_of_append hr hlines (hblank headers rest hhead) hempty.trim
      refine ⟨⟨n, r', hread, hrem⟩, fun τ env session hok => ?_⟩
      -- What is forwarded are the lines that the loop has returned.
      obtain ⟨req₁, headers₁, n₁, r₁, body, hreq₁, hread₁, hbody, -⟩ :=
        delivered_of_handlePlainHttp hok
      obtain rfl := Except.ok.inj (hreq.symm.trans hreq₁)
      obtain ⟨rfl, -, -⟩ : headers = headers₁ ∧ n = n₁ ∧ r' = r₁ := by
        simpa using hread.symm.trans hread₁
      exact ⟨body, hbody⟩

/-- The proxy waits for the end of a head exactly if the request line is refused, or the head is
    complete and no header line before its end is blank. This is so for both handlers, for any
    text, and the end of a head is its first empty line. -/
theorem waits_iff (r : BufReader) (firstLine s : Text) (hr : r.remaining = encodeUtf8 s) :
    (ConnectWaits r firstLine s ↔ (∃ e, parseConnect firstLine = .error e) ∨ Ended s) ∧
      (PlainWaits r firstLine s ↔ (∃ e, parseHttpRequest firstLine = .error e) ∨ Ended s) :=
  ⟨connectWaits_iff hr, plainWaits_iff hr⟩

/-- The line of a CONNECT. -/
def tunnelLine : Text := "CONNECT a:443 HTTP/1.1".toList

/-- A head that is complete. -/
def completeRest : Text := "Host: a\r\n\r\n".toList

/-- The same head, cut off in its header line. -/
def truncatedRest : Text := "Host: a".toList

/-- Both handlers wait for the end of the complete head. -/
theorem waits_complete : ConnectWaits (readerOf completeRest (by decide)) tunnelLine completeRest ∧
    PlainWaits (readerOf completeRest (by decide)) postLine completeRest := by
  have hremaining : (readerOf completeRest (by decide)).remaining = encodeUtf8 completeRest := by
    decide
  have hblank : ∀ l ∈ splitInclusive '\n' completeRest, trim l = [] → EmptyLine l := by decide
  have hended : Ended completeRest := by
    refine ⟨by decide, ?_⟩
    rintro headers rest ⟨l, -, hlines, hheaders⟩ h hh htrim
    exact hheaders h hh (hblank h (hlines ▸ List.mem_append_left _ hh) htrim)
  exact ⟨(waits_iff _ tunnelLine _ hremaining).1.2 (.inr hended),
    (waits_iff _ postLine _ hremaining).2.2 (.inr hended)⟩

/-- The head that is cut off is taken for a complete one. -/
theorem not_waits_truncated : ¬∀ (r : BufReader) (firstLine s : Text),
    r.remaining = encodeUtf8 s → ConnectWaits r firstLine s ∧ PlainWaits r firstLine s := by
  intro h
  have hremaining : (readerOf truncatedRest (by decide)).remaining = encodeUtf8 truncatedRest := by
    decide
  obtain ⟨n, r', hread, -⟩ := readHeaders_of_text hremaining
  have hparse : parseConnect tunnelLine = .ok ("a".toList, 443) := rfl
  obtain ⟨env, hpicks⟩ := exists_pick_handleConnect hparse
    (by rw [discardHeaders_eq_map _ [] 0, hread]; rfl)
  obtain ⟨⟨hwaits, -⟩, -⟩ := h _ tunnelLine _ hremaining
  obtain ⟨e, he⟩ := hwaits (by decide) Unit env
  exact hpicks (congrArg (·.2.picks) he)

end Houdinny.Proxy
