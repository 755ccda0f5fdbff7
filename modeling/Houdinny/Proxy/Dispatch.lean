import Houdinny.Proxy.Handler

/-!
# Dispatch

The first line of a connection is sent to `handle_connect` if its upper case starts with
`CONNECT` and a space (`sentToConnect`). The parser of `handle_connect` splits the line at
any white space instead, and wants the first word to be `CONNECT`, up to the case of
ASCII letters.

What is sent is what the parser asks for, as no other characters than the letters of
`CONNECT` have these as their upper case. But the parser asks for more: dispatch and
parser agree about a line exactly if it does not start with white space or have
another white space than a space after its `CONNECT` (`agrees_iff`).

Upper case is that of `str::to_uppercase`, which goes character by character but may turn one
into several. All that is used of it (`starts_toUppercase_iff`) is that the upper case of a
character outside of ASCII has a character which is none of `CONNECT`: one outside of ASCII
again, or an F, I or S (`UppersByChar`).

That the parser refuses a line for its method is told from the message of its error
(`methodError`), so it must be shown that no other error has this message: all others start
in another way (`AuthorityMessage`, `OnlyOfAuthority`).
-/

namespace Houdinny.Proxy

open Text Stream

/-- The test of `handle_connection`: the line is sent to `handle_connect`. -/
def sentToConnect (casing : CaseMapping) (line : Text) : Bool :=
  "CONNECT ".toList.isPrefixOf (casing.toUppercase line)

/-- `handle_connection` hands its request line, and what it has read, over as the test says. -/
def Dispatches (casing : CaseMapping) (line : Text) : Prop :=
  ∀ (τ : Type) (env : Env τ) (reads : Reads) (reader : BufReader) (session : Session τ),
    readRequestLine reads = .ok (line, reader) → line ≠ [] →
      env.handleConnection casing reads session =
        if sentToConnect casing line then env.handleConnect reader line session
        else env.handlePlainHttp reader line session

/-- The first word is `CONNECT` ignoring ASCII case, and another one follows. -/
def AsksForTunnel (line : Text) : Prop :=
  ∃ method authority words, splitWhitespace line = method :: authority :: words ∧
    eqIgnoreAsciiCase method "CONNECT".toList = true

/-- The error of `parse_connect` for another method. -/
def methodError (method : Text) : Error :=
  .proxy ("expected CONNECT method, got: ".toList ++ method)

/-- Dispatch agrees with the parser about a line. -/
structure DispatchAgrees (casing : CaseMapping) (line : Text) : Prop where
  sent : sentToConnect casing line = true ↔ AsksForTunnel line
  /-- What the parser accepts is sent to it. -/
  accepted : ∀ host port, parseConnect line = .ok (host, port) → sentToConnect casing line = true
  /-- What is sent to the parser is not rejected for its method. -/
  method : sentToConnect casing line = true →
    ∀ method, parseConnect line ≠ .error (methodError method)

/-- If the first word of the line is `CONNECT` and another one follows, the line starts with
    it, and goes on with a space. -/
def StartsWithMethod (line : Text) : Prop :=
  ∀ method authority words, splitWhitespace line = method :: authority :: words →
    eqIgnoreAsciiCase method "CONNECT".toList = true → method ++ [' '] <+: line

variable {casing : CaseMapping} {c : Char} {k w s line authority : Text}

/-! ## Upper case -/

/-- The characters of `CONNECT`, and the space after it. -/
def connectChars : Text := "CONET ".toList

/-- A text of these characters with a space is not the start of the upper case of a
    character outside of ASCII. -/
theorem not_starts_of_outside (hcasing : casing.UppersByChar) (hc : 128 ≤ c.toNat)
    (hw : w ⊆ connectChars) (hspace : ' ' ∈ w) (s : Text) :
    ¬w <+: casing.toUppercase (c :: s) := by
  intro hstarts
  rw [← List.singleton_append, hcasing.append] at hstarts
  obtain ⟨d, hd, houtside⟩ := hcasing.outside c hc
  rcases List.prefix_or_prefix_of_prefix hstarts (List.prefix_append _ _) with hle | hle
  · -- The upper case has no space.
    rcases hcasing.upper_mem [c] ' ' (hle.subset hspace) with hmem | hupper | hlarge
    · rw [← List.mem_singleton.1 hmem] at hc
      exact absurd hc (by decide)
    · exact absurd hupper (by decide)
    · exact absurd hlarge (by decide)
  · -- One of its characters is no character of the text.
    have hascii : ∀ d ∈ connectChars, ¬(128 ≤ d.toNat ∨ d ∈ ['F', 'I', 'S']) :=
      forall_mem_of_all (by decide)
    exact hascii d (hw (hle.subset hd)) houtside

/-- The upper case is one of these letters exactly if the lower case is its lower case. -/
theorem toUpper_eq_iff {d : Char} (hd : d ∈ connectChars) (hc : c.toNat < 128) :
    c.toUpper = d ↔ c.toLower = d.toLower := by
  have hall : ∀ d ∈ connectChars, ∀ n < 128,
      ((Char.ofNat n).toUpper = d ↔ (Char.ofNat n).toLower = d.toLower) :=
    forall_mem_of_all (by decide)
  exact forall_ascii (p := fun c => c.toUpper = d ↔ c.toLower = d.toLower) (hall d hd) hc

/-- The lower case of these letters is in ASCII only. -/
theorem lt_of_toLower_eq {d : Char} (hd : d ∈ connectChars) (h : c.toLower = d.toLower) :
    c.toNat < 128 := by
  by_contra hc
  rw [toLower_of_le (Nat.le_of_not_lt hc)] at h
  have hascii : ∀ d ∈ connectChars, d.toLower.toNat < 128 := forall_mem_of_all (by decide)
  exact hc (h ▸ hascii d hd)

/-- A space is the lower case of a space only. -/
theorem eq_space_of_toLower_eq (h : c.toLower = ' '.toLower) : c = ' ' := by
  have hall : ∀ n < 128, (Char.ofNat n).toLower = ' '.toLower → Char.ofNat n = ' ' := by decide
  exact forall_ascii (p := fun c => c.toLower = ' '.toLower → c = ' ') hall
    (lt_of_toLower_eq (by decide) h) h

/-- Texts are compared character by character. -/
theorem eqIgnoreAsciiCase_cons {d : Char} : eqIgnoreAsciiCase (c :: k) (d :: w) = true ↔
    c.toLower = d.toLower ∧ eqIgnoreAsciiCase k w = true := by
  simp [eqIgnoreAsciiCase]

/-- A character of these starts the upper case of a text exactly if it does so with the text,
    up to the case of ASCII letters. -/
theorem cons_starts_iff {d : Char} (hcasing : casing.UppersByChar) (hdw : d :: w ⊆ connectChars)
    (hspace : ' ' ∈ d :: w) : d :: w <+: casing.toUppercase s ↔
      ∃ c t, s = c :: t ∧ c.toLower = d.toLower ∧ w <+: casing.toUppercase t := by
  have hd : d ∈ connectChars := hdw List.mem_cons_self
  rcases s with _ | ⟨c, t⟩
  · have hnil : casing.toUppercase [] = [] := casing.upper_ascii [] (by decide)
    rw [hnil]
    exact iff_of_false (by simp) (by simp)
  · have hcons : (∃ c' t', c :: t = c' :: t' ∧ c'.toLower = d.toLower ∧
        w <+: casing.toUppercase t') ↔ c.toLower = d.toLower ∧ w <+: casing.toUppercase t :=
      ⟨by rintro ⟨_, _, ⟨⟩, h⟩; exact h, fun h => ⟨c, t, rfl, h⟩⟩
    rw [hcons]
    by_cases hc : c.toNat < 128
    · rw [hcasing.toUppercase_cons hc, List.cons_prefix_cons, ← toUpper_eq_iff hd hc]
      exact and_congr_left fun _ => eq_comm
    · exact iff_of_false (not_starts_of_outside hcasing (Nat.le_of_not_lt hc) hdw hspace t)
        fun h => hc (lt_of_toLower_eq hd h.1)

/-- The upper case of a text starts with a word of these letters and a space exactly if the
    text does, up to the case of ASCII letters. -/
theorem starts_toUppercase_iff (hcasing : casing.UppersByChar) (hw : w ⊆ connectChars) :
    w ++ [' '] <+: casing.toUppercase s ↔
      ∃ k t, s = k ++ ' ' :: t ∧ eqIgnoreAsciiCase k w = true := by
  induction w generalizing s with
  | nil =>
    rw [List.nil_append, cons_starts_iff hcasing (by decide) (by decide)]
    constructor
    · rintro ⟨c, t, rfl, hlower, -⟩
      -- No other character is a space in upper case.
      obtain rfl : c = ' ' := eq_space_of_toLower_eq hlower
      exact ⟨[], t, rfl, rfl⟩
    · rintro ⟨k, t, rfl, hk⟩
      obtain rfl : k = [] := by simpa [eqIgnoreAsciiCase] using hk
      exact ⟨' ', t, rfl, rfl, List.nil_prefix⟩
  | cons d w ih =>
    have hsub : w ++ [' '] ⊆ connectChars := List.append_subset.2
      ⟨fun c hc => hw (List.mem_cons_of_mem _ hc), by decide⟩
    rw [List.cons_append, cons_starts_iff hcasing
      (List.cons_subset.2 ⟨hw List.mem_cons_self, hsub⟩) (by simp)]
    constructor
    · rintro ⟨c, s, rfl, hlower, hstarts⟩
      obtain ⟨k, t, rfl, hk⟩ := (ih fun c hc => hw (List.mem_cons_of_mem _ hc)).1 hstarts
      exact ⟨c :: k, t, rfl, eqIgnoreAsciiCase_cons.2 ⟨hlower, hk⟩⟩
    · rintro ⟨_ | ⟨c, k⟩, t, rfl, hk⟩
      · exact absurd hk (by simp [eqIgnoreAsciiCase])
      · obtain ⟨hlower, hk⟩ := eqIgnoreAsciiCase_cons.1 hk
        exact ⟨c, k ++ ' ' :: t, rfl, hlower,
          (ih fun c hc => hw (List.mem_cons_of_mem _ hc)).2 ⟨k, t, rfl, hk⟩⟩

/-- What is sent starts with `CONNECT` and a space, up to the case of ASCII letters. -/
theorem sentToConnect_iff (hcasing : casing.UppersByChar) :
    sentToConnect casing line = true ↔
      ∃ k t, line = k ++ ' ' :: t ∧ eqIgnoreAsciiCase k "CONNECT".toList = true := by
  rw [← starts_toUppercase_iff hcasing (by decide), sentToConnect, List.isPrefixOf_iff_prefix]
  rfl

/-! ## Words -/

/-- A word that is `CONNECT` up to the case of ASCII letters is a word. -/
theorem solid_of_eqIgnoreAsciiCase (h : eqIgnoreAsciiCase k "CONNECT".toList = true) :
    k ≠ [] ∧ Solid k := by
  have hlower : k.map Char.toLower = "CONNECT".toList.map Char.toLower := eq_of_beq h
  constructor
  · rintro rfl
    exact absurd hlower (by decide)
  · intro c hc
    have hmem : c.toLower ∈ "CONNECT".toList.map Char.toLower := hlower ▸ List.mem_map_of_mem hc
    obtain ⟨d, hd, heq⟩ := List.mem_map.1 hmem
    have hall : ∀ n < 128, (Char.ofNat n).toLower ∈ "CONNECT".toList.map Char.toLower →
        isWhitespace (Char.ofNat n) = false := by decide
    have hsub : "CONNECT".toList ⊆ connectChars := by decide
    exact forall_ascii (p := fun c => c.toLower ∈ "CONNECT".toList.map Char.toLower →
      isWhitespace c = false) hall (lt_of_toLower_eq (hsub hd) heq.symm) hmem

/-- It is the first word of a line that starts with it and a space. -/
theorem splitWhitespace_connect (h : eqIgnoreAsciiCase k "CONNECT".toList = true) (t : Text) :
    splitWhitespace (k ++ ' ' :: t) = k :: splitWhitespace t :=
  have ⟨hne, hsolid⟩ := solid_of_eqIgnoreAsciiCase h
  splitWhitespace_append_cons hne hsolid (by decide) t

/-- Another word follows, as the line does not end in white space. -/
theorem splitWhitespace_ne_nil {t : Text} (htrim : trimEnd (k ++ ' ' :: t) = k ++ ' ' :: t) :
    splitWhitespace t ≠ [] := by
  intro hnil
  have hall : ∀ c ∈ ' ' :: t, isWhitespace c = true :=
    List.forall_mem_cons.2 ⟨by decide, isWhitespace_of_splitWhitespace hnil⟩
  have hne : k ++ ' ' :: t ≠ [] := by simp
  refine List.rdropWhile_eq_self_iff.1 htrim hne (hall _ ?_)
  rw [List.getLast_append_of_ne_nil _ (List.cons_ne_nil _ _)]
  exact List.getLast_mem _

/-- What is sent asks for a tunnel. -/
theorem asksForTunnel_of_sent (hcasing : casing.UppersByChar) (htrim : trimEnd line = line)
    (h : sentToConnect casing line = true) : AsksForTunnel line := by
  obtain ⟨k, t, rfl, hk⟩ := (sentToConnect_iff hcasing).1 h
  obtain ⟨authority, words, hwords⟩ := List.exists_cons_of_ne_nil (splitWhitespace_ne_nil htrim)
  exact ⟨k, authority, words, by rw [splitWhitespace_connect hk, hwords], hk⟩

/-- What starts with its method and a space is sent. -/
theorem sent_of_starts (hcasing : casing.UppersByChar)
    (hk : eqIgnoreAsciiCase k "CONNECT".toList = true) (h : k ++ [' '] <+: line) :
    sentToConnect casing line = true := by
  obtain ⟨t, rfl⟩ := h
  exact (sentToConnect_iff hcasing).2 ⟨k, t, by simp, hk⟩

/-- What is sent starts with its method and a space. -/
theorem startsWithMethod_of_sent (hcasing : casing.UppersByChar)
    (h : sentToConnect casing line = true) : StartsWithMethod line := by
  obtain ⟨k, t, rfl, hk⟩ := (sentToConnect_iff hcasing).1 h
  intro method authority words hwords _
  rw [splitWhitespace_connect hk] at hwords
  obtain rfl := (List.cons.inj hwords).1
  exact ⟨t, by simp⟩

/-! ## The parser -/

/-- What the parser accepts asks for a tunnel. -/
theorem asksForTunnel_of_parseConnect {host : Text} {port : UInt16}
    (h : parseConnect line = .ok (host, port)) : AsksForTunnel line := by
  rw [parseConnect] at h
  split at h
  · next method authority words hwords =>
    split_ifs at h with hmethod
    exact ⟨method, authority, words, hwords, hmethod⟩
  · exact absurd h (by simp)

/-- How the errors about an authority start. -/
inductive AuthorityMessage : Text → Prop
  | malformed : AuthorityMessage "malformed IPv6 authority: ".toList
  | invalidPortIpv6 : AuthorityMessage "invalid port in IPv6 authority: ".toList
  | emptyHostIpv6 : AuthorityMessage "empty host in IPv6 authority: ".toList
  | missingPort : AuthorityMessage "missing port in CONNECT authority: ".toList
  | invalidPort : AuthorityMessage "invalid port: ".toList
  | emptyHost : AuthorityMessage "empty host in authority: ".toList

/-- The errors of a parser are about an authority. -/
def OnlyOfAuthority {α : Type} (result : Except Error α) : Prop :=
  ∀ e, result = .error e → ∃ msg s, AuthorityMessage msg ∧ e = .proxy (msg ++ s)

section

variable {α β : Type} {msg : Text}

/-- No error at all. -/
theorem onlyOfAuthority_ok (a : α) : OnlyOfAuthority (.ok a) := by
  rintro e ⟨⟩

/-- An error that starts so. -/
theorem onlyOfAuthority_error (hmsg : AuthorityMessage msg) (s : Text) :
    OnlyOfAuthority (α := α) (.error (.proxy (msg ++ s))) := by
  rintro e ⟨⟩
  exact ⟨msg, s, hmsg, rfl⟩

/-- A parser in two parts. -/
theorem OnlyOfAuthority.bind {result : Except Error α} {f : α → Except Error β}
    (h : OnlyOfAuthority result) (hf : ∀ a, OnlyOfAuthority (f a)) :
    OnlyOfAuthority (result >>= f) := by
  rcases result with e | a
  · rintro _ ⟨⟩
    exact h e rfl
  · exact hf a

/-- The rest of a parser, after a check. -/
theorem onlyOfAuthority_check {p : Prop} [Decidable p] (hmsg : AuthorityMessage msg) (s : Text)
    {a : α} :
    OnlyOfAuthority (do
      if p then throw (.proxy (msg ++ s))
      return a) := by
  by_cases h : p
  · rw [if_pos h]
    exact onlyOfAuthority_error hmsg s
  · rw [if_neg h]
    exact onlyOfAuthority_ok a

/-- The error about a port. -/
theorem onlyOfAuthority_parsePort (hmsg : AuthorityMessage msg) (s : Text) :
    OnlyOfAuthority (parsePort msg s) := by
  rw [parsePort]
  split
  · exact onlyOfAuthority_ok _
  · exact onlyOfAuthority_error hmsg s

end

/-- The errors about an address in brackets. -/
theorem onlyOfAuthority_parseIpv6Authority (authority : Text) (defaultPort : UInt16) :
    OnlyOfAuthority (parseIpv6Authority authority defaultPort) := by
  rw [parseIpv6Authority]
  split
  · exact onlyOfAuthority_error .malformed authority
  · have hchecked (host : Text) (port : UInt16) : OnlyOfAuthority (do
        if host.isEmpty then throw (.proxy ("empty host in IPv6 authority: ".toList ++ authority))
        return (host, port)) := onlyOfAuthority_check .emptyHostIpv6 authority
    dsimp only
    split
    · exact (onlyOfAuthority_parsePort .invalidPortIpv6 _).bind (hchecked _)
    · exact hchecked _ defaultPort

/-- The errors about the authority of a CONNECT. -/
theorem onlyOfAuthority_parseHostPort (authority : Text) :
    OnlyOfAuthority (parseHostPort authority) := by
  rw [parseHostPort]
  split_ifs
  · exact (onlyOfAuthority_parseIpv6Authority authority 0).bind fun result =>
      onlyOfAuthority_check .missingPort authority
  · split
    · exact (onlyOfAuthority_parsePort .invalidPort _).bind fun port =>
        onlyOfAuthority_check .emptyHost authority
    · exact onlyOfAuthority_error .missingPort authority

/-- A line that asks for a tunnel is not rejected for its method. -/
theorem parseConnect_ne_methodError (h : AsksForTunnel line) (method : Text) :
    parseConnect line ≠ .error (methodError method) := by
  obtain ⟨k, authority, words, hwords, hk⟩ := h
  rw [parseConnect, hwords]
  dsimp only
  rw [if_pos hk]
  intro herror
  obtain ⟨msg, s, hmsg, heq⟩ := onlyOfAuthority_parseHostPort authority _ herror
  -- The first two characters are enough to tell the messages from the one about the method.
  have htake := congrArg (List.take 2) (Error.proxy.inj heq)
  have hstart : 2 ≤ msg.length ∧ msg.take 2 ≠ "ex".toList := by
    cases hmsg <;> simp
  rw [List.take_append_of_le_length hstart.1] at htake
  exact hstart.2 htake.symm

/-! ## Agreement -/

/-- Dispatch agrees with the parser about the lines that start with the method they have. -/
theorem agrees_iff_startsWithMethod (hcasing : casing.UppersByChar)
    (htrim : trimEnd line = line) : DispatchAgrees casing line ↔ StartsWithMethod line := by
  constructor
  · intro h method authority words hwords hmethod
    exact startsWithMethod_of_sent hcasing
      (h.sent.2 ⟨method, authority, words, hwords, hmethod⟩) method authority words hwords hmethod
  · intro h
    have hsent : AsksForTunnel line → sentToConnect casing line = true := by
      rintro ⟨method, authority, words, hwords, hmethod⟩
      exact sent_of_starts hcasing hmethod (h method authority words hwords hmethod)
    exact {
      sent := ⟨asksForTunnel_of_sent hcasing htrim, hsent⟩
      accepted := fun host port hparse => hsent (asksForTunnel_of_parseConnect hparse)
      method := fun hline =>
        parseConnect_ne_methodError (asksForTunnel_of_sent hcasing htrim hline) }

/-- Whichever of the two it is, the handler gets the line and what was read. -/
theorem dispatches (casing : CaseMapping) (line : Text) : Dispatches casing line := by
  intro τ env reads reader session hread hne
  have hempty : ¬line.isEmpty := fun hempty => hne (List.isEmpty_iff.1 hempty)
  rw [Env.handleConnection, hread, Handler.bind_ok (Handler.ofIo_ok _ _)]
  dsimp only
  rw [if_neg hempty, sentToConnect]
  split_ifs
  · rfl
  · rfl

/-- Dispatch agrees with the CONNECT parser about a line, without white space at its end,
    exactly if the line starts with the method it has, and a space. What they are to agree about
    is that the lines that ask for a tunnel are those that are sent, that what the parser
    accepts is sent, and that nothing is sent that is refused for its method. -/
theorem agrees_iff (hcasing : casing.UppersByChar) (s : Text) :
    Dispatches casing (trimEnd s) ∧
      (DispatchAgrees casing (trimEnd s) ↔ StartsWithMethod (trimEnd s)) :=
  ⟨dispatches casing _,
    agrees_iff_startsWithMethod hcasing (List.rdropWhile_idempotent isWhitespace s)⟩

/-- Dispatch and parser agree about a CONNECT in lower case. -/
theorem agrees_lowercase : DispatchAgrees .ascii "connect a:443".toList := by
  refine (agrees_iff ascii_uppersByChar "connect a:443\r\n".toList).2.2 ?_
  intro method authority words hwords _
  have hsplit : splitWhitespace "connect a:443".toList = ["connect".toList, "a:443".toList] := rfl
  obtain rfl := (List.cons.inj (hsplit.symm.trans hwords)).1
  decide

/-- A line with a tab after its method is accepted by the parser, and not sent to it: it is
    taken for a plain request. -/
theorem not_agrees_tab :
    ¬∀ casing : CaseMapping, casing.UppersByChar → ∀ s, DispatchAgrees casing (trimEnd s) := by
  intro h
  have hagrees := h .ascii ascii_uppersByChar "CONNECT\texample.com:443 HTTP/1.1".toList
  have hparse : parseConnect (trimEnd "CONNECT\texample.com:443 HTTP/1.1".toList) =
      .ok ("example.com".toList, 443) := rfl
  exact absurd (hagrees.accepted _ _ hparse) (by decide)

end Houdinny.Proxy
