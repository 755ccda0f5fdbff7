import Houdinny.Proxy.Grammar

/-!
# IPv6 addresses on the next hop

The parsers of the proxy take the brackets off an IPv6 address, and a transport that goes
through another HTTP proxy writes the host and the port with a colon between them, without
brackets. So no address in brackets is sent on as it came (`not_survives`), and one with a
colon is no authority any more.

What is sent is looked at as the bytes of a head (`SentFor`), from which the target can be
told again (`SentFor.target_unique`). This is so for every transport, whatever credentials it
sends along.
-/

namespace Houdinny.Proxy

open Text

variable {line sent target value host : Text} {defaultPort : Option UInt16} {port : UInt16}

/-- The head of a CONNECT request with this target, and this value of `Host`. -/
def SentFor (sent target value : Text) : Prop :=
  ∃ rest, sent = "CONNECT ".toList ++ target ++ " HTTP/1.1\r\nHost: ".toList ++ value ++
    "\r\n".toList ++ rest

/-- What the transport sends for the host and the port is, in the target and in `Host`, the
    authority with the host in brackets. -/
def Survives (base64 : Text → Text) (t : HttpProxyTransport) (host : Text) (port : UInt16) : Prop :=
  SentFor (t.connectRequest base64 host port) (authority (.ipv6 host) (some port))
    (authority (.ipv6 host) (some port))

/-- The request of a transport names the host and the port in both lines. -/
theorem sentFor_connectRequest (base64 : Text → Text) (t : HttpProxyTransport) (host : Text)
    (port : UInt16) :
    SentFor (t.connectRequest base64 host port) (hostPort host port) (hostPort host port) := by
  refine ⟨t.authHeader base64 ++ "\r\n".toList, ?_⟩
  change "CONNECT ".toList ++ host ++ ":".toList ++ ofNat port.toNat ++
      " HTTP/1.1\r\nHost: ".toList ++ host ++ ":".toList ++ ofNat port.toNat ++ "\r\n".toList ++
      t.authHeader base64 ++ "\r\n".toList =
    "CONNECT ".toList ++ (host ++ ":".toList ++ ofNat port.toNat) ++
      " HTTP/1.1\r\nHost: ".toList ++ (host ++ ":".toList ++ ofNat port.toNat) ++
      "\r\n".toList ++ (t.authHeader base64 ++ "\r\n".toList)
  simp only [List.append_assoc]

/-- A target without white space is determined by what is sent. -/
theorem SentFor.target_unique {target' value' : Text} (h : SentFor sent target value)
    (h' : SentFor sent target' value') (hsolid : Solid target) (hsolid' : Solid target') :
    target = target' := by
  obtain ⟨rest, rfl⟩ := h
  obtain ⟨rest', heq⟩ := h'
  have hspace {s : Text} (h : Solid s) : ' ' ∉ s := fun hmem => absurd (h _ hmem) (by decide)
  have hversion : " HTTP/1.1\r\nHost: ".toList = ' ' :: "HTTP/1.1\r\nHost: ".toList := by decide
  simp only [hversion, List.append_assoc, List.cons_append] at heq
  exact (cut_inj (hspace hsolid) (hspace hsolid') (List.append_cancel_left heq)).1

/-- The host in a text that starts with a bracket is what the brackets enclose. -/
theorem Reads.bracketed {a : Text} (h : Reads defaultPort a host port)
    (hhead : a.head? = some '[') : ']' ∉ host ∧ ∃ rest, a = '[' :: host ++ ']' :: rest := by
  cases defaultPort with
  | none =>
    cases h with
    | namePort hne hname => exact absurd hhead (head?_append_ne hne hname _)
    | ipv6Port _ hs => exact ⟨hs, _, rfl⟩
  | some =>
    cases h with
    | name _ hname => exact absurd hhead hname
    | namePort hne hname => exact absurd hhead (head?_append_ne hne hname _)
    | ipv6 _ hs | ipv6Port _ hs => exact ⟨hs, _, rfl⟩

/-- With a colon in the host, what is sent is not written by the grammar. -/
theorem not_isWritten_hostPort (hbracket : ']' ∉ host) (hcolon : ':' ∈ host) (h : Host)
    (written : Option UInt16) : ¬IsWritten (hostPort host port) h written := by
  intro hwritten
  have hsent : hostPort host port = host ++ ':' :: ofNat port.toNat := List.append_assoc ..
  obtain ⟨hvalid, rest, heq, hrest⟩ := hwritten.exists_rest
  rw [hsent] at heq
  cases h with
  | name s =>
    rcases hrest with rfl | ⟨digits, _, rfl, hport⟩
    · rw [List.append_nil, Host.render] at heq
      exact hvalid.2.1 (heq ▸ List.mem_append_left _ hcolon)
    · obtain ⟨rfl, -⟩ := namePort_inj (notMem_ofNat (by decide) _) (hport.notMem (by decide)) heq
      exact hvalid.2.1 hcolon
  | ipv6 s =>
    -- The address would end with a bracket.
    have hmem : ']' ∈ host ++ ':' :: ofNat port.toNat := heq ▸ by simp [Host.render]
    rw [List.mem_append, List.mem_cons] at hmem
    rcases hmem with hmem | hmem | hmem
    · exact hbracket hmem
    · exact absurd hmem (by decide)
    · exact notMem_ofNat (by decide) _ hmem

/-- An address that is accepted in brackets is sent on without them, in the target and in
    `Host`, however its port is written; with a colon in it, what is sent is not written by
    the grammar. -/
theorem not_survives {a : Text} (base64 : Text → Text) (t : HttpProxyTransport)
    (h : Accepts line defaultPort a host port) (hhead : a.head? = some '[') :
    SentFor (t.connectRequest base64 host port) (hostPort host port) (hostPort host port) ∧
      ¬Survives base64 t host port ∧
      (':' ∈ host → ∀ h written, ¬IsWritten (hostPort host port) h written) := by
  obtain ⟨ha, hreads⟩ := accepts_iff.1 h
  obtain ⟨hbracket, rest, rfl⟩ := hreads.bracketed hhead
  have hsent := sentFor_connectRequest base64 t host port
  refine ⟨hsent, fun hsurvives => ?_, fun hcolon => not_isWritten_hostPort hbracket hcolon⟩
  have hhost : Solid host := solid_of_subset ha.solid.1 (by simp)
  have hsolid : Solid (hostPort host port) :=
    solid_append.2 ⟨solid_append.2 ⟨hhost, by decide⟩, solid_ofNat _⟩
  have hsolid' : Solid (authority (.ipv6 host) (some port)) := by
    have hopen : Solid ['['] := by decide
    have hclose : Solid "]:".toList := by decide
    rw [authority_ipv6]
    exact solid_append.2 ⟨solid_append.2 ⟨hopen, hhost⟩, solid_append.2 ⟨hclose, solid_ofNat _⟩⟩
  -- The authority is longer than what is sent, by the brackets.
  have hlen := congrArg List.length (hsent.target_unique hsurvives hsolid hsolid')
  have hcolon : ":".toList.length = 1 := rfl
  simp only [authority_ipv6, hostPort, List.length_append, List.length_cons, hcolon] at hlen
  omega

/-- A line that asks for a tunnel to an IPv6 address. -/
theorem accepts_connectLine : Accepts (connectLine (.ipv6 "::1".toList) 443) none
    (authority (.ipv6 "::1".toList) (some 443)) "::1".toList 443 :=
  @Accepts.connect _ "CONNECT".toList _ _ ["HTTP/1.1".toList] _ rfl rfl

/-- The address is sent on without its brackets, and is no authority any more. -/
theorem sent_connectLine : ¬Survives sampleBase64 sampleProxy "::1".toList 443 ∧
    ∀ h written, ¬IsWritten (hostPort "::1".toList 443) h written :=
  have hsent := not_survives sampleBase64 sampleProxy accepts_connectLine rfl
  ⟨hsent.2.1, hsent.2.2 (by decide)⟩

/-- Not every address in brackets is sent on as it came. -/
theorem not_forall_survives : ¬∀ (base64 : Text → Text) (t : HttpProxyTransport) (line : Text)
    (defaultPort : Option UInt16) (host : Text) (port : UInt16),
    Accepts line defaultPort (authority (.ipv6 host) (some port)) host port →
    Survives base64 t host port := by
  intro h
  have hsurvives := h sampleBase64 sampleProxy _ _ _ _ accepts_connectLine
  have hsent := sentFor_connectRequest sampleBase64 sampleProxy "::1".toList 443
  have heq := hsent.target_unique hsurvives (by decide) (by decide)
  exact absurd heq (by decide)

end Houdinny.Proxy
