import Houdinny.Error

/-!
# Payments

A response with status 402 asks for a payment: `parse402` extracts the details from
its headers, in one pass, and the first registered handler that accepts them pays
(`handlePayment`).

The network of a payment is that of the last `X-Payment-Network` header, and, only if
there is none, that of the first header by which a protocol is detected
(`network_parse402`); what else a request says is what the last header of each name says
(`parse402_means`). The x402 handler looks for headers of its protocol by itself, and
accepts a payment on another network too if there is one: it accepts exactly the payments
on its own network exactly if no such header stands beside another network
(`takesX402_iff`).

The header loop is a fold (`Details.read`), in which a header sets a field that it names
(`Details.set`), and then the network, if there is none and a protocol is detected
(`Details.detect`). What the loop has set at its end is found from the end of the headers
for a name (`field_foldl`), and from their start for a detected protocol
(`network_foldl`).

Names of headers are compared in lower case, by `str::to_lowercase`, which is that of a
`CaseMapping`.
-/

namespace Houdinny

open Text

namespace Payment

/-- The headers of a response. -/
abbrev Headers := List (Text × Text)

/-- Details extracted from a 402 response. -/
structure PaymentRequest where
  /-- The URL that returned 402. -/
  url : Text
  amount : Option Text
  currency : Option Text
  payTo : Option Text
  network : Option Text
  /-- Raw headers from the 402 response. -/
  headers : Headers
  /-- Raw body from the 402 response. -/
  body : Option Text
  deriving DecidableEq

/-- Proof that payment was made, attached to the retry request. -/
structure PaymentProof where
  headerName : Text
  headerValue : Text
  deriving DecidableEq

/-- A payment plugin. -/
structure PaymentHandler where
  /-- Check if this handler can process the given 402 response. -/
  canHandle : PaymentRequest → Bool
  /-- What comes of a payment. -/
  pay : PaymentRequest → Except Error PaymentProof
  name : Text

/-! ## Parsing -/

/-- What the header loop has found. -/
structure Details where
  amount : Option Text
  currency : Option Text
  payTo : Option Text
  network : Option Text
  deriving DecidableEq

/-- Set what the header names. -/
def Details.set (d : Details) (lower value : Text) : Details :=
  if lower = "x-payment-amount".toList then { d with amount := some value }
  else if lower = "x-payment-currency".toList then { d with currency := some value }
  else if lower = "x-payment-address".toList then { d with payTo := some value }
  else if lower = "x-payment-network".toList then { d with network := some value }
  else d

/-- Set the network, if there is none and its protocol is detected. -/
def Details.detect (d : Details) (detected : Bool) (network : Text) : Details :=
  if detected && d.network.isNone then { d with network := some network } else d

/-- Is this a header of the x402 protocol? -/
def isX402 (casing : CaseMapping) (header : Text × Text) : Bool :=
  "x-402".toList.isPrefixOf (casing.toLowercase header.1)

/-- Is this a header that asks for an L402 payment? -/
def isL402 (casing : CaseMapping) (header : Text × Text) : Bool :=
  casing.toLowercase header.1 = "www-authenticate".toList &&
    "l402".toList.isPrefixOf (casing.toLowercase header.2)

/-- One pass of the header loop. -/
def Details.read (casing : CaseMapping) (d : Details) (header : Text × Text) : Details :=
  ((d.set (casing.toLowercase header.1) header.2).detect (isX402 casing header)
    "x402".toList).detect (isL402 casing header) "l402".toList

/-- Parse a 402 response into a `PaymentRequest`. -/
def parse402 (casing : CaseMapping) (status : UInt16) (headers : Headers) (body : Option Text)
    (url : Text) : Option PaymentRequest :=
  if status ≠ 402 then none
  else
    let d := headers.foldl (Details.read casing) ⟨none, none, none, none⟩
    some ⟨url, d.amount, d.currency, d.payTo, d.network, headers, body⟩

/-! ## Paying -/

/-- Find a handler that can process this payment and execute it: the handlers whose
    `pay` was called, and the result. -/
def handlePayment : List PaymentHandler → PaymentRequest →
    List PaymentHandler × Except Error PaymentProof
  | [], request =>
    ([], .error (.payment ("no payment handler available for ".toList ++ request.url)))
  | handler :: handlers, request =>
    if handler.canHandle request then ([handler], handler.pay request)
    else handlePayment handlers request

/-- Always succeeds with a fake proof, of the given random digits. -/
def dummyPaymentHandler (hex : Text) : PaymentHandler where
  canHandle _ := true
  pay _ := .ok ⟨"X-Payment-Proof".toList, "dummy-proof-".toList ++ hex⟩
  name := "dummy".toList

/-- Stub for the x402 payment protocol. -/
def x402PaymentHandler (casing : CaseMapping) : PaymentHandler where
  canHandle request :=
    request.network = some "x402".toList || request.headers.any (isX402 casing)
  pay _ := .error (.payment "x402 payments not yet implemented".toList)
  name := "x402".toList

/-! ## The network -/

/-- The network that a header names. -/
def namedNetwork (casing : CaseMapping) (header : Text × Text) : Option Text :=
  if casing.toLowercase header.1 = "x-payment-network".toList then some header.2 else none

/-- The network whose protocol a header is of. -/
def detectedNetwork (casing : CaseMapping) (header : Text × Text) : Option Text :=
  if isX402 casing header then some "x402".toList
  else if isL402 casing header then some "l402".toList
  else none

/-- The network that the last `X-Payment-Network` header names. -/
def lastNamed (casing : CaseMapping) (headers : Headers) : Option Text :=
  headers.reverse.findSome? (namedNetwork casing)

/-- The network of the first header by which a protocol is detected. -/
def firstDetected (casing : CaseMapping) (headers : Headers) : Option Text :=
  headers.findSome? (detectedNetwork casing)

variable {casing : CaseMapping} {headers : Headers}

/-- Each name sets its own field. -/
theorem set_eq (d : Details) (lower value : Text) : d.set lower value =
    { amount := if lower = "x-payment-amount".toList then some value else d.amount
      currency := if lower = "x-payment-currency".toList then some value else d.currency
      payTo := if lower = "x-payment-address".toList then some value else d.payTo
      network := if lower = "x-payment-network".toList then some value else d.network } := by
  -- Only one of the four names can be the header's.
  by_cases hamount : lower = "x-payment-amount".toList
  · subst hamount
    rfl
  by_cases hcurrency : lower = "x-payment-currency".toList
  · subst hcurrency
    rfl
  by_cases haddress : lower = "x-payment-address".toList
  · subst haddress
    rfl
  by_cases hnetwork : lower = "x-payment-network".toList
  · subst hnetwork
    rfl
  simp only [Details.set, hamount, hcurrency, haddress, hnetwork, if_false]

/-- A header that names the network sets it. -/
theorem network_set (d : Details) (header : Text × Text) :
    (d.set (casing.toLowercase header.1) header.2).network =
      (namedNetwork casing header).or d.network := by
  rw [set_eq, namedNetwork]
  split_ifs <;> rfl

/-- A protocol that is detected is the network, if there is none yet. -/
theorem network_detect (d : Details) (detected : Bool) (network : Text) :
    (d.detect detected network).network =
      d.network.or (if detected then some network else none) := by
  rw [Details.detect]
  rcases h : d.network with _ | old <;> cases detected <;> simp [h]

/-- A network that is named replaces another, and one that is detected does not. -/
theorem network_read (d : Details) (header : Text × Text) :
    (d.read casing header).network =
      ((namedNetwork casing header).or d.network).or (detectedNetwork casing header) := by
  rw [Details.read, network_detect, network_detect, network_set, detectedNetwork, Option.or_assoc]
  congr 1
  split_ifs <;> rfl

/-- The network after the header loop. -/
theorem network_foldl (d : Details) (headers : Headers) :
    (headers.foldl (Details.read casing) d).network =
      (lastNamed casing headers).or (d.network.or (firstDetected casing headers)) := by
  induction headers generalizing d with
  | nil => simp [lastNamed, firstDetected]
  | cons header headers ih =>
    rw [List.foldl_cons, ih, network_read, lastNamed, lastNamed, firstDetected, firstDetected,
      List.reverse_cons, List.findSome?_append, List.findSome?_cons, List.findSome?_cons]
    rcases namedNetwork casing header with _ | network <;>
      rcases detectedNetwork casing header with _ | network' <;> simp

/-- The network of a request that is parsed. -/
theorem network_parse402 {request : PaymentRequest} {body : Option Text} {url : Text}
    (h : parse402 casing 402 headers body url = some request) :
    request.headers = headers ∧
      request.network = (lastNamed casing headers).or (firstDetected casing headers) := by
  obtain rfl := Option.some.inj h
  exact ⟨rfl, (network_foldl ..).trans rfl⟩

/-! ## The meaning of the headers -/

/-- No header names the network. -/
theorem lastNamed_eq_none :
    lastNamed casing headers = none ↔ ∀ header ∈ headers, namedNetwork casing header = none := by
  simp [lastNamed]

/-- The value of the last header of a name, given in lower case. -/
def IsLastValue (casing : CaseMapping) (name : Text) (headers : Headers) (value : Text) : Prop :=
  ∃ before header after, headers = before ++ header :: after ∧
    casing.toLowercase header.1 = name ∧ header.2 = value ∧
    ∀ h ∈ after, casing.toLowercase h.1 ≠ name

/-- The network of the first header of the x402 protocol, or that asks for an L402
    payment. -/
def IsFirstDetected (casing : CaseMapping) (headers : Headers) (network : Text) : Prop :=
  ∃ before header after, headers = before ++ header :: after ∧
    (isX402 casing header = true ∧ network = "x402".toList ∨
      isL402 casing header = true ∧ network = "l402".toList) ∧
    ∀ h ∈ before, isX402 casing h = false ∧ isL402 casing h = false

/-- A request says what the headers say: the last one of each name, and of the network,
    if no header names it, the first one by which a protocol is detected. -/
structure Means (casing : CaseMapping) (headers : Headers) (request : PaymentRequest) : Prop where
  amount : ∀ value, request.amount = some value ↔
    IsLastValue casing "x-payment-amount".toList headers value
  currency : ∀ value, request.currency = some value ↔
    IsLastValue casing "x-payment-currency".toList headers value
  payTo : ∀ value, request.payTo = some value ↔
    IsLastValue casing "x-payment-address".toList headers value
  network : ∀ value, request.network = some value ↔
    IsLastValue casing "x-payment-network".toList headers value ∨
      (∀ header ∈ headers, casing.toLowercase header.1 ≠ "x-payment-network".toList) ∧
        IsFirstDetected casing headers value

/-- The value of a header, if it has the name. -/
def valueOf (casing : CaseMapping) (name : Text) (header : Text × Text) : Option Text :=
  if casing.toLowercase header.1 = name then some header.2 else none

/-- The header has another name. -/
theorem valueOf_eq_none {name : Text} {header : Text × Text} :
    valueOf casing name header = none ↔ casing.toLowercase header.1 ≠ name := by
  simp [valueOf]

/-- The last header of a name is the first one from the end. -/
theorem findSome?_valueOf {name value : Text} :
    headers.reverse.findSome? (valueOf casing name) = some value ↔
      IsLastValue casing name headers value := by
  rw [List.findSome?_eq_some_iff]
  constructor
  · rintro ⟨after, header, before, heq, hvalue, hafter⟩
    obtain ⟨hname, hheader⟩ := Option.ite_none_right_eq_some.1 hvalue
    refine ⟨before.reverse, header, after.reverse, ?_, hname, Option.some.inj hheader, ?_⟩
    · rw [← List.reverse_reverse headers, heq]
      simp
    · exact fun h hh => valueOf_eq_none.1 (hafter h (List.mem_reverse.1 hh))
  · rintro ⟨before, header, after, rfl, hname, rfl, hafter⟩
    refine ⟨after.reverse, header, before.reverse, by simp, if_pos hname, ?_⟩
    exact fun h hh => valueOf_eq_none.2 (hafter h (List.mem_reverse.1 hh))

/-- What the header loop sets, whatever is detected, is the value of the last header of
    its name. -/
theorem field_foldl {get : Details → Option Text} {name : Text}
    (hset : ∀ d lower value, get (d.set lower value) = if lower = name then some value else get d)
    (hdetect : ∀ d detected network, get (d.detect detected network) = get d)
    (d : Details) (headers : Headers) :
    get (headers.foldl (Details.read casing) d) =
      (headers.reverse.findSome? (valueOf casing name)).or (get d) := by
  induction headers generalizing d with
  | nil => rfl
  | cons header headers ih =>
    -- The detections that follow in the same pass leave the field alone.
    have hread : get (d.read casing header) = (valueOf casing name header).or (get d) := by
      rw [Details.read, hdetect, hdetect, hset, valueOf]
      split_ifs <;> rfl
    rw [List.foldl_cons, ih, hread, List.reverse_cons, List.findSome?_append, List.findSome?_cons,
      List.findSome?_nil, Option.or_assoc]
    rcases valueOf casing name header with _ | value <;> rfl

/-- Only the network is detected. -/
theorem detect_eq (d : Details) (detected : Bool) (network : Text) :
    ∃ network', d.detect detected network = { d with network := network' } := by
  rw [Details.detect]
  split_ifs
  · exact ⟨_, rfl⟩
  · exact ⟨d.network, rfl⟩

/-- A header is of one protocol at most. -/
theorem isL402_of_isX402 {header : Text × Text} (h : isX402 casing header = true) :
    isL402 casing header = false := by
  rw [isL402, Bool.and_eq_false_iff]
  refine .inl (decide_eq_false fun hname => ?_)
  rw [isX402, hname] at h
  exact absurd h (by decide)

/-- The protocol that is detected is the one that the header is of. -/
theorem detectedNetwork_eq_some {header : Text × Text} {network : Text} :
    detectedNetwork casing header = some network ↔
      isX402 casing header = true ∧ network = "x402".toList ∨
        isL402 casing header = true ∧ network = "l402".toList := by
  rw [detectedNetwork]
  rcases hx402 : isX402 casing header with _ | _
  · rcases isL402 casing header with _ | _ <;> simp [eq_comm]
  · simp [isL402_of_isX402 hx402, eq_comm]

/-- No protocol is detected by a header of neither. -/
theorem detectedNetwork_eq_none {header : Text × Text} :
    detectedNetwork casing header = none ↔
      isX402 casing header = false ∧ isL402 casing header = false := by
  rw [detectedNetwork]
  rcases isX402 casing header with _ | _ <;> rcases isL402 casing header with _ | _ <;> simp

/-- The first header of a protocol is the first by which one is detected. -/
theorem firstDetected_eq_some {network : Text} :
    firstDetected casing headers = some network ↔ IsFirstDetected casing headers network := by
  simp only [firstDetected, List.findSome?_eq_some_iff, detectedNetwork_eq_some,
    detectedNetwork_eq_none, IsFirstDetected]

/-- What a field of the request is, if the header loop sets it, whatever is detected. -/
theorem isLastValue_of_field {get : Details → Option Text} {name value : Text}
    (hset : ∀ d lower value, get (d.set lower value) = if lower = name then some value else get d)
    (hdetect : ∀ d network, get { d with network := network } = get d)
    (hnone : get ⟨none, none, none, none⟩ = none) :
    get (headers.foldl (Details.read casing) ⟨none, none, none, none⟩) = some value ↔
      IsLastValue casing name headers value := by
  have hdetected : ∀ d detected network, get (d.detect detected network) = get d := by
    intro d detected network
    obtain ⟨network', hd⟩ := detect_eq d detected network
    rw [hd, hdetect]
  rw [field_foldl hset hdetected, hnone, Option.or_none, findSome?_valueOf]

/-- What `parse402` makes of a response, for headers of any number and order: each field of the
    request is what the last header of its name says, and the network, if no header names it, is
    that of the first header of a protocol. -/
theorem parse402_means (casing : CaseMapping) (headers : Headers) (body : Option Text)
    (url : Text) : ∃ request, parse402 casing 402 headers body url = some request ∧
      request.url = url ∧ request.headers = headers ∧ request.body = body ∧
      Means casing headers request := by
  refine ⟨_, rfl, rfl, rfl, rfl, ?_⟩
  constructor
  case amount =>
    exact fun value => @isLastValue_of_field casing headers Details.amount _ value
      (fun _ _ _ => by rw [set_eq]) (fun _ _ => rfl) rfl
  case currency =>
    exact fun value => @isLastValue_of_field casing headers Details.currency _ value
      (fun _ _ _ => by rw [set_eq]) (fun _ _ => rfl) rfl
  case payTo =>
    exact fun value => @isLastValue_of_field casing headers Details.payTo _ value
      (fun _ _ _ => by rw [set_eq]) (fun _ _ => rfl) rfl
  -- The network is the only field that is set in two ways: by its name, or else as detected.
  case network =>
    intro value
    have hnetwork := (@network_parse402 casing headers _ body url rfl).2
    have hnone : lastNamed casing headers = none ↔
        ∀ header ∈ headers, casing.toLowercase header.1 ≠ "x-payment-network".toList :=
      lastNamed_eq_none.trans (forall₂_congr fun _ _ => valueOf_eq_none)
    rw [hnetwork, Option.or_eq_some_iff, hnone, firstDetected_eq_some]
    exact or_congr_left findSome?_valueOf

/-! ## The x402 handler -/

/-- The x402 handler accepts exactly the payments on its network, and is given none for
    which another network is named, whatever handlers are registered. -/
structure TakesX402 (casing : CaseMapping) (headers : Headers) (body : Option Text) (url : Text) :
    Prop where
  accepts : ∀ request, parse402 casing 402 headers body url = some request →
    ((x402PaymentHandler casing).canHandle request = true ↔ request.network = some "x402".toList)
  given : ∀ request, parse402 casing 402 headers body url = some request →
    ∀ network, lastNamed casing headers = some network → network ≠ "x402".toList →
      ∀ handlers, x402PaymentHandler casing ∉ (handlePayment handlers request).1

/-- A header of the x402 protocol stands before any that asks for an L402 payment. -/
def X402First (casing : CaseMapping) (headers : Headers) : Prop :=
  ∃ before header after, headers = before ++ header :: after ∧ isX402 casing header = true ∧
    ∀ h ∈ before, isL402 casing h = false

/-- Headers of the x402 protocol, if there are any, stand beside no other network. -/
def Undisputed (casing : CaseMapping) (headers : Headers) : Prop :=
  (∀ header ∈ headers, isX402 casing header = false) ∨
    lastNamed casing headers = some "x402".toList ∨
    (∀ header ∈ headers, namedNetwork casing header = none) ∧ X402First casing headers

/-- It is of the x402 protocol if one of these stands before any of the other. -/
theorem firstDetected_eq_x402 :
    firstDetected casing headers = some "x402".toList ↔ X402First casing headers := by
  rw [firstDetected_eq_some]
  constructor
  · rintro ⟨before, header, after, rfl, hheader | hheader, hbefore⟩
    · exact ⟨before, header, after, rfl, hheader.1, fun h hh => (hbefore h hh).2⟩
    · exact absurd hheader.2 (by decide)
  · rintro ⟨before, header, after, rfl, hheader, hbefore⟩
    -- The first header of the protocol may stand before this one.
    induction before with
    | nil =>
      exact ⟨[], header, after, rfl, .inl ⟨hheader, rfl⟩, fun h hh => absurd hh List.not_mem_nil⟩
    | cons first before ih =>
      rw [List.forall_mem_cons] at hbefore
      rcases hfirst : isX402 casing first with _ | _
      · obtain ⟨before', header', after', heq, hdetected, hnone⟩ := ih hbefore.2
        have hcons : first :: (before ++ header :: after) =
            (first :: before') ++ header' :: after' := by rw [heq, List.cons_append]
        exact ⟨first :: before', header', after', hcons, hdetected,
          List.forall_mem_cons.2 ⟨⟨hfirst, hbefore.1⟩, hnone⟩⟩
      · exact ⟨[], first, before ++ header :: after, rfl, .inl ⟨hfirst, rfl⟩,
          fun h hh => absurd hh List.not_mem_nil⟩

/-- What the x402 handler accepts. -/
theorem canHandle_x402 {request : PaymentRequest} :
    (x402PaymentHandler casing).canHandle request = true ↔
      request.network = some "x402".toList ∨ ∃ header ∈ request.headers, isX402 casing header := by
  rw [x402PaymentHandler, Bool.or_eq_true, decide_eq_true_iff, List.any_eq_true]

/-- Who is paid accepts the payment. -/
theorem canHandle_of_mem_handlePayment {handlers : List PaymentHandler} {handler : PaymentHandler}
    {request : PaymentRequest} (h : handler ∈ (handlePayment handlers request).1) :
    handler.canHandle request = true := by
  induction handlers with
  | nil => exact absurd h List.not_mem_nil
  | cons first handlers ih =>
    rw [handlePayment] at h
    split_ifs at h with hfirst
    · exact List.mem_singleton.1 h ▸ hfirst
    · exact ih h

/-- The x402 handler accepts exactly the payments on its own network exactly if no header of its
    protocol stands beside another network. The handler looks for such a header by itself, after
    the network was determined. -/
theorem takesX402_iff (casing : CaseMapping) (headers : Headers) (body : Option Text)
    (url : Text) : TakesX402 casing headers body url ↔ Undisputed casing headers := by
  have hnetwork : (lastNamed casing headers).or (firstDetected casing headers) =
      some "x402".toList ↔ lastNamed casing headers = some "x402".toList ∨
        (∀ header ∈ headers, namedNetwork casing header = none) ∧ X402First casing headers := by
    rw [Option.or_eq_some_iff, lastNamed_eq_none, firstDetected_eq_x402]
  constructor
  · intro h
    by_cases hany : ∀ header ∈ headers, isX402 casing header = false
    · exact .inl hany
    · simp only [not_forall, Bool.not_eq_false] at hany
      obtain ⟨header, hmem, hheader⟩ := hany
      obtain ⟨request, hparse⟩ : ∃ request, parse402 casing 402 headers body url = some request :=
        ⟨_, rfl⟩
      obtain ⟨hheaders, hreq⟩ := network_parse402 hparse
      -- The handler accepts the request, so that is on its network.
      have hcan : (x402PaymentHandler casing).canHandle request = true := by
        rw [canHandle_x402, hheaders]
        exact .inr ⟨header, hmem, hheader⟩
      exact .inr (hnetwork.1 (hreq.symm.trans ((h.accepts request hparse).1 hcan)))
  · intro h
    have haccepts : ∀ request, parse402 casing 402 headers body url = some request →
        ((x402PaymentHandler casing).canHandle request = true ↔
          request.network = some "x402".toList) := by
      intro request hparse
      obtain ⟨hheaders, hreq⟩ := network_parse402 hparse
      rw [canHandle_x402, hheaders]
      refine ⟨fun hcan => hcan.elim id fun ⟨header, hmem, hheader⟩ => ?_, .inl⟩
      rw [hreq, hnetwork]
      refine h.resolve_left fun hnone => ?_
      rw [hnone header hmem] at hheader
      exact Bool.false_ne_true hheader
    refine ⟨haccepts, fun request hparse network hnamed hne handlers hmem => hne ?_⟩
    have hx402 := (haccepts request hparse).1 (canHandle_of_mem_handlePayment hmem)
    rw [(network_parse402 hparse).2, hnamed, Option.some_or] at hx402
    exact Option.some.inj hx402

/-- A response that names the network, and has a header of the x402 protocol too. -/
def lightningHeaders : Headers :=
  [("X-402-Version", "1"), ("X-Payment-Network", "lightning")].map
    fun header => (header.1.toList, header.2.toList)

/-- The x402 handler accepts it, although the payment is on the Lightning network. -/
theorem not_takesX402_lightning : ¬∀ (casing : CaseMapping) (headers : Headers)
    (body : Option Text) (url : Text), TakesX402 casing headers body url := by
  intro h
  have hcan := (h .ascii lightningHeaders none "https://a".toList).accepts _ rfl
  exact absurd (hcan.1 (by decide)) (by decide)

end Payment

end Houdinny
