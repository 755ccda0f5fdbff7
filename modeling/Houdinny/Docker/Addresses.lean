import Houdinny.Docker

/-!
# The address plan

The services of the generated stack have fixed addresses in its network: the
VPN number `n` has `172.20.0.(10 + n)`, and the proxy has `172.20.0.20`. They are
valid and pairwise different exactly for up to nine countries
(`addressPlan_iff`): the tenth VPN has the address of the proxy.

An address is what `std` parses as one (`parseIpv4`), so the plan asks for octets and not
only for different texts. For up to nine countries, a service is found again by the last
octet of its address (`nameOf`), and from ten on there is a pair of services with one
address, however many more there are.
-/

namespace Houdinny.Docker

open Text

/-! ## IPv4 addresses -/

/-- An octet of an IPv4 address: a decimal number of value at most `255`,
    without leading zeros. -/
def parseOctet (s : Text) : Option ℕ :=
  let n := Nat.ofDigitChars 10 s 0
  if s ≠ [] ∧ s.all Char.isDigit ∧ (s.length = 1 ∨ s.head? ≠ some '0') ∧ n ≤ 255 then some n
  else none

/-- The octets of an IPv4 address. -/
def parseIpv4 (s : Text) : Option (List ℕ) :=
  let parts := s.splitOn '.'
  if parts.length = 4 then parts.mapM parseOctet else none

/-- The address of a service in the network of the stack. -/
def Service.address (s : Service) : Option Text :=
  (s.networks.bind fun networks => networks[netName]?).map NetworkConfig.ipv4Address

/-- All services have valid addresses in `172.20.0.0/16`, and any two of them
    have different ones. -/
def AddressPlan (c : ComposeFile) : Prop :=
  (∀ (name : Text) (s : Service), c.services[name]? = some s → ∃ address octets,
    s.address = some address ∧ parseIpv4 address = some octets ∧ [172, 20] <+: octets) ∧
  ∀ (name name' : Text) (s s' : Service), c.services[name]? = some s →
    c.services[name']? = some s' → name ≠ name' → s.address ≠ s'.address

/-! ## The addresses of the stack -/

variable (casing : CaseMapping) (countries : List Text) (port : UInt16)

/-- The address in the network is the one it was put at. -/
theorem address_netAt (ip : Text) : (netAt ip)[netName]? = some ⟨ip⟩ :=
  Std.TreeMap.getElem?_insert_self

/-- The address of a VPN. -/
theorem address_vpnService (n : ℕ) (country : Text) :
    (vpnService casing n country).address = some (vpnAddress n) := by
  change ((netAt (vpnAddress n))[netName]?).map NetworkConfig.ipv4Address = _
  rw [address_netAt, Option.map_some]

/-- The address of the proxy. -/
theorem address_houdinnyService :
    (houdinnyService port).address = some "172.20.0.20".toList := by
  change ((netAt "172.20.0.20".toList)[netName]?).map NetworkConfig.ipv4Address = _
  rw [address_netAt, Option.map_some]

/-- VPNs of different numbers have different addresses. -/
theorem vpnAddress_injective : Function.Injective vpnAddress := fun _ _ h =>
  Nat.add_left_cancel (ofNat_injective (List.append_cancel_left h))

/-- The address of the tenth VPN is that of the proxy. -/
theorem vpnAddress_ten : vpnAddress 10 = "172.20.0.20".toList := by decide

/-- The addresses of up to ten VPNs are valid. -/
theorem parseIpv4_vpnAddress : ∀ n ≤ 10, parseIpv4 (vpnAddress n) = some [172, 20, 0, 10 + n] := by
  decide

/-- The service whose address has the number `n`, among up to ten. -/
def nameOf (n : ℕ) : Text := if n = 10 then houdinnyName else vpnName n

/-- For up to nine countries, the number of the address determines the service. -/
theorem exists_number (hlen : countries.length ≤ 9) {name : Text} {s : Service}
    (hs : (composeFile casing countries port).services[name]? = some s) :
    ∃ n ≤ 10, s.address = some (vpnAddress n) ∧ name = nameOf n := by
  rcases (getElem?_services casing countries port name s).1 hs with
    ⟨n, country, hn, rfl, rfl⟩ | ⟨rfl, rfl⟩
  · have hlt := (List.getElem?_eq_some_iff.1 hn).1
    refine ⟨n + 1, by omega, address_vpnService casing (n + 1) country, ?_⟩
    rw [nameOf, if_neg (by omega)]
  · exact ⟨10, le_rfl, by rw [address_houdinnyService, vpnAddress_ten], rfl⟩

/-- From ten countries on, the tenth VPN and the proxy share an address. -/
theorem not_addressPlan (hlen : 10 ≤ countries.length) :
    ¬AddressPlan (composeFile casing countries port) := by
  intro h
  obtain ⟨country, hc⟩ : ∃ country, countries[9]? = some country :=
    ⟨_, List.getElem?_eq_getElem hlen⟩
  have hvpn := (getElem?_services casing countries port (vpnName 10) _).2
    (.inl ⟨9, country, hc, rfl, rfl⟩)
  have hproxy := (getElem?_services casing countries port houdinnyName _).2 (.inr ⟨rfl, rfl⟩)
  refine h.2 _ _ _ _ hvpn hproxy (vpnName_ne_houdinnyName 10) ?_
  rw [address_vpnService, address_houdinnyService, ← vpnAddress_ten]

/-- The address plan holds exactly for up to nine countries, whatever they are and whatever the
    port: the addresses of all services are then valid addresses of the subnet, and pairwise
    different. -/
theorem addressPlan_iff :
    AddressPlan (composeFile casing countries port) ↔ countries.length ≤ 9 := by
  constructor
  · intro h
    by_contra hlen
    exact not_addressPlan casing countries port (Nat.lt_of_not_le hlen) h
  · intro hlen
    constructor
    · intro name s hs
      obtain ⟨n, hn, haddress, _⟩ := exists_number casing countries port hlen hs
      exact ⟨_, _, haddress, parseIpv4_vpnAddress n hn, ⟨_, rfl⟩⟩
    · -- The address has the number, and the number determines the name.
      intro name name' s s' hs hs' hne heq
      obtain ⟨n, _, haddress, rfl⟩ := exists_number casing countries port hlen hs
      obtain ⟨n', _, haddress', rfl⟩ := exists_number casing countries port hlen hs'
      rw [haddress, haddress'] at heq
      exact hne (congrArg nameOf (vpnAddress_injective (Option.some.inj heq)))

/-- A stack for ten countries. -/
def tenCountries : List Text :=
  ["us", "de", "jp", "kr", "gb", "fr", "nl", "ca", "au", "ch"].map String.toList

/-- It has no valid address plan, since `vpn-10` and the proxy are both at `172.20.0.20`. -/
theorem not_addressPlan_tenCountries :
    ¬AddressPlan (composeFile .ascii tenCountries 8080) :=
  not_addressPlan .ascii tenCountries 8080 (by decide)

end Houdinny.Docker
