import Houdinny.Import.Nord

/-!
# Fetching the servers

`fetchServers` asks for the recommended servers of each country, and cuts the list at
the requested number. The requests have all the same limit, so the number is reached,
with the countries served evenly, exactly if it is a multiple of the number of
countries, or not greater (`evenly_iff`).

The limit is the number over the number of countries, rounded down, and one at least. So
for a number that is smaller than that of the countries, each of them is asked for one
server, and the last ones are cut off (`cut`); for one that is greater and no multiple, the
remainder is not asked for at all.

The request itself is a parameter. What the API is assumed to do (`Served`) is what the
source relies on: for a known country, it returns as many servers as were asked for.
-/

namespace Houdinny.Nord

open Text

/-! ## Truncation -/

section

variable {α : Type*}

/-- What is left of each list, if the lists together are cut after `k` elements. -/
def cut : ℕ → List (List α) → List (List α)
  | _, [] => []
  | k, l :: ls => l.take k :: cut (k - l.length) ls

/-- The parts that are left are what is left of all the lists together. -/
theorem flatten_cut (k : ℕ) (ls : List (List α)) : (cut k ls).flatten = ls.flatten.take k := by
  induction ls generalizing k with
  | nil => rw [List.flatten_nil, List.take_nil]; rfl
  | cons l ls ih => rw [cut, List.flatten_cons, List.flatten_cons, List.take_append, ih]

/-- Short lists are not cut. -/
theorem cut_of_le {k : ℕ} {ls : List (List α)} (h : ls.flatten.length ≤ k) : cut k ls = ls := by
  induction ls generalizing k with
  | nil => rfl
  | cons l ls ih =>
    rw [List.flatten_cons, List.length_append] at h
    rw [cut, List.take_of_length_le (by omega), ih (by omega)]

/-- No part is longer than its list. -/
theorem length_le_of_mem_cut {k n : ℕ} {ls : List (List α)} (h : ∀ l ∈ ls, l.length ≤ n) :
    ∀ part ∈ cut k ls, part.length ≤ n := by
  induction ls generalizing k with
  | nil => exact fun part hpart => absurd hpart List.not_mem_nil
  | cons l ls ih =>
    rw [List.forall_mem_cons] at h
    rw [cut, List.forall_mem_cons]
    exact ⟨(List.length_take_le' k l).trans h.1, ih h.2⟩

/-- Lists of one length have that many elements together. -/
theorem length_flatten_of_forall {n : ℕ} {ls : List (List α)} (h : ∀ l ∈ ls, l.length = n) :
    ls.flatten.length = ls.length * n := by
  rw [List.length_flatten, List.map_congr_left h, List.map_const', List.sum_replicate_nat]

end

/-! ## Requests -/

/-- The numeric country IDs. -/
def countryIds : List (Text × ℕ) :=
  [("US", 228), ("GB", 227), ("UK", 227), ("DE", 81), ("JP", 114), ("NL", 153), ("CA", 38),
    ("AU", 13), ("FR", 74), ("CH", 209), ("SE", 208), ("SG", 195), ("HK", 97), ("IT", 106),
    ("ES", 202), ("BR", 30), ("IN", 100), ("KR", 114)].map fun p => (p.1.toList, p.2)

/-- Map a two-letter country code to the NordVPN numeric country ID. -/
def countryCodeToId (casing : CaseMapping) (code : Text) : Option ℕ :=
  countryIds.lookup (casing.toUppercase code)

/-- The request for recommended WireGuard servers. -/
def recommendationsUrl : Text :=
  ("https://api.nordvpn.com/v1/servers/recommendations" ++
    "?filters[servers_technologies][identifier]=wireguard_udp").toList

/-- The request for the servers of a country. -/
def countryUrl (countryId limit : ℕ) : Text :=
  recommendationsUrl ++ "&filters[country_id]=".toList ++ ofNat countryId ++ "&limit=".toList ++
    ofNat limit

/-- The request for the servers of any country. -/
def anyCountryUrl (limit : ℕ) : Text := recommendationsUrl ++ "&limit=".toList ++ ofNat limit

section

variable (casing : CaseMapping) (fetchServerList : Text → Except Text (List ServerEntry))

/-- The requests for the countries, one after the other. A code that is not known is
    skipped. -/
def fetchCountries (perCountry : ℕ) : List Text → Except Text (List (List ServerEntry))
  | [] => .ok []
  | code :: codes => match countryCodeToId casing code with
    | none => fetchCountries perCountry codes
    | some countryId => do
      let servers ← fetchServerList (countryUrl countryId perCountry)
      let allServers ← fetchCountries perCountry codes
      return servers :: allServers

/-- The limit of the requests, one for each country. -/
def perCountry (count : ℕ) (codes : List Text) : ℕ := max 1 (count / codes.length)

/-- Fetch recommended WireGuard servers, optionally filtered by country. -/
def fetchServers (count : ℕ) : Option (List Text) → Except Text (List ServerEntry)
  | none | some [] => do
    let servers ← fetchServerList (anyCountryUrl count)
    return servers.take count
  | some codes => do
    let answers ← fetchCountries casing fetchServerList (perCountry count codes) codes
    return answers.flatten.take count

end

variable {casing : CaseMapping} {fetchServerList : Text → Except Text (List ServerEntry)}
  {count limit : ℕ} {codes : List Text}

/-- Each code is known, and the request for its servers returns exactly as many as its
    limit asks for. -/
def Served (casing : CaseMapping) (fetchServerList : Text → Except Text (List ServerEntry))
    (limit : ℕ) (codes : List Text) : Prop :=
  ∀ code ∈ codes, ∃ countryId servers, countryCodeToId casing code = some countryId ∧
    fetchServerList (countryUrl countryId limit) = .ok servers ∧ servers.length = limit

/-- All the requests are answered. -/
theorem fetchCountries_of_served (h : Served casing fetchServerList limit codes) :
    ∃ answers, fetchCountries casing fetchServerList limit codes = .ok answers ∧
      answers.length = codes.length ∧ ∀ servers ∈ answers, servers.length = limit := by
  induction codes with
  | nil => exact ⟨[], rfl, rfl, fun _ h => absurd h List.not_mem_nil⟩
  | cons code codes ih =>
    obtain ⟨countryId, servers, hcode, hfetch, hlimit⟩ := h code List.mem_cons_self
    obtain ⟨answers, hanswers, hlength, hall⟩ := ih fun c hc => h c (List.mem_cons_of_mem _ hc)
    refine ⟨servers :: answers, ?_, congrArg (· + 1) hlength,
      List.forall_mem_cons.2 ⟨hlimit, hall⟩⟩
    rw [fetchCountries, hcode]
    simp only [hfetch, hanswers]
    rfl

/-- The requested number of servers, with numbers from any two of the countries that differ
    by at most one. -/
structure Evenly (count : ℕ) (parts : List (List ServerEntry)) : Prop where
  total : parts.flatten.length = count
  even : ∀ part ∈ parts, ∀ part' ∈ parts, part.length ≤ part'.length + 1

/-- The number is reached evenly, exactly if it is at most the number of countries, or a
    multiple of it. This is for countries that are known, and an API that returns as many
    servers as it is asked for. -/
theorem evenly_iff (casing : CaseMapping)
    (fetchServerList : Text → Except Text (List ServerEntry)) (count : ℕ) (codes : List Text)
    (hcount : 1 ≤ count) (hcodes : codes ≠ [])
    (hserved : Served casing fetchServerList (perCountry count codes) codes) :
    ∃ answers, fetchCountries casing fetchServerList (perCountry count codes) codes = .ok answers ∧
      answers.length = codes.length ∧
      fetchServers casing fetchServerList count (some codes) =
        .ok (cut count answers).flatten ∧
      (Evenly count (cut count answers) ↔ count ≤ codes.length ∨ codes.length ∣ count) := by
  obtain ⟨answers, hanswers, hlength, hall⟩ := fetchCountries_of_served hserved
  have hpos : 0 < codes.length := List.length_pos_of_ne_nil hcodes
  have htotal : answers.flatten.length = codes.length * perCountry count codes := by
    rw [length_flatten_of_forall hall, hlength]
  refine ⟨answers, hanswers, hlength, ?_, ?_⟩
  · rw [flatten_cut]
    rcases codes with _ | ⟨code, codes⟩
    · exact absurd rfl hcodes
    · rw [fetchServers, hanswers]
      · rfl
      · simp
  · constructor
    · intro h
      have hmin := h.total
      rw [flatten_cut, List.length_take, htotal] at hmin
      by_cases hle : count ≤ codes.length
      · exact .inl hle
      · -- With more servers than countries, the limit is a quotient, rounded down.
        have hquot : 1 ≤ count / codes.length := (Nat.one_le_div_iff hpos).2 (by omega)
        rw [perCountry, max_eq_right hquot] at hmin
        exact .inr ⟨_, (le_antisymm (by omega) (Nat.mul_div_le count codes.length))⟩
    · rintro (hle | hdvd)
      · -- One server of each country is asked for.
        have hone : perCountry count codes = 1 := by
          have hquot : count / codes.length ≤ 1 :=
            Nat.div_le_of_le_mul (by rwa [Nat.mul_one])
          rw [perCountry]
          omega
        rw [hone] at htotal hall
        have hparts := @length_le_of_mem_cut _ count 1 answers fun l hl => (hall l hl).le
        refine ⟨?_, fun part hpart part' _ => (hparts part hpart).trans (Nat.le_add_left 1 _)⟩
        rw [flatten_cut, List.length_take, htotal]
        omega
      · have hquot : 1 ≤ count / codes.length :=
          (Nat.one_le_div_iff hpos).2 (Nat.le_of_dvd hcount hdvd)
        have hexact : codes.length * perCountry count codes = count := by
          rw [perCountry, max_eq_right hquot, Nat.mul_div_cancel' hdvd]
        rw [hexact] at htotal
        rw [cut_of_le htotal.le]
        refine ⟨htotal, fun part hpart part' hpart' => ?_⟩
        rw [hall part hpart, hall part' hpart']
        exact Nat.le_succ _

/-- An API that has as many servers as it is asked for. -/
def fetchLimit (url : Text) : Except Text (List ServerEntry) :=
  .ok (List.replicate (((rsplitOnce '=' url).bind fun p => parseUnsigned 1000 p.2).getD 0) germany)

/-- Three countries. -/
def threeCountries : List Text := ["us".toList, "de".toList, "jp".toList]

/-- They are all known, and their servers are returned. -/
theorem served_threeCountries (h : limit ≤ 1000) :
    Served .ascii fetchLimit limit threeCountries := by
  have hanswer : ∀ id, ∃ servers, fetchLimit (countryUrl id limit) = .ok servers ∧
      servers.length = limit := by
    intro id
    refine ⟨_, rfl, ?_⟩
    -- The sample API reads the limit off the end of the request.
    have hlimit : rsplitOnce '=' (countryUrl id limit) =
        some (recommendationsUrl ++ "&filters[country_id]=".toList ++ ofNat id ++ "&limit".toList,
          ofNat limit) := by
      have hword : "&limit=".toList = "&limit".toList ++ "=".toList := by decide
      rw [countryUrl, hword, ← List.append_assoc, List.append_assoc _ "=".toList]
      exact rsplitOnce_append _ (notMem_ofNat (by decide) limit)
    rw [hlimit, Option.bind_some, parseUnsigned_ofNat h]
    exact List.length_replicate
  have hknown : ∀ code ∈ threeCountries, (countryCodeToId .ascii code).isSome := by decide
  intro code hcode
  obtain ⟨id, hid⟩ := Option.isSome_iff_exists.1 (hknown code hcode)
  obtain ⟨servers, hservers, hlength⟩ := hanswer id
  exact ⟨id, servers, hid, hservers, hlength⟩

/-- Six servers are fetched from three countries. -/
theorem evenly_iff_six : ∃ servers, fetchServers .ascii fetchLimit 6 (some threeCountries) =
    .ok servers ∧ servers.length = 6 := by
  obtain ⟨answers, -, -, hfetch, heven⟩ := evenly_iff .ascii fetchLimit 6 threeCountries
    (by decide) (by decide) (served_threeCountries (by decide))
  exact ⟨_, hfetch, (heven.2 (.inr ⟨2, rfl⟩)).total⟩

/-- Of five servers from three countries, only three are fetched: each country is asked for one,
    and nobody for the rest. -/
theorem not_evenly : ¬∀ (casing : CaseMapping)
    (fetchServerList : Text → Except Text (List ServerEntry)) (count : ℕ) (codes : List Text)
    (answers : List (List ServerEntry)), 1 ≤ count → codes ≠ [] →
    Served casing fetchServerList (perCountry count codes) codes →
    fetchCountries casing fetchServerList (perCountry count codes) codes = .ok answers →
    Evenly count (cut count answers) := by
  intro h
  obtain ⟨answers, hanswers, hlength, hall⟩ := fetchCountries_of_served
    (served_threeCountries (show perCountry 5 threeCountries ≤ 1000 by decide))
  have htotal := (h .ascii fetchLimit 5 threeCountries answers (by decide) (by decide)
    (served_threeCountries (by decide)) hanswers).total
  rw [flatten_cut, List.length_take, length_flatten_of_forall hall, hlength] at htotal
  exact absurd htotal (by decide)

end Houdinny.Nord
