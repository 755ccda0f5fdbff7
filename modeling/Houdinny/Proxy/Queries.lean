import Houdinny.Proxy.Authority

/-!
# Queries

In a target, the authority ends at the first `/`, `?` or `#`. The proxy looks for a `/`
only: it takes a query without a path for a part of the host (`not_splits_query`). It
finds the host, the port, and the path and query of a target where there is no `#`, and
no `?` before the first `/`, and hardly anywhere else (`splits_iff`).

The exceptions are IPv6 addresses without a port, which the parser of URLs reads though
something stands after the brackets (`BareIpv6`), with what comes after them of a form in which
the proxy finds the path by chance (`Trails`): the fragment has no slash but at its end, for
example. They are spelled out on the target in `SlashEnds`, so that the condition does not
speak of what the proxy does.
-/

namespace Houdinny.Proxy

open Text

variable {defaultPort port : UInt16}

/-- An authority goes on up to the first of these. -/
def endsAuthority (c : Char) : Bool := c = '/' || c = '?' || c = '#'

/-- The authority of a target without its scheme. -/
def authorityOf (s : Text) : Text := s.takeWhile fun c => !endsAuthority c

/-- The path and the query of a target without its scheme. A fragment is not part of
    them. -/
def pathAndQuery (s : Text) : Text :=
  let rest := (s.dropWhile fun c => !endsAuthority c).takeWhile (· ≠ '#')
  if rest.head? = some '/' then rest else '/' :: rest

/-- The text up to the first slash, which the proxy takes for the authority. -/
def slashAuthority (s : Text) : Text := s.takeWhile (· ≠ '/')

/-- A request line whose target is `s` without its scheme is read as URLs say: the host
    and the port are those of the authority, and the path is the path and query. -/
def Splits (line method s : Text) (defaultPort : UInt16) : Prop :=
  ∀ req, parseHttpRequest line = .ok req ↔ ∃ host port,
    ReadsAuthority defaultPort (authorityOf s) host port ∧
      req = ⟨method, host, port, pathAndQuery s⟩

/-- An IPv6 address without a port. -/
def BareIpv6 (t : Text) : Prop :=
  ∃ s rest, t = '[' :: s ++ ']' :: rest ∧ s ≠ [] ∧ ']' ∉ s ∧ rest.head? ≠ some ':'

/-- What may follow an authority without a path so that the path is found all the same: a
    fragment that has no slash but at its end, or a query that comes once more after the first
    slash, which is in the fragment. -/
inductive Trails : Text → Prop
  | fragment {f : Text} : '/' ∉ f.dropLast → Trails ('#' :: f)
  | query {q f : Text} : '/' ∉ q → '#' ∉ q → '/' ∉ f →
      Trails ('?' :: q ++ '#' :: f ++ "/?".toList ++ q)

/-- The target has no fragment, and no query before the first slash. Or neither text is
    an authority; or there is an IPv6 address without a port, followed by a fragment or a query
    of one of these forms. -/
def SlashEnds (s : Text) : Prop :=
  '#' ∉ s ∧ '?' ∉ slashAuthority s ∨
    ¬IsAuthority (slashAuthority s) ∧ ¬IsAuthority (authorityOf s) ∨
    ∃ address rest, BareIpv6 address ∧ (∀ c ∈ address, ¬endsAuthority c) ∧ Trails rest ∧
      s = address ++ rest

/-! ## Where the authority ends -/

/-- The proxy's authority goes on after the authority, unless that ends at a slash. -/
theorem slashAuthority_eq (s : Text) : slashAuthority s = authorityOf s ∨
    ∃ c rest, (c = '?' ∨ c = '#') ∧ s = authorityOf s ++ c :: rest ∧
      slashAuthority s = authorityOf s ++ c :: rest.takeWhile (· ≠ '/') := by
  have hcut : authorityOf s ++ s.dropWhile (fun c => !endsAuthority c) = s :=
    List.takeWhile_append_dropWhile
  have hbefore : ∀ c ∈ authorityOf s, decide (c ≠ '/') = true := fun c hc => by
    refine decide_eq_true fun heq => ?_
    have hend := List.mem_takeWhile_imp hc
    rw [heq] at hend
    exact absurd hend (by decide)
  -- The proxy's authority starts with that of the target, in which there is no slash.
  have hslash : slashAuthority s =
      authorityOf s ++ (s.dropWhile fun c => !endsAuthority c).takeWhile (· ≠ '/') := by
    conv_lhs => rw [slashAuthority, ← hcut]
    exact List.takeWhile_append_of_pos hbefore
  rw [hslash]
  rcases hrest : s.dropWhile (fun c => !endsAuthority c) with _ | ⟨c, rest⟩
  · exact .inl (List.append_nil _)
  · have hc := List.head?_dropWhile_not (fun c => !endsAuthority c) s
    rw [hrest] at hc hcut
    by_cases hsl : c = '/'
    · subst hsl
      exact .inl (List.append_nil _)
    · refine .inr ⟨c, rest, ?_, hcut.symm, ?_⟩
      · exact or_iff_not_imp_left.2 (by simpa [endsAuthority, hsl] using hc)
      · rw [List.takeWhile_cons, if_pos (decide_eq_true hsl)]

/-- The authority of a target that is put together of one and what ends it. -/
theorem authorityOf_append {address : Text} (h : ∀ c ∈ address, ¬endsAuthority c) {c : Char}
    (hc : endsAuthority c) (rest : Text) : authorityOf (address ++ c :: rest) = address := by
  rw [authorityOf, List.takeWhile_append_of_pos (by simpa using h), List.takeWhile_cons,
    if_neg (by simpa using hc), List.append_nil]

/-- An authority has no slash. -/
theorem slash_notMem {address : Text} (h : ∀ c ∈ address, ¬endsAuthority c) : '/' ∉ address :=
  fun hmem => h _ hmem (by decide)

/-- Where the same host and port are read of an authority, and of what goes on after it with
    a query or a fragment, it is an IPv6 address without a port. -/
theorem bareIpv6_of_readsAuthority {a rest host : Text} {c : Char} (hc : c = '?' ∨ c = '#')
    (ha : ReadsAuthority defaultPort a host port)
    (hlong : ReadsAuthority defaultPort (a ++ c :: rest) host port) : BareIpv6 a := by
  have hcolon : c ≠ ':' := by
    rcases hc with rfl | rfl <;> decide
  have hdigit : ∀ {bound n : ℕ} {digits : Text},
      parseUnsigned bound (digits ++ c :: rest) ≠ some n := fun h => by
    have := isDigit_of_parseUnsigned h c (by simp)
    revert this
    rcases hc with rfl | rfl <;> decide
  cases ha with
  | name hne hhead hcol =>
    rcases hlong.of_head? (head?_append_ne hne hhead _) with h | ⟨digits, h, -⟩
    · simp at h
    · exact absurd (List.cons.inj (List.append_cancel_left h)).1 hcolon
  | @namePort _ ds _ hne hhead hdigits =>
    rw [List.append_assoc, List.cons_append] at hlong
    rcases hlong.of_head? (head?_append_ne hne hhead _) with h | ⟨digits, h, hport⟩
    · simp at h
    · rw [← (List.cons.inj (List.append_cancel_left h)).2] at hport
      exact absurd hport hdigit
  | ipv6 hne hs hrest => exact ⟨_, _, rfl, hne, hs, hrest⟩
  | @ipv6Port _ ds _ hne hs hdigits =>
    -- The port goes on with the query.
    rw [List.append_assoc] at hlong
    have hport := ((parseIpv6Authority_port hs).1 (parseUrlAuthority_eq_ok.2 hlong).1).2.2
    exact absurd hport hdigit

/-- An IPv6 address without a port is read though something stands after it. -/
theorem BareIpv6.readsAuthority {a : Text} (h : BareIpv6 a) {rest : Text}
    (hrest : rest.head? ≠ some ':') : ∃ host, ReadsAuthority defaultPort a host defaultPort ∧
      ReadsAuthority defaultPort (a ++ rest) host defaultPort := by
  obtain ⟨s, after, rfl, hne, hs, hafter⟩ := h
  refine ⟨s, .ipv6 hne hs hafter, ?_⟩
  rw [List.append_assoc, List.cons_append]
  refine .ipv6 hne hs ?_
  rcases after with _ | ⟨c, after⟩
  · exact hrest
  · exact hafter

/-! ## Where the path begins -/

/-- Without a slash, the path is "/". -/
theorem slashPath_of_notMem {t : Text} (h : '/' ∉ t) : slashPath t = "/".toList := by
  have hdrop : t.dropWhile (· ≠ '/') = [] :=
    List.dropWhile_eq_nil_iff.2 fun c hc => decide_eq_true fun heq => h (heq ▸ hc)
  rw [slashPath, hdrop]
  rfl

/-- What has no slash does not change the path. -/
theorem slashPath_append {t : Text} (h : '/' ∉ t) (rest : Text) :
    slashPath (t ++ rest) = slashPath rest := by
  have hdrop : (t ++ rest).dropWhile (· ≠ '/') = rest.dropWhile (· ≠ '/') :=
    List.dropWhile_append_of_pos fun c hc => decide_eq_true fun heq => h (heq ▸ hc)
  rw [slashPath, slashPath, hdrop]

/-- A fragment is taken for the path "/" if it has no slash but at its end. -/
theorem slashPath_eq_slash_iff (f : Text) : slashPath f = "/".toList ↔ '/' ∉ f.dropLast := by
  by_cases hmem : '/' ∈ f
  · obtain ⟨before, after, rfl, hbefore⟩ := List.eq_append_cons_of_mem hmem
    have hpath : slashPath ('/' :: after) = '/' :: after := rfl
    rw [slashPath_append hbefore, hpath, List.dropLast_append_of_ne_nil (List.cons_ne_nil _ _),
      List.mem_append, or_iff_right hbefore]
    rcases after with _ | ⟨c, after⟩
    · exact iff_of_true rfl List.not_mem_nil
    · refine iff_of_false (fun h => ?_) (fun h => h ?_)
      · exact absurd (List.cons.inj h).2 (List.cons_ne_nil _ _)
      · rw [List.dropLast_cons_cons]
        exact List.mem_cons_self
  · exact iff_of_true (slashPath_of_notMem hmem) fun h => hmem (List.mem_of_mem_dropLast h)

/-- A query is found by the proxy only if it comes once more, after the first slash. -/
theorem slashPath_eq_query_iff (t : Text) :
    slashPath t = '/' :: '?' :: t.takeWhile (· ≠ '#') ↔
      ∃ q f, '/' ∉ q ∧ '#' ∉ q ∧ '/' ∉ f ∧ t = q ++ '#' :: f ++ "/?".toList ++ q := by
  have htake {q : Text} (h : '#' ∉ q) (rest : Text) :
      (q ++ rest).takeWhile (· ≠ '#') = q ++ rest.takeWhile (· ≠ '#') :=
    List.takeWhile_append_of_pos fun c hc => decide_eq_true fun heq => h (heq ▸ hc)
  constructor
  · intro h
    by_cases hmem : '/' ∈ t
    · obtain ⟨before, after, rfl, hbefore⟩ := List.eq_append_cons_of_mem hmem
      have hpath : slashPath ('/' :: after) = '/' :: after := rfl
      rw [slashPath_append hbefore, hpath] at h
      have hafter := (List.cons.inj h).2
      by_cases hhash : '#' ∈ before
      · obtain ⟨q, f, rfl, hq⟩ := List.eq_append_cons_of_mem hhash
        have hq' : '?' :: (q ++ []) = '?' :: q := by rw [List.append_nil]
        rw [List.append_assoc, htake hq] at hafter
        obtain rfl : after = '?' :: q := hafter.trans hq'
        rw [List.mem_append, not_or, List.mem_cons, not_or] at hbefore
        refine ⟨q, f, hbefore.1, hq, hbefore.2.2, ?_⟩
        rw [List.append_assoc _ "/?".toList]
        rfl
      · -- The query would go on beyond its own end.
        have hnone : '#' ∉ after := by
          rw [hafter, List.mem_cons, not_or]
          refine ⟨by decide, fun hq => ?_⟩
          exact absurd (List.mem_takeWhile_imp hq) (by decide)
        have hall : ('/' :: after).takeWhile (· ≠ '#') = '/' :: after := by
          have hnone' : '#' ∉ '/' :: after :=
            List.not_mem_cons_of_ne_of_not_mem (by decide) hnone
          have := htake hnone' []
          rwa [List.append_nil, List.takeWhile_nil, List.append_nil] at this
        rw [htake hhash, hall] at hafter
        have hlen := congrArg List.length hafter
        rw [List.length_cons, List.length_append, List.length_cons] at hlen
        omega
    · rw [slashPath_of_notMem hmem] at h
      exact absurd (List.cons.inj h).2 (List.cons_ne_nil _ _).symm
  · rintro ⟨q, f, hq, hhash, hf, rfl⟩
    have hslash : '/' ∉ q ++ '#' :: f := by
      rw [List.mem_append, not_or, List.mem_cons, not_or]
      exact ⟨hq, by decide, hf⟩
    have hquery : (q ++ '#' :: (f ++ ("/?".toList ++ q))).takeWhile (· ≠ '#') = q := by
      rw [htake hhash]
      exact List.append_nil q
    rw [List.append_assoc _ _ q, slashPath_append hslash, List.append_assoc, List.cons_append,
      hquery]
    rfl

/-- After an authority without a path, the path that the proxy finds is the path and query
    exactly if what follows is of one of the forms. -/
theorem slashPath_eq_iff_trails {address rest : Text} {c : Char}
    (h : ∀ c ∈ address, ¬endsAuthority c) (hc : c = '?' ∨ c = '#') :
    slashPath (address ++ c :: rest) = pathAndQuery (address ++ c :: rest) ↔
      Trails (c :: rest) := by
  have hdrop : (address ++ c :: rest).dropWhile (fun c => !endsAuthority c) = c :: rest := by
    rw [List.dropWhile_append_of_pos (by simpa using h)]
    rcases hc with rfl | rfl <;> rfl
  have hpath : slashPath (address ++ c :: rest) = slashPath rest := by
    rw [slashPath_append (slash_notMem h), ← List.singleton_append, slashPath_append]
    rcases hc with rfl | rfl <;> decide
  rw [hpath, pathAndQuery, hdrop]
  rcases hc with rfl | rfl
  · change slashPath rest = '/' :: '?' :: rest.takeWhile (· ≠ '#') ↔ _
    rw [slashPath_eq_query_iff]
    constructor
    · rintro ⟨q, f, hq, hhash, hf, rfl⟩
      exact .query hq hhash hf
    · rintro (_ | @⟨q, f, hq, hhash, hf⟩)
      exact ⟨q, f, hq, hhash, hf, rfl⟩
  · change slashPath rest = "/".toList ↔ _
    rw [slashPath_eq_slash_iff]
    exact ⟨.fragment, fun | .fragment h => h⟩

/-- Where the authority ends at a slash, the path that the proxy finds is the path and query,
    unless there is a fragment. -/
theorem slashPath_eq_iff {s : Text} (h : slashAuthority s = authorityOf s) :
    slashPath s = pathAndQuery s ↔ '#' ∉ s := by
  have hslash : slashAuthority s ++ s.dropWhile (· ≠ '/') = s := List.takeWhile_append_dropWhile
  have hcut : authorityOf s ++ s.dropWhile (fun c => !endsAuthority c) = s :=
    List.takeWhile_append_dropWhile
  -- Both cut at the same place, so only a fragment, which the proxy leaves in the path, can
  -- tell the two paths apart.
  have hrest : s.dropWhile (fun c => !endsAuthority c) = s.dropWhile (· ≠ '/') := by
    rw [← h] at hcut
    exact List.append_cancel_left (hcut.trans hslash.symm)
  have hfragment : '#' ∉ authorityOf s := fun hmem => by
    have := List.mem_takeWhile_imp hmem
    exact absurd this (by decide)
  have hmem : '#' ∉ s ↔ '#' ∉ s.dropWhile (· ≠ '/') := by
    conv_lhs => rw [← hslash, h, List.mem_append, not_or, and_iff_right hfragment]
  rw [hmem, slashPath, pathAndQuery, hrest]
  rcases hdrop : s.dropWhile (· ≠ '/') with _ | ⟨c, rest⟩
  · exact iff_of_true rfl List.not_mem_nil
  · have hc := List.head?_dropWhile_not (· ≠ '/') s
    rw [hdrop] at hc
    obtain rfl : c = '/' := by simpa using hc
    have htake : ('/' :: rest).takeWhile (· ≠ '#') = '/' :: rest.takeWhile (· ≠ '#') := rfl
    rw [htake, List.mem_cons, or_iff_right (by decide)]
    change '/' :: rest = '/' :: rest.takeWhile (· ≠ '#') ↔ _
    rw [List.cons_inj_right, eq_comm, List.takeWhile_eq_self_iff]
    simp only [decide_eq_true_eq]
    exact ⟨fun hall hmem => hall _ hmem rfl, fun hno c hc heq => hno (heq ▸ hc)⟩

/-- A target is read as URLs say exactly if these conditions are met: they are conditions on the
    characters of the target, and no other target is read so, but by the chance of its form. -/
theorem splits_iff {line method url s : Text} {words : List Text} {defaultPort : UInt16}
    (hwords : splitWhitespace line = method :: url :: words)
    (hscheme : stripScheme url = .ok (s, defaultPort)) :
    Splits line method s defaultPort ↔ SlashEnds s := by
  have hparse : ∀ req, parseHttpRequest line = .ok req ↔ ∃ host port,
      ReadsAuthority defaultPort (slashAuthority s) host port ∧
        req = ⟨method, host, port, slashPath s⟩ := fun req => by
    simp only [parseHttpRequest_eq_ok hwords hscheme, ← parseUrlAuthority_eq_ok, and_assoc]
    rfl
  simp only [Splits, hparse]
  constructor
  · intro h
    by_cases hneither : ¬IsAuthority (slashAuthority s) ∧ ¬IsAuthority (authorityOf s)
    · exact .inr (.inl hneither)
    · -- One is an authority, so both are, with the same host and port, and the same path.
      obtain ⟨host, port, hslash, hauthority, hpath⟩ : ∃ host port,
          ReadsAuthority defaultPort (slashAuthority s) host port ∧
          ReadsAuthority defaultPort (authorityOf s) host port ∧ slashPath s = pathAndQuery s := by
        rw [not_and_or, not_not, not_not] at hneither
        rcases hneither with his | his
        · obtain ⟨host, port, hreads⟩ := ReadsAuthority.of_isAuthority his defaultPort
          obtain ⟨host', port', hreads', heq⟩ := (h _).1 ⟨host, port, hreads, rfl⟩
          obtain ⟨-, rfl, rfl, hpath⟩ := HttpRequest.mk.inj heq
          exact ⟨host, port, hreads, hreads', hpath⟩
        · obtain ⟨host, port, hreads⟩ := ReadsAuthority.of_isAuthority his defaultPort
          obtain ⟨host', port', hreads', heq⟩ := (h _).2 ⟨host, port, hreads, rfl⟩
          obtain ⟨-, rfl, rfl, hpath⟩ := HttpRequest.mk.inj heq
          exact ⟨host, port, hreads', hreads, hpath.symm⟩
      rcases slashAuthority_eq s with heq | ⟨c, rest, hc, hs, heq⟩
      · refine .inl ⟨(slashPath_eq_iff heq).1 hpath, fun hmem => ?_⟩
        rw [heq] at hmem
        exact absurd (List.mem_takeWhile_imp hmem) (by decide)
      · rw [heq] at hslash
        have hends : ∀ c ∈ authorityOf s, ¬endsAuthority c := fun c hc => by
          simpa using List.mem_takeWhile_imp hc
        rw [hs, slashPath_eq_iff_trails hends hc] at hpath
        exact .inr (.inr ⟨_, _, bareIpv6_of_readsAuthority hc hauthority hslash, hends, hpath, hs⟩)
  · rintro (⟨hfragment, hquery⟩ | ⟨hslash, hauthority⟩ |
      ⟨address, trail, hbare, hends, htrails, rfl⟩) req
    · have heq : slashAuthority s = authorityOf s := by
        refine (slashAuthority_eq s).resolve_right ?_
        rintro ⟨c, rest, hc, -, heq⟩
        have hmem : c ∈ slashAuthority s := heq ▸ by simp
        rcases hc with rfl | rfl
        · exact hquery hmem
        · exact hfragment ((List.takeWhile_prefix _).subset hmem)
      rw [heq, (slashPath_eq_iff heq).2 hfragment]
    · refine iff_of_false ?_ ?_
      · exact fun ⟨host, port, hreads, _⟩ => hslash ⟨_, host, port, hreads⟩
      · exact fun ⟨host, port, hreads, _⟩ => hauthority ⟨_, host, port, hreads⟩
    · obtain ⟨c, rest, hc, rfl⟩ : ∃ c rest, (c = '?' ∨ c = '#') ∧ trail = c :: rest := by
        cases htrails with
        | fragment _ => exact ⟨_, _, .inr rfl, rfl⟩
        | query _ _ _ => exact ⟨_, _, .inl rfl, rfl⟩
      have hendsAt : endsAuthority c := by
        rcases hc with rfl | rfl <;> decide
      have hauth := authorityOf_append hends hendsAt rest
      have hslashAuth : slashAuthority (address ++ c :: rest) =
          address ++ (c :: rest).takeWhile (· ≠ '/') :=
        List.takeWhile_append_of_pos fun c hc =>
          decide_eq_true fun heq => slash_notMem hends (heq ▸ hc)
      have hrest : ((c :: rest).takeWhile (· ≠ '/')).head? ≠ some ':' := by
        rcases hc with rfl | rfl <;> simp
      obtain ⟨host, hauthority, hslash⟩ := hbare.readsAuthority hrest
      rw [hslashAuth, hauth, (slashPath_eq_iff_trails hends hc).2 htrails]
      -- The host and the port of both are these.
      have hsame : ∀ host' port,
          ReadsAuthority defaultPort (address ++ (c :: rest).takeWhile (· ≠ '/')) host' port ↔
            ReadsAuthority defaultPort address host' port := fun host' port =>
        ⟨fun h => by obtain ⟨rfl, rfl⟩ := h.unique hslash; exact hauthority,
          fun h => by obtain ⟨rfl, rfl⟩ := h.unique hauthority; exact hslash⟩
      simp only [hsame]

/-- A target with a path, of which the query is part. -/
def pathLine : Text := "GET http://a/b?q HTTP/1.1".toList

/-- It is read as URLs say. -/
theorem splits_pathLine : Splits pathLine "GET".toList "a/b?q".toList 80 :=
  (@splits_iff pathLine _ "http://a/b?q".toList _ ["HTTP/1.1".toList] _ rfl rfl).2
    (.inl ⟨by decide, by decide⟩)

/-- A target with a query and no path. -/
def queryLine : Text := "GET http://a?q HTTP/1.1".toList

/-- Its query is taken for a part of the host, up to the next slash. -/
theorem not_splits_query : ¬∀ (line method url s : Text) (words : List Text)
    (defaultPort : UInt16), splitWhitespace line = method :: url :: words →
    stripScheme url = .ok (s, defaultPort) → Splits line method s defaultPort := by
  intro h
  have hsplits := h queryLine "GET".toList "http://a?q".toList "a?q".toList ["HTTP/1.1".toList] 80
    rfl rfl
  have hparse : parseHttpRequest queryLine =
      .ok ⟨"GET".toList, "a?q".toList, 80, "/".toList⟩ := rfl
  obtain ⟨host, port, hreads, heq⟩ := (hsplits _).1 hparse
  obtain ⟨-, rfl, -⟩ := HttpRequest.mk.inj heq
  -- The host of the authority would be longer than the authority.
  rcases hreads.of_head? (by decide) with hhost | ⟨digits, hhost, -⟩
  · exact absurd hhost (by decide)
  · have hlen := congrArg List.length hhost
    have hshort : (authorityOf "a?q".toList).length = 1 := rfl
    have hlong : "a?q".toList.length = 3 := rfl
    rw [List.length_append, hshort, hlong] at hlen
    omega

end Houdinny.Proxy
