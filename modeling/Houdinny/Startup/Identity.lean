import Houdinny.Lib.Run
import Houdinny.Startup

/-!
# Identifiers

The identifier of a transport is `protocol-label`, and `tor-label-index` for the
Tor circuits. Tunnels without a label share one. So the identifiers of the
transports built are different exactly if the labels of any two usable tunnels
of the same protocol are (`LabelsDistinct`), and then, and only then, an
identifier identifies a transport in every pool that removals lead to
(`identified_iff_labelsDistinct`).

Labels are any texts, so an identifier might be read in more than one way. It is not: the
protocol is determined by its start, as no name of a protocol goes on as another one does
(`eq_of_append_eq`), and the label is what is left without the index (`label_inj`). So two
tunnels share an identifier exactly if they share their protocol and their label
(`exists_id_eq_iff`).
-/

namespace Houdinny

open Text

variable {f : Features} {torClient : Except Text Unit} {t u : TunnelConfig} {x y : Transport}

/-! ## The identifier of a transport -/

/-- The protocols of which transports are built. -/
def protocols : List Text :=
  ["socks5".toList, "wireguard".toList, "http-proxy".toList, "sentinel".toList, "tor".toList]

/-- Their names differ in the first two characters. -/
theorem eq_of_take_two {p q : Text} (hp : p ∈ protocols) (hq : q ∈ protocols)
    (h : p.take 2 = q.take 2) : p = q := by
  have hall : ∀ p ∈ protocols, ∀ q ∈ protocols, p.take 2 = q.take 2 → p = q := by decide
  exact hall p hp q hq h

/-- A text that starts with the name of a protocol determines it. -/
theorem eq_of_append_eq {p q a b : Text} (hp : p ∈ protocols) (hq : q ∈ protocols)
    (h : p ++ a = q ++ b) : p = q := by
  have hlen : ∀ p ∈ protocols, 2 ≤ p.length := by decide
  have htake := congrArg (List.take 2) h
  rw [List.take_append_of_le_length (hlen p hp), List.take_append_of_le_length (hlen q hq)] at htake
  exact eq_of_take_two hp hq htake

/-- What follows the label in the identifiers of the transports of a tunnel. -/
def idSuffix (protocol : Text) (k : ℕ) : Text :=
  if protocol = "tor".toList then '-' :: ofNat k else []

/-- Only the circuits of Tor have an index. -/
theorem idSuffix_of_ne {p : Text} (h : p ≠ "tor".toList) (k : ℕ) : idSuffix p k = [] := if_neg h

/-- The identifier of a Tor circuit. -/
theorem TorTransport.id_new (label : Text) (k : ℕ) : (TorTransport.new label k).id =
    "tor".toList ++ '-' :: label ++ idSuffix "tor".toList k := by
  change "tor-".toList ++ label ++ "-".toList ++ ofNat k = _
  rw [List.append_assoc]
  rfl

/-- The identifier of what is built of a tunnel. -/
theorem Built.id_eq (h : Built f torClient t x) : t.protocol ∈ protocols ∧
    ∃ k, x.id = t.protocol ++ '-' :: t.labelOr ++ idSuffix t.protocol k := by
  cases h with
  | socks5 hp | wireguard hp | httpBare hp | sentinel hp =>
    refine ⟨by rw [hp]; decide, 0, ?_⟩
    rw [hp, idSuffix_of_ne (by decide), List.append_nil]
    rfl
  | httpUrl hp _ _ hok =>
    refine ⟨by rw [hp]; decide, 0, ?_⟩
    rw [hp, (HttpProxyTransport.eq_new_of_fromUrl hok).1, idSuffix_of_ne (by decide),
      List.append_nil]
    rfl
  | @tor k hp =>
    rw [hp]
    exact ⟨by decide, k, TorTransport.id_new t.labelOr k⟩

/-- A usable tunnel has the transport with the identifier of index `0`. -/
theorem TunnelConfig.exists_id (h : t.usable f torClient = true) :
    ∃ x ∈ t.buildTransport f torClient,
      x.id = t.protocol ++ '-' :: t.labelOr ++ idSuffix t.protocol 0 := by
  obtain ⟨x, hbuilt, htor⟩ := exists_built h
  refine ⟨x, mem_buildTransport.2 hbuilt, ?_⟩
  by_cases hp : t.protocol = "tor".toList
  · rw [htor hp, hp]
    exact TorTransport.id_new t.labelOr 0
  · obtain ⟨_, k, hk⟩ := hbuilt.id_eq
    rw [hk, idSuffix_of_ne hp, idSuffix_of_ne hp]

/-- The suffix of an identifier is determined by it. -/
theorem label_inj {p l l' : Text} {k k' : ℕ} (h : l ++ idSuffix p k = l' ++ idSuffix p k') :
    l = l' := by
  rw [idSuffix, idSuffix] at h
  split_ifs at h
  · -- The index has no dash, so the last one ends the label.
    have hcut := congrArg (rsplitOnce '-') h
    rw [rsplitOnce_append l (notMem_ofNat rfl k),
      rsplitOnce_append l' (notMem_ofNat rfl k')] at hcut
    exact (Prod.mk.inj (Option.some.inj hcut)).1
  · simpa using h

/-! ## Two tunnels -/

/-- Two tunnels share an identifier exactly if both are usable, and they have
    the same protocol and label. -/
theorem exists_id_eq_iff {torClient torClient' : Except Text Unit} :
    (∃ x ∈ t.buildTransport f torClient, ∃ y ∈ u.buildTransport f torClient', x.id = y.id) ↔
      t.usable f torClient = true ∧ u.usable f torClient' = true ∧ t.protocol = u.protocol ∧
        t.labelOr = u.labelOr := by
  constructor
  · rintro ⟨x, hx, y, hy, hid⟩
    have hx := TunnelConfig.mem_buildTransport.1 hx
    have hy := TunnelConfig.mem_buildTransport.1 hy
    obtain ⟨hp, k, hk⟩ := hx.id_eq
    obtain ⟨hq, k', hk'⟩ := hy.id_eq
    rw [hk, hk', List.append_assoc, List.append_assoc] at hid
    have hpq := eq_of_append_eq hp hq hid
    rw [hpq] at hid
    -- With the protocol cut off, the labels and the suffixes are left.
    have hlabel := List.append_cancel_left hid
    simp only [List.cons_append, List.cons.injEq, true_and] at hlabel
    exact ⟨TunnelConfig.usable_of_built hx, TunnelConfig.usable_of_built hy, hpq, label_inj hlabel⟩
  · rintro ⟨ht, hu, hp, hl⟩
    obtain ⟨x, hx, hid⟩ := TunnelConfig.exists_id ht
    obtain ⟨y, hy, hid'⟩ := TunnelConfig.exists_id hu
    exact ⟨x, hx, y, hy, by rw [hid, hid', hp, hl]⟩

/-- The transports of one tunnel have different identifiers. -/
theorem nodup_id_buildTransport (f : Features) (torClient : Except Text Unit) (t : TunnelConfig) :
    ((t.buildTransport f torClient).map Transport.id).Nodup := by
  rw [TunnelConfig.buildTransport]
  split_ifs
  · rw [TunnelConfig.buildSocks5]
    split_ifs <;> rcases t.address <;> simp
  · rw [TunnelConfig.buildWireguard]
    split_ifs <;> rcases t.interface <;> simp
  · rw [TunnelConfig.buildHttpProxy]
    rcases t.address with _ | a
    · exact List.nodup_nil
    · dsimp only
      split_ifs
      · rcases HttpProxyTransport.fromUrl a t.labelOr <;> simp
      · exact List.nodup_singleton _
  · rw [TunnelConfig.buildSentinel]
    split <;> simp
  · rw [TunnelConfig.buildTor]
    split_ifs
    · rcases torClient with e | u
      · exact List.nodup_nil
      · -- The circuits differ in their indices.
        simp only [createTorPool, List.map_map]
        refine List.Nodup.map (fun k k' h => ?_) List.nodup_range
        exact ofNat_injective (List.append_cancel_left h)
    · exact List.nodup_nil
  · exact List.nodup_nil

/-! ## All tunnels -/

/-- Any two usable tunnels of the same protocol have different labels. -/
def LabelsDistinct (f : Features) (torClient : ℕ → Except Text Unit) (tunnels : List TunnelConfig) :
    Prop :=
  tunnels.zipIdx.Pairwise fun p q => ¬(p.1.usable f (torClient p.2) = true ∧
    q.1.usable f (torClient q.2) = true ∧ p.1.protocol = q.1.protocol ∧ p.1.labelOr = q.1.labelOr)

instance (f : Features) (torClient : ℕ → Except Text Unit) (tunnels : List TunnelConfig) :
    Decidable (LabelsDistinct f torClient tunnels) :=
  inferInstanceAs (Decidable (List.Pairwise _ _))

/-- The identifiers are different exactly if the labels are. -/
theorem nodup_id_iff (f : Features) (torClient : ℕ → Except Text Unit)
    (tunnels : List TunnelConfig) :
    ((buildTransports f torClient tunnels).map Transport.id).Nodup ↔
      LabelsDistinct f torClient tunnels := by
  rw [buildTransports, List.map_flatMap, List.nodup_flatMap]
  have hblock : ∀ p ∈ tunnels.zipIdx,
      ((p.1.buildTransport f (torClient p.2)).map Transport.id).Nodup :=
    fun p _ => nodup_id_buildTransport f (torClient p.2) p.1
  refine (and_iff_right hblock).trans ?_
  refine List.Pairwise.iff fun p q => ?_
  change List.Disjoint _ _ ↔ _
  rw [← exists_id_eq_iff, List.disjoint_left]
  simp only [List.mem_map]
  constructor
  · rintro h ⟨x, hx, y, hy, hid⟩
    exact h ⟨x, hx, rfl⟩ ⟨y, hy, hid.symm⟩
  · rintro h _ ⟨x, hx, rfl⟩ ⟨y, hy, hid⟩
    exact h ⟨x, hx, y, hy, hid.symm⟩

/-! ## Pools -/

/-- The pool after a removal. -/
def removeStep (p : Pool Transport) (i : Text) : Option (Pool Transport) :=
  some (p.remove Transport.id i).1

/-- An identifier identifies a transport: its removal takes out one at most, and
    looking it up finds the one that has it. -/
def Pool.Identifying (p : Pool Transport) : Prop :=
  ∀ i, p.transports.length ≤ (p.remove Transport.id i).1.transports.length + 1 ∧
    ∀ x ∈ p.transports, x.id = i → p.get Transport.id i = some x

/-- In a pool of different identifiers, they identify the transports. -/
theorem Pool.identifying_of_nodup {p : Pool Transport}
    (h : (p.transports.map Transport.id).Nodup) : p.Identifying := by
  intro i
  constructor
  · -- What is removed is counted by the identifier.
    have hcount := List.nodup_iff_count_le_one.1 h i
    rw [List.count, List.countP_map] at hcount
    have hlen : p.transports.length = p.transports.countP (fun x => x.id == i) +
        p.transports.countP (fun x => decide ¬(x.id == i) = true) :=
      List.length_eq_countP_add_countP _
    have hkept : (p.remove Transport.id i).1.transports.length =
        p.transports.countP (fun x => decide ¬(x.id == i) = true) := by
      rw [List.countP_eq_length_filter]
      simp only [Pool.remove, beq_iff_eq]
    rw [hkept]
    change p.transports.countP (fun x => x.id == i) ≤ 1 at hcount
    omega
  · -- Something is found, and has the same identifier.
    intro x hx hid
    obtain ⟨y, hy⟩ : ∃ y, p.get Transport.id i = some y := by
      refine Option.isSome_iff_exists.1 (List.find?_isSome.2 ⟨x, hx, ?_⟩)
      exact decide_eq_true hid
    have hyid : y.id = i := by simpa using List.find?_some hy
    rw [hy, List.inj_on_of_nodup_map h (List.mem_of_find?_eq_some hy) hx (hyid.trans hid.symm)]

/-- Removals keep identifiers different. -/
theorem nodup_removeStep {p q : Pool Transport} {i : Text}
    (h : (p.transports.map Transport.id).Nodup) (hq : removeStep p i = some q) :
    (q.transports.map Transport.id).Nodup := by
  obtain rfl := Option.some.inj hq
  exact h.sublist (List.filter_sublist.map _)

/-- The transports built have different identifiers, and identifiers identify
    transports in every pool that removals lead to, exactly if the labels of
    any two usable tunnels of the same protocol differ. -/
theorem identified_iff_labelsDistinct (f : Features) (torClient : ℕ → Except Text Unit)
    (tunnels : List TunnelConfig) :
    (((buildTransports f torClient tunnels).map Transport.id).Nodup ∧ ∀ removals,
      Run.Always removeStep Pool.Identifying (.new (buildTransports f torClient tunnels))
        removals) ↔ LabelsDistinct f torClient tunnels := by
  rw [← nodup_id_iff]
  refine ⟨And.left, fun h => ⟨h, fun removals => ?_⟩⟩
  have hinv : Run.Always removeStep
      (fun p : Pool Transport => (p.transports.map Transport.id).Nodup)
      (.new (buildTransports f torClient tunnels)) removals :=
    Run.always_of_inv (fun _ _ _ => nodup_removeStep) h
  exact hinv.mono fun p => Pool.identifying_of_nodup

/-! ## Tunnels without labels -/

/-- A SOCKS5 tunnel without a label. -/
def unlabelledTunnel (address : Text) : TunnelConfig :=
  { TunnelConfig.ofProtocol "socks5".toList with
    address := some address }

/-- Two tunnels without labels have the same identifier, `socks5-(unlabelled)`, so it identifies
    neither of them. -/
theorem not_identified_unlabelled : ¬∀ (f : Features) (torClient : ℕ → Except Text Unit)
    (tunnels : List TunnelConfig),
    ((buildTransports f torClient tunnels).map Transport.id).Nodup ∧ ∀ removals,
      Run.Always removeStep Pool.Identifying (.new (buildTransports f torClient tunnels))
        removals := by
  intro h
  have := (h ⟨true, false, false⟩ (fun _ => .ok ())
    [unlabelledTunnel "127.0.0.1:1080".toList, unlabelledTunnel "127.0.0.1:1081".toList]).1
  exact absurd this (by decide)

end Houdinny
