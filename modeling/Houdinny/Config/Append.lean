import Houdinny.Config.Environment
import Houdinny.Lib.Toml.Blocks

/-!
# Appending tunnels

A program that adds tunnels to a configuration file writes a `[[tunnel]]` block for
each of them after what is there (`Lines`), with the strings between quotes as they
are. If they are plain, the file is then loaded with the tunnels added, and nothing
else has changed (`parseToml_blocks`). If they are not, a file that is loaded has
another string in the place of one of them (`plain_of_parseToml`).

What the strings of a block are, and the tunnel that they describe, is `Describes`. The
blocks that this development needs are those of SOCKS5 tunnels (`socksPairs`), which the
Docker backend and the importers write.
-/

namespace Houdinny

open Toml Decode

/-- The key of the tunnels. -/
def tunnelKey : Text := "tunnel".toList

/-- The pairs of the block of a tunnel: string fields, of which it is decoded. -/
structure Describes (p : Pairs) (c : TunnelConfig) : Prop where
  block : Block p
  field : ∀ kv ∈ p, ∃ f : TunnelField, f.key = kv.1
  decode : TunnelConfig.decode (tableOf p) = some c

variable {α : Type} {crate : TomlCrate} {pre : Text} {items : List Item}
  {config config' : Config} {l : List α} {pairs : α → Pairs} {tunnel : α → TunnelConfig}
  {kind : Kind} {es : Entries}

/-- A document in which the tunnels, if there are any, are elements of an array. -/
theorem defaulted_of_arrayOf (h : ArrayOf tunnelKey (.table kind es) items) :
    defaulted (entriesToTable es) tunnelKey [] (array (table TunnelConfig.decode)) =
      (items.map Item.toValue).mapM (table TunnelConfig.decode) := by
  have hlookup := lookup_entriesToTable es tunnelKey
  rcases h.lookup with ⟨rfl, hnone⟩ | harray
  · rw [show es.lookup tunnelKey = none from hnone] at hlookup
    rw [defaulted, hlookup]
    rfl
  · rw [show es.lookup tunnelKey = some (.array true items) from harray] at hlookup
    rw [defaulted_of_lookup hlookup, Item.toValue, itemsToValues_eq_map]
    rfl

/-- The tunnels of a document are the elements of its array. -/
theorem length_tunnel (h : ArrayOf tunnelKey (.table kind es) items)
    (hc : Config.decode (entriesToTable es) = some config) :
    config.tunnel.length = items.length := by
  have htunnel := (Config.decode_eq_some.1 hc).2.2
  rw [show "tunnel".toList = tunnelKey from rfl, defaulted_of_arrayOf h] at htunnel
  rw [length_of_mapM htunnel, List.length_map]

/-- The elements of two lists are decoded one list after the other. -/
theorem mapM_append_eq_some {β γ : Type} {g : β → Option γ} {l r : List β} {bs cs : List γ}
    (hl : l.mapM g = some bs) (hr : r.mapM g = some cs) : (l ++ r).mapM g = some (bs ++ cs) := by
  rw [List.mapM_append, hl, hr]
  rfl

/-- The blocks of tunnels are decoded to them. -/
theorem mapM_blockItem (h : ∀ a ∈ l, Describes (pairs a) (tunnel a)) :
    (((l.map pairs).map blockItem).map Item.toValue).mapM (table TunnelConfig.decode) =
      some (l.map tunnel) := by
  induction l with
  | nil => rfl
  | cons a l ih =>
    rw [List.forall_mem_cons] at h
    have hhead : table TunnelConfig.decode (blockItem (pairs a)).toValue = some (tunnel a) := by
      rw [toValue_blockItem]
      exact h.1.decode
    rw [List.map_cons, List.map_cons, List.map_cons, List.mapM_cons, hhead, ih h.2]
    rfl

/-- Tunnels whose strings are plain are added, and nothing else changes. -/
theorem parseToml_blocks (hcrate : crate.Follows)
    (h : Lines tunnelKey pre (.table kind es) items)
    (hc : Config.decode (entriesToTable es) = some config)
    (hl : ∀ a ∈ l, Describes (pairs a) (tunnel a)) (hplain : ∀ a ∈ l, ∀ kv ∈ pairs a, Plain kv.2) :
    Config.parseToml crate (pre ++ Doc.render ((l.map pairs).flatMap (Doc.block tunnelKey))) =
      .ok { config with tunnel := config.tunnel ++ l.map tunnel } := by
  obtain ⟨kind', es', hes', harray, helse⟩ := document_blocks h (by decide)
    (List.forall_mem_map.2 fun a ha => (hl a ha).block) (List.forall_mem_map.2 hplain)
  refine hcrate.parseToml_eq_ok.2 ⟨entriesToTable es', by rw [parse, hes']; rfl, ?_⟩
  obtain ⟨hproxy, hdocker, htunnel⟩ := Config.decode_eq_some.1 hc
  -- The other sections are as before, since the blocks add to the array of the tunnels only.
  have hlookup (j : Text) (hj : j ≠ tunnelKey) :
      (entriesToTable es').lookup j = (entriesToTable es).lookup j := by
    rw [lookup_entriesToTable, lookup_entriesToTable]
    exact congrArg _ (helse j hj)
  refine Config.decode_eq_some.2 ⟨?_, ?_, ?_⟩
  · rw [defaulted_congr (hlookup _ (by decide)), hproxy]
  · rw [defaulted_congr (hlookup _ (by decide)), hdocker]
  · rw [show "tunnel".toList = tunnelKey from rfl, defaulted_of_arrayOf h.array] at htunnel
    rw [show "tunnel".toList = tunnelKey from rfl, defaulted_of_arrayOf harray, List.map_append]
    exact mapM_append_eq_some htunnel (mapM_blockItem hl)

/-- Tunnels that have been added with the strings that were written, have plain strings. -/
theorem plain_of_parseToml (hcrate : crate.Follows)
    (h : Lines tunnelKey pre (.table kind es) items)
    (hc : Config.decode (entriesToTable es) = some config)
    (hl : ∀ a ∈ l, Describes (pairs a) (tunnel a))
    (hc' : Config.parseToml crate
      (pre ++ Doc.render ((l.map pairs).flatMap (Doc.block tunnelKey))) = .ok config')
    (hget : ∀ i a, l[i]? = some a → ∀ (f : TunnelField) (v : Text), (f.key, v) ∈ pairs a →
      ¬Plain v → (Field.tunnel (config.tunnel.length + i) f).get config' = some v) :
    ∀ a ∈ l, ∀ kv ∈ pairs a, Plain kv.2 := by
  obtain ⟨t', ht', hdecode'⟩ := hcrate.parseToml_eq_ok.1 hc'
  obtain ⟨es', hes', rfl⟩ := Option.map_eq_some_iff.1 ht'
  by_contra hplain
  obtain ⟨i, p, hi, ⟨k, v⟩, hkv, hv, x, hx, kind', hat⟩ := exists_of_document_blocks h (by decide)
    (List.forall_mem_map.2 fun a ha => (hl a ha).block) (mt List.forall_mem_map.1 hplain) hes'
  -- The string that is there is the value of the field, which was to be another one.
  rw [List.getElem?_map, Option.map_eq_some_iff] at hi
  obtain ⟨a, ha, rfl⟩ := hi
  obtain ⟨f, rfl⟩ := (hl a (List.mem_of_getElem? ha)).field _ hkv
  rw [← length_tunnel h.array hc] at hat
  have hfield := (Field.tunnel (config.tunnel.length + i) f).get_of_decode hat.toValue hdecode'
  rw [hget i a ha f v hkv hv] at hfield
  exact hx (Option.some.inj hfield).symm

/-! ## SOCKS5 tunnels -/

/-- The pairs of the block of a SOCKS5 tunnel. -/
def socksPairs (address label : Text) : Pairs :=
  [("protocol".toList, "socks5".toList), ("address".toList, address), ("label".toList, label)]

/-- The tunnel that such a block describes. -/
def socksTunnel (address label : Text) : TunnelConfig :=
  { TunnelConfig.ofProtocol "socks5".toList with label := some label, address := some address }

/-- The strings of the block are those of the tunnel. -/
theorem describes_socksPairs (address label : Text) :
    Describes (socksPairs address label) (socksTunnel address label) where
  block :=
    { bare := by
        simp only [socksPairs, List.forall_mem_cons]
        exact ⟨by decide, by decide, by decide, fun _ h => absurd h List.not_mem_nil⟩
      nodup := by
        change (["protocol".toList, "address".toList, "label".toList] : List Text).Nodup
        decide }
  field := by
    simp only [socksPairs, List.forall_mem_cons]
    exact ⟨⟨.protocol, rfl⟩, ⟨.address, rfl⟩, ⟨.label, rfl⟩, fun _ h => absurd h List.not_mem_nil⟩
  decode := rfl

/-- The protocol is plain, so it is on the address and the label. -/
theorem plain_socksPairs {address label : Text} :
    (∀ kv ∈ socksPairs address label, Plain kv.2) ↔ Plain address ∧ Plain label := by
  have hprotocol : Plain "socks5".toList := by decide
  simp only [socksPairs, List.forall_mem_cons, hprotocol, true_and]
  rw [and_iff_left fun _ h => absurd h List.not_mem_nil]

end Houdinny
