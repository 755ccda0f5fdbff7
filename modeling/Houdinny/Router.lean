import Mathlib.Data.List.Nodup
import Mathlib.Data.Nat.ModEq
import Houdinny.Config

/-!
# Routers

A router picks one of the healthy transports for each request. Like the pool, it is generic
in the transports.

* `Strategy.buildRouter`: the router of a strategy. One picks at random, the other in turn,
  by a counter of the width `w` of the machine's words, which wraps.
* `Router.pick`: what one call does, from the filter of the healthy transports to the
  transport that is chosen of them. The counter advances with each transport that is
  returned, and with no error.
* `Router.Rotates`: any consecutive picks, as many as there are transports, cover all
  transports of a stable list, as long as the counter has not wrapped.

In turn they do so (`rotates_roundRobin`); at random they need not (`not_rotates_random`):
which of the two a router does is its strategy (`rotates_buildRouter_iff`). That is for
calls one after the other, and for flags that stay as they are. For calls at the same time
see `Houdinny.Router.Fairness`, and for flags that change `Houdinny.Router.Flips`.
-/

namespace Houdinny

/-- A router, with its state. -/
inductive Router (w : ℕ)
  | random
  | roundRobin (counter : BitVec w)
  deriving DecidableEq

/-- Construct a router matching this strategy. -/
def Strategy.buildRouter (w : ℕ) : Strategy → Router w
  | .random => .random
  | .roundRobin => .roundRobin 0#w

namespace Router

variable {w : ℕ} {α : Type} (healthy : α → Bool)

/-- Filter the transports down to only healthy entries. -/
def healthyTransports (transports : List α) : List α := transports.filter healthy

/-- Pick a healthy transport, `draw` being what the random generator comes up
    with. -/
def pick (draw : ℕ) (transports : List α) : Router w → Except Error α × Router w
  | random =>
    let ts := healthyTransports healthy transports
    match ts[draw % ts.length]? with
    | some chosen => (.ok chosen, random)
    | none => (.error .noHealthyTunnels, random)
  | roundRobin counter =>
    let ts := healthyTransports healthy transports
    match ts[counter.toNat % ts.length]? with
    | some chosen => (.ok chosen, roundRobin (counter + 1#w))
    | none => (.error .noHealthyTunnels, roundRobin counter)

/-- What consecutive picks return. -/
def picks (transports : List α) : Router w → List ℕ → List (Except Error α)
  | _, [] => []
  | r, draw :: draws =>
    (r.pick healthy draw transports).1 :: picks transports (r.pick healthy draw transports).2 draws

/-- Any consecutive picks, as many as there are transports, return each of them,
    whatever the random generator does, if all are healthy (and the counter does
    not wrap). -/
def Rotates (r : Router w) : Prop :=
  ∀ (α : Type) (transports : List α) (before draws : List ℕ), transports.Nodup →
    draws.length = transports.length → before.length + draws.length ≤ 2 ^ w →
    ∃ picked : List α, (r.picks (fun _ => true) transports (before ++ draws)).drop before.length =
      picked.map .ok ∧ picked.Nodup

/-! ## Rotation -/

/-- Each draw is one pick. -/
theorem length_picks (ts : List α) (r : Router w) (draws : List ℕ) :
    (r.picks healthy ts draws).length = draws.length := by
  induction draws generalizing r with
  | nil => rfl
  | cons draw draws ih => rw [picks, List.length_cons, ih, List.length_cons]

/-- Where all transports are healthy, the one that the counter points at is picked, and the
    counter moves on. -/
theorem pick_roundRobin {counter : BitVec w} {draw : ℕ} {ts : List α} {t : α}
    (h : ts[counter.toNat % ts.length]? = some t) :
    (roundRobin counter).pick (fun _ => true) draw ts = (.ok t, roundRobin (counter + 1#w)) := by
  have hts : healthyTransports (fun _ => true) ts = ts := List.filter_true ts
  simp only [pick, hts, h]

/-- A counter that is not at its end goes on to the next number. -/
theorem toNat_add_one {counter : BitVec w} (h : counter.toNat + 1 < 2 ^ w) :
    (counter + 1#w).toNat = counter.toNat + 1 := by
  have hone : 1 < 2 ^ w := by omega
  rw [BitVec.toNat_add, BitVec.toNat_ofNat, Nat.mod_eq_of_lt hone, Nat.mod_eq_of_lt h]

/-- The picks of a counter that does not wrap: the transports in turn. -/
theorem picks_roundRobin {ts : List α} (hpos : 0 < ts.length) (draws : List ℕ)
    (counter : BitVec w) (hwrap : counter.toNat + draws.length ≤ 2 ^ w) :
    (roundRobin counter).picks (fun _ => true) ts draws = (List.range draws.length).map fun i =>
      .ok (ts.get ⟨(counter.toNat + i) % ts.length, Nat.mod_lt _ hpos⟩) := by
  induction draws generalizing counter with
  | nil => rfl
  | cons draw draws ih =>
    rw [List.length_cons] at hwrap
    rw [picks, pick_roundRobin (List.getElem?_eq_getElem (Nat.mod_lt _ hpos)), List.length_cons,
      List.range_succ_eq_map, List.map_cons, List.map_map]
    refine congrArg _ ?_
    -- The counter has moved on by one, if there is another draw: it may wrap
    -- after the last one.
    rcases draws with _ | ⟨d, draws⟩
    · rfl
    · have hnext : (counter + 1#w).toNat = counter.toNat + 1 :=
        toNat_add_one (by rw [List.length_cons] at hwrap; omega)
      rw [ih (counter + 1#w) (by rw [hnext]; omega), hnext]
      refine List.map_congr_left fun i _ => ?_
      simp only [Function.comp_apply, Nat.succ_eq_add_one, Nat.add_assoc, Nat.add_comm 1 i]

/-- Consecutive numbers, as many as the modulus, have different residues. -/
theorem mod_add_inj {n a i j : ℕ} (hi : i < n) (hj : j < n) (h : (a + i) % n = (a + j) % n) :
    i = j := by
  have : i ≡ j [MOD n] := Nat.ModEq.add_left_cancel' a h
  exact this.eq_of_lt_of_lt hi hj

/-- The transports are picked in turn. -/
theorem rotates_roundRobin : (Strategy.roundRobin.buildRouter w).Rotates := by
  intro α ts before draws hnodup hlen hwrap
  rcases Nat.eq_zero_or_pos ts.length with hzero | hpos
  · obtain rfl := List.length_eq_zero_iff.1 (hlen.trans hzero)
    refine ⟨[], ?_, List.nodup_nil⟩
    rw [List.append_nil, List.map_nil, List.drop_eq_nil_iff, length_picks]
  · refine ⟨(List.range ts.length).map fun i =>
      ts.get ⟨(before.length + i) % ts.length, Nat.mod_lt _ hpos⟩, ?_, ?_⟩
    · -- The picks after the first ones are those at the indices that follow.
      change ((roundRobin 0#w).picks _ ts (before ++ draws)).drop before.length = _
      rw [picks_roundRobin hpos _ 0#w (by simpa using hwrap), List.length_append, hlen,
        ← List.map_drop, List.range_add, List.drop_left' List.length_range, List.map_map,
        List.map_map]
      refine List.map_congr_left fun i _ => ?_
      simp only [Function.comp_apply, BitVec.toNat_zero, Nat.zero_add]
    · refine List.Nodup.map_on (fun i hi j hj h => ?_) List.nodup_range
      have := List.nodup_iff_injective_get.1 hnodup h
      exact mod_add_inj (List.mem_range.1 hi) (List.mem_range.1 hj) (Fin.mk.inj this)

/-- At random, the same transport may be picked twice in a row. -/
theorem not_rotates_random (hw : 0 < w) : ¬(Strategy.random.buildRouter w).Rotates := by
  intro h
  have hpow : 2 ^ 1 ≤ 2 ^ w := Nat.pow_le_pow_right (by decide) hw
  obtain ⟨picked, hpicked, hnodup⟩ := h Bool [true, false] [] [0, 0] (by decide) rfl hpow
  have hsame : [true, true].map Except.ok = picked.map Except.ok := hpicked
  have hinj : Function.Injective (Except.ok : Bool → Except Error Bool) := fun _ _ => Except.ok.inj
  obtain rfl := List.map_injective_iff.2 hinj hsame
  exact absurd hnodup (by decide)

/-- So one strategy rotates, and the other does not. -/
theorem rotates_buildRouter_iff (hw : 0 < w) (v : Strategy) :
    (v.buildRouter w).Rotates ↔ v = .roundRobin := by
  cases v with
  | random => exact iff_of_false (not_rotates_random hw) (by rintro ⟨⟩)
  | roundRobin => exact iff_of_true rotates_roundRobin rfl

end Router

end Houdinny
