import Mathlib.Data.List.Chain
import Houdinny.Lib.Run
import Houdinny.Router

/-!
# Rotation under health changes

One client that picks from a list in turn, while health flags change. The counter
goes on by one in each pick, but the list that it indexes shrinks and grows: two
consecutive picks can return the same transport, though others are healthy
(`not_rotates_drop`).

The two indices are the residues of a number and of the next one, for the lengths
`m` and `n` of the lists of healthy transports. All that is known of such residues
`i` and `j`, whatever the number, is that `j` and `i + 1` are the same modulo the
greatest common divisor of `m` and `n`. So the picks differ if no transport is at
such places of the two lists (`Apart`), as long as the counter does not wrap
(`rotates_of_eachStep`); this covers flags that do not change, where no transport is
listed twice (`apart_self`). Where two lists are not apart, there is a counter from
which the picks do not differ (`exists_same_of_not_apart`).
-/

namespace Houdinny

namespace Router

variable {w : ℕ} {τ : Type}

/-- A router, the health flags, and the successful picks, the latest first: the
    transport returned, and the transports that were healthy at the time. -/
structure Client (w : ℕ) (τ : Type) where
  healthy : τ → Bool
  router : Router w
  picked : List (τ × List τ)

/-- What can happen: a health flag changes, or a transport is picked. -/
inductive Client.Event (τ : Type)
  | health (t : τ) (up : Bool)
  | pick (draw : ℕ)

namespace Client

variable [DecidableEq τ] (ts : List τ)

/-- What an event does, where the transports `ts` are picked from. -/
def step (s : Client w τ) : Event τ → Option (Client w τ)
  | .health t up => some { s with healthy := Function.update s.healthy t up }
  | .pick draw =>
    match s.router.pick s.healthy draw ts with
    | (.ok t, r) => some ⟨s.healthy, r, (t, healthyTransports s.healthy ts) :: s.picked⟩
    | (.error _, r) => some { s with router := r }

/-- A round-robin router at the counter, before any pick. -/
def start (healthy : τ → Bool) (counter : BitVec w) : Client w τ :=
  ⟨healthy, roundRobin counter, []⟩

omit [DecidableEq τ] in
/-- Two consecutive successful picks have returned different transports, if at
    both of them two transports at least were healthy. -/
def Rotates (s : Client w τ) : Prop :=
  s.picked.IsChain fun later earlier =>
    2 ≤ later.2.length → 2 ≤ earlier.2.length → later.1 ≠ earlier.1

omit [DecidableEq τ] in
/-- No transport is at a place of `l` and, up to a multiple of the greatest common divisor of
    the lengths, at the next place of `l'`. -/
def Apart (l l' : List τ) : Prop :=
  ∀ (i j : ℕ) (t : τ), l[i]? = some t → l'[j]? = some t → ¬j ≡ i + 1 [MOD l.length.gcd l'.length]

omit [DecidableEq τ] in
/-- Only the places in the two lists have to be looked at. -/
theorem apart_iff {l l' : List τ} : Apart l l' ↔ ∀ i < l.length, ∀ j < l'.length,
    l[i]? = l'[j]? → ¬j ≡ i + 1 [MOD l.length.gcd l'.length] := by
  constructor
  · intro h i hi j _ hsame
    have hget := List.getElem?_eq_getElem hi
    exact h i j _ hget (hsame ▸ hget)
  · intro h i j t hi hj
    exact h i (List.getElem?_eq_some_iff.1 hi).1 j (List.getElem?_eq_some_iff.1 hj).1
      (hi.trans hj.symm)

instance (l l' : List τ) : Decidable (Apart l l') := decidable_of_iff _ apart_iff.symm

omit [DecidableEq τ] in
/-- At a pick that follows another one, both with two healthy transports at least: the lists of
    healthy transports then and now are apart, and the counter has not wrapped in between. -/
def Moves (s : Client w τ) : Event τ → Prop
  | .health _ _ => True
  | .pick _ => ∀ last before earlier, s.picked = (last, before) :: earlier →
      2 ≤ before.length → 2 ≤ (healthyTransports s.healthy ts).length →
      Apart before (healthyTransports s.healthy ts) ∧ s.router ≠ roundRobin 0#w

/-- A transport that drops between two picks: the second and the third pick return
    the same one of the two that are left. -/
theorem not_rotates_drop : ¬Run.Always (step ['a', 'b', 'c']) Rotates
    (start (fun _ => true) 0#64) [.pick 0, .pick 0, .health 'a' false, .pick 0] := by
  intro h
  have hlast : Rotates _ := h.last rfl
  exact absurd hlast (by rw [Rotates, List.isChain_cons_cons]; decide)

/-! ## Consecutive indices -/

omit [DecidableEq τ] in
/-- What lists that are apart have at consecutive indices is not the same. -/
theorem Apart.ne {l l' : List τ} (h : Apart l l') {c : ℕ} {t t' : τ}
    (ht : l[c % l.length]? = some t) (ht' : l'[(c + 1) % l'.length]? = some t') : t' ≠ t := by
  rintro rfl
  -- Both indices are residues of the counter, for the common divisor.
  have hleft : c % l.length + 1 ≡ c + 1 [MOD l.length.gcd l'.length] :=
    ((Nat.mod_modEq c l.length).of_dvd (Nat.gcd_dvd_left ..)).add_right 1
  have hright : (c + 1) % l'.length ≡ c + 1 [MOD l.length.gcd l'.length] :=
    (Nat.mod_modEq (c + 1) l'.length).of_dvd (Nat.gcd_dvd_right ..)
  exact h _ _ _ ht ht' (hright.trans hleft.symm)

omit [DecidableEq τ] in
/-- A list of two transports at least, none of them twice, is apart from itself. -/
theorem apart_self {l : List τ} (hl : l.Nodup) (htwo : 2 ≤ l.length) : Apart l l := by
  intro i j t hi hj hsame
  obtain ⟨hi', hit⟩ := List.getElem?_eq_some_iff.1 hi
  obtain ⟨hj', hjt⟩ := List.getElem?_eq_some_iff.1 hj
  obtain rfl := hl.getElem_inj_iff.1 (hit.trans hjt.symm)
  rw [Nat.gcd_self] at hsame
  -- No number of places further is the same place, but for a multiple of the length.
  have hone : i + 0 ≡ i + 1 [MOD l.length] := hsame
  have hzero : 0 ≡ 1 [MOD l.length] := Nat.ModEq.add_left_cancel' i hone
  exact absurd (hzero.eq_of_lt_of_lt (by omega) (by omega)) (by decide)

omit [DecidableEq τ] in
/-- Where two lists are not apart, a number has them return the same, at its index and the next
    one. It is less than the common multiple of the lengths. -/
theorem exists_index_of_not_apart {l l' : List τ} (h : ¬Apart l l') :
    ∃ c t, c < l.length.lcm l'.length ∧ l[c % l.length]? = some t ∧
      l'[(c + 1) % l'.length]? = some t := by
  rw [Apart] at h
  push Not at h
  obtain ⟨i, j, t, hi, hj, hsame⟩ := h
  have hilt := (List.getElem?_eq_some_iff.1 hi).1
  have hjlt := (List.getElem?_eq_some_iff.1 hj).1
  have hpos : 0 < l.length.lcm l'.length := Nat.lcm_pos (by omega) (by omega)
  -- The next number has the residues `i + 1` and `j`; zero is taken as the common multiple.
  obtain ⟨k, hk, hki, hkj⟩ : ∃ k, k < l.length.lcm l'.length ∧ k + 1 ≡ i + 1 [MOD l.length] ∧
      k + 1 ≡ j [MOD l'.length] := by
    let x := Nat.chineseRemainder' hsame.symm
    have hx : x.1 < l.length.lcm l'.length :=
      Nat.chineseRemainder'_lt_lcm hsame.symm (by omega) (by omega)
    rcases Nat.eq_zero_or_pos x.1 with hzero | hxpos
    · refine ⟨l.length.lcm l'.length - 1, by omega, ?_, ?_⟩
      · have hmul : l.length.lcm l'.length ≡ 0 [MOD l.length] :=
          (Nat.modEq_zero_iff_dvd).2 (Nat.dvd_lcm_left ..)
        rw [Nat.sub_add_cancel hpos]
        exact hmul.trans (hzero ▸ x.2.1)
      · have hmul : l.length.lcm l'.length ≡ 0 [MOD l'.length] :=
          (Nat.modEq_zero_iff_dvd).2 (Nat.dvd_lcm_right ..)
        rw [Nat.sub_add_cancel hpos]
        exact hmul.trans (hzero ▸ x.2.2)
    · refine ⟨x.1 - 1, by omega, ?_, ?_⟩
      · rw [Nat.sub_add_cancel hxpos]
        exact x.2.1
      · rw [Nat.sub_add_cancel hxpos]
        exact x.2.2
  refine ⟨k, t, hk, ?_, ?_⟩
  · rw [Nat.ModEq.add_right_cancel' 1 hki, Nat.mod_eq_of_lt hilt]
    exact hi
  · rw [hkj, Nat.mod_eq_of_lt hjlt]
    exact hj

/-! ## Picks -/

omit [DecidableEq τ] in
/-- What a pick of the round-robin router returns, if a transport is healthy: the one that the
    counter points at. -/
theorem pick_of_get {healthy : τ → Bool} {draw : ℕ} {counter : BitVec w} {t : τ}
    (h : (healthyTransports healthy ts)[counter.toNat % (healthyTransports healthy ts).length]? =
      some t) :
    (roundRobin counter).pick healthy draw ts = (.ok t, roundRobin (counter + 1#w)) := by
  simp only [pick, h]

/-- What a pick of the round-robin router does: nothing, if no transport is healthy,
    else it returns the transport that the counter points at. -/
theorem step_pick {s s' : Client w τ} {draw : ℕ} {counter : BitVec w}
    (hr : s.router = roundRobin counter) (hs : s.step ts (.pick draw) = some s') :
    s' = s ∨ ∃ t, (healthyTransports s.healthy ts)[counter.toNat %
        (healthyTransports s.healthy ts).length]? = some t ∧
      s' = ⟨s.healthy, roundRobin (counter + 1#w),
        (t, healthyTransports s.healthy ts) :: s.picked⟩ := by
  rcases hget : (healthyTransports s.healthy ts)[counter.toNat %
    (healthyTransports s.healthy ts).length]? with _ | t
  · left
    simp only [step, hr, pick, hget] at hs
    rw [← Option.some.inj hs, ← hr]
  · right
    rw [step, hr, pick_of_get ts hget] at hs
    exact ⟨t, rfl, (Option.some.inj hs).symm⟩

omit [DecidableEq τ] in
/-- Where the healthy transports of two flags are not apart, there is a counter from which a
    pick with the first flags, and the next one with the others, return the same. -/
theorem exists_same_of_not_apart {healthy healthy' : τ → Bool}
    (h : ¬Apart (healthyTransports healthy ts) (healthyTransports healthy' ts))
    (hw : (healthyTransports healthy ts).length.lcm (healthyTransports healthy' ts).length < 2 ^ w)
    (draw draw' : ℕ) : ∃ (counter : BitVec w) (t : τ),
      ((roundRobin counter).pick healthy draw ts).1 = .ok t ∧
      (((roundRobin counter).pick healthy draw ts).2.pick healthy' draw' ts).1 = .ok t := by
  obtain ⟨c, t, hc, ht, ht'⟩ := exists_index_of_not_apart h
  have hnat : (BitVec.ofNat w c).toNat = c := by
    rw [BitVec.toNat_ofNat, Nat.mod_eq_of_lt (by omega)]
  have hnext : (BitVec.ofNat w c + 1#w).toNat = c + 1 := by
    rw [toNat_add_one (by omega), hnat]
  refine ⟨BitVec.ofNat w c, t, ?_, ?_⟩
  · rw [pick_of_get ts (by rw [hnat]; exact ht)]
  · rw [pick_of_get ts (by rw [hnat]; exact ht), pick_of_get ts (by rw [hnext]; exact ht')]

/-! ## Runs -/

variable {ts}

/-- The picks have rotated, and the last one was made at the number before the counter's. -/
structure Inv (s : Client w τ) : Prop where
  rotates : s.Rotates
  router : ∃ counter, s.router = roundRobin counter ∧
    ∀ last before earlier, s.picked = (last, before) :: earlier → counter ≠ 0#w →
      ∃ c, counter.toNat = c + 1 ∧ before[c % before.length]? = some last

omit [DecidableEq τ] in
/-- Nothing has been picked at first. -/
theorem inv_start (healthy : τ → Bool) (counter : BitVec w) : (start healthy counter).Inv where
  rotates := List.isChain_nil
  router := ⟨counter, rfl, fun _ _ _ h => absurd h (by simp [start])⟩

/-- A step that meets the condition keeps the rotation. -/
theorem Inv.step {s s' : Client w τ} {e : Event τ} (h : s.Inv) (hs : s.step ts e = some s')
    (hmoves : s.Moves ts e) : s'.Inv := by
  obtain ⟨counter, hr, hlast⟩ := h.router
  cases e with
  | health t up =>
    obtain rfl := Option.some.inj hs
    exact ⟨h.rotates, counter, hr, hlast⟩
  | pick draw =>
    rcases step_pick ts hr hs with rfl | ⟨t, ht, rfl⟩
    · exact h
    · refine ⟨?_, counter + 1#w, rfl, fun last before earlier hpicked hne => ?_⟩
      · rcases hpicked : s.picked with _ | ⟨⟨last, before⟩, earlier⟩
        · exact List.isChain_singleton _
        · have htail : s.picked.IsChain _ := h.rotates
          rw [hpicked] at htail
          refine List.isChain_cons_cons.2 ⟨fun htwo htwo' => ?_, htail⟩
          -- The lists are apart, and hold the two at consecutive indices.
          obtain ⟨hapart, hwrap⟩ := hmoves last before earlier hpicked htwo' htwo
          obtain ⟨c, hc, hbefore⟩ :=
            hlast last before earlier hpicked fun hzero => hwrap (hzero ▸ hr)
          rw [hc] at ht
          exact hapart.ne hbefore ht
      · obtain ⟨⟨rfl, rfl⟩, -⟩ : (t = last ∧ healthyTransports s.healthy ts = before) ∧
            s.picked = earlier := by simpa using hpicked
        refine ⟨counter.toNat, toNat_add_one ?_, ht⟩
        -- It would have wrapped to zero.
        by_contra hge
        refine hne (BitVec.eq_of_toNat_eq ?_)
        have hlt := counter.isLt
        have hall : counter.toNat + 1 = 2 ^ w := by omega
        rcases Nat.eq_zero_or_pos w with rfl | hw
        · exact congrArg BitVec.toNat (BitVec.eq_nil _)
        · have hone : (1#w).toNat = 1 := by
            rw [BitVec.toNat_ofNat, Nat.mod_eq_of_lt (Nat.one_lt_two_pow hw.ne')]
          rw [BitVec.toNat_add, hone, hall, Nat.mod_self, BitVec.toNat_zero]

/-- Whatever the list, the flags and the counter at first: in every run in which the healthy
    transports of consecutive picks are apart, and the counter does not wrap between them,
    consecutive picks return different transports. -/
theorem rotates_of_eachStep (ts : List τ) (healthy : τ → Bool) (counter : BitVec w)
    (es : List (Event τ)) (h : Run.EachStep (step ts) (Moves ts) (start healthy counter) es) :
    Run.Always (step ts) Rotates (start healthy counter) es :=
  (Run.always_of_eachStep (fun _ _ _ hs ht hmoves => hs.step ht hmoves)
    (inv_start healthy counter) h).mono fun _ hs => hs.rotates

/-- After two picks, two of four transports drop: the other two keep their places, of two and of
    four. -/
theorem rotates_halved : Run.Always (step ['a', 'b', 'c', 'd']) Rotates
    (start (fun _ => true) 0#64)
    [.pick 0, .pick 0, .health 'c' false, .health 'd' false, .pick 0] := by
  refine rotates_of_eachStep _ _ _ _ ?_
  refine Run.eachStep_cons.2 fun s₁ h₁ => ⟨fun _ _ _ h => absurd h (by simp [start]), ?_⟩
  obtain rfl := Option.some.inj h₁
  refine Run.eachStep_cons.2 fun s₂ h₂ => ⟨fun last before earlier h _ _ => ?_, ?_⟩
  · obtain ⟨hpick, -⟩ := List.cons.inj h
    obtain ⟨-, rfl⟩ := Prod.mk.inj hpick
    exact ⟨apart_self (by decide) (by decide), by decide⟩
  obtain rfl := Option.some.inj h₂
  refine Run.eachStep_cons.2 fun s₃ h₃ => ⟨trivial, ?_⟩
  obtain rfl := Option.some.inj h₃
  refine Run.eachStep_cons.2 fun s₄ h₄ => ⟨trivial, ?_⟩
  obtain rfl := Option.some.inj h₄
  refine Run.eachStep_cons.2 fun s₅ _ => ⟨fun last before earlier h _ _ => ?_, Run.eachStep_nil⟩
  obtain ⟨hpick, -⟩ := List.cons.inj h
  obtain ⟨-, rfl⟩ := Prod.mk.inj hpick
  exact ⟨by decide, by decide⟩

end Client

end Router

end Houdinny
