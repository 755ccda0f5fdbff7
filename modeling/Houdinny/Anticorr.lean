import Houdinny.Lib.Endian
import Houdinny.Proxy.Handler

/-!
# Padding

A padder normalizes the sizes of what is sent: data are followed by filler, up to a
target size, and by a trailer of four bytes, the length of the data. The receiver reads
the length back from the last four bytes, and takes nothing else for a sign of padding.

Padded data are built in a buffer that is asked for as a whole (`PacketPadder.bufferLen`).
No `Vec` is longer than `isize::MAX` bytes, and the allocator may refuse a shorter one:
where there is no buffer, `pad` does not return. So it is a function of the allocator
too, and what is said of it here is said for any.

Data are unpadded from what they are padded to exactly if their length fits the trailer,
and there is the buffer (`roundTrips_iff`), and what is cut by `unpad` is exactly what
ends in the length of a part of what comes before (`unpad_frame`). The sizes of padded
data tell nothing about data that fit the target size (`hidesLengths`).

* `PacketPadder.pad` and `PacketPadder.unpad` are the two functions of the source.
* `Frames` is the format between them: `x` is the data, any filler, and the length of the
  data. Padded data are a frame (`frames_of_pad`), and `unpad` finds the data in one
  (`unpad_of_frames`), whoever has made it.
* `padChecked` is `pad` with the arithmetic of `usize` checked. No sum in it overflows for
  data that a program can hold (`padChecked_eq`), so a `pad` that does not return is one
  that has no buffer.

The filler is a byte of the padder, over and over. The format does not ask for that: a
frame has any filler.
-/

namespace Houdinny

open Endian Proxy

/-- Normalizes outgoing data sizes by padding to a fixed target. -/
structure PacketPadder where
  /-- Target size to pad to. -/
  targetSize : ℕ
  padByte : UInt8
  /-- Whether padding is enabled. -/
  enabled : Bool
  deriving DecidableEq

/-- Size of the length trailer appended during padding. -/
def lengthTrailerSize : ℕ := 4

namespace PacketPadder

/-- A padder with the given target size. -/
def new (targetSize : ℕ) : PacketPadder := ⟨targetSize, 0, true⟩

/-- A padder that passes data through unchanged. -/
def disabled : PacketPadder := ⟨0, 0, false⟩

/-- Pad data to the target size, if there is a buffer for it. -/
def pad (p : PacketPadder) (allocates : ℕ → Bool) (data : Bytes) : Option Bytes :=
  if !p.enabled then
    -- `data.to_vec()`
    if Grants allocates data.length then some data else none
  else
    let originalLen := data.length
    let needed := originalLen + lengthTrailerSize
    let total := if needed ≥ p.targetSize then needed else p.targetSize
    let paddingBytes := total - needed
    -- `Vec::with_capacity(total)`, which is not outgrown.
    if Grants allocates total then
      some (data ++ List.replicate paddingBytes p.padByte ++
        toBeBytes lengthTrailerSize (originalLen % 2 ^ 32))
    else none

/-- Remove padding from received data. -/
def unpad (p : PacketPadder) (data : Bytes) : Bytes :=
  if !p.enabled then data
  else if data.length < lengthTrailerSize then data
  else
    let trailerStart := data.length - lengthTrailerSize
    let originalLen := fromBeBytes (data.drop trailerStart)
    -- A trailer that claims more than there is.
    if originalLen > trailerStart then data else data.take originalLen

/-- The length of the buffer that is asked for. -/
def bufferLen (p : PacketPadder) (data : Bytes) : ℕ :=
  if p.enabled then max p.targetSize (data.length + lengthTrailerSize) else data.length

variable {p : PacketPadder} {allocates : ℕ → Bool} {data x : Bytes}

/-- A padder that is disabled copies the data, if there is a buffer for the copy. -/
theorem pad_of_disabled (h : p.enabled = false) :
    p.pad allocates data = if Grants allocates (p.bufferLen data) then some data else none := by
  rw [pad, if_pos (by simp [h]), bufferLen, h, if_neg Bool.false_ne_true]

/-- A padder that is disabled returns what it gets. -/
theorem unpad_of_disabled (h : p.enabled = false) : p.unpad x = x := by
  rw [unpad, if_pos (by simp [h])]

/-- Padded data are the data, filler up to the target size, and the trailer. -/
theorem pad_of_enabled (h : p.enabled = true) :
    p.pad allocates data = if Grants allocates (p.bufferLen data) then some (data ++
        List.replicate (p.targetSize - (data.length + lengthTrailerSize)) p.padByte ++
        toBeBytes lengthTrailerSize (data.length % 2 ^ 32))
      else none := by
  have hfiller : max p.targetSize (data.length + lengthTrailerSize) -
      (data.length + lengthTrailerSize) = p.targetSize - (data.length + lengthTrailerSize) := by
    omega
  rw [pad, if_neg (by simp [h]), bufferLen, h, if_pos rfl]
  dsimp only
  rw [← max_def, hfiller]

/-- It returns exactly if there is the buffer. -/
theorem isSome_pad_iff : (p.pad allocates data).isSome ↔ Grants allocates (p.bufferLen data) := by
  rcases h : p.enabled with _ | _
  · rw [pad_of_disabled h]
    split_ifs with hbuffer
    · exact iff_of_true rfl hbuffer
    · exact iff_of_false Bool.false_ne_true hbuffer
  · rw [pad_of_enabled h]
    split_ifs with hbuffer
    · exact iff_of_true rfl hbuffer
    · exact iff_of_false Bool.false_ne_true hbuffer

/-- The last four bytes tell how many bytes are left, unless there are not so many
    before them. -/
theorem unpad_append {trailer : Bytes} (h : p.enabled = true)
    (htrailer : trailer.length = lengthTrailerSize) (body : Bytes) :
    p.unpad (body ++ trailer) =
      if fromBeBytes trailer > body.length then body ++ trailer
      else body.take (fromBeBytes trailer) := by
  -- The trailer is the last four bytes, whatever comes before.
  have hstart : (body ++ trailer).length - lengthTrailerSize = body.length := by
    rw [List.length_append, htrailer, Nat.add_sub_cancel]
  have hlong : ¬(body ++ trailer).length < lengthTrailerSize := by
    rw [List.length_append, htrailer]
    omega
  rw [unpad, if_neg (by simp [h]), if_neg hlong]
  dsimp only
  rw [hstart, List.drop_left]
  split_ifs with hclaim
  · rfl
  · rw [List.take_append_of_le_length (Nat.le_of_not_lt hclaim)]

/-- What is too short for a trailer is returned. -/
theorem unpad_of_lt (h : p.enabled = true) (hx : x.length < lengthTrailerSize) :
    p.unpad x = x := by
  rw [unpad, if_neg (by simp [h]), if_pos hx]

/-! ## Frames -/

/-- `x` is the data, any filler, and the length of the data. -/
def Frames (data x : Bytes) : Prop :=
  data.length < 2 ^ 32 ∧ ∃ filler, x = data ++ filler ++ toBeBytes lengthTrailerSize data.length

/-- Padded data are a frame, if their length fits the trailer. -/
theorem frames_of_pad (h : p.enabled = true) (hlen : data.length < 2 ^ 32)
    (hx : p.pad allocates data = some x) : Frames data x := by
  rw [pad_of_enabled h, Nat.mod_eq_of_lt hlen] at hx
  split_ifs at hx
  exact ⟨hlen, _, (Option.some.inj hx).symm⟩

/-- The data are found in a frame, whatever the filler. -/
theorem unpad_of_frames (h : p.enabled = true) (hx : Frames data x) : p.unpad x = data := by
  obtain ⟨hlen, filler, rfl⟩ := hx
  have hread : fromBeBytes (toBeBytes lengthTrailerSize data.length) = data.length := by
    rw [fromBeBytes_toBeBytes]
    exact Nat.mod_eq_of_lt hlen
  have hle : ¬data.length > (data ++ filler).length := by
    rw [List.length_append]
    omega
  rw [unpad_append h (length_toBeBytes ..), hread, if_neg hle, List.take_left]

/-- What is not returned as it is is a frame. -/
theorem exists_frames_of_unpad_ne (h : p.enabled = true) (hne : p.unpad x ≠ x) :
    ∃ data, Frames data x := by
  have hlong : lengthTrailerSize ≤ x.length := by
    by_contra hlt
    exact hne (unpad_of_lt h (Nat.lt_of_not_le hlt))
  -- The body and the trailer.
  obtain ⟨body, trailer, rfl, htrailer⟩ :
      ∃ body trailer, x = body ++ trailer ∧ trailer.length = lengthTrailerSize := by
    refine ⟨x.take (x.length - lengthTrailerSize), x.drop (x.length - lengthTrailerSize),
      (List.take_append_drop ..).symm, ?_⟩
    rw [List.length_drop]
    omega
  rw [unpad_append h htrailer] at hne
  have hle : fromBeBytes trailer ≤ body.length := by
    by_contra hlt
    exact hne (if_pos (Nat.lt_of_not_le hlt))
  have hlength : (body.take (fromBeBytes trailer)).length = fromBeBytes trailer :=
    List.length_take_of_le hle
  have hwritten : toBeBytes lengthTrailerSize (fromBeBytes trailer) = trailer := by
    rw [← htrailer, toBeBytes_fromBeBytes]
  have hlt : fromBeBytes trailer < 2 ^ 32 := by
    have hlt := fromBeBytes_lt trailer
    rwa [htrailer] at hlt
  refine ⟨body.take (fromBeBytes trailer), by rwa [hlength], body.drop (fromBeBytes trailer), ?_⟩
  rw [hlength, hwritten, List.take_append_drop]

/-- What `unpad` takes for padded data is what has their form, and nothing else: a frame is
    returned as its data, whatever the filler, and what is no frame is returned as it is. So a
    padder that is enabled also cuts what nobody has padded, if its last four bytes are the
    length of a part of what comes before them. -/
theorem unpad_frame (h : p.enabled = true) (x : Bytes) :
    (∀ data, Frames data x → p.unpad x = data) ∧ ((∀ data, ¬Frames data x) → p.unpad x = x) := by
  refine ⟨fun data => unpad_of_frames h, fun hno => ?_⟩
  by_contra hne
  obtain ⟨data, hdata⟩ := exists_frames_of_unpad_ne h hne
  exact hno data hdata

/-- Three bytes before their number. Nobody has padded them to a target size, as there is no
    filler, and they are found all the same. -/
theorem unpad_frame_numbered : (new 16).unpad [7, 7, 7, 0, 0, 0, 3] = [7, 7, 7] :=
  (unpad_frame (p := new 16) rfl _).1 [7, 7, 7] ⟨by decide, [], rfl⟩

/-- Eight bytes that are too short for the target, and end in the number one: they are not what
    any data are padded to, but only the first of them is returned. -/
theorem not_forall_unpad_of_ne_pad : ¬∀ (p : PacketPadder) (x : Bytes), p.enabled = true →
    (∀ allocates data, p.pad allocates data ≠ some x) → p.unpad x = x := by
  intro h
  have hpad : ∀ allocates data, (new 16).pad allocates data ≠ some [1, 2, 3, 4, 0, 0, 0, 1] := by
    intro allocates data hx
    rw [pad_of_enabled rfl] at hx
    split_ifs at hx
    have hlen := congrArg List.length (Option.some.inj hx)
    simp only [List.length_append, List.length_replicate, length_toBeBytes, new,
      lengthTrailerSize, List.length_cons, List.length_nil] at hlen
    omega
  exact absurd (h (new 16) [1, 2, 3, 4, 0, 0, 0, 1] rfl hpad) (by decide)

/-! ## The round trip -/

/-- Data are unpadded from what they are padded to. -/
def RoundTrips (p : PacketPadder) (allocates : ℕ → Bool) (data : Bytes) : Prop :=
  (p.pad allocates data).map p.unpad = some data

/-- A length that does not fit the trailer is not found in it. -/
theorem not_roundTrips_of_le (h : p.enabled = true) (hlen : 2 ^ 32 ≤ data.length) :
    ¬RoundTrips p allocates data := by
  intro hround
  obtain ⟨x, hx, hdata⟩ := Option.map_eq_some_iff.1 hround
  rw [pad_of_enabled h] at hx
  split_ifs at hx
  obtain rfl := Option.some.inj hx
  rw [unpad_append h (length_toBeBytes ..)] at hdata
  have hcut := congrArg List.length hdata
  split_ifs at hcut
  · simp only [List.length_append, length_toBeBytes, lengthTrailerSize] at hcut
    omega
  · -- What is read from the trailer is below 2³², and no more than that is returned.
    have hread : fromBeBytes (toBeBytes lengthTrailerSize (data.length % 2 ^ 32)) < 2 ^ 32 := by
      rw [fromBeBytes_toBeBytes]
      exact Nat.mod_lt _ (by decide)
    rw [List.length_take] at hcut
    omega

/-- Data are unpadded from what they are padded to exactly if the padder is disabled, or their
    length fits the trailer, and there is the buffer that they are padded in. The condition is
    on the data, the padder and the allocator, and no other data fail: a length from 2³² on is
    written modulo 2³², and what is read back is shorter. -/
theorem roundTrips_iff (p : PacketPadder) (allocates : ℕ → Bool) (data : Bytes) :
    RoundTrips p allocates data ↔
      (p.enabled = false ∨ data.length < 2 ^ 32) ∧ Grants allocates (p.bufferLen data) := by
  constructor
  · intro hround
    obtain ⟨x, hx, -⟩ := Option.map_eq_some_iff.1 hround
    refine ⟨?_, isSome_pad_iff.1 (Option.isSome_of_eq_some hx)⟩
    rcases h : p.enabled with _ | _
    · exact .inl rfl
    · refine .inr ?_
      by_contra hle
      exact not_roundTrips_of_le h (Nat.le_of_not_lt hle) hround
  · rintro ⟨hlen, hbuffer⟩
    rcases h : p.enabled with _ | _
    · rw [RoundTrips, pad_of_disabled h, if_pos hbuffer, Option.map_some, unpad_of_disabled h]
    · obtain ⟨x, hx⟩ := Option.isSome_iff_exists.1 (isSome_pad_iff.2 hbuffer)
      have hfits := hlen.resolve_left (by simp [h])
      rw [RoundTrips, hx, Option.map_some, unpad_of_frames h (frames_of_pad h hfits hx)]

/-- The length of 2³² bytes is written as zero, so that nothing of them is returned. -/
theorem not_forall_roundTrips :
    ¬∀ (p : PacketPadder) (data : Bytes), RoundTrips p (fun _ => true) data :=
  fun h => not_roundTrips_of_le (p := new 1024) rfl (by rw [List.length_replicate])
    (h (new 1024) (List.replicate (2 ^ 32) 0))

/-! ## Sizes -/

/-- What keeps `pad` from returning. -/
inductive PadFault
  /-- A sum that is no `usize`. -/
  | overflow
  /-- A negative difference. -/
  | underflow
  /-- A buffer that cannot be had. -/
  | bufferless
  deriving DecidableEq

/-- A sum of `usize`, checked as in a debug build. -/
def checkedAdd (a b : ℕ) : Except PadFault ℕ :=
  if a + b ≤ usizeMax then .ok (a + b) else .error .overflow

/-- A difference of `usize`, checked as in a debug build. -/
def checkedSub (a b : ℕ) : Except PadFault ℕ := if b ≤ a then .ok (a - b) else .error .underflow

/-- `pad`, with its arithmetic checked. -/
def padChecked (p : PacketPadder) (allocates : ℕ → Bool) (data : Bytes) :
    Except PadFault Bytes :=
  if !p.enabled then
    if Grants allocates data.length then .ok data else .error .bufferless
  else do
    let originalLen := data.length
    let needed ← checkedAdd originalLen lengthTrailerSize
    let total := if needed ≥ p.targetSize then needed else p.targetSize
    let paddingBytes ← checkedSub total needed
    if ¬Grants allocates total then throw .bufferless
    let len ← checkedAdd originalLen paddingBytes
    return data ++ List.replicate (len - data.length) p.padByte ++
      toBeBytes lengthTrailerSize (originalLen % 2 ^ 32)

/-- What `pad` returns, or that it has no buffer. -/
def padResult (p : PacketPadder) (allocates : ℕ → Bool) (data : Bytes) : Except PadFault Bytes :=
  match p.pad allocates data with
  | some x => .ok x
  | none => .error .bufferless

/-- A sum within `isize::MAX` is within `usize` too. -/
theorem checkedAdd_eq_ok {a b : ℕ} (h : a + b ≤ isizeMax) : checkedAdd a b = .ok (a + b) := by
  refine if_pos (h.trans ?_)
  rw [isizeMax, usizeMax]
  omega

/-- No sum overflows and no difference is negative, where the data are a slice: a slice has
    at most `isize::MAX` bytes. -/
theorem padChecked_eq (hlen : data.length ≤ isizeMax) :
    p.padChecked allocates data = p.padResult allocates data := by
  rw [padChecked, padResult, pad]
  split_ifs with h hbuffer
  · rfl
  · rfl
  have hneeded : checkedAdd data.length lengthTrailerSize =
      .ok (data.length + lengthTrailerSize) := by
    refine if_pos ?_
    rw [lengthTrailerSize, usizeMax]
    rw [isizeMax] at hlen
    omega
  simp only [hneeded, bind, Except.bind]
  generalize htotal : (if data.length + lengthTrailerSize ≥ p.targetSize then
    data.length + lengthTrailerSize else p.targetSize) = total
  -- The total is the larger of the two sizes.
  have hle : data.length + lengthTrailerSize ≤ total := by
    rw [← htotal]
    split_ifs <;> omega
  rw [checkedSub, if_pos hle]
  dsimp only
  by_cases hgrants : Grants allocates total
  · have hmax : total ≤ isizeMax := by
      rcases hgrants with hzero | ⟨hmax, -⟩
      · exact hzero ▸ Nat.zero_le _
      · exact hmax
    rw [if_neg (not_not.2 hgrants), if_pos hgrants, checkedAdd_eq_ok (by omega)]
    dsimp only
    rw [Nat.add_sub_cancel_left]
    rfl
  · rw [if_pos hgrants, if_neg hgrants]
    rfl

/-- The data leave room for the trailer within the target size. -/
def Fits (p : PacketPadder) (data : Bytes) : Prop :=
  data.length + lengthTrailerSize ≤ p.targetSize

instance (p : PacketPadder) (data : Bytes) : Decidable (Fits p data) :=
  inferInstanceAs (Decidable (_ ≤ _))

/-- What an observer of sizes sees of data that are padded. -/
def observed (p : PacketPadder) (allocates : ℕ → Bool) (data : Bytes) : Option ℕ :=
  (p.pad allocates data).map List.length

/-- Padding hides lengths. -/
structure HidesLengths (p : PacketPadder) : Prop where
  /-- No arithmetic of `pad` overflows or underflows. -/
  checked : ∀ allocates (data : Bytes), data.length ≤ isizeMax →
    p.padChecked allocates data = p.padResult allocates data
  /-- `pad` returns exactly if there is a buffer for what it returns. -/
  returns : ∀ allocates (data : Bytes), (p.pad allocates data).isSome ↔
    max p.targetSize (data.length + lengthTrailerSize) ≤ isizeMax ∧
      allocates (max p.targetSize (data.length + lengthTrailerSize)) = true
  size : ∀ allocates data x, p.pad allocates data = some x →
    x.length = max p.targetSize (data.length + lengthTrailerSize)
  starts : ∀ allocates data x, p.pad allocates data = some x → data <+: x
  /-- What is observed does not depend on the data that fit: the allocator is asked for the
      same buffer for all of them. -/
  hidden : ∀ allocates data data', Fits p data → Fits p data' →
    p.observed allocates data = p.observed allocates data'
  /-- Whatever is granted or refused for either, what is returned has the target size. -/
  target : ∀ allocates data x, Fits p data → p.pad allocates data = some x →
    x.length = p.targetSize

/-- Padded data are as long as the target says, or as the data and their trailer. -/
theorem length_pad (h : p.enabled = true) (hx : p.pad allocates data = some x) :
    x.length = max p.targetSize (data.length + lengthTrailerSize) := by
  rw [pad_of_enabled h] at hx
  split_ifs at hx
  rw [← Option.some.inj hx]
  simp only [List.length_append, List.length_replicate, length_toBeBytes]
  omega

/-- There is a trailer at least: the buffer is asked for. -/
theorem grants_bufferLen_iff (h : p.enabled = true) : Grants allocates (p.bufferLen data) ↔
    max p.targetSize (data.length + lengthTrailerSize) ≤ isizeMax ∧
      allocates (max p.targetSize (data.length + lengthTrailerSize)) = true := by
  have hpos : max p.targetSize (data.length + lengthTrailerSize) ≠ 0 := by
    rw [lengthTrailerSize]
    omega
  rw [Grants, bufferLen, h, if_pos rfl, or_iff_right hpos]

/-- Padded data start with the data. -/
theorem starts_pad (h : p.enabled = true) (hx : p.pad allocates data = some x) : data <+: x := by
  rw [pad_of_enabled h] at hx
  split_ifs at hx
  rw [← Option.some.inj hx, List.append_assoc]
  exact List.prefix_append _ _

/-- Of data that fit, an observer sees the target size, or that there is no buffer of it. -/
theorem observed_of_fits (h : p.enabled = true) (hfits : Fits p data) :
    p.observed allocates data =
      if Grants allocates p.targetSize then some p.targetSize else none := by
  have hbuffer : p.bufferLen data = p.targetSize := by
    rw [bufferLen, h, if_pos rfl]
    exact max_eq_left hfits
  rw [observed, ← hbuffer]
  rcases hx : p.pad allocates data with _ | x
  · have hnone := mt isSome_pad_iff.2 (by rw [hx]; exact Bool.false_ne_true)
    rw [if_neg hnone, Option.map_none]
  · have hsome := isSome_pad_iff.1 (Option.isSome_of_eq_some hx)
    rw [if_pos hsome, Option.map_some, length_pad h hx, bufferLen, h, if_pos rfl]

/-- Every padder that is enabled hides the lengths of the data that fit, whatever the target
    size and the allocator: padded data are as long as the target, or as the data with their
    trailer, they start with the data, and of two that fit the target an observer of sizes sees
    the same. -/
theorem hidesLengths (p : PacketPadder) (h : p.enabled = true) : HidesLengths p where
  checked _ _ hlen := padChecked_eq hlen
  returns _ _ := isSome_pad_iff.trans (grants_bufferLen_iff h)
  size _ _ _ hx := length_pad h hx
  starts _ _ _ hx := starts_pad h hx
  hidden _ data data' hfits hfits' := by
    rw [observed_of_fits h hfits, observed_of_fits h hfits']
  target _ data x hfits hx := (length_pad h hx).trans (max_eq_left hfits)

/-- One byte and two, which are both sent as eight. -/
theorem hidesLengths_eight :
    (new 8).observed (fun _ => true) [1] = (new 8).observed (fun _ => true) [1, 2] :=
  (hidesLengths (new 8) rfl).hidden _ [1] [1, 2] (by decide) (by decide)

/-- Nothing is as long as 2⁶³ bytes, whatever the allocator: with this target size, `pad`
    returns nothing. -/
theorem not_forall_length_pad : ¬∀ (p : PacketPadder) (data : Bytes), p.enabled = true →
    ∃ x, p.pad (fun _ => true) data = some x ∧
      x.length = max p.targetSize (data.length + lengthTrailerSize) := by
  intro h
  obtain ⟨x, hx, -⟩ := h (new (2 ^ 63)) [] rfl
  have hreturns := isSome_pad_iff.1 (Option.isSome_of_eq_some hx)
  exact absurd hreturns (by decide)

end PacketPadder

end Houdinny
