import Houdinny.Lib.Text

/-!
# Byte streams, read through a buffer

A socket delivers its stream in *reads*, each returning some bytes and cutting
the stream wherever the network did (`Reads`). A buffered reader keeps what the
last read returned beyond what was asked for (`BufReader`); it is asked here
for what ends at a given byte (`readUntil`), such as a line (`readLine`).

* What is read does not depend on how the stream is cut
  (`readUntil_of_remaining`).
* What the reader has *read ahead* does: it has taken in whole reads, up to the
  first one that reaches the end of what it has consumed. So the socket goes on
  with `t` exactly if that read ends where `t` begins (`At.inner_bytes_eq_iff`).

A program that reads lines and then takes its socket back needs both: the first for what it
does with the lines, and the second for what it loses with the buffer
(`BufReader.intoInner`). `At rs h r` is the invariant that connects the two: the reader has
consumed `h` of the reads `rs`, and has taken in no more of them than it had to. It is kept by
every line that is read (`At.readLine`).
-/

namespace Stream

open Text

/-- What one read of a socket returns: no bytes would be the end of the stream. -/
abbrev Chunk := {bs : Bytes // bs ≠ []}

/-- The reads that a stream arrives in. -/
abbrev Reads := List Chunk

/-- The stream, however it was cut. -/
def Reads.bytes (rs : Reads) : Bytes := rs.flatMap Subtype.val

/-- The first read that reaches the end of `h` is one that ends where `h'` does. -/
def Reads.Reaches (rs : Reads) (h h' : Bytes) : Prop :=
  ∃ (p : Reads) (c : Chunk) (q : Reads), rs = p ++ c :: q ∧ p.bytes.length < h.length ∧
    Reads.bytes (p ++ [c]) = h'

/-- A buffered reader: the bytes read and not yet consumed, and the reads still
    to come. -/
structure BufReader where
  buffer : Bytes
  inner : Reads

/-- A reader that has read nothing yet. -/
def BufReader.new (rs : Reads) : BufReader := ⟨[], rs⟩

/-- The stream still to be consumed. -/
def BufReader.remaining (r : BufReader) : Bytes := r.buffer ++ r.inner.bytes

/-- The socket taken back from its reader: what is in the buffer is lost. -/
def BufReader.intoInner (r : BufReader) : Reads := r.inner

@[simp] theorem bytes_nil : Reads.bytes [] = [] := rfl

@[simp] theorem bytes_cons (c : Chunk) (rs : Reads) : Reads.bytes (c :: rs) = c.1 ++ rs.bytes := rfl

@[simp] theorem bytes_append (rs rs' : Reads) :
    Reads.bytes (rs ++ rs') = rs.bytes ++ rs'.bytes := List.flatMap_append

/-! ## Reading up to a byte -/

/-- What ends at the first `d`, and what comes after it. -/
def cutAfter (d : UInt8) : Bytes → Option (Bytes × Bytes)
  | [] => none
  | b :: bs => if b = d then some ([b], bs) else (cutAfter d bs).map fun p => (b :: p.1, p.2)

/-- Reading up to and including the first `d`, or to the end of the stream: as
    long as the buffer does not have it, it is emptied and filled by the next
    read. -/
def readFrom (d : UInt8) (buffer : Bytes) : Reads → Bytes × BufReader
  | [] =>
    match cutAfter d buffer with
    | some (l, rest) => (l, ⟨rest, []⟩)
    | none => (buffer, ⟨[], []⟩)
  | c :: cs =>
    match cutAfter d buffer with
    | some (l, rest) => (l, ⟨rest, c :: cs⟩)
    | none => (buffer ++ (readFrom d c.1 cs).1, (readFrom d c.1 cs).2)

/-- Reading up to and including the first `d`, or to the end of the stream. -/
def BufReader.readUntil (d : UInt8) (r : BufReader) : Bytes × BufReader :=
  readFrom d r.buffer r.inner

/-- Reading a line, up to and including its newline: no line if it is not
    valid UTF-8. -/
def BufReader.readLine (r : BufReader) : Option (Text × BufReader) :=
  (Text.decodeUtf8 (r.readUntil 10).1).map fun s => (s, (r.readUntil 10).2)

/-- A sequence of bytes that ends at its only `d`. -/
def EndsAt (d : UInt8) (bs : Bytes) : Prop := ∃ l, bs = l ++ [d] ∧ d ∉ l

/-- The two parts make up the bytes, and the first one ends at its only `d`. -/
theorem cutAfter_eq_some {d : UInt8} {bs l rest : Bytes} (h : cutAfter d bs = some (l, rest)) :
    bs = l ++ rest ∧ EndsAt d l := by
  induction bs generalizing l with
  | nil => exact absurd h (by simp [cutAfter])
  | cons b bs ih =>
    rw [cutAfter] at h
    split_ifs at h with hb
    · obtain ⟨rfl, rfl⟩ : [b] = l ∧ bs = rest := by simpa using h
      exact ⟨rfl, [], by rw [hb]; rfl, List.not_mem_nil⟩
    · obtain ⟨⟨l', rest'⟩, hc, he⟩ := Option.map_eq_some_iff.1 h
      obtain ⟨rfl, rfl⟩ : b :: l' = l ∧ rest' = rest := by simpa using he
      obtain ⟨hbs, k, rfl, hk⟩ := ih hc
      exact ⟨by rw [hbs]; rfl, b :: k, rfl, by simp [Ne.symm hb, hk]⟩

/-- Bytes that cannot be cut have no `d`. -/
theorem cutAfter_eq_none {d : UInt8} {bs : Bytes} (h : cutAfter d bs = none) : d ∉ bs := by
  induction bs with
  | nil => exact List.not_mem_nil
  | cons b bs ih =>
    rw [cutAfter] at h
    split_ifs at h with hb
    rw [List.mem_cons, not_or]
    exact ⟨Ne.symm hb, ih (Option.map_eq_none_iff.1 h)⟩

/-- Bytes without it come before what ends at it. -/
theorem cutAfter_append {d : UInt8} {bs : Bytes} (h : d ∉ bs) (cs : Bytes) :
    cutAfter d (bs ++ cs) = (cutAfter d cs).map fun p => (bs ++ p.1, p.2) := by
  induction bs with
  | nil => simp
  | cons b bs ih =>
    rw [List.mem_cons, not_or] at h
    rw [List.cons_append, cutAfter, if_neg (Ne.symm h.1), ih h.2, Option.map_map]
    rfl

/-- Bytes without it come before what is read up to it. -/
theorem readFrom_append {d : UInt8} {bs : Bytes} (h : d ∉ bs) (cs : Bytes) (rs : Reads) :
    readFrom d (bs ++ cs) rs = (bs ++ (readFrom d cs rs).1, (readFrom d cs rs).2) := by
  cases rs with
  | nil =>
    rw [readFrom, readFrom, cutAfter_append h]
    rcases cutAfter d cs with _ | ⟨l, rest⟩ <;> rfl
  | cons c rs =>
    rw [readFrom, readFrom, cutAfter_append h]
    rcases cutAfter d cs with _ | ⟨l, rest⟩
    · simp only [Option.map_none, List.append_assoc]
    · rfl

/-- It has a last byte at least. -/
theorem EndsAt.ne_nil {d : UInt8} {bs : Bytes} (h : EndsAt d bs) : bs ≠ [] := by
  obtain ⟨l, rfl, _⟩ := h
  simp

/-- What ends at its only `d` is determined by any stream that goes on from it. -/
theorem EndsAt.append_inj {d : UInt8} {l l' t t' : Bytes} (hl : EndsAt d l) (hl' : EndsAt d l')
    (h : l ++ t = l' ++ t') : l = l' ∧ t = t' := by
  obtain ⟨k, rfl, hk⟩ := hl
  obtain ⟨k', rfl, hk'⟩ := hl'
  induction k generalizing k' with
  | nil =>
    rcases k' with _ | ⟨b, k'⟩
    · simpa using h
    · rw [List.mem_cons, not_or] at hk'
      exact absurd (by simpa using (List.cons.inj h).1) hk'.1
  | cons a k ih =>
    rw [List.mem_cons, not_or] at hk
    rcases k' with _ | ⟨b, k'⟩
    · exact absurd (by simpa using (List.cons.inj h).1.symm) hk.1
    · rw [List.mem_cons, not_or] at hk'
      simp only [List.cons_append, List.cons.injEq] at h
      obtain ⟨h₁, h₂⟩ := ih hk.2 k' hk'.2 h.2
      exact ⟨by rw [h.1, List.cons_append, List.cons_append, h₁], h₂⟩

/-- Reading consumes what it returns, and stops at the first `d` or at the end
    of the stream. -/
theorem readFrom_spec (d : UInt8) (buffer : Bytes) (rs : Reads) :
    buffer ++ rs.bytes = (readFrom d buffer rs).1 ++ (readFrom d buffer rs).2.remaining ∧
      (EndsAt d (readFrom d buffer rs).1 ∨
        d ∉ (readFrom d buffer rs).1 ∧ (readFrom d buffer rs).2.remaining = []) := by
  induction rs generalizing buffer with
  | nil =>
    rw [readFrom]
    split
    · next l rest h =>
      obtain ⟨rfl, hl⟩ := cutAfter_eq_some h
      exact ⟨by simp [BufReader.remaining], .inl hl⟩
    · next h => exact ⟨rfl, .inr ⟨cutAfter_eq_none h, rfl⟩⟩
  | cons c cs ih =>
    rw [readFrom]
    split
    · next l rest h =>
      obtain ⟨rfl, hl⟩ := cutAfter_eq_some h
      exact ⟨by simp [BufReader.remaining], .inl hl⟩
    · next h =>
      -- The delimiter is not in the buffer, so all of that is taken, and the next read is
      -- looked at.
      obtain ⟨hcat, hend⟩ := ih c.1
      refine ⟨by rw [bytes_cons, hcat, List.append_assoc], hend.imp ?_ ?_⟩
      · rintro ⟨l, hl, hd⟩
        refine ⟨buffer ++ l, by rw [hl, List.append_assoc], ?_⟩
        rw [List.mem_append, not_or]
        exact ⟨cutAfter_eq_none h, hd⟩
      · rintro ⟨hd, hr⟩
        rw [List.mem_append, not_or]
        exact ⟨⟨cutAfter_eq_none h, hd⟩, hr⟩

/-- What is read is the part of the stream up to the first `d`, however the
    stream is cut into reads. -/
theorem readUntil_of_remaining {d : UInt8} {r : BufReader} {l t : Bytes} (hl : EndsAt d l)
    (h : r.remaining = l ++ t) : (r.readUntil d).1 = l ∧ (r.readUntil d).2.remaining = t := by
  obtain ⟨hcat, hend | ⟨hd, hnil⟩⟩ := readFrom_spec d r.buffer r.inner
  · obtain ⟨h₁, h₂⟩ := hend.append_inj hl (hcat.symm.trans h)
    exact ⟨h₁, h₂⟩
  · obtain ⟨k, rfl, _⟩ := hl
    have : d ∈ r.buffer ++ r.inner.bytes := by
      rw [show r.buffer ++ r.inner.bytes = _ from h]
      simp
    rw [hcat, hnil, List.append_nil] at this
    exact absurd this hd

/-- A line that the stream goes on with is read, and the lines after it are left. -/
theorem readUntil_of_splitInclusive {d : UInt8} {r : BufReader} {l : Bytes} {ls : List Bytes}
    (h : splitInclusive d r.remaining = l :: ls) :
    (r.readUntil d).1 = l ∧ splitInclusive d (r.readUntil d).2.remaining = ls := by
  have hne : r.remaining ≠ [] := fun hnil => by
    rw [hnil] at h
    exact absurd h (by simp [splitInclusive])
  obtain ⟨hcat, ⟨k, hk, hd⟩ | ⟨hd, hnil⟩⟩ := readFrom_spec d r.buffer r.inner
  · rw [show r.remaining = _ from hcat, hk, List.append_assoc, List.singleton_append,
      splitInclusive_append_cons hd] at h
    obtain ⟨rfl, rfl⟩ := List.cons.inj h
    exact ⟨hk, rfl⟩
  · rw [hnil, List.append_nil] at hcat
    rw [show r.remaining = _ from hcat] at h hne
    rw [splitInclusive_of_notMem hd hne] at h
    obtain ⟨rfl, rfl⟩ := List.cons.inj h
    exact ⟨rfl, by rw [show (r.readUntil d).2.remaining = [] from hnil]; rfl⟩

/-- At the end of the stream, nothing is read. -/
theorem readUntil_of_nil {d : UInt8} {r : BufReader} (h : r.remaining = []) :
    (r.readUntil d).1 = [] ∧ (r.readUntil d).2.remaining = [] := by
  have hcat := (readFrom_spec d r.buffer r.inner).1
  rw [show r.buffer ++ r.inner.bytes = [] from h] at hcat
  exact List.append_eq_nil_iff.1 hcat.symm

/-- What is read depends on the stream only. -/
theorem readUntil_congr {d : UInt8} {r r' : BufReader} (h : r.remaining = r'.remaining) :
    (r.readUntil d).1 = (r'.readUntil d).1 ∧
      (r.readUntil d).2.remaining = (r'.readUntil d).2.remaining := by
  rcases hls : splitInclusive d r.remaining with _ | ⟨l, ls⟩
  · have hnil : r.remaining = [] := by rw [← flatten_splitInclusive d r.remaining, hls]; rfl
    obtain ⟨h₁, h₂⟩ := readUntil_of_nil (d := d) hnil
    obtain ⟨h₁', h₂'⟩ := readUntil_of_nil (d := d) (h ▸ hnil)
    exact ⟨h₁.trans h₁'.symm, h₂.trans h₂'.symm⟩
  · obtain ⟨h₁, h₂⟩ := readUntil_of_splitInclusive hls
    obtain ⟨h₁', h₂'⟩ := readUntil_of_splitInclusive (h ▸ hls)
    refine ⟨h₁.trans h₁'.symm, ?_⟩
    rw [← flatten_splitInclusive d (r.readUntil d).2.remaining, h₂, ← h₂',
      flatten_splitInclusive]

/-- A nonempty line read is consumed. -/
theorem BufReader.remaining_lt_of_readLine {r r' : BufReader} {s : Text}
    (h : r.readLine = some (s, r')) (hs : s ≠ []) : r'.remaining.length < r.remaining.length := by
  obtain ⟨s', hs', he⟩ := Option.map_eq_some_iff.1 h
  obtain ⟨rfl, rfl⟩ : s' = s ∧ (r.readUntil 10).2 = r' := by simpa using he
  have hcat : r.remaining = (r.readUntil 10).1 ++ (r.readUntil 10).2.remaining :=
    (readFrom_spec 10 r.buffer r.inner).1
  have hne : (r.readUntil 10).1 ≠ [] := fun hnil => by
    rw [hnil] at hs'
    exact hs (Option.some.inj (hs'.symm.trans (Text.decodeUtf8_encodeUtf8 [])))
  rw [hcat, List.length_append]
  have := List.length_pos_iff.2 hne
  omega

/-! ## Reading ahead -/

/-- The reader `r` has consumed `h` of the reads `rs`: it has taken in as many
    reads as that needed, the last one, if some of it is still in the buffer,
    having been consumed in part. -/
def At (rs : Reads) (h : Bytes) (r : BufReader) : Prop :=
  ∃ p : Reads, rs = p ++ r.inner ∧ p.bytes = h ++ r.buffer ∧
    (r.buffer ≠ [] → ∃ q c a, p = q ++ [c] ∧ a ≠ [] ∧ c.1 = a ++ r.buffer)

/-- A new reader has consumed nothing. -/
theorem at_new (rs : Reads) : At rs [] (.new rs) :=
  ⟨[], rfl, rfl, fun h => absurd rfl h⟩

/-- More reads are a longer stream. -/
theorem bytes_mono {p q : Reads} (h : p <+: q) : p.bytes <+: q.bytes := by
  obtain ⟨t, rfl⟩ := h
  exact ⟨Reads.bytes t, (bytes_append p t).symm⟩

/-- The last read that was taken in is the first to reach the end of what was consumed. -/
theorem At.exists_last {rs : Reads} {h : Bytes} {r : BufReader} (hr : At rs h r) (hne : h ≠ []) :
    ∃ (p : Reads) (c : Chunk), rs = p ++ c :: r.inner ∧ p.bytes.length < h.length ∧
      Reads.bytes (p ++ [c]) = h ++ r.buffer := by
  obtain ⟨p, rfl, hp, hpart⟩ := hr
  by_cases hnil : r.buffer = []
  · -- It ended where `h` does, and was not empty.
    rcases List.eq_nil_or_concat' p with rfl | ⟨p, c, rfl⟩
    · exact absurd (List.append_eq_nil_iff.1 hp.symm).1 hne
    · refine ⟨p, c, by simp, ?_, hp⟩
      have hlen := congrArg List.length hp
      have hpos := List.length_pos_iff.2 c.2
      rw [hnil, List.append_nil, bytes_append, List.length_append, bytes_cons, bytes_nil,
        List.append_nil] at hlen
      omega
  · obtain ⟨p, c, a, rfl, ha, hc⟩ := hpart hnil
    refine ⟨p, c, by simp, ?_, hp⟩
    have hconsumed : Reads.bytes p ++ a = h := by
      rw [bytes_append, bytes_cons, bytes_nil, List.append_nil, hc, ← List.append_assoc] at hp
      exact List.append_cancel_right hp
    have hpos := List.length_pos_iff.2 ha
    rw [← hconsumed, List.length_append]
    omega

/-- Of two beginnings of the stream that reach as far, with their last reads only, neither is
    longer. -/
theorem eq_of_prefix_concat {p q : Reads} {c d : Chunk} {n : ℕ}
    (hp : n ≤ (Reads.bytes (p ++ [c])).length)
    (hq : q.bytes.length < n) (hle : p ++ [c] <+: q ++ [d]) : p ++ [c] = q ++ [d] := by
  rcases List.prefix_concat_iff.1 hle with heq | hle
  · exact heq
  · have hlen := (bytes_mono hle).length_le
    omega

/-- The socket goes on with what comes after `x` exactly if the read that the reader took in
    last ends where `x` does. -/
theorem At.inner_bytes_eq_iff {rs : Reads} {h x t : Bytes} {r : BufReader} (hr : At rs h r)
    (hne : h ≠ []) (hrem : r.remaining = x ++ t) :
    r.inner.bytes = t ↔ rs.Reaches h (h ++ x) := by
  obtain ⟨p, c, hrs, hp, hbytes⟩ := hr.exists_last hne
  constructor
  · rintro rfl
    exact ⟨p, c, r.inner, hrs, hp, by rw [hbytes, List.append_cancel_right hrem]⟩
  · rintro ⟨q, d, rs', hrs', hq, hbytes'⟩
    -- Both are the first to reach the end of `h`.
    have hpre : p ++ [c] <+: rs := ⟨r.inner, by rw [hrs]; simp⟩
    have hpre' : q ++ [d] <+: rs := ⟨rs', by rw [hrs']; simp⟩
    have hlen : h.length ≤ (Reads.bytes (p ++ [c])).length := by
      rw [hbytes, List.length_append]
      omega
    have hlen' : h.length ≤ (Reads.bytes (q ++ [d])).length := by
      rw [hbytes', List.length_append]
      omega
    have hsame : p ++ [c] = q ++ [d] := by
      rcases List.prefix_or_prefix_of_prefix hpre hpre' with hle | hle
      · exact eq_of_prefix_concat hlen hq hle
      · exact (eq_of_prefix_concat hlen' hp hle).symm
    have hbuffer : r.buffer = x := by
      rw [hsame, hbytes'] at hbytes
      exact (List.append_cancel_left hbytes).symm
    rw [BufReader.remaining, hbuffer] at hrem
    exact List.append_cancel_left hrem

/-- Reading goes on from where the reader is. -/
theorem at_readFrom {d : UInt8} {buffer h : Bytes} {p rs : Reads} (hp : p.bytes = h ++ buffer)
    (hpart : buffer ≠ [] → ∃ q c a, p = q ++ [c] ∧ c.1 = a ++ buffer) :
    At (p ++ rs) (h ++ (readFrom d buffer rs).1) (readFrom d buffer rs).2 := by
  -- If the buffer has the byte, what is left of it is still of the last read.
  have hcut : ∀ {l rest : Bytes} (cs : Reads), cutAfter d buffer = some (l, rest) →
      At (p ++ cs) (h ++ l) ⟨rest, cs⟩ := fun cs hc => by
    obtain ⟨rfl, hl⟩ := cutAfter_eq_some hc
    refine ⟨p, rfl, by rw [hp, List.append_assoc], fun _ => ?_⟩
    obtain ⟨q, c, a, hq, ha⟩ := hpart (by simp [hl.ne_nil])
    refine ⟨q, c, a ++ _, hq, List.append_ne_nil_of_right_ne_nil a hl.ne_nil, ?_⟩
    rw [ha, List.append_assoc]
  induction rs generalizing p h buffer with
  | nil =>
    rw [readFrom]
    split
    · next hc => exact hcut [] hc
    · exact ⟨p, rfl, by rw [hp, List.append_nil], fun h => absurd rfl h⟩
  | cons c cs ih =>
    rw [readFrom]
    split
    · next hc => exact hcut (c :: cs) hc
    · -- Otherwise, the next read is taken in, and none of it was consumed before.
      have hnext : At (p ++ [c] ++ cs) (h ++ buffer ++ (readFrom d c.1 cs).1)
          (readFrom d c.1 cs).2 := by
        refine ih (by simp [hp]) (fun _ => ⟨p, c, [], rfl, rfl⟩) fun cs hc => ?_
        obtain ⟨hl, hend⟩ := cutAfter_eq_some hc
        exact ⟨p ++ [c], rfl, by simp [hp, hl], fun _ => ⟨p, c, _, rfl, hend.ne_nil, hl⟩⟩
      simpa only [List.append_assoc, List.singleton_append] using hnext

/-- Reading goes on from where the reader is. -/
theorem At.readUntil {d : UInt8} {rs : Reads} {h : Bytes} {r : BufReader} (hr : At rs h r) :
    At rs (h ++ (r.readUntil d).1) (r.readUntil d).2 := by
  obtain ⟨p, rfl, hp, hpart⟩ := hr
  refine at_readFrom hp fun hne => ?_
  obtain ⟨q, c, a, hq, _, hc⟩ := hpart hne
  exact ⟨q, c, a, hq, hc⟩

/-- Reading a line that the stream goes on with. -/
theorem At.readLine {rs : Reads} {h l t : Bytes} {r : BufReader} {s : Text} (hr : At rs h r)
    (hl : EndsAt 10 l) (hrem : r.remaining = l ++ t) (hs : Text.decodeUtf8 l = some s) :
    ∃ r', r.readLine = some (s, r') ∧ At rs (h ++ l) r' ∧ r'.remaining = t := by
  obtain ⟨h₁, h₂⟩ := readUntil_of_remaining hl hrem
  refine ⟨(r.readUntil 10).2, ?_, h₁ ▸ hr.readUntil, h₂⟩
  rw [BufReader.readLine, h₁, hs, Option.map_some]

end Stream
