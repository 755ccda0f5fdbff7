import Mathlib.Data.List.Induction
import Mathlib.Algebra.Ring.Nat

/-!
# Big-endian numbers

A number is written in a fixed number of bytes, the most significant byte first
(`toBeBytes`); of a number that does not fit, the most significant bytes are lost.
Bytes are read back as a number by `fromBeBytes`, the inverse on the numbers that fit
(`fromBeBytes_toBeBytes`) and on the lists of bytes of the width
(`toBeBytes_fromBeBytes`).
-/

namespace Endian

/-- A number in bytes, the most significant byte first. -/
def toBeBytes : ℕ → ℕ → List UInt8
  | 0, _ => []
  | width + 1, n => toBeBytes width (n / 256) ++ [UInt8.ofNat n]

/-- The number that is written in the bytes. -/
def fromBeBytes (bs : List UInt8) : ℕ := bs.foldl (fun n b => 256 * n + b.toNat) 0

/-- There are as many bytes as the width says. -/
@[simp]
theorem length_toBeBytes (width n : ℕ) : (toBeBytes width n).length = width := by
  induction width generalizing n with
  | zero => rfl
  | succ width ih => rw [toBeBytes, List.length_append, ih, List.length_singleton]

/-- The last byte is the least significant one. -/
theorem fromBeBytes_concat (bs : List UInt8) (b : UInt8) :
    fromBeBytes (bs ++ [b]) = 256 * fromBeBytes bs + b.toNat := by
  rw [fromBeBytes, List.foldl_append]
  rfl

/-- So many bytes have no more values than that. -/
theorem fromBeBytes_lt (bs : List UInt8) : fromBeBytes bs < 256 ^ bs.length := by
  induction bs using List.reverseRecOn with
  | nil => exact Nat.one_pos
  | append_singleton bs b ih =>
    have hb := b.toNat_lt
    rw [fromBeBytes_concat, List.length_append, List.length_singleton, pow_succ]
    omega

/-- A number is read back, as far as it fits. -/
theorem fromBeBytes_toBeBytes (width n : ℕ) :
    fromBeBytes (toBeBytes width n) = n % 256 ^ width := by
  induction width generalizing n with
  | zero => rw [pow_zero, Nat.mod_one]; rfl
  | succ width ih =>
    rw [toBeBytes, fromBeBytes_concat, ih, UInt8.toNat_ofNat', pow_succ' 256 width,
      Nat.mod_mul]
    omega

/-- Bytes are written back. -/
theorem toBeBytes_fromBeBytes (bs : List UInt8) : toBeBytes bs.length (fromBeBytes bs) = bs := by
  induction bs using List.reverseRecOn with
  | nil => rfl
  | append_singleton bs b ih =>
    have hdiv : (256 * fromBeBytes bs + b.toNat) / 256 = fromBeBytes bs := by
      have hb := b.toNat_lt
      omega
    have hlow : UInt8.ofNat (256 * fromBeBytes bs + b.toNat) = b := by
      have hb := b.toNat_lt
      refine UInt8.toNat_inj.1 ?_
      rw [UInt8.toNat_ofNat']
      omega
    rw [fromBeBytes_concat, List.length_append, List.length_singleton, toBeBytes, hdiv, ih, hlow]

end Endian
