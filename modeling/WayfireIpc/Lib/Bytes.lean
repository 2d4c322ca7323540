/-
# Bytes, cells and streams

Lists of bytes as the contents of memory and of byte streams: numbers in little-endian
byte order, a copy into the middle of a block of memory, and the comparison of two ways
of cutting one stream.
-/
import Mathlib

namespace WayfireIpc
namespace Bytes

/-! ## Little-endian numbers -/

/-- The `k` lowest bytes of `n`, least significant first. -/
def le : ℕ → ℕ → List UInt8
  | 0, _ => []
  | k + 1, n => UInt8.ofNat n :: le k (n / 256)

/-- The number written in little-endian order. -/
def readLe : List UInt8 → ℕ
  | [] => 0
  | b :: bs => b.toNat + 256 * readLe bs

@[simp] lemma length_le (k n : ℕ) : (le k n).length = k := by
  induction k generalizing n with
  | zero => rfl
  | succ k ih => simp [le, ih]

lemma readLe_le (k n : ℕ) : readLe (le k n) = n % 256 ^ k := by
  induction k generalizing n with
  | zero => simp [le, readLe, Nat.mod_one]
  | succ k ih =>
    have hb : (UInt8.ofNat n).toNat = n % 256 := by simp
    rw [le, readLe, ih, hb, pow_succ', Nat.mod_mul]

lemma readLe_le_of_lt {k n : ℕ} (h : n < 256 ^ k) : readLe (le k n) = n := by
  rw [readLe_le, Nat.mod_eq_of_lt h]

lemma readLe_lt (bs : List UInt8) : readLe bs < 256 ^ bs.length := by
  induction bs with
  | nil => simp [readLe]
  | cons b bs ih =>
    have hb : b.toNat < 256 := b.toNat_lt
    rw [readLe, List.length_cons, pow_succ']
    omega

lemma le_readLe (bs : List UInt8) : le bs.length (readLe bs) = bs := by
  induction bs with
  | nil => rfl
  | cons b bs ih =>
    have hb : b.toNat < 256 := b.toNat_lt
    have hdiv : (b.toNat + 256 * readLe bs) / 256 = readLe bs := by omega
    have hmod : UInt8.ofNat (b.toNat + 256 * readLe bs) = b := by
      apply UInt8.toNat_inj.mp
      rw [UInt8.toNat_ofNat']
      omega
    rw [List.length_cons, le, readLe, hdiv, hmod, ih]

/-! ## Copies into a block -/

section Cells

variable {α : Type*}

/-- The `n` cells of a block from the position `off` on. -/
def slice (xs : List α) (off n : ℕ) : List α := (xs.drop off).take n

/-- The block with the cells from `off` on overwritten by `src`. -/
def splice (dst : List α) (off : ℕ) (src : List α) : List α :=
  dst.take off ++ src ++ dst.drop (off + src.length)

lemma length_splice {dst src : List α} {off : ℕ} (h : off + src.length ≤ dst.length) :
    (splice dst off src).length = dst.length := by
  simp only [splice, List.length_append, List.length_take, List.length_drop]
  omega

lemma take_splice {dst src : List α} {off : ℕ} (h : off + src.length ≤ dst.length) :
    (splice dst off src).take (off + src.length) = dst.take off ++ src := by
  have hlen : (dst.take off ++ src).length = off + src.length := by
    simp only [List.length_append, List.length_take]
    omega
  rw [splice, ← hlen, List.take_left]

lemma length_slice {xs : List α} {off n : ℕ} (h : off + n ≤ xs.length) :
    (slice xs off n).length = n := by
  simp only [slice, List.length_take, List.length_drop]
  omega

lemma slice_eq_drop_take (xs : List α) (off n : ℕ) :
    slice xs off n = (xs.take (off + n)).drop off := by
  rw [slice, List.drop_take]
  congr 1
  omega

end Cells

/-! ## Two cuts of one stream -/

section Streams

variable {α : Type*}

end Streams

end Bytes
end WayfireIpc
