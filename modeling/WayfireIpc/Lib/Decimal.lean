/-
# Juxtaposed decimal numerals

Writing the decimal numeral of one number behind that of another gives the numeral of a
third.  This file has the arithmetic of that operation: it is associative as long as no
numeral begins with a zero, it grows with the second number, and two juxtapositions are
the same number exactly when one of them splits the other's second part.
-/
import Mathlib

namespace WayfireIpc
namespace Decimal

/-- The number of digits of the decimal numeral of `n`. -/
def numDigits (n : ℕ) : ℕ := (Nat.toDigits 10 n).length

/-- The number whose numeral is the numeral of `a` followed by that of `i`. -/
def glue (a i : ℕ) : ℕ := a * 10 ^ numDigits i + i

/-! ## The number of digits -/

lemma numDigits_pos (n : ℕ) : 0 < numDigits n := List.length_pos_iff.mpr Nat.toDigits_ne_nil

lemma lt_pow_numDigits (n : ℕ) : n < 10 ^ numDigits n :=
  (Nat.length_toDigits_le_iff (by norm_num) (numDigits_pos n)).mp le_rfl

lemma numDigits_le_iff {n k : ℕ} (hk : 0 < k) : numDigits n ≤ k ↔ n < 10 ^ k :=
  Nat.length_toDigits_le_iff (by norm_num) hk

lemma pow_le_iff {n k : ℕ} (hk : 0 < k) : 10 ^ k ≤ n ↔ k < numDigits n := by
  rw [← not_lt, ← numDigits_le_iff hk, not_le]

lemma numDigits_mono {m n : ℕ} (h : m ≤ n) : numDigits m ≤ numDigits n :=
  (numDigits_le_iff (numDigits_pos n)).mpr (h.trans_lt (lt_pow_numDigits n))

lemma numDigits_eq {n k : ℕ} (hlow : 10 ^ k ≤ n) (hhigh : n < 10 ^ (k + 1)) :
    numDigits n = k + 1 := by
  have hle := (numDigits_le_iff (Nat.succ_pos k)).mpr hhigh
  rcases Nat.eq_zero_or_pos k with rfl | hk
  · have := numDigits_pos n
    omega
  · have := (pow_le_iff hk).mp hlow
    omega

/-- A number with more digits is juxtaposed from its leading digits and its last `k` ones. -/
lemma numDigits_mul_pow_add {q s k : ℕ} (hq : 0 < q) (hs : s < 10 ^ k) :
    numDigits (q * 10 ^ k + s) = numDigits q + k := by
  obtain ⟨d, hd⟩ : ∃ d, numDigits q = d + 1 := ⟨numDigits q - 1, by have := numDigits_pos q; omega⟩
  have hhigh := lt_pow_numDigits q
  have hlow : 10 ^ d ≤ q := by
    rcases Nat.eq_zero_or_pos d with rfl | hpos
    · rwa [pow_zero]
    · exact (pow_le_iff hpos).mpr (by omega)
  rw [hd] at hhigh ⊢
  have hsum : d + 1 + k = d + k + 1 := by omega
  rw [hsum]
  refine numDigits_eq ?_ ?_
  · calc 10 ^ (d + k) = 10 ^ d * 10 ^ k := pow_add ..
      _ ≤ q * 10 ^ k := Nat.mul_le_mul_right _ hlow
      _ ≤ q * 10 ^ k + s := Nat.le_add_right ..
  · calc q * 10 ^ k + s < q * 10 ^ k + 10 ^ k := by omega
      _ = (q + 1) * 10 ^ k := by ring
      _ ≤ 10 ^ (d + 1) * 10 ^ k := Nat.mul_le_mul_right _ hhigh
      _ = 10 ^ (d + k + 1) := by ring

/-! ## Juxtaposition -/

/-- Reading the two numerals in one go gives the juxtaposed number. -/
lemma ofDigitChars_append_toDigits (a i : ℕ) :
    Nat.ofDigitChars 10 (Nat.toDigits 10 a ++ Nat.toDigits 10 i) 0 = glue a i := by
  rw [Nat.ofDigitChars_append, Nat.ofDigitChars_eq_ofDigitChars_zero,
    Nat.ofDigitChars_ten_toDigits, Nat.ofDigitChars_ten_toDigits, glue, numDigits, mul_comm]

lemma le_glue (a i : ℕ) : i ≤ glue a i := Nat.le_add_left ..

lemma glue_mono {a i j : ℕ} (h : i ≤ j) : glue a i ≤ glue a j :=
  Nat.add_le_add (Nat.mul_le_mul_left a (Nat.pow_le_pow_right (by norm_num) (numDigits_mono h))) h

lemma glue_strictMono (a : ℕ) : StrictMono (glue a) := fun _ _ h =>
  Nat.add_lt_add_of_le_of_lt
    (Nat.mul_le_mul_left a (Nat.pow_le_pow_right (by norm_num) (numDigits_mono h.le))) h

lemma glue_injective (a : ℕ) : Function.Injective (glue a) := (glue_strictMono a).injective

lemma glue_one (a : ℕ) : glue a 1 = 10 * a + 1 := by
  have : numDigits 1 = 1 := rfl
  rw [glue, this]
  omega

lemma glue_pos {a i : ℕ} (hi : 0 < i) : 0 < glue a i := hi.trans_le (le_glue a i)

lemma glue_assoc {a r j : ℕ} (hr : 0 < r) : glue (glue a r) j = glue a (glue r j) := by
  have hdigits : numDigits (glue r j) = numDigits r + numDigits j :=
    numDigits_mul_pow_add hr (lt_pow_numDigits j)
  rw [glue, glue, glue, hdigits, glue]
  ring

/-- If two juxtapositions are the same number and the second part of the first is the
longer one, then it begins with digits that belong to the first part of the second. -/
lemma split_of_glue_eq {a b i j : ℕ} (hlt : numDigits j < numDigits i)
    (h : glue a i = glue b j) : ∃ r, 0 < r ∧ i = glue r j ∧ b = glue a r := by
  obtain ⟨k, hk⟩ : ∃ k, numDigits i = k + numDigits j := ⟨_, (Nat.sub_add_cancel hlt.le).symm⟩
  have hpos : 0 < 10 ^ numDigits j := by positivity
  have hj := lt_pow_numDigits j
  have hpow : 10 ^ numDigits i = 10 ^ k * 10 ^ numDigits j := by rw [hk, pow_add]
  rw [glue, glue, hpow, ← mul_assoc] at h
  -- both sides are split at the last `numDigits j` digits
  have hlast : i % 10 ^ numDigits j = j := by
    have := congrArg (· % 10 ^ numDigits j) h
    simpa [Nat.mul_add_mod', Nat.mod_eq_of_lt hj] using this
  have hfirst : a * 10 ^ k + i / 10 ^ numDigits j = b := by
    have := congrArg (· / 10 ^ numDigits j) h
    simpa [Nat.mul_add_div hpos, mul_comm _ (10 ^ numDigits j), Nat.div_eq_of_lt hj] using this
  have hr : 0 < i / 10 ^ numDigits j :=
    Nat.div_pos ((pow_le_iff (numDigits_pos j)).mpr hlt) hpos
  have hi : i = i / 10 ^ numDigits j * 10 ^ numDigits j + j := by
    conv_lhs => rw [← Nat.div_add_mod' i (10 ^ numDigits j), hlast]
  have hlen : numDigits (i / 10 ^ numDigits j) = k := by
    have := numDigits_mul_pow_add hr hj
    rw [← hi] at this
    omega
  exact ⟨i / 10 ^ numDigits j, hr, hi, by rw [glue, hlen, hfirst]⟩

/-- Two juxtapositions are the same number exactly when they have the same parts or one of
them cuts the digits of the second part of the other. -/
theorem glue_eq_glue_iff {a b i j : ℕ} : glue a i = glue b j ↔
    (a = b ∧ i = j) ∨ (∃ r, 0 < r ∧ i = glue r j ∧ b = glue a r) ∨
      (∃ r, 0 < r ∧ j = glue r i ∧ a = glue b r) := by
  constructor
  · intro h
    rcases Nat.lt_trichotomy (numDigits i) (numDigits j) with hlt | heq | hlt
    · exact Or.inr (Or.inr (split_of_glue_eq hlt h.symm))
    · rw [glue, glue, heq] at h
      have hi := lt_pow_numDigits i
      have hj := lt_pow_numDigits j
      rw [heq] at hi
      have hpos : 0 < 10 ^ numDigits j := by positivity
      have hij : i = j := by
        have := congrArg (· % 10 ^ numDigits j) h
        simpa [Nat.mul_add_mod', Nat.mod_eq_of_lt hi, Nat.mod_eq_of_lt hj] using this
      subst hij
      exact Or.inl ⟨Nat.eq_of_mul_eq_mul_right hpos (Nat.add_right_cancel h), rfl⟩
    · exact Or.inr (Or.inl (split_of_glue_eq hlt h))
  · rintro (⟨rfl, rfl⟩ | ⟨r, hr, rfl, rfl⟩ | ⟨r, hr, rfl, rfl⟩)
    · rfl
    · exact (glue_assoc hr).symm
    · exact glue_assoc hr

/-- Numerals up to `m` behind `a` and up to `n` behind `b` can be confused exactly when one
of the two numerals continues the other by a number `r` such that the numeral of `r`
followed by a 1 is still among the numerals that may follow. -/
theorem exists_glue_eq_iff {a b m n : ℕ} (hab : a ≠ b) :
    (∃ i j, 0 < i ∧ i ≤ m ∧ 0 < j ∧ j ≤ n ∧ glue a i = glue b j) ↔
      (∃ r, 0 < r ∧ b = glue a r ∧ 10 * r + 1 ≤ m ∧ 0 < n) ∨
      (∃ r, 0 < r ∧ a = glue b r ∧ 10 * r + 1 ≤ n ∧ 0 < m) := by
  constructor
  · rintro ⟨i, j, hi, him, hj, hjn, h⟩
    rcases glue_eq_glue_iff.mp h with ⟨heq, -⟩ | ⟨r, hr, rfl, rfl⟩ | ⟨r, hr, rfl, rfl⟩
    · exact absurd heq hab
    · refine Or.inl ⟨r, hr, rfl, ?_, hj.trans_le hjn⟩
      exact (glue_one r).symm.le.trans ((glue_mono hj).trans him)
    · refine Or.inr ⟨r, hr, rfl, ?_, hi.trans_le him⟩
      exact (glue_one r).symm.le.trans ((glue_mono hi).trans hjn)
  · rintro (⟨r, hr, rfl, hm, hn⟩ | ⟨r, hr, rfl, hn, hm⟩)
    · exact ⟨glue r 1, 1, glue_pos one_pos, (glue_one r).le.trans hm, one_pos, hn,
        (glue_assoc hr).symm⟩
    · exact ⟨1, glue r 1, one_pos, hm, glue_pos one_pos, (glue_one r).le.trans hn, glue_assoc hr⟩

end Decimal
end WayfireIpc
