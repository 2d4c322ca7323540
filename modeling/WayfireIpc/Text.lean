/-
# C strings and numerals

The texts that the commands and the tree are made of: strings up to their terminating
NUL, the blanks of `isspace`, and the numerals of `std::to_string`, `std::stoi` and
`strtoul`.
-/
import WayfireIpc.Lib.Decimal

namespace WayfireIpc

/-- A string, without a terminating NUL. -/
abbrev Str := List Char

/-- The ways in which a call can end without returning. -/
inductive Failure
  /-- `std::out_of_range`, thrown by `std::stoi`. -/
  | outOfRange
  /-- `std::invalid_argument`, thrown by `std::stoi`. -/
  | invalidArgument
  /-- A failed `assert`. -/
  | assertion
  /-- A null pointer is followed. -/
  | nullPointer
  /-- An element of an empty vector is accessed. -/
  | outOfBounds
  /-- A signed integer overflows. -/
  | overflow
  /-- A loop that does not end. -/
  | diverges
deriving DecidableEq, Repr

/-- What a C string function sees of a `std::string`. -/
def cStr (s : Str) : Str := s.takeWhile (· ≠ '\x00')

/-- `ipc_tools::whitespace`, the characters of which `isspace` is true. -/
def whitespace : Str := [' ', '\x0c', '\n', '\r', '\t', '\x0b']

def isSpace (c : Char) : Bool := whitespace.contains c

/-- `for (; isspace(*head); ++head)`. -/
def skipBlanks (s : Str) : Str := s.dropWhile isSpace

/-- `std::to_string` of an unsigned number. -/
def toString10 (n : ℕ) : Str := Nat.toDigits 10 n

/-- The numeral that `strtol` and `strtoul` read at the start of a text: whether it has a
minus sign, its digits, and what follows them. -/
def numeral (s : Str) : Option (Bool × Str × Str) :=
  let s := skipBlanks s
  let negative := s.head? = some '-'
  let s := if s.head? = some '-' ∨ s.head? = some '+' then s.tail else s
  let digits := s.takeWhile Char.isDigit
  if digits = [] then none else some (negative, digits, s.dropWhile Char.isDigit)

/-- `std::stoi`. -/
def stoi (s : Str) : Except Failure Int32 :=
  match numeral s with
  | none => .error .invalidArgument
  | some (negative, digits, _) =>
    let v : ℤ := if negative then -(Nat.ofDigitChars 10 digits 0) else Nat.ofDigitChars 10 digits 0
    if -2 ^ 31 ≤ v ∧ v < 2 ^ 31 then .ok (.ofInt v) else .error .outOfRange

/-- `strtoul(s, &endptr, 10)`, with the text at `endptr`. -/
def strtoul (s : Str) : UInt64 × Str :=
  match numeral s with
  | none => (0, s)
  | some (negative, digits, rest) =>
    let v := Nat.ofDigitChars 10 digits 0
    (if 2 ^ 64 ≤ v then .ofNat (2 ^ 64 - 1)
      else if negative then -.ofNat v else .ofNat v, rest)

/-! ## Reading numerals -/

lemma not_isSpace_of_isDigit {ch : Char} (h : ch.isDigit = true) : isSpace ch = false := by
  by_contra hspace
  rw [Bool.not_eq_false, isSpace, List.contains_iff_mem] at hspace
  simp only [whitespace, List.mem_cons, List.not_mem_nil, or_false] at hspace
  rcases hspace with rfl | rfl | rfl | rfl | rfl | rfl <;> exact absurd h (by decide)

lemma isDigit_of_mem_toString10 {i : ℕ} {ch : Char} (h : ch ∈ toString10 i) :
    ch.isDigit = true :=
  Nat.isDigit_of_mem_toDigits (by norm_num) (by norm_num) h

/-- The digits of a number end at the first other character. -/
lemma numeral_append {digits rest : Str} (hne : digits ≠ [])
    (hdigits : ∀ ch ∈ digits, ch.isDigit = true) (hrest : ∀ ch ∈ rest.head?, ch.isDigit = false) :
    numeral (digits ++ rest) = some (false, digits, rest) := by
  obtain ⟨d, ds, rfl⟩ := List.exists_cons_of_ne_nil hne
  have hd : d.isDigit = true := hdigits d List.mem_cons_self
  have hskip : skipBlanks (d :: ds ++ rest) = d :: ds ++ rest :=
    List.dropWhile_cons_of_neg (by simp [not_isSpace_of_isDigit hd])
  have hsign : ∀ sign : Char, sign.isDigit = false → ¬ (d :: ds ++ rest).head? = some sign := by
    rintro sign hsign ⟨⟩
    exact absurd (hd.symm.trans hsign) (by simp)
  have hminus := hsign '-' (by decide)
  have hplus := hsign '+' (by decide)
  have hend : rest.takeWhile Char.isDigit = [] ∧ rest.dropWhile Char.isDigit = rest := by
    cases rest with
    | nil => exact ⟨rfl, rfl⟩
    | cons ch rest =>
      have hch : ¬ ch.isDigit = true := by simp [hrest ch rfl]
      exact ⟨List.takeWhile_cons_of_neg hch, List.dropWhile_cons_of_neg hch⟩
  have htake : (d :: ds ++ rest).takeWhile Char.isDigit = d :: ds := by
    rw [List.takeWhile_append_of_pos hdigits, hend.1, List.append_nil]
  have hdrop : (d :: ds ++ rest).dropWhile Char.isDigit = rest := by
    rw [List.dropWhile_append_of_pos hdigits, hend.2]
  simp only [numeral, hskip, hminus, hplus, or_self, if_false, htake, hdrop, List.cons_ne_nil,
    decide_false]

lemma numeral_of_digits {s : Str} (hne : s ≠ []) (hs : ∀ ch ∈ s, ch.isDigit = true) :
    numeral s = some (false, s, []) := by
  have hnum : numeral (s ++ []) = some (false, s, []) := numeral_append hne hs (by simp)
  rwa [List.append_nil] at hnum

/-- A number in the range of an `int` is its value. -/
lemma toInt_ofInt_of_lt {i : ℕ} (hi : i < 2 ^ 31) : (Int32.ofInt i).toInt = i :=
  Int32.toInt_ofInt_of_le (by norm_num) (by norm_num; omega)

/-- `std::stoi` of two numerals written one behind the other. -/
lemma stoi_append_toString10 (a i : ℕ) : stoi (toString10 a ++ toString10 i) =
    if Decimal.glue a i < 2 ^ 31 then .ok (.ofInt (Decimal.glue a i)) else .error .outOfRange := by
  have hne : toString10 a ++ toString10 i ≠ [] :=
    List.append_ne_nil_of_left_ne_nil Nat.toDigits_ne_nil _
  have hnum := numeral_of_digits hne fun ch hch =>
    (List.mem_append.mp hch).elim isDigit_of_mem_toString10 isDigit_of_mem_toString10
  have hvalue : Nat.ofDigitChars 10 (toString10 a ++ toString10 i) 0 = Decimal.glue a i :=
    Decimal.ofDigitChars_append_toDigits a i
  simp only [stoi, hnum, hvalue, Bool.false_eq_true, if_false]
  by_cases h : Decimal.glue a i < 2 ^ 31
  · rw [if_pos h, if_pos (by omega)]
  · rw [if_neg h, if_neg (by omega)]

end WayfireIpc
