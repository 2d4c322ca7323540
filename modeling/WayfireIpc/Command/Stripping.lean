/-
# Taking the quotes off in place

`strip_quotes` as it works on the memory of a word: a quote is removed by moving what lies behind
it, while the pointer to the terminating NUL follows.  What is left of the word is the text without
the quotes that open or close a quoted part.

The text before a character is read backwards, from that character on.
-/
import WayfireIpc.Lib.Terminated
import WayfireIpc.Command.Pieces

namespace WayfireIpc

open Terminated

namespace Bounded

/-- `memmove(str, str + 1, end-- - str)`; a negative length would be an enormous `size_t`. -/
def shiftOver (block : List Char) (str e : ℕ) : Except Trap (List Char) :=
  if e < str then .error .outside else move block str (str + 1) (e - str)

/-- The loop of `strip_quotes`, with the pointers `str` and `end` as offsets into the block. -/
def stripLoop : ℕ → List Char → ℕ → ℕ → Bool → Bool → Bool → Except Trap (List Char × ℕ)
  | 0, _, _, _, _, _, _ => .error .diverges
  | n + 1, block, str, e, inStr, inChr, escaped => do
    let ch ← load block str
    if ch = nul then return (block, e)
    else if ch = singleQuote ∧ ¬ inStr ∧ ¬ escaped then
      let block ← shiftOver block str e
      stripLoop n block str (e - 1) inStr (!inChr) escaped
    else if ch = doubleQuote ∧ ¬ inChr ∧ ¬ escaped then
      let block ← shiftOver block str e
      stripLoop n block str (e - 1) (!inStr) inChr escaped
    else if ch = backslash then stripLoop n block (str + 1) e inStr inChr (!escaped)
    else stripLoop n block (str + 1) e inStr inChr false

/-- `strip_quotes`: what the block holds afterwards. -/
def stripQuotes (block : List Char) : Except Trap (List Char) := do
  let e ← scan (· ≠ nul) block 0
  let (block, e) ← stripLoop (block.length + 1) block 0 e false false false
  store block e nul

end Bounded

namespace IpcTools

/-- Whether a character behind this text opens or closes a quoted part: it is a quote that is not
escaped, and not inside a part that is quoted with the other kind. -/
def delimits (before : Str) (ch : Char) : Bool :=
  !oddBackslashes before &&
    (ch = doubleQuote && !(quoteBehind oddBackslashes before).inChar ||
      ch = singleQuote && !(quoteBehind oddBackslashes before).inString)

/-- Whether the character at an offset opens or closes a quoted part. -/
def delimitsAt (s : Str) (i : ℕ) : Bool := delimits (s.take i).reverse (charAt s i)

/-- The characters of a text that do not open or close a quoted part. -/
def withoutDelimiters (s : Str) : Str :=
  ((List.range s.length).filter fun i => !delimitsAt s i).map (charAt s)

/-! ## The flags -/

lemma oddBackslashes_cons (ch : Char) (before : Str) : oddBackslashes (ch :: before)
    = (decide (ch = backslash) && !oddBackslashes before) := by
  by_cases hbs : ch = backslash
  · subst hbs
    rw [oddBackslashes, List.takeWhile_cons_of_pos (by simp), List.length_cons, oddBackslashes]
    generalize (before.takeWhile fun ch => decide (ch = backslash)).length = k
    rcases Nat.mod_two_eq_zero_or_one k with hk | hk <;> simp [Nat.add_mod, hk]
  · simp [oddBackslashes, hbs]

lemma quoteBehind_cons (ch : Char) (before : Str) : quoteBehind oddBackslashes (ch :: before)
    = if oddBackslashes before then quoteBehind oddBackslashes before
      else (quoteBehind oddBackslashes before).next ch := rfl

/-- What is left of a text behind another. -/
def stripBehind : Str → Str → Str
  | _, [] => []
  | before, ch :: s =>
    if delimits before ch then stripBehind (ch :: before) s else ch :: stripBehind (ch :: before) s

/-- The flags of the loop say which quotes are open and whether the next character is escaped. -/
lemma stripLoop_eq_stripBehind (s : Str) : ∀ before : Str,
    stripLoop (quoteBehind oddBackslashes before).inString
      (quoteBehind oddBackslashes before).inChar (oddBackslashes before) s = stripBehind before s := by
  induction s with
  | nil => exact fun before => rfl
  | cons ch s ih =>
    intro before
    have hquote := quoteBehind_cons ch before
    have hodd := oddBackslashes_cons ch before
    have hrest := ih (ch :: before)
    have hds : doubleQuote ≠ singleQuote := by decide
    have hdb : doubleQuote ≠ backslash := by decide
    have hsb : singleQuote ≠ backslash := by decide
    rw [hquote, hodd] at hrest
    rw [stripLoop, stripBehind, ← hrest, delimits]
    by_cases hsq : ch = singleQuote
    · subst hsq
      cases quoteBehind oddBackslashes before <;> cases oddBackslashes before <;>
        simp [Quote.next, Quote.inString, Quote.inChar, hds.symm, hsb]
    by_cases hdq : ch = doubleQuote
    · subst hdq
      cases quoteBehind oddBackslashes before <;> cases oddBackslashes before <;>
        simp [Quote.next, Quote.inString, Quote.inChar, hds, hdb]
    · -- any other character stays, and only a backslash escapes the next one
      rw [Quote.next_of_ne hdq hsq, ite_self]
      by_cases hbs : ch = backslash
      · subst hbs
        simp [hdb.symm, hsb.symm]
      · simp [hsq, hdq, hbs]

/-- The positions of what is left. -/
lemma stripBehind_eq (t s : Str) : stripBehind t.reverse s
    = ((List.range' t.length s.length).filter fun i => !delimitsAt (t ++ s) i).map
        (charAt (t ++ s)) := by
  induction s generalizing t with
  | nil => simp [stripBehind]
  | cons ch s ih =>
    have hch : charAt (t ++ ch :: s) t.length = ch := charAt_append t ch s
    have hat : delimitsAt (t ++ ch :: s) t.length = delimits t.reverse ch := by
      rw [delimitsAt, List.take_left, hch]
    have hrest := ih (t ++ [ch])
    rw [List.reverse_append, List.reverse_singleton, List.singleton_append, List.append_assoc,
      List.singleton_append, List.length_append, List.length_singleton] at hrest
    rw [stripBehind, hrest, List.length_cons, List.range'_succ, List.filter_cons, hat]
    cases delimits t.reverse ch with
    | true => rfl
    | false => simp [hch]

/-- The loop on the rest of a text takes away the quotes that delimit. -/
lemma stripQuotes_eq (s : Str) : stripQuotes s = withoutDelimiters s := by
  have hloop := stripLoop_eq_stripBehind s []
  have hpositions := stripBehind_eq [] s
  rw [withoutDelimiters, List.range_eq_range']
  exact hloop.trans hpositions

end IpcTools

namespace Bounded

/-! ## The moves -/

/-- The terminating NUL moves onto the place in front of it, with everything between. -/
lemma shiftOver_append (done : Str) (ch : Char) (rest junk : Str) :
    ∃ b, shiftOver (done ++ ch :: (rest ++ nul :: junk)) done.length (done.length + (rest.length + 1))
      = .ok (done ++ (rest ++ nul :: b :: junk)) := by
  obtain ⟨b, hb⟩ := move_append done ch (rest ++ [nul]) junk
  refine ⟨b, ?_⟩
  rw [shiftOver, if_neg (by omega), Nat.add_sub_cancel_left]
  simpa using hb

/-- The loop in the middle of a word: what has been passed stays, and the rest is stripped. -/
lemma stripLoop_spec (rest : Str) (hnul : nul ∉ rest) : ∀ (n : ℕ) (done junk : Str)
    (inStr inChr escaped : Bool), rest.length < n →
    ∃ junk', stripLoop n (done ++ (rest ++ nul :: junk)) done.length (done.length + rest.length)
        inStr inChr escaped
      = .ok (done ++ (IpcTools.stripLoop inStr inChr escaped rest ++ nul :: junk'),
          done.length + (IpcTools.stripLoop inStr inChr escaped rest).length) ∧
      (IpcTools.stripLoop inStr inChr escaped rest).length + junk'.length
        = rest.length + junk.length := by
  induction rest with
  | nil =>
    intro n done junk inStr inChr escaped hn
    obtain ⟨n, rfl⟩ := Nat.exists_eq_succ_of_ne_zero (by omega : n ≠ 0)
    refine ⟨junk, ?_, rfl⟩
    rw [stripLoop, List.nil_append, load_append, Machine.ok_bind, if_pos rfl]
    rfl
  | cons ch rest ih =>
    intro n done junk inStr inChr escaped hn
    obtain ⟨n, rfl⟩ := Nat.exists_eq_succ_of_ne_zero (by omega : n ≠ 0)
    have hn' : rest.length < n := Nat.lt_of_succ_lt_succ hn
    have hch : ch ≠ nul := fun h => hnul (h ▸ List.mem_cons_self)
    have hrest : nul ∉ rest := fun h => hnul (List.mem_cons_of_mem ch h)
    obtain ⟨b, hshift⟩ := shiftOver_append done ch rest junk
    -- a quote is shifted over
    have hquote := fun inStr' inChr' => ih hrest n done (b :: junk) inStr' inChr' escaped hn'
    -- any other character is passed
    have hpass := fun escaped' => ih hrest n (done ++ [ch]) junk inStr inChr escaped' hn'
    have hlen : done.length + (rest.length + 1) = done.length + 1 + rest.length := by omega
    simp only [List.append_assoc, List.length_append, List.cons_append, List.nil_append,
      List.length_singleton] at hpass
    rw [stripLoop, List.cons_append, load_append, Machine.ok_bind, if_neg hch, List.length_cons,
      IpcTools.stripLoop]
    split_ifs
    · obtain ⟨junk', hloop, hjunk⟩ := hquote inStr (!inChr)
      rw [List.length_cons] at hjunk
      exact ⟨junk', by rw [hshift]; exact hloop, by omega⟩
    · obtain ⟨junk', hloop, hjunk⟩ := hquote (!inStr) inChr
      rw [List.length_cons] at hjunk
      exact ⟨junk', by rw [hshift]; exact hloop, by omega⟩
    · obtain ⟨junk', hloop, hjunk⟩ := hpass (!escaped)
      refine ⟨junk', ?_, by rw [List.length_cons]; omega⟩
      rw [hlen, hloop, List.length_cons, List.cons_append, Nat.add_assoc, Nat.add_comm 1]
    · obtain ⟨junk', hloop, hjunk⟩ := hpass false
      refine ⟨junk', ?_, by rw [List.length_cons]; omega⟩
      rw [hlen, hloop, List.length_cons, List.cons_append, Nat.add_assoc, Nat.add_comm 1]

/-- The way of `strlen` and `strchr(str, 0)` to the terminating NUL. -/
lemma strlen_cells {s : Str} (hnul : nul ∉ s) :
    scan (· ≠ nul) (cells nul s) 0 = .ok s.length := by
  have hall : ∀ ch ∈ s, decide (ch ≠ nul) = true := by
    intro ch hch
    rw [decide_eq_true_eq]
    rintro rfl
    exact hnul hch
  rw [scan_cells (by simp) (Nat.zero_le _), List.drop_zero, Nat.zero_add,
    List.takeWhile_eq_self_iff.mpr hall]

/-- What is left of a text is a part of it. -/
lemma nul_notMem_withoutDelimiters {s : Str} (hnul : nul ∉ s) :
    nul ∉ IpcTools.withoutDelimiters s := by
  rw [IpcTools.withoutDelimiters, List.mem_map]
  rintro ⟨i, hi, hch⟩
  have hlt : i < s.length := List.mem_range.mp (List.mem_of_mem_filter hi)
  rw [charAt, List.getD_eq_getElem _ _ hlt] at hch
  exact hnul (hch ▸ List.getElem_mem hlt)

/-- A C string ends at its first NUL. -/
lemma cStr_append {s : Str} (hnul : nul ∉ s) (rest : Str) : cStr (s ++ nul :: rest) = s := by
  rw [cStr, List.takeWhile_append_of_pos]
  · simp [nul]
  · intro ch hch
    rw [decide_eq_true_eq]
    rintro rfl
    exact hnul hch

/-- The memory of a word at the end: what is left of the word, its NUL and cells that are not used
any more. -/
lemma stripQuotes_block {s : Str} (hnul : nul ∉ s) : ∃ block, stripQuotes (cells nul s) = .ok block ∧
    block.length = s.length + 1 ∧ cStr block = IpcTools.stripQuotes s ∧
      (IpcTools.stripQuotes s).length ≤ s.length := by
  obtain ⟨junk, hloop, hjunk⟩ :=
    stripLoop_spec s hnul ((cells nul s).length + 1) [] [] false false false (by simp)
  have hno := nul_notMem_withoutDelimiters hnul
  rw [← IpcTools.stripQuotes_eq] at hno
  change (IpcTools.stripQuotes s).length + junk.length = s.length + 0 at hjunk
  simp only [List.nil_append, List.length_nil, Nat.zero_add] at hloop
  refine ⟨IpcTools.stripQuotes s ++ nul :: junk, ?_, ?_, cStr_append hno junk, by omega⟩
  · rw [stripQuotes, strlen_cells hnul, Machine.ok_bind]
    change (stripLoop _ (s ++ [nul]) _ _ _ _ _ >>= _) = _
    rw [hloop, Machine.ok_bind]
    exact store_append _ _ _ _
  · rw [List.length_append, List.length_cons]
    omega

/-- On a NUL-terminated word `strip_quotes` ends and stays inside the memory of the word, and it
leaves there the characters that do not open or close a quoted part. -/
theorem stripQuotes_cells {s : Str} (hnul : nul ∉ s) :
    ∃ block, stripQuotes (cells nul s) = .ok block ∧ block.length = s.length + 1 ∧
      cStr block = IpcTools.withoutDelimiters s ∧ (cStr block).length ≤ s.length := by
  obtain ⟨block, hstrip, hlen, hcstr, hle⟩ := stripQuotes_block hnul
  exact ⟨block, hstrip, hlen, hcstr.trans (IpcTools.stripQuotes_eq s), hcstr ▸ hle⟩

/-- A word with quotes of both kinds, an escaped one and an unclosed one at its end. -/
theorem stripQuotes_cells_mixed :
    ∃ block, stripQuotes (cells nul "\x22it\x27s\x22\x5c\x22\x27".toList) = .ok block ∧ block.length = 10 ∧
      cStr block = IpcTools.withoutDelimiters "\x22it\x27s\x22\x5c\x22\x27".toList ∧
      (cStr block).length ≤ 9 :=
  stripQuotes_cells (by decide)

end Bounded

end WayfireIpc
