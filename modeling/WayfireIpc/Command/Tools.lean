/-
# Cutting a command string

The functions of `tools.hpp` that take a command string apart: `argsep` cuts off one
command, `split_args` splits a command into its words and `strip_quotes` takes the quotes
off a word.  Pointers into a string are offsets, and the terminating NUL is the end of
the list.
-/
import WayfireIpc.Text
import WayfireIpc.Lib.Machine

namespace WayfireIpc

def nul : Char := '\x00'

def doubleQuote : Char := '\x22'

def singleQuote : Char := '\x27'

def backslash : Char := '\x5c'

/-- The character at an offset of a C string. -/
def charAt (s : Str) (i : ℕ) : Char := s.getD i nul

lemma charAt_drop (s : Str) (n i : ℕ) : charAt (s.drop n) i = charAt s (n + i) := by
  rw [charAt, charAt, List.getD_eq_getElem?_getD, List.getD_eq_getElem?_getD, List.getElem?_drop]

/-- Behind the blanks there is no blank. -/
lemma isSpace_skipBlanks (s : Str) : isSpace (charAt (skipBlanks s) 0) = false := by
  have hhead := List.head?_dropWhile_not isSpace s
  rw [charAt, skipBlanks, List.getD_eq_getElem?_getD, ← List.head?_eq_getElem?]
  cases hs : (s.dropWhile isSpace).head? with
  | none => rfl
  | some ch => simpa [hs] using hhead

/-- The same for `strspn(s, whitespace)`. -/
lemma isSpace_charAt (s : Str) (n : ℕ) :
    isSpace (charAt s (n + ((s.drop n).takeWhile isSpace).length)) = false := by
  have hdrop : (s.drop n).drop ((s.drop n).takeWhile isSpace).length = skipBlanks (s.drop n) :=
    calc (s.drop n).drop ((s.drop n).takeWhile isSpace).length
        = ((s.drop n).takeWhile isSpace ++ (s.drop n).dropWhile isSpace).drop
            ((s.drop n).takeWhile isSpace).length := by rw [List.takeWhile_append_dropWhile]
      _ = skipBlanks (s.drop n) := List.drop_left
  have hchar := isSpace_skipBlanks (s.drop n)
  rwa [← hdrop, charAt_drop, charAt_drop, Nat.add_zero] at hchar

namespace IpcTools

/-! ## `argsep` -/

/-- `argsep_next_interesting`, as an offset: the first special character or delimiter. -/
def argsepNextInteresting (src delim : Str) : Option ℕ :=
  let special := src.findIdx? [doubleQuote, singleQuote, backslash].contains
  let nextDelim := src.findIdx? delim.contains
  match special, nextDelim with
  | none, nextDelim => nextDelim
  | special, none => special
  | some i, some j => some (if j < i then j else i)

/-- What `argsep` returns: the piece, `*stringp` and `*matched` afterwards. -/
structure Argsep where
  start : Str
  stringp : Option Str
  matched : Char
deriving DecidableEq, Repr

/-- The loop of `argsep`, with `end` as an offset from `start`. -/
def argsepLoop (delim : Str) : ℕ → Str → ℕ → Bool → Bool → Bool → Except Failure Argsep
  | 0, _, _, _, _, _ => .error .diverges
  | n + 1, start, e, inString, inChar, escaped =>
    match argsepNextInteresting (start.drop e) delim with
    | none => .ok ⟨start, none, nul⟩
    | some k =>
      let i := e + k
      let ch := charAt start i
      let escaped := escaped && i = e
      if ch = doubleQuote ∧ ¬ inChar ∧ ¬ escaped then
        argsepLoop delim n start (i + 1) (!inString) inChar escaped
      else if ch = singleQuote ∧ ¬ inString ∧ ¬ escaped then
        argsepLoop delim n start (i + 1) inString (!inChar) escaped
      else if ch = backslash then
        argsepLoop delim n start (i + 1) inString inChar (!escaped)
      else if ¬ inString ∧ ¬ inChar ∧ ¬ escaped then
        -- a separator; at the very start it is skipped
        if i ≠ 0 then .ok ⟨start.take i, some (start.drop (i + 1)), ch⟩
        else argsepLoop delim n (start.drop 1) 0 inString inChar escaped
      else argsepLoop delim n start (e + 1) inString inChar escaped

/-- `argsep(&head, delim, &matched)`. -/
def argsep (delim s : Str) : Except Failure Argsep :=
  argsepLoop delim (s.length + 1) s 0 false false false

/-! ## `split_args` -/

/-- The local variables of `split_args`; `start` and `endp` are offsets, and `alloc` is the
number of slots of `argv`. -/
structure SplitState where
  start : ℕ
  endp : ℕ
  inToken : Bool
  inString : Bool
  inChar : Bool
  inBrackets : Bool
  escaped : Bool
  argv : List Str
  alloc : ℕ
deriving DecidableEq, Repr

namespace SplitState

/-- The variables before the loop. -/
def init : SplitState where
  start := 0
  endp := 0
  inToken := false
  inString := false
  inChar := false
  inBrackets := false
  escaped := false
  argv := []
  alloc := 2

/-- Outside a token the next token is looked for. -/
def enterToken (s : Str) (st : SplitState) : SplitState :=
  if st.inToken then st
  else
    let e := st.endp + ((s.drop st.endp).takeWhile isSpace).length
    { st with start := e, endp := e, inToken := true }

/-- The effect of a character on the flags; `none` for the jump to `add_token`. -/
def readChar (ch : Char) (st : SplitState) : Option SplitState :=
  if ch = doubleQuote ∧ ¬ st.inChar ∧ ¬ st.escaped then
    some { st with inString := !st.inString }
  else if ch = singleQuote ∧ ¬ st.inString ∧ ¬ st.escaped then
    some { st with inChar := !st.inChar }
  else if ch = '[' ∧ ¬ st.inString ∧ ¬ st.inChar ∧ ¬ st.inBrackets ∧ ¬ st.escaped then
    some { st with inBrackets := true }
  else if ch = ']' ∧ ¬ st.inString ∧ ¬ st.inChar ∧ st.inBrackets ∧ ¬ st.escaped then
    some { st with inBrackets := false }
  else if ch = backslash then
    some { st with escaped := !st.escaped }
  else if ch = nul ∨
      ¬ st.inString ∧ ¬ st.inChar ∧ ¬ st.inBrackets ∧ ¬ st.escaped ∧ isSpace ch then none
  else some st

/-- `add_token`. -/
def addToken (s : Str) (st : SplitState) : Except Failure SplitState :=
  if st.endp - st.start > 0 then
    if st.argv.length < st.alloc then
      let argv := st.argv ++ [(s.drop st.start).take (st.endp - st.start)]
      let alloc := if argv.length + 1 = st.alloc then st.alloc * 2 else st.alloc
      .ok { st with argv := argv, alloc := alloc, inToken := false, escaped := false }
    else .error .outOfBounds
  else .ok { st with inToken := false, escaped := false }

/-- One round of the loop. -/
def step (s : Str) (st : SplitState) : Except Failure SplitState :=
  let st := st.enterToken s
  let ch := charAt s st.endp
  match st.readChar ch with
  | none => st.addToken s
  | some st => .ok { st with escaped := st.escaped && ch = backslash, endp := st.endp + 1 }

end SplitState

/-- The loop of `split_args`; at its end `argv` gets its null pointer. -/
def splitLoop (s : Str) : ℕ → SplitState → Except Failure (List Str)
  | 0, _ => .error .diverges
  | n + 1, st =>
    if charAt s st.start ≠ nul then st.step s >>= splitLoop s n
    else if st.argv.length < st.alloc then .ok st.argv else .error .outOfBounds

/-- `split_args`. -/
def splitArgs (s : Str) : Except Failure (List Str) := splitLoop s (2 * s.length + 2) .init

/-! ## `strip_quotes` -/

/-- The loop of `strip_quotes` on the rest of the string; the characters that `memmove`
shifts over are left out. -/
def stripLoop (inStr inChr escaped : Bool) : Str → Str
  | [] => []
  | ch :: s =>
    if ch = singleQuote ∧ ¬ inStr ∧ ¬ escaped then stripLoop inStr (!inChr) escaped s
    else if ch = doubleQuote ∧ ¬ inChr ∧ ¬ escaped then stripLoop (!inStr) inChr escaped s
    else if ch = backslash then ch :: stripLoop inStr inChr (!escaped) s
    else ch :: stripLoop inStr inChr false s

/-- `strip_quotes`. -/
def stripQuotes (s : Str) : Str := stripLoop false false false s

/-! ## The loops end -/

lemma argsepNextInteresting_lt {src delim : Str} {k : ℕ}
    (h : argsepNextInteresting src delim = some k) : k < src.length := by
  have hlt : ∀ (p : Char → Bool) i, src.findIdx? p = some i → i < src.length := fun p i hi =>
    (List.findIdx?_eq_some_iff_getElem.mp hi).1
  rw [argsepNextInteresting] at h
  split at h
  · exact hlt _ _ h
  · exact hlt _ _ h
  · next i j hi hj =>
    cases h
    split
    · exact hlt _ _ hj
    · exact hlt _ _ hi

/-- What `argsep` makes of a text: pieces of it, of which the rest is shorter. -/
structure Argsep.Cuts (r : Argsep) (s : Str) : Prop where
  start_subset : r.start ⊆ s
  rest_subset : ∀ t, r.stringp = some t → t ⊆ s
  rest_short : ∀ t, r.stringp = some t → t.length < s.length

lemma argsepLoop_spec (delim : Str) : ∀ (n : ℕ) (start : Str) (e : ℕ) (inString inChar escaped : Bool),
    e ≤ start.length → start.length - e < n →
    ∃ r, argsepLoop delim n start e inString inChar escaped = .ok r ∧ r.Cuts start := by
  intro n
  induction n with
  | zero => intro start e _ _ _ _ hn; omega
  | succ n ih =>
    intro start e inString inChar escaped he hn
    rw [argsepLoop]
    cases hk : argsepNextInteresting (start.drop e) delim with
    | none => exact ⟨_, rfl, ⟨List.Subset.refl _, by simp, by simp⟩⟩
    | some k =>
      have hlt := argsepNextInteresting_lt hk
      rw [List.length_drop] at hlt
      simp only
      split_ifs with hdq hsq hbs hsep hi
      · exact ih start (e + k + 1) _ _ _ (by omega) (by omega)
      · exact ih start (e + k + 1) _ _ _ (by omega) (by omega)
      · exact ih start (e + k + 1) _ _ _ (by omega) (by omega)
      · -- the piece ends at the separator
        refine ⟨_, rfl, ⟨List.take_subset _ _, ?_, ?_⟩⟩
        · rintro t ⟨⟩
          exact List.drop_subset _ _
        · rintro t ⟨⟩
          rw [List.length_drop]
          omega
      · -- a separator at the start is skipped
        obtain ⟨r, hr, hcut⟩ := ih (start.drop 1) 0 inString inChar (escaped && decide (e + k = e))
          (by simp) (by rw [List.length_drop]; omega)
        have hsub : start.drop 1 ⊆ start := List.drop_subset _ _
        refine ⟨r, hr, ⟨List.Subset.trans hcut.start_subset hsub,
          fun t ht => List.Subset.trans (hcut.rest_subset t ht) hsub, fun t ht => ?_⟩⟩
        have := hcut.rest_short t ht
        rw [List.length_drop] at this
        omega
      · exact ih start (e + 1) _ _ _ (by omega) (by omega)

/-- `argsep` returns. -/
theorem argsep_spec (delim s : Str) : ∃ r, argsep delim s = .ok r ∧ r.Cuts s :=
  argsepLoop_spec delim _ s 0 false false false (Nat.zero_le _) (by omega)

namespace SplitState

variable {s : Str} {st st' : SplitState} {ch : Char}

/-- A character that does not end a token leaves everything but the flags as it is. -/
lemma readChar_some (h : st.readChar ch = some st') : ch ≠ nul ∧ st'.start = st.start ∧
    st'.endp = st.endp ∧ st'.inToken = st.inToken ∧ st'.argv = st.argv ∧ st'.alloc = st.alloc := by
  rw [readChar] at h
  split_ifs at h with hdq hsq hopen hclose hbs hend
  · cases h
    exact ⟨by rw [hdq.1]; decide, rfl, rfl, rfl, rfl, rfl⟩
  · cases h
    exact ⟨by rw [hsq.1]; decide, rfl, rfl, rfl, rfl, rfl⟩
  · cases h
    exact ⟨by rw [hopen.1]; decide, rfl, rfl, rfl, rfl, rfl⟩
  · cases h
    exact ⟨by rw [hclose.1]; decide, rfl, rfl, rfl, rfl, rfl⟩
  · cases h
    exact ⟨by rw [hbs]; decide, rfl, rfl, rfl, rfl, rfl⟩
  · cases h
    exact ⟨fun hnul => hend (Or.inl hnul), rfl, rfl, rfl, rfl, rfl⟩

lemma readChar_none (h : st.readChar ch = none) : ch = nul ∨ isSpace ch = true := by
  rw [readChar] at h
  split_ifs at h with hdq hsq hopen hclose hbs hend
  exact hend.imp id fun h => h.2.2.2.2

lemma charAt_ne_nul {n : ℕ} (h : charAt s n ≠ nul) : n < s.length := by
  by_contra hlen
  exact h (by rw [charAt, List.getD_eq_default _ _ (not_lt.mp hlen)])

/-- The invariant of the loop. -/
structure Inv (s : Str) (st : SplitState) : Prop where
  endp_le : st.endp ≤ s.length
  start_le : st.start ≤ st.endp
  slots : st.argv.length + 1 < st.alloc

/-- A bound for the rounds that are left. -/
def rounds (s : Str) (st : SplitState) : ℕ :=
  2 * (s.length - st.endp) + (if st.inToken then 1 else 0) + if charAt s st.start = nul then 0 else 1

/-- There is a token already, or the first character of the string begins one. -/
def FirstToken (st : SplitState) : Prop :=
  st.argv ≠ [] ∨ st.start = 0 ∧ (st.inToken = true ↔ 0 < st.endp)

lemma addToken_spec (h : st.Inv s) : ∃ st', st.addToken s = .ok st' ∧ st'.Inv s ∧
    st'.start = st.start ∧ st'.endp = st.endp ∧ st'.inToken = false ∧
    (st.argv ≠ [] ∨ st.start < st.endp → st'.argv ≠ []) := by
  have hslots := h.slots
  rw [addToken]
  by_cases hlen : st.endp - st.start > 0
  · rw [if_pos hlen, if_pos (by omega)]
    refine ⟨_, rfl, ⟨h.endp_le, h.start_le, ?_⟩, rfl, rfl, rfl, fun _ => by simp⟩
    simp only [List.length_append, List.length_singleton]
    split <;> omega
  · rw [if_neg hlen]
    refine ⟨_, rfl, ⟨h.endp_le, h.start_le, h.slots⟩, rfl, rfl, rfl, ?_⟩
    rintro (hargv | hlt)
    · exact hargv
    · omega

/-- What entering a token does: the offsets move over the blanks. -/
lemma enterToken_spec (h : st.Inv s) : (st.enterToken s).Inv s ∧ (st.enterToken s).inToken = true ∧
    (st.enterToken s).argv = st.argv ∧ st.endp ≤ (st.enterToken s).endp ∧
    (st.inToken = true → st.enterToken s = st) ∧
    (st.inToken = false → (st.enterToken s).start = (st.enterToken s).endp ∧
      isSpace (charAt s (st.enterToken s).endp) = false) := by
  rw [enterToken]
  by_cases hin : st.inToken = true
  · simp [hin, h]
  · rw [if_neg hin]
    have hle := (List.takeWhile_prefix isSpace (l := s.drop st.endp)).length_le
    rw [List.length_drop] at hle
    have hend := h.endp_le
    refine ⟨⟨by simp only; omega, le_rfl, h.slots⟩, rfl, rfl, Nat.le_add_right .., fun hc => absurd hc hin,
      fun _ => ⟨rfl, isSpace_charAt s st.endp⟩⟩

lemma enterToken_endp (h : isSpace (charAt s st.endp) = false) :
    (st.enterToken s).endp = st.endp := by
  rw [enterToken]
  split
  · rfl
  · have hnil : (s.drop st.endp).takeWhile isSpace = [] := by
      rw [charAt, List.getD_eq_getElem?_getD, ← List.head?_drop] at h
      cases hs : s.drop st.endp with
      | nil => rfl
      | cons ch t =>
        rw [hs] at h
        exact List.takeWhile_cons_of_neg (by simpa using h)
    simp [hnil]

/-- One round keeps the invariant, comes closer to the end and does not lose the first token. -/
lemma step_spec (h : st.Inv s) (hstart : charAt s st.start ≠ nul) :
    ∃ st', st.step s = .ok st' ∧ st'.Inv s ∧ st'.rounds s < st.rounds s ∧
      (isSpace (charAt s 0) = false → st.FirstToken → st'.FirstToken) := by
  obtain ⟨henter, hin, hargv, hle, hsame, hnew⟩ := enterToken_spec h
  have hbool : st.inToken = true ∨ st.inToken = false := by cases st.inToken <;> simp
  -- at the first character, if no token has been entered
  have hfirst : isSpace (charAt s 0) = false → st.start = 0 → (st.inToken = true ↔ 0 < st.endp) →
      st.inToken = false → (st.enterToken s).endp = 0 := by
    intro hspace _ hiff hout
    have h0 : st.endp = 0 := by
      by_contra hne
      rw [hiff.mpr (Nat.pos_of_ne_zero hne)] at hout
      cases hout
    rw [enterToken_endp (by rwa [h0]), h0]
  rw [step]
  cases hread : (st.enterToken s).readChar (charAt s (st.enterToken s).endp) with
  | none =>
    obtain ⟨st', heq, hinv, hst, hend, hout, hadd⟩ := addToken_spec henter
    refine ⟨st', heq, hinv, ?_, ?_⟩
    · rcases hbool with hi | hi
      · rw [hsame hi] at hst hend
        simp [rounds, hst, hend, hout, hi]
      · obtain ⟨heqe, hspace⟩ := hnew hi
        have hnul : charAt s (st.enterToken s).endp = nul := by
          rcases readChar_none hread with hnul | hs
          · exact hnul
          · rw [hspace] at hs
            cases hs
        rw [← heqe, ← hst] at hnul
        simp only [rounds, hnul, hstart, hout, hi, hend, if_true, if_false, Bool.false_eq_true]
        omega
    · rintro hspace (hne | ⟨h0, hiff⟩)
      · exact Or.inl (hadd (Or.inl (by rwa [hargv])))
      · rcases hbool with hi | hi
        · rw [hsame hi] at hadd
          exact Or.inl (hadd (Or.inr (by rw [h0]; exact hiff.mp hi)))
        · -- the first character does not end a token
          rw [hfirst hspace h0 hiff hi] at hread
          rw [h0] at hstart
          rcases readChar_none hread with hnul | hs
          · exact absurd hnul hstart
          · rw [hspace] at hs
            cases hs
  | some st₁ =>
    obtain ⟨hch, hst, hend, hin₁, hargv₁, halloc⟩ := readChar_some hread
    have hlt := charAt_ne_nul hch
    have hend₁ := henter.endp_le
    have hstart₁ := henter.start_le
    have hslots := henter.slots
    refine ⟨_, rfl, ⟨by simp only; omega, by simp only; omega, by simp only; rw [hargv₁, halloc]; omega⟩,
      ?_, ?_⟩
    · rcases hbool with hi | hi
      · rw [hsame hi] at hst hend hlt
        simp only [rounds, hst, hend, hin₁, hin, hi, if_true]
        omega
      · simp only [rounds, hst, hend, hin₁, hin, hi, if_true, hstart, if_false, Bool.false_eq_true]
        split <;> omega
    · rintro hspace (hne | ⟨h0, hiff⟩)
      · exact Or.inl (by simpa only [hargv₁, hargv] using hne)
      · refine Or.inr ⟨?_, by simp only [hin₁, hin, true_iff]; omega⟩
        rcases hbool with hi | hi
        · rw [hst, hsame hi, h0]
        · rw [hst, (hnew hi).1, hfirst hspace h0 hiff hi]

lemma init_inv (s : Str) : init.Inv s := ⟨Nat.zero_le _, le_rfl, by decide⟩

lemma init_rounds (s : Str) : init.rounds s < 2 * s.length + 2 := by
  by_cases h0 : charAt s 0 = nul <;> simp [rounds, init, h0]

end SplitState

lemma splitLoop_spec (s : Str) : ∀ (n : ℕ) (st : SplitState), st.Inv s → st.rounds s < n →
    ∃ argv, splitLoop s n st = .ok argv ∧
      (charAt s 0 ≠ nul → isSpace (charAt s 0) = false → st.FirstToken → argv ≠ []) := by
  intro n
  induction n with
  | zero => intro st _ hn; omega
  | succ n ih =>
    intro st h hn
    rw [splitLoop]
    by_cases hstart : charAt s st.start = nul
    · have hslots := h.slots
      rw [if_neg (not_not.mpr hstart), if_pos (by omega)]
      refine ⟨_, rfl, ?_⟩
      rintro hnul - (hne | ⟨h0, -⟩)
      · exact hne
      · rw [h0] at hstart
        exact absurd hstart hnul
    · obtain ⟨st', heq, hinv, hlt, hkeep⟩ := SplitState.step_spec h hstart
      obtain ⟨argv, hloop, hne⟩ := ih st' hinv (by omega)
      rw [if_pos hstart, heq, Machine.ok_bind]
      exact ⟨argv, hloop, fun hnul hspace hfirst => hne hnul hspace (hkeep hspace hfirst)⟩

/-- `split_args` returns, and a text that begins with neither a blank nor the terminating NUL
has a word. -/
theorem splitArgs_spec (s : Str) : ∃ argv, splitArgs s = .ok argv ∧
    (charAt s 0 ≠ nul → isSpace (charAt s 0) = false → argv ≠ []) := by
  obtain ⟨argv, heq, hne⟩ :=
    splitLoop_spec s _ _ (SplitState.init_inv s) (SplitState.init_rounds s)
  exact ⟨argv, heq, fun hnul hspace => hne hnul hspace (Or.inr ⟨rfl, by simp [SplitState.init]⟩)⟩

end IpcTools
end WayfireIpc
