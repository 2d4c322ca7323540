/-
# The words of a command

`split_args` splits a command at its separators: the blanks outside quotes and brackets that are
not escaped, where a character is escaped by an odd number of backslashes directly before it.  The
words are the longest pieces of the command without a separator.

The text before a character is read backwards, from that character on.
-/
import WayfireIpc.Command.Stripping

namespace WayfireIpc
namespace IpcTools

/-- What is open at some place of a command. -/
structure Nesting where
  inString : Bool
  inChar : Bool
  inBrackets : Bool
deriving DecidableEq, Repr

namespace Nesting

/-- Nothing is open. -/
def outside : Nesting := ⟨false, false, false⟩

/-- What is open behind a character that is not escaped: a quote outside quotes of the other kind
opens or closes a part, and so does a bracket outside quotes. -/
def next (o : Nesting) (ch : Char) : Nesting :=
  if ch = doubleQuote ∧ ¬ o.inChar then { o with inString := !o.inString }
  else if ch = singleQuote ∧ ¬ o.inString then { o with inChar := !o.inChar }
  else if ch = '[' ∧ ¬ o.inString ∧ ¬ o.inChar then { o with inBrackets := true }
  else if ch = ']' ∧ ¬ o.inString ∧ ¬ o.inChar then { o with inBrackets := false }
  else o

/-- What is open behind a text. -/
def behind : Str → Nesting
  | [] => outside
  | ch :: before => if oddBackslashes before then behind before else (behind before).next ch

lemma next_backslash (o : Nesting) : o.next backslash = o := by
  have hd : backslash ≠ doubleQuote := by decide
  have hs : backslash ≠ singleQuote := by decide
  have hopen : backslash ≠ '[' := by decide
  have hclose : backslash ≠ ']' := by decide
  simp [next, hd, hs, hopen, hclose]

end Nesting

/-- The text before an offset, backwards. -/
def before (s : Str) (i : ℕ) : Str := (s.take i).reverse

/-- A blank outside quotes and brackets that is not escaped stands at the offset. -/
def SeparatesAt (s : Str) (i : ℕ) : Prop :=
  isSpace (charAt s i) = true ∧ Nesting.behind (before s i) = .outside ∧
    oddBackslashes (before s i) = false

/-- The pieces of the first `n` characters, each given by the offsets of its first character and
of the place behind it, are in order and apart from each other, and together they are all but the
separators. -/
structure MaximalPieces (s : Str) (n : ℕ) (pieces : List (ℕ × ℕ)) : Prop where
  nonempty : ∀ p ∈ pieces, p.1 < p.2
  inside : ∀ p ∈ pieces, p.2 ≤ n
  apart : pieces.Pairwise fun p q => p.2 < q.1
  covers : ∀ i < n, (∃ p ∈ pieces, p.1 ≤ i ∧ i < p.2) ↔ ¬ SeparatesAt s i

/-- The text of a piece. -/
def pieceText (s : Str) (p : ℕ × ℕ) : Str := (s.drop p.1).take (p.2 - p.1)

variable {s : Str} {st st' : SplitState} {pieces : List (ℕ × ℕ)}

/-! ## The flags -/

lemma before_succ {i : ℕ} (h : i < s.length) : before s (i + 1) = charAt s i :: before s i := by
  rw [before, List.take_add_one, List.reverse_append, before, charAt,
    List.getD_eq_getElem?_getD, List.getElem?_eq_getElem h]
  rfl

/-- Nothing is open at an offset, and nothing is escaped. -/
def Clean (s : Str) (i : ℕ) : Prop :=
  Nesting.behind (before s i) = .outside ∧ oddBackslashes (before s i) = false

lemma clean_zero (s : Str) : Clean s 0 := ⟨rfl, rfl⟩

/-- Behind a separator everything is as before it. -/
lemma SeparatesAt.clean {i : ℕ} (h : SeparatesAt s i) (hi : i < s.length) : Clean s (i + 1) := by
  obtain ⟨hspace, hopen, hodd⟩ := h
  have hne : charAt s i ≠ doubleQuote ∧ charAt s i ≠ singleQuote ∧ charAt s i ≠ '[' ∧
      charAt s i ≠ ']' ∧ charAt s i ≠ backslash := by
    refine ⟨?_, ?_, ?_, ?_, ?_⟩ <;> intro heq <;> rw [heq] at hspace <;> revert hspace <;> decide
  rw [Clean, before_succ hi, Nesting.behind, hodd, hopen, oddBackslashes_cons]
  simp [Nesting.next, Nesting.outside, hne]

/-- Blanks behind a clean place are separators. -/
lemma Clean.blanks {n : ℕ} (h : Clean s n) : ∀ k ≤ ((s.drop n).takeWhile isSpace).length,
    (∀ j < k, SeparatesAt s (n + j)) ∧ Clean s (n + k) := by
  intro k
  induction k with
  | zero => exact fun _ => ⟨by simp, h⟩
  | succ k ih =>
    intro hk
    obtain ⟨hall, hopen, hodd⟩ := ih (Nat.le_of_succ_le hk)
    have hlt : k < (s.drop n).length :=
      Nat.lt_of_lt_of_le hk (List.takeWhile_prefix isSpace).length_le
    have hlen : n + k < s.length := by
      rw [List.length_drop] at hlt
      omega
    have hspace : isSpace (charAt s (n + k)) = true := by
      have hmem := List.mem_takeWhile_imp (List.getElem_mem hk)
      rw [(List.takeWhile_prefix isSpace).getElem hk, List.getElem_drop] at hmem
      rwa [charAt, List.getD_eq_getElem _ _ hlen]
    have hsep : SeparatesAt s (n + k) := ⟨hspace, hopen, hodd⟩
    refine ⟨fun j hj => ?_, hsep.clean hlen⟩
    rcases Nat.lt_succ_iff_lt_or_eq.mp hj with hj | rfl
    · exact hall j hj
    · exact hsep

/-! ## The pieces -/

/-- Separators behind the pieces. -/
lemma MaximalPieces.separators {n : ℕ} (h : MaximalPieces s n pieces) {k : ℕ}
    (hsep : ∀ j < k, SeparatesAt s (n + j)) : MaximalPieces s (n + k) pieces where
  nonempty := h.nonempty
  inside p hp := (h.inside p hp).trans (Nat.le_add_right n k)
  apart := h.apart
  covers i hi := by
    by_cases hin : i < n
    · exact h.covers i hin
    · have hat := hsep (i - n) (by omega)
      rw [Nat.add_sub_cancel' (by omega)] at hat
      refine iff_of_false ?_ (not_not.mpr hat)
      rintro ⟨p, hp, -, hlt⟩
      have := h.inside p hp
      omega

/-- A piece behind the pieces. -/
lemma MaximalPieces.piece {n m : ℕ} (h : MaximalPieces s n pieces) (hlt : n < m)
    (happart : ∀ p ∈ pieces, p.2 < n) (hword : ∀ i, n ≤ i → i < m → ¬ SeparatesAt s i) :
    MaximalPieces s m (pieces ++ [(n, m)]) where
  nonempty p hp := by
    rcases List.mem_append.mp hp with hp | hp
    · exact h.nonempty p hp
    · rw [List.mem_singleton.mp hp]
      exact hlt
  inside p hp := by
    rcases List.mem_append.mp hp with hp | hp
    · exact (h.inside p hp).trans hlt.le
    · rw [List.mem_singleton.mp hp]
  apart := by
    refine List.pairwise_append.mpr ⟨h.apart, List.pairwise_singleton _ _, fun p hp q hq => ?_⟩
    rw [List.mem_singleton.mp hq]
    exact happart p hp
  covers i hi := by
    simp only [List.mem_append, List.mem_singleton]
    by_cases hin : i < n
    · rw [← h.covers i hin]
      constructor
      · rintro ⟨p, hp | rfl, hle, hlt'⟩
        · exact ⟨p, hp, hle, hlt'⟩
        · exact absurd hin (not_lt.mpr hle)
      · rintro ⟨p, hp, hp'⟩
        exact ⟨p, Or.inl hp, hp'⟩
    · exact iff_of_true ⟨(n, m), Or.inr rfl, not_lt.mp hin, hi⟩ (hword i (not_lt.mp hin) hi)

namespace SplitState

/-- What the flags of the loop say is open. -/
def nesting (st : SplitState) : Nesting := ⟨st.inString, st.inChar, st.inBrackets⟩

/-- The flags are right for the place at which the loop reads. -/
def FlagsAt (s : Str) (st : SplitState) : Prop :=
  st.nesting = Nesting.behind (before s st.endp) ∧ st.escaped = oddBackslashes (before s st.endp)

/-- A character that does not end a word changes the flags as it should. -/
lemma readChar_flags {ch : Char} (h : st.readChar ch = some st') :
    st'.nesting = (if st.escaped then st.nesting else st.nesting.next ch) ∧
      (st'.escaped && decide (ch = backslash)) = (decide (ch = backslash) && !st.escaped) := by
  obtain ⟨start, endp, inToken, inString, inChar, inBrackets, escaped, argv, alloc⟩ := st
  rw [readChar] at h
  split_ifs at h with hdq hsq hopen hclose hback hend
  · obtain ⟨rfl, hchar, hescaped⟩ := hdq
    cases h
    simp_all [nesting, Nesting.next]
    decide
  · obtain ⟨rfl, hstring, hescaped⟩ := hsq
    cases h
    simp_all [nesting, Nesting.next]
    decide
  · obtain ⟨rfl, hstring, hchar, -, hescaped⟩ := hopen
    cases h
    simp_all [nesting, Nesting.next]
    decide
  · obtain ⟨rfl, hstring, hchar, -, hescaped⟩ := hclose
    cases h
    simp_all [nesting, Nesting.next]
    decide
  · subst hback
    cases h
    simp [nesting, Nesting.next_backslash]
  · -- a quote or a bracket that is left over is escaped or changes nothing
    cases h
    cases inString <;> cases inChar <;> cases inBrackets <;> cases escaped <;>
      simp_all [nesting, Nesting.next]

/-- A word ends at a blank if nothing is open and nothing is escaped. -/
lemma readChar_none_iff {ch : Char} (hch : ch ≠ nul) : st.readChar ch = none ↔
    isSpace ch = true ∧ st.nesting = .outside ∧ st.escaped = false := by
  have hspaces : isSpace doubleQuote = false ∧ isSpace singleQuote = false ∧
      isSpace '[' = false ∧ isSpace ']' = false ∧ isSpace backslash = false := by decide
  obtain ⟨hdq, hsq, hopen, hclose, hback⟩ := hspaces
  have houtside : st.nesting = .outside ↔
      st.inString = false ∧ st.inChar = false ∧ st.inBrackets = false := by
    rw [nesting, Nesting.outside, Nesting.mk.injEq]
  rw [readChar, houtside]
  split_ifs with h₁ h₂ h₃ h₄ h₅ h₆
  · simp [h₁.1, hdq]
  · simp [h₂.1, hsq]
  · simp [h₃.1, hopen]
  · simp [h₄.1, hclose]
  · simp [h₅, hback]
  · simp only [hch, false_or, Bool.not_eq_true] at h₆
    obtain ⟨hstring, hchar, hbrackets, hescaped, hspace⟩ := h₆
    exact iff_of_true rfl ⟨hspace, ⟨hstring, hchar, hbrackets⟩, hescaped⟩
  · simp only [hch, false_or, Bool.not_eq_true] at h₆
    refine iff_of_false id ?_
    rintro ⟨hspace, ⟨hstring, hchar, hbrackets⟩, hescaped⟩
    exact h₆ ⟨hstring, hchar, hbrackets, hescaped, hspace⟩

/-- With the right flags a word ends at a separator. -/
lemma FlagsAt.readChar_none_iff (h : st.FlagsAt s) (hch : charAt s st.endp ≠ nul) :
    st.readChar (charAt s st.endp) = none ↔ SeparatesAt s st.endp := by
  rw [SplitState.readChar_none_iff hch, h.1, h.2, SeparatesAt]

/-- The loop is inside a word, the words before it have been read. -/
structure InWord (s : Str) (st : SplitState) (pieces : List (ℕ × ℕ)) : Prop where
  inv : st.Inv s
  inToken : st.inToken = true
  argv_eq : st.argv = pieces.map (pieceText s)
  read : MaximalPieces s st.start pieces
  apart : st.start < s.length → ∀ p ∈ pieces, p.2 < st.start
  flags : st.endp < s.length → st.FlagsAt s
  word : ∀ i, st.start ≤ i → i < st.endp → ¬ SeparatesAt s i
  first : st.start = st.endp → isSpace (charAt s st.endp) = false

/-- The loop is behind a word, or at the beginning; what comes next is the separator behind the
word. -/
structure BehindWord (s : Str) (st : SplitState) (pieces : List (ℕ × ℕ)) : Prop where
  inv : st.Inv s
  inToken : st.inToken = false
  argv_eq : st.argv = pieces.map (pieceText s)
  read : MaximalPieces s st.endp pieces
  behind : st.endp < s.length → st.nesting = .outside ∧ st.escaped = false ∧ Clean s st.endp ∧
    (pieces = [] ∨ SeparatesAt s st.endp)

/-- The blanks in front of a word are skipped. -/
lemma BehindWord.enter (h : st.BehindWord s pieces) : (st.enterToken s).InWord s pieces := by
  obtain ⟨hinv, hin, hargv, -, -, hnew⟩ := enterToken_spec h.inv
  obtain ⟨hstart, hspace⟩ := hnew h.inToken
  set k := ((s.drop st.endp).takeWhile isSpace).length with hk
  have henter : st.enterToken s = { st with
      start := st.endp + k, endp := st.endp + k, inToken := true } := by
    rw [enterToken, if_neg (by simp [h.inToken])]
  have hpos : SeparatesAt s st.endp → 0 < k := by
    intro hsep
    by_contra hzero
    have hnot := isSpace_charAt s st.endp
    rw [← hk, Nat.eq_zero_of_not_pos hzero, Nat.add_zero, hsep.1] at hnot
    cases hnot
  -- everything that has been skipped is a separator
  have hskip : (∀ j < k, SeparatesAt s (st.endp + j)) ∧ (st.endp < s.length →
      Clean s (st.endp + k)) := by
    rcases h.inv.endp_le.lt_or_eq with hlt | heq
    · obtain ⟨-, -, hclean, -⟩ := h.behind hlt
      obtain ⟨hblanks, hclean'⟩ := hclean.blanks k le_rfl
      exact ⟨hblanks, fun _ => hclean'⟩
    · have hzero : k = 0 := by
        rw [hk, heq, List.drop_length]
        rfl
      exact ⟨fun j hj => absurd hj (by omega), fun hlt => absurd heq (by omega)⟩
  rw [henter] at hinv hspace ⊢
  refine ⟨hinv, rfl, h.argv_eq, h.read.separators hskip.1, fun hlt p hp => ?_, fun hlt => ?_,
    fun i hle hlt => absurd hlt (not_lt.mpr hle), fun _ => hspace⟩
  · have hle := h.read.inside p hp
    have hlt' : st.endp < s.length := Nat.lt_of_le_of_lt (Nat.le_add_right _ k) hlt
    obtain ⟨-, -, -, rfl | hsep⟩ := h.behind hlt'
    · exact absurd hp List.not_mem_nil
    · have := hpos hsep
      change p.2 < st.endp + k
      omega
  · have hlt' : st.endp < s.length := Nat.lt_of_le_of_lt (Nat.le_add_right _ k) hlt
    obtain ⟨hnesting, hescaped, -, -⟩ := h.behind hlt'
    obtain ⟨hopen, hodd⟩ := hskip.2 hlt'
    exact ⟨hnesting.trans hopen.symm, hescaped.trans hodd.symm⟩

/-- A character of the word. -/
lemma InWord.goes (h : st.InWord s pieces) (hread : st.readChar (charAt s st.endp) = some st')
    (hinv : SplitState.Inv s { st' with
      escaped := st'.escaped && charAt s st.endp = backslash, endp := st'.endp + 1 }) :
    InWord s { st' with
      escaped := st'.escaped && charAt s st.endp = backslash, endp := st'.endp + 1 } pieces := by
  obtain ⟨hch, hstart, hend, hin, hargv, -⟩ := readChar_some hread
  have hlt := charAt_ne_nul hch
  have hflags := h.flags hlt
  obtain ⟨hnesting, hescaped⟩ := readChar_flags hread
  have hnot : ¬ SeparatesAt s st.endp := by
    rw [← hflags.readChar_none_iff hch, hread]
    exact Option.some_ne_none _
  have hle := h.inv.start_le
  refine ⟨hinv, hin.trans h.inToken, hargv.trans h.argv_eq, ?_, ?_, fun _ => ⟨?_, ?_⟩, ?_, ?_⟩
  · rw [show ({ st' with escaped := _, endp := _ } : SplitState).start = st.start from hstart]
    exact h.read
  · change st'.start < _ → ∀ p ∈ pieces, p.2 < st'.start
    rw [hstart]
    exact h.apart
  · change st'.nesting = Nesting.behind (before s (st'.endp + 1))
    rw [hnesting, hend, before_succ hlt, Nesting.behind, ← hflags.1, ← hflags.2]
  · change (st'.escaped && _) = oddBackslashes (before s (st'.endp + 1))
    rw [hescaped, hend, before_succ hlt, oddBackslashes_cons, ← hflags.2]
  · intro i hi hi'
    change st'.start ≤ i at hi
    change i < st'.endp + 1 at hi'
    rw [hstart] at hi
    rw [hend] at hi'
    rcases Nat.lt_succ_iff_lt_or_eq.mp hi' with hi' | rfl
    · exact h.word i hi hi'
    · exact hnot
  · intro heq
    change st'.start = st'.endp + 1 at heq
    omega

/-- The end of the word, or of the command. -/
lemma InWord.ends (hnul : nul ∉ s) (h : st.InWord s pieces)
    (hread : st.readChar (charAt s st.endp) = none) :
    ∃ st' pieces', st.addToken s = .ok st' ∧ st'.BehindWord s pieces' := by
  obtain ⟨st', hadd, hinv, hstart, hend, hin, -⟩ := addToken_spec h.inv
  have hslots := h.inv.slots
  have hle := h.inv.start_le
  have hat : charAt s st.endp = nul → st.endp = s.length := by
    intro heq
    by_contra hne
    have hlt : st.endp < s.length := lt_of_le_of_ne h.inv.endp_le hne
    rw [charAt, List.getD_eq_getElem _ _ hlt] at heq
    exact hnul (heq ▸ List.getElem_mem hlt)
  have hsep : st.endp < s.length → SeparatesAt s st.endp := by
    intro hlt
    have hch : charAt s st.endp ≠ nul := fun heq => absurd (hat heq) hlt.ne
    exact ((h.flags hlt).readChar_none_iff hch).mp hread
  rw [addToken] at hadd
  split_ifs at hadd with hlen hfull
  · -- the word is one more piece
    have hlt : st.start < st.endp := by omega
    have hstart' : st.start < s.length := Nat.lt_of_lt_of_le hlt h.inv.endp_le
    refine ⟨st', pieces ++ [(st.start, st.endp)], by rw [addToken, if_pos hlen, if_pos hfull, hadd],
      hinv, hin, ?_, ?_, ?_⟩
    · cases hadd
      rw [List.map_append, ← h.argv_eq]
      rfl
    · rw [hend]
      exact h.read.piece hlt (h.apart hstart') h.word
    · rw [hend]
      intro hend'
      obtain ⟨hnesting, hescaped⟩ := h.flags hend'
      have hat' := hsep hend'
      cases hadd
      exact ⟨hnesting.trans hat'.2.1, rfl, hat'.2, Or.inr hat'⟩
  · -- there is nothing left
    have heq : st.start = st.endp := by omega
    have hlast : st.endp = s.length := by
      by_contra hne
      have hspace := (hsep (lt_of_le_of_ne h.inv.endp_le hne)).1
      rw [h.first heq] at hspace
      cases hspace
    refine ⟨st', pieces, by rw [addToken, if_neg hlen, hadd], hinv, hin, ?_, ?_, ?_⟩
    · cases hadd
      exact h.argv_eq
    · rw [hend, ← heq]
      exact h.read
    · rw [hend]
      exact fun hlt => absurd hlast hlt.ne

/-- The words before the place at which the loop reads have been read. -/
def Reads (s : Str) (st : SplitState) (pieces : List (ℕ × ℕ)) : Prop :=
  st.InWord s pieces ∨ st.BehindWord s pieces

lemma Reads.inv (h : st.Reads s pieces) : st.Inv s := h.elim InWord.inv BehindWord.inv

/-- Before a round the blanks have been skipped or the loop is inside a word. -/
lemma Reads.enter (h : st.Reads s pieces) : (st.enterToken s).InWord s pieces := by
  rcases h with h | h
  · rwa [enterToken, if_pos h.inToken]
  · exact h.enter

/-- One round reads on. -/
lemma step_reads (hnul : nul ∉ s) (h : st.Reads s pieces) (hstart : charAt s st.start ≠ nul) :
    ∃ st' pieces', st.step s = .ok st' ∧ st'.Reads s pieces' ∧ st'.rounds s < st.rounds s := by
  obtain ⟨st', hstep, hinv, hrounds, -⟩ := step_spec h.inv hstart
  have hword := h.enter
  have heq := hstep
  rw [step] at heq
  cases hread : (st.enterToken s).readChar (charAt s (st.enterToken s).endp) with
  | none =>
    rw [hread] at heq
    obtain ⟨st'', pieces', hadd, hbehind⟩ := hword.ends hnul hread
    rw [hadd] at heq
    cases heq
    exact ⟨st', pieces', hstep, Or.inr hbehind, hrounds⟩
  | some st₁ =>
    rw [hread] at heq
    cases heq
    exact ⟨_, pieces, hstep, Or.inl (hword.goes hread hinv), hrounds⟩

/-- At the end of the command all its words have been read. -/
lemma Reads.all (hnul : nul ∉ s) (h : st.Reads s pieces) (hstart : charAt s st.start = nul) :
    st.argv = pieces.map (pieceText s) ∧ MaximalPieces s s.length pieces := by
  have hle := h.inv.start_le
  have hend := h.inv.endp_le
  have hlast : st.start = s.length := by
    by_contra hne
    have hlt : st.start < s.length := lt_of_le_of_ne (hle.trans hend) hne
    rw [charAt, List.getD_eq_getElem _ _ hlt] at hstart
    exact hnul (hstart ▸ List.getElem_mem hlt)
  rcases h with h | h
  · exact ⟨h.argv_eq, hlast ▸ h.read⟩
  · have heq : st.endp = s.length := by omega
    exact ⟨h.argv_eq, heq ▸ h.read⟩

end SplitState

lemma splitLoop_reads (hnul : nul ∉ s) : ∀ (n : ℕ) (st : SplitState) (pieces : List (ℕ × ℕ)),
    st.Reads s pieces → st.rounds s < n →
    ∃ pieces', splitLoop s n st = .ok (pieces'.map (pieceText s)) ∧
      MaximalPieces s s.length pieces' := by
  intro n
  induction n with
  | zero => intro st _ _ hn; omega
  | succ n ih =>
    intro st pieces h hn
    rw [splitLoop]
    by_cases hstart : charAt s st.start = nul
    · have hslots := h.inv.slots
      obtain ⟨hargv, hpieces⟩ := h.all hnul hstart
      rw [if_neg (not_not.mpr hstart), if_pos (by omega)]
      exact ⟨pieces, by rw [hargv], hpieces⟩
    · obtain ⟨st', pieces', hstep, hreads, hlt⟩ := SplitState.step_reads hnul h hstart
      rw [if_pos hstart, hstep, Machine.ok_bind]
      exact ih st' pieces' hreads (by omega)

lemma SplitState.init_reads (s : Str) : SplitState.init.Reads s [] := by
  have hnone : MaximalPieces s 0 [] :=
    ⟨by simp, by simp, List.Pairwise.nil, fun i hi => absurd hi (Nat.not_lt_zero i)⟩
  exact Or.inr ⟨init_inv s, rfl, rfl, hnone, fun _ => ⟨rfl, rfl, clean_zero s, Or.inl rfl⟩⟩

/-- The words are parts of the command. -/
lemma splitArgs_subset (hnul : nul ∉ s) {argv : List Str} (h : splitArgs s = .ok argv) :
    ∀ word ∈ argv, word ⊆ s := by
  obtain ⟨pieces, heq, -⟩ :=
    splitLoop_reads hnul _ _ _ (SplitState.init_reads s) (SplitState.init_rounds s)
  have hargv : argv = pieces.map (pieceText s) := Except.ok.inj (h.symm.trans heq)
  intro word hword
  rw [hargv] at hword
  obtain ⟨p, -, rfl⟩ := List.mem_map.mp hword
  exact List.Subset.trans (List.take_subset _ _) (List.drop_subset _ _)

/-- `split_args` returns the longest pieces between the separators, in order, and every write to
`argv` goes to a slot that it has.  With fewer than 2³⁰ - 1 words neither their number nor that of
the slots is more than the `int` of the source can hold. -/
theorem splitArgs_pieces (hnul : nul ∉ s) : ∃ pieces,
    splitArgs s = .ok (pieces.map (pieceText s)) ∧ MaximalPieces s s.length pieces :=
  splitLoop_reads hnul _ _ _ (SplitState.init_reads s) (SplitState.init_rounds s)

/-- A command with criteria, a quoted blank and an escaped one. -/
theorem splitArgs_pieces_blanks : ∃ pieces,
    splitArgs " [title=\x22a b\x22] exec\t\x27c d\x27 e\x5c f ".toList
      = .ok (pieces.map (pieceText " [title=\x22a b\x22] exec\t\x27c d\x27 e\x5c f ".toList)) ∧
    MaximalPieces " [title=\x22a b\x22] exec\t\x27c d\x27 e\x5c f ".toList 31 pieces :=
  splitArgs_pieces (s := " [title=\x22a b\x22] exec\t\x27c d\x27 e\x5c f ".toList) (by decide)

end IpcTools
end WayfireIpc
