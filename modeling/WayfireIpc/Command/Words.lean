/-
# Writing a command and reading it back

Words that are joined to a command string, each bare or between double quotes, pass through
`argsep`, `split_args` and `strip_quotes` and come out as they were.
-/
import WayfireIpc.Command.Cut
import WayfireIpc.Command.Execute

namespace WayfireIpc

/-- A word of a command as it is written: bare or between double quotes. -/
structure Argument where
  text : Str
  quoted : Bool
  plain : ∀ ch ∈ text, ch ∉ ['\n', nul, doubleQuote, backslash]
  bare : quoted = false → text ≠ [] ∧
    ∀ ch ∈ text, isSpace ch = false ∧ ch ∉ [singleQuote, '[', ']', ';', ',']

def Argument.written (a : Argument) : Str :=
  if a.quoted then doubleQuote :: (a.text ++ [doubleQuote]) else a.text

/-- `join_args`. -/
def IpcTools.joinArgs (argv : List Str) : Str := [' '].intercalate argv

/-- The string of a command. -/
def commandLine (name : Str) (args : List Argument) : Str :=
  IpcTools.joinArgs (name :: args.map Argument.written)

lemma commandLine_eq (name : Str) (args : List Argument) :
    commandLine name args = name ++ args.flatMap fun a => ' ' :: a.written := by
  have hjoin : ∀ (name : Str) (ws : List Str),
      [' '].intercalate (name :: ws) = name ++ ws.flatMap fun w => ' ' :: w := by
    intro name ws
    induction ws generalizing name with
    | nil => simp [List.intercalate]
    | cons w ws ih =>
      rw [List.flatMap_cons, List.cons_append, ← ih w]
      simp [List.intercalate, List.intersperse]
  rw [commandLine, IpcTools.joinArgs, hjoin, List.flatMap_map]

/-! ## Pieces without a break -/

namespace Quote

/-- No character of the text ends a word or a command. -/
def Passes : Quote → Str → Quote → Prop
  | q, [], q' => q = q'
  | q, ch :: s, q' => ch ≠ backslash ∧ ch ≠ nul ∧
      (q = none → isSpace ch = false ∧ ch ≠ '[' ∧ ch ≠ ']' ∧ IpcTools.isSeparator ch = false) ∧
      Passes (q.next ch) s q'

lemma Passes.append {q q' q'' : Quote} {s t : Str} (h : q.Passes s q') (h' : q'.Passes t q'') :
    q.Passes (s ++ t) q'' := by
  induction s generalizing q with
  | nil =>
    cases h
    exact h'
  | cons ch s ih => exact ⟨h.1, h.2.1, h.2.2.1, ih h.2.2.2⟩

/-- Inside double quotes everything passes. -/
lemma passes_double {s : Str} (h : ∀ ch ∈ s, ch ∉ ['\n', nul, doubleQuote, backslash]) :
    double.Passes s double := by
  induction s with
  | nil => rfl
  | cons ch s ih =>
    have hch := h ch List.mem_cons_self
    simp only [List.mem_cons, List.not_mem_nil, or_false, not_or] at hch
    have hnext : double.next ch = double := if_neg hch.2.2.1
    refine ⟨hch.2.2.2, hch.2.1, nofun, ?_⟩
    rw [hnext]
    exact ih fun x hx => h x (List.mem_cons_of_mem ch hx)

lemma passes_bare {s : Str} (h : ∀ ch ∈ s, ch ∉ ['\n', nul, doubleQuote, backslash])
    (h' : ∀ ch ∈ s, isSpace ch = false ∧ ch ∉ [singleQuote, '[', ']', ';', ',']) :
    none.Passes s none := by
  induction s with
  | nil => rfl
  | cons ch s ih =>
    have hch := h ch List.mem_cons_self
    obtain ⟨hspace, hch'⟩ := h' ch List.mem_cons_self
    simp only [List.mem_cons, List.not_mem_nil, or_false, not_or] at hch hch'
    have hsep : IpcTools.isSeparator ch = false := by
      simp [IpcTools.isSeparator, IpcTools.separators, hch'.2.2.2.1, hch'.2.2.2.2]
    refine ⟨hch.2.2.2, hch.2.1, fun _ => ⟨hspace, hch'.2.1, hch'.2.2.1, hsep⟩, ?_⟩
    rw [next_of_ne hch.2.2.1 hch'.1]
    exact ih (fun x hx => h x (List.mem_cons_of_mem ch hx))
      fun x hx => h' x (List.mem_cons_of_mem ch hx)

lemma passes_written (a : Argument) : none.Passes a.written none := by
  rw [Argument.written]
  split_ifs with hquoted
  · have hopen : none.Passes [doubleQuote] double :=
      ⟨by decide, by decide, fun _ => by decide, rfl⟩
    have hclose : double.Passes [doubleQuote] none := ⟨by decide, by decide, nofun, rfl⟩
    exact hopen.append ((passes_double a.plain).append hclose)
  · exact passes_bare a.plain (a.bare (by simpa using hquoted)).2

end Quote

namespace IpcTools

open Quote

/-- `argsep` goes on behind a text that passes. -/
lemma cut_passes {q q' : Quote} {s : Str} (h : q.Passes s q') (t : Str) :
    cut q (s ++ t) = (cut q' t).map fun r => (s ++ r.1, r.2) := by
  induction s generalizing q with
  | nil =>
    cases h
    simp
  | cons ch s ih =>
    have hsep : ¬ (q = .none ∧ isSeparator ch = true) := by
      rintro ⟨rfl, hsep⟩
      rw [(h.2.2.1 rfl).2.2.2] at hsep
      cases hsep
    rw [List.cons_append, cut, if_neg hsep, ih h.2.2.2, Option.map_map]
    rfl

lemma cut_blank (t : Str) : cut .none (' ' :: t) = (cut .none t).map fun r => (' ' :: r.1, r.2) :=
  rfl

/-! ## Splitting -/

namespace SplitState

/-- The flags of a state behind a text that passes. -/
def withQuote (st : SplitState) (q : Quote) : SplitState :=
  { st with inString := q.inString, inChar := q.inChar }

/-- The flags: quotes as in `q`, no brackets, nothing escaped. -/
structure Flags (st : SplitState) (q : Quote) : Prop where
  inString : st.inString = q.inString
  inChar : st.inChar = q.inChar
  inBrackets : st.inBrackets = false
  escaped : st.escaped = false

variable {s t u w : Str} {st : SplitState} {q q' : Quote} {ch : Char}

lemma readChar_passes (h : st.Flags q) (hbs : ch ≠ backslash) (hnul : ch ≠ nul)
    (hch : q = .none → isSpace ch = false ∧ ch ≠ '[' ∧ ch ≠ ']' ∧ isSeparator ch = false) :
    st.readChar ch = some (st.withQuote (q.next ch)) := by
  obtain ⟨start, endp, inToken, inString, inChar, inBrackets, escaped, argv, alloc⟩ := st
  obtain ⟨rfl, rfl, rfl, rfl⟩ := h
  have hquote : doubleQuote ≠ singleQuote := by decide
  by_cases hdq : ch = doubleQuote
  · subst hdq
    cases q <;> simp [readChar, withQuote, Quote.inString, Quote.inChar, next, hquote, hbs, hnul]
  · by_cases hsq : ch = singleQuote
    · subst hsq
      cases q <;> simp [readChar, withQuote, Quote.inString, Quote.inChar, next, hdq, hbs, hnul]
    · rw [next_of_ne hdq hsq]
      cases q with
      | none =>
        obtain ⟨hspace, hopen, hclose, -⟩ := hch rfl
        simp [readChar, withQuote, Quote.inString, Quote.inChar, hdq, hsq, hbs, hnul, hspace,
          hopen, hclose]
      | double => simp [readChar, withQuote, Quote.inString, Quote.inChar, hdq, hsq, hbs, hnul]
      | single => simp [readChar, withQuote, Quote.inString, Quote.inChar, hdq, hsq, hbs, hnul]

lemma readChar_nul : st.readChar nul = Option.none := by
  have hdq : nul ≠ doubleQuote := by decide
  have hsq : nul ≠ singleQuote := by decide
  have hopen : nul ≠ '[' := by decide
  have hclose : nul ≠ ']' := by decide
  have hbs : nul ≠ backslash := by decide
  simp [readChar, hdq, hsq, hopen, hclose, hbs]

lemma charAt_of_drop (h : s.drop st.endp = ch :: t) : charAt s st.endp = ch := by
  rw [charAt, List.getD_eq_getElem?_getD, ← List.head?_drop, h]
  rfl

lemma drop_succ_of_drop (h : s.drop st.endp = ch :: t) : s.drop (st.endp + 1) = t := by
  rw [← List.drop_drop, h]
  rfl

/-- The state inside a token, behind a text that passes. -/
def behind (st : SplitState) (n : ℕ) (q : Quote) : SplitState :=
  { st.withQuote q with escaped := false, endp := st.endp + n }

/-- Inside a token the loop reads a text that passes. -/
lemma splitLoop_passes {n : ℕ} (hflags : st.Flags q) (hin : st.inToken = true)
    (hstart : charAt s st.start ≠ nul) (h : q.Passes w q') (hdrop : s.drop st.endp = w ++ t) :
    splitLoop s (n + w.length) st = splitLoop s n (st.behind w.length q') := by
  induction w generalizing st q with
  | nil =>
    cases h
    obtain ⟨start, endp, inToken, inString, inChar, inBrackets, escaped, argv, alloc⟩ := st
    obtain ⟨rfl, rfl, rfl, rfl⟩ := hflags
    rfl
  | cons ch w ih =>
    have henter : st.enterToken s = st := if_pos hin
    have hread := readChar_passes hflags h.1 h.2.1 h.2.2.1
    have hstep : st.step s = .ok (st.behind 1 (q.next ch)) := by
      rw [step, henter, charAt_of_drop hdrop, hread]
      simp only [withQuote, hflags.escaped, Bool.false_and]
      rfl
    have hrest : s.drop (st.behind 1 (q.next ch)).endp = w ++ t := drop_succ_of_drop hdrop
    have hflags' : (st.behind 1 (q.next ch)).Flags (q.next ch) := ⟨rfl, rfl, hflags.inBrackets, rfl⟩
    have hlen : st.endp + 1 + w.length = st.endp + (w.length + 1) := by omega
    have hbehind : (st.behind 1 (q.next ch)).behind w.length q' = st.behind (w.length + 1) q' := by
      show SplitState.mk _ (st.endp + 1 + w.length) _ _ _ _ _ _ _ = _
      rw [hlen]
      rfl
    rw [List.length_cons, ← Nat.add_assoc, splitLoop, if_pos hstart, hstep, Machine.ok_bind,
      ih hflags' hin hstart h.2.2.2 hrest, hbehind]

/-- The end of a token: the next character is a blank or the terminating NUL. -/
lemma step_token (hflags : st.Flags .none) (hin : st.inToken = true)
    (hslots : st.argv.length + 1 < st.alloc) (hend : t = [] ∨ ∃ b t', t = b :: t' ∧ isSpace b = true)
    (hdrop : s.drop st.start = w ++ t) (hendp : st.endp = st.start + w.length) (hw : w ≠ []) :
    ∃ alloc, st.argv.length + 2 < alloc ∧ st.step s
      = .ok { st with argv := st.argv ++ [w], alloc := alloc, inToken := false, escaped := false } := by
  have henter : st.enterToken s = st := if_pos hin
  have hdrop' : s.drop st.endp = t := by
    rw [hendp, ← List.drop_drop, hdrop, List.drop_left]
  -- behind the word stands a blank or the end
  have hchar : charAt s st.endp = nul ∨ isSpace (charAt s st.endp) = true := by
    rcases hend with rfl | ⟨b, t', rfl, hb⟩
    · refine Or.inl ?_
      rw [charAt, List.getD_eq_getElem?_getD, ← List.head?_drop, hdrop']
      rfl
    · exact Or.inr (by rwa [charAt_of_drop hdrop'])
  have hread : st.readChar (charAt s st.endp) = Option.none := by
    obtain ⟨hs, hc, hb, he⟩ := hflags
    rw [readChar]
    rcases hchar with hnul | hspace
    · rw [hnul]
      simp [nul, doubleQuote, singleQuote, backslash, hs, hc, hb, he]
    · have hne : charAt s st.endp ≠ doubleQuote ∧ charAt s st.endp ≠ singleQuote ∧
          charAt s st.endp ≠ '[' ∧ charAt s st.endp ≠ ']' ∧ charAt s st.endp ≠ backslash := by
        refine ⟨?_, ?_, ?_, ?_, ?_⟩ <;> intro heq <;> rw [heq] at hspace <;>
          exact absurd hspace (by decide)
      simp [hne, hs, hc, hb, he, hspace, Quote.inString, Quote.inChar]
  have hlen : st.endp - st.start = w.length := by omega
  have hpos : st.endp - st.start > 0 := by
    rw [hlen]
    exact List.length_pos_iff.mpr hw
  -- so the token is the word
  have htoken : (s.drop st.start).take (st.endp - st.start) = w := by
    rw [hlen, hdrop, List.take_left]
  rw [step, henter, hread]
  simp only [addToken, if_pos hpos, htoken, if_pos (show st.argv.length < st.alloc by omega)]
  refine ⟨_, ?_, rfl⟩
  rw [List.length_append, List.length_singleton]
  split <;> omega

/-- Entering the token first makes no difference. -/
lemma splitLoop_enter {n : ℕ} (hstart : charAt s st.start ≠ nul)
    (hstart' : charAt s (st.enterToken s).start ≠ nul) :
    splitLoop s (n + 1) st = splitLoop s (n + 1) (st.enterToken s) := by
  have hin : (st.enterToken s).inToken = true := by
    rw [enterToken]
    split_ifs with h
    · exact h
    · rfl
  have htwice : (st.enterToken s).enterToken s = st.enterToken s := if_pos hin
  rw [splitLoop, splitLoop, if_pos hstart, if_pos hstart', step, step, htwice]

/-- Between two tokens: nothing is open, and there is room for another token. -/
structure Between (s : Str) (st : SplitState) : Prop where
  flags : st.Flags .none
  outside : st.inToken = false
  slots : st.argv.length + 1 < st.alloc
  start : charAt s st.start ≠ nul

/-- The loop reads one token. -/
lemma splitLoop_token (h : st.Between s) (hu : ∀ b ∈ u, isSpace b = true)
    (hw : Quote.none.Passes w .none) (hne : w ≠ [])
    (hend : t = [] ∨ ∃ b t', t = b :: t' ∧ isSpace b = true)
    (hdrop : s.drop st.endp = u ++ (w ++ t)) :
    ∃ st', (∀ n, splitLoop s (n + 1 + w.length) st = splitLoop s n st') ∧ st'.Between s ∧
      s.drop st'.endp = t ∧ st'.argv = st.argv ++ [w] := by
  obtain ⟨ch, w', rfl⟩ := List.exists_cons_of_ne_nil hne
  have hspace : isSpace ch = false := (hw.2.2.1 rfl).1
  -- the blanks are passed over
  have htake : (s.drop st.endp).takeWhile isSpace = u := by
    rw [hdrop, List.takeWhile_append_of_pos hu, List.cons_append,
      List.takeWhile_cons_of_neg (by simp [hspace]), List.append_nil]
  have henter : st.enterToken s
      = { st with start := st.endp + u.length, endp := st.endp + u.length, inToken := true } := by
    rw [enterToken, if_neg (by simp [h.outside])]
    simp only [htake]
  have hdrop₁ : s.drop (st.enterToken s).endp = (ch :: w') ++ t := by
    rw [henter]
    show s.drop (st.endp + u.length) = _
    rw [← List.drop_drop, hdrop, List.drop_left]
  have hflags : (st.enterToken s).Flags .none := by
    rw [henter]
    exact ⟨h.flags.inString, h.flags.inChar, h.flags.inBrackets, h.flags.escaped⟩
  have hin : (st.enterToken s).inToken = true := by rw [henter]
  have hslots : (st.enterToken s).argv = st.argv ∧ (st.enterToken s).alloc = st.alloc := by
    rw [henter]
    exact ⟨rfl, rfl⟩
  have heq : (st.enterToken s).start = (st.enterToken s).endp := by rw [henter]
  generalize hst₁ : st.enterToken s = st₁ at hdrop₁ hflags hin hslots heq
  have hstart₁ : charAt s st₁.start ≠ nul := by
    rw [heq, charAt_of_drop hdrop₁]
    exact hw.2.1
  -- the characters of the token are read, and the token is added
  have hpasses : ∀ n, splitLoop s (n + (ch :: w').length) st₁
      = splitLoop s n (st₁.behind (ch :: w').length .none) := fun n =>
    splitLoop_passes hflags hin hstart₁ hw hdrop₁
  have hflags₂ : (st₁.behind (ch :: w').length .none).Flags .none :=
    ⟨rfl, rfl, hflags.inBrackets, rfl⟩
  obtain ⟨alloc, halloc, hstep⟩ := step_token (s := s) (t := t) (w := ch :: w') hflags₂ hin
    (by show st₁.argv.length + 1 < st₁.alloc; rw [hslots.1, hslots.2]; exact h.slots) hend
    (by show s.drop st₁.start = _; rw [heq, hdrop₁])
    (by show st₁.endp + _ = st₁.start + _; rw [heq]) (List.cons_ne_nil _ _)
  refine ⟨{ st₁.behind (ch :: w').length .none with
      argv := st₁.argv ++ [ch :: w'], alloc := alloc, inToken := false, escaped := false },
    fun n => ?_, ⟨⟨rfl, rfl, hflags.inBrackets, rfl⟩, rfl, ?_, hstart₁⟩, ?_, ?_⟩
  · rw [List.length_cons, ← Nat.add_assoc, splitLoop_enter h.start (by rw [hst₁]; exact hstart₁), hst₁,
      Nat.add_assoc, ← List.length_cons (a := ch), hpasses, splitLoop]
    rw [if_pos (show charAt s (st₁.behind (ch :: w').length .none).start ≠ nul from hstart₁), hstep]
    rfl
  · show (st₁.argv ++ [ch :: w']).length + 1 < alloc
    rw [List.length_append, List.length_singleton]
    exact halloc
  · show s.drop (st₁.endp + (ch :: w').length) = t
    rw [← List.drop_drop, hdrop₁, List.drop_left]
  · show st₁.argv ++ [ch :: w'] = _
    rw [hslots.1]

lemma behind_words (ws : List Str) : (ws.flatMap fun w => ' ' :: w) = [] ∨
    ∃ b t', (ws.flatMap fun w => ' ' :: w) = b :: t' ∧ isSpace b = true := by
  cases ws with
  | nil => exact Or.inl rfl
  | cons w ws => exact Or.inr ⟨' ', _, rfl, by decide⟩

/-- The loop reads the words that are left. -/
lemma splitLoop_words : ∀ (ws : List Str) {n : ℕ} {st : SplitState}, st.Between s →
    (∀ w ∈ ws, Quote.none.Passes w .none ∧ w ≠ []) →
    s.drop st.endp = (ws.flatMap fun w => ' ' :: w) →
    (ws.map fun w => w.length + 1).sum + 2 ≤ n →
    splitLoop s n st = .ok (st.argv ++ ws) := by
  intro ws
  induction ws with
  | nil =>
    intro n st h _ hdrop hn
    obtain ⟨n, rfl⟩ : ∃ m, n = m + 2 :=
      ⟨n - 2, by simp only [List.map_nil, List.sum_nil] at hn; omega⟩
    have hnil : s.drop st.endp = [] := hdrop
    have hnul : charAt s st.endp = nul := by
      rw [charAt, List.getD_eq_getElem?_getD, ← List.head?_drop, hnil]
      rfl
    have henter : st.enterToken s = { st with start := st.endp, inToken := true } := by
      rw [enterToken, if_neg (by simp [h.outside])]
      simp only [hnil, List.takeWhile_nil, List.length_nil, Nat.add_zero]
    -- behind the last word the loop enters a token, finds the end, and leaves it
    have hstep : st.step s
        = .ok { st with start := st.endp, inToken := false, escaped := false } := by
      rw [step, henter]
      simp only [hnul]
      rw [readChar_nul]
      simp only [addToken, Nat.sub_self, gt_iff_lt, Nat.lt_irrefl, if_false]
    have hslots := h.slots
    rw [splitLoop, if_pos h.start, hstep, Machine.ok_bind, splitLoop, if_neg (not_not.mpr hnul),
      if_pos (by show st.argv.length < st.alloc; omega), List.append_nil]
  | cons w ws ih =>
    intro n st h hws hdrop hn
    obtain ⟨hw, hne⟩ := hws w List.mem_cons_self
    rw [List.flatMap_cons] at hdrop
    obtain ⟨st', hloop, hbetween, hrest, hargv⟩ := splitLoop_token (u := [' ']) h
      (by simp [isSpace, whitespace]) hw hne (behind_words ws) hdrop
    rw [List.map_cons, List.sum_cons] at hn
    obtain ⟨m, rfl⟩ : ∃ m, n = m + 1 + w.length := ⟨n - 1 - w.length, by omega⟩
    rw [hloop m, ih hbetween (fun x hx => hws x (List.mem_cons_of_mem w hx)) hrest (by omega), hargv,
      List.append_assoc]
    rfl

end SplitState

/-- Words that are joined by blanks come apart again. -/
theorem splitArgs_words {w : Str} {ws : List Str}
    (h : ∀ x ∈ w :: ws, Quote.none.Passes x .none ∧ x ≠ []) :
    splitArgs (w ++ ws.flatMap fun w => ' ' :: w) = .ok (w :: ws) := by
  set s := w ++ ws.flatMap fun w => ' ' :: w with hs
  obtain ⟨hw, hne⟩ := h w List.mem_cons_self
  have hinit : SplitState.init.Between s := by
    refine ⟨⟨rfl, rfl, rfl, rfl⟩, rfl, by decide, ?_⟩
    obtain ⟨ch, w', rfl⟩ := List.exists_cons_of_ne_nil hne
    exact hw.2.1
  obtain ⟨st, hloop, hbetween, hrest, hargv⟩ := SplitState.splitLoop_token (u := []) hinit
    (fun _ hb => absurd hb List.not_mem_nil) hw hne (SplitState.behind_words ws) rfl
  have hlen : s.length = w.length + (ws.map fun w => w.length + 1).sum := by
    rw [hs, List.length_append, List.length_flatMap]
    rfl
  have hpos := List.length_pos_iff.mpr hne
  have hfuel : 2 * s.length + 2 = (2 * s.length + 1 - w.length) + 1 + w.length := by omega
  rw [splitArgs, hfuel, hloop, SplitState.splitLoop_words ws hbetween
    (fun x hx => h x (List.mem_cons_of_mem w hx)) hrest (by omega), hargv]
  rfl

/-! ## Stripping the quotes -/

/-- Between double quotes `strip_quotes` takes off the last one. -/
lemma stripLoop_double {s : Str} (h : ∀ ch ∈ s, ch ∉ ['\n', nul, doubleQuote, backslash]) :
    stripLoop true false false (s ++ [doubleQuote]) = s := by
  induction s with
  | nil => decide
  | cons ch s ih =>
    have hch := h ch List.mem_cons_self
    simp only [List.mem_cons, List.not_mem_nil, or_false, not_or] at hch
    rw [List.cons_append, stripLoop, if_neg (by simp), if_neg (by simp [hch]),
      if_neg hch.2.2.2, ih fun x hx => h x (List.mem_cons_of_mem ch hx)]

lemma stripQuotes_quoted {s : Str} (h : ∀ ch ∈ s, ch ∉ ['\n', nul, doubleQuote, backslash]) :
    stripQuotes (doubleQuote :: (s ++ [doubleQuote])) = s := by
  have hquote : doubleQuote ≠ singleQuote := by decide
  rw [stripQuotes, stripLoop, if_neg (by simp [hquote]), if_pos (by simp)]
  exact stripLoop_double h

end IpcTools

lemma Argument.written_ne_nil (a : Argument) : a.written ≠ [] := by
  rw [written]
  split_ifs with hquoted
  · exact List.cons_ne_nil _ _
  · exact (a.bare (by simpa using hquoted)).1

/-- A word that does not begin with a quote keeps its text, and from a quoted one the quotes are
taken off. -/
lemma stripArgs_written {name : Str} (hexec : name ≠ "exec".toList)
    (halways : name ≠ "exec_always".toList) (hmode : name ≠ "mode".toList) (args : List Argument) :
    Exec.stripArgs name (args.map Argument.written) = args.map Argument.text := by
  rw [Exec.stripArgs, if_pos ⟨hexec, halways, hmode⟩, List.map_map]
  refine List.map_congr_left fun a _ => ?_
  show (if _ then IpcTools.stripQuotes a.written else a.written) = a.text
  rw [Argument.written]
  split_ifs with hquoted hfirst hfirst
  · exact IpcTools.stripQuotes_quoted a.plain
  · exact absurd (Or.inl rfl) hfirst
  · -- the first character of a bare word is no quote
    obtain ⟨hne, hbare⟩ := a.bare (by simpa using hquoted)
    obtain ⟨ch, t, ht⟩ := List.exists_cons_of_ne_nil hne
    have hmem : ch ∈ a.text := ht ▸ List.mem_cons_self
    have hplain := a.plain ch hmem
    have hch := (hbare ch hmem).2
    rw [ht] at hfirst
    simp only [List.mem_cons, List.not_mem_nil, or_false, not_or] at hplain hch
    exact absurd hfirst (by simp [charAt, hplain, hch])
  · rfl

end WayfireIpc
