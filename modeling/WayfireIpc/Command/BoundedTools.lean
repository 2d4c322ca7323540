/-
# Cutting a command string in memory

`argsep` and `split_args` as they go through the memory of a command string: pointers are offsets
into a block, every access is checked, and a loop that has used up its rounds is a fault.  On a
NUL-terminated string both do what the functions on texts do, so they end, and they read nothing
behind the terminating NUL.
-/
import WayfireIpc.Command.Stripping

namespace WayfireIpc

open Terminated

namespace Bounded

/-! ## `argsep` -/

/-- `strpbrk`. -/
def strpbrk (block : List Char) (src : ℕ) (accept : Str) : Except Trap (Option ℕ) := do
  let i ← scan (fun ch => ch ≠ nul && !accept.contains ch) block src
  let ch ← load block i
  return if ch = nul then none else some i

/-- `argsep_next_interesting`. -/
def argsepNextInteresting (block : List Char) (src : ℕ) (delim : Str) :
    Except Trap (Option ℕ) := do
  let special ← strpbrk block src [doubleQuote, singleQuote, backslash]
  let nextDelim ← strpbrk block src delim
  return match special, nextDelim with
    | none, nextDelim => nextDelim
    | special, none => special
    | some i, some j => some (if j < i then j else i)

/-- What `argsep` leaves: the memory, the pointer that it returns, `*stringp` and `*matched`. -/
structure Argsep where
  block : List Char
  start : ℕ
  stringp : Option ℕ
  matched : Char

/-- The loop of `argsep`. -/
def argsepLoop (delim : Str) : ℕ → List Char → ℕ → ℕ → Bool → Bool → Bool → Except Trap Argsep
  | 0, _, _, _, _, _, _ => .error .diverges
  | n + 1, block, start, e, inString, inChar, escaped => do
    match ← argsepNextInteresting block e delim with
    | none => return ⟨block, start, none, nul⟩
    | some interesting =>
      let ch ← load block interesting
      let escaped := escaped && interesting = e
      if ch = doubleQuote ∧ ¬ inChar ∧ ¬ escaped then
        argsepLoop delim n block start (interesting + 1) (!inString) inChar escaped
      else if ch = singleQuote ∧ ¬ inString ∧ ¬ escaped then
        argsepLoop delim n block start (interesting + 1) inString (!inChar) escaped
      else if ch = backslash then
        argsepLoop delim n block start (interesting + 1) inString inChar (!escaped)
      else if ¬ inString ∧ ¬ inChar ∧ ¬ escaped then
        if interesting ≠ start then
          let block ← store block interesting nul
          return ⟨block, start, some (interesting + 1), ch⟩
        else argsepLoop delim n block (start + 1) (start + 1) inString inChar escaped
      else argsepLoop delim n block start (e + 1) inString inChar escaped

/-- `argsep(&head, delim, &matched)`, with `head` at the beginning of the block. -/
def argsep (delim : Str) (block : List Char) : Except Trap Argsep :=
  argsepLoop delim block.length block 0 0 false false false

/-- The string at a pointer. -/
def stringAt (block : List Char) (p : ℕ) : Str := cStr (block.drop p)

variable {s t : Str} {p : ℕ}

/-- A character of a string is not the NUL. -/
lemma ne_nul {ch : Char} (hnul : nul ∉ s) (h : At s p (ch :: t)) : ch ≠ nul := by
  rintro rfl
  exact hnul (h.subset List.mem_cons_self)

lemma findIdx?_eq (accept : Str) (hnul : nul ∉ t) :
    let rest := t.dropWhile fun ch => ch ≠ nul && !accept.contains ch
    (rest = [] ∧ t.findIdx? accept.contains = none) ∨
      rest ≠ [] ∧ rest.headD nul ≠ nul ∧
        t.findIdx? accept.contains = some (t.length - rest.length) := by
  induction t with
  | nil => exact Or.inl ⟨rfl, rfl⟩
  | cons ch t ih =>
    obtain ⟨hch, hrest⟩ := not_or.mp (List.mem_cons.not.mp hnul)
    intro rest
    by_cases haccept : accept.contains ch = true
    · have hstop : rest = ch :: t := by
        simp only [rest, List.dropWhile_cons, haccept, Bool.not_true, Bool.and_false,
          Bool.false_eq_true, if_false]
      rw [hstop, List.findIdx?_cons, if_pos haccept]
      exact Or.inr ⟨List.cons_ne_nil _ _, Ne.symm hch, by simp⟩
    · have hgo : rest = t.dropWhile fun ch => ch ≠ nul && !accept.contains ch := by
        rw [Bool.not_eq_true] at haccept
        simp only [rest, List.dropWhile_cons, haccept, Bool.not_false, Bool.and_true,
          decide_eq_true_eq, ne_eq, Ne.symm hch, not_false_eq_true, if_true]
      have hle : rest.length ≤ t.length := hgo ▸ (List.dropWhile_suffix _).length_le
      rw [List.findIdx?_cons, if_neg haccept]
      rcases ih hrest with ⟨hnil, hfind⟩ | ⟨hne, hhead, hfind⟩
      · exact Or.inl ⟨hgo.trans hnil, by rw [hfind]; rfl⟩
      · refine Or.inr ⟨hgo ▸ hne, hgo ▸ hhead, ?_⟩
        rw [hfind, ← hgo, Option.map_some, List.length_cons]
        congr 1
        omega

lemma strpbrk_cells (h : At s p t) (hnul : nul ∉ t) (accept : Str) :
    strpbrk (cells nul s) p accept = .ok ((t.findIdx? accept.contains).map (p + ·)) := by
  obtain ⟨p', hscan, hat, -⟩ := h.scan (z := nul)
    (q := fun ch => ch ≠ nul && !accept.contains ch) (by simp)
  have hlen := h.add_length
  have hlen' := hat.add_length
  have hle := (List.dropWhile_suffix (l := t)
    fun ch => ch ≠ nul && !accept.contains ch).length_le
  rw [strpbrk, hscan, Machine.ok_bind, hat.load, Machine.ok_bind]
  rcases findIdx?_eq accept hnul with ⟨hnil, hfind⟩ | ⟨-, hhead, hfind⟩
  · rw [hnil, hfind]
    rfl
  · rw [if_neg hhead, hfind, Option.map_some]
    have heq : p' = p + (t.length - (t.dropWhile
        fun ch => ch ≠ nul && !accept.contains ch).length) := by omega
    rw [← heq]
    rfl

lemma argsepNextInteresting_cells (h : At s p t) (hnul : nul ∉ t) (delim : Str) :
    argsepNextInteresting (cells nul s) p delim
      = .ok ((IpcTools.argsepNextInteresting t delim).map (p + ·)) := by
  rw [argsepNextInteresting, strpbrk_cells h hnul, Machine.ok_bind, strpbrk_cells h hnul,
    Machine.ok_bind, IpcTools.argsepNextInteresting]
  cases t.findIdx? [doubleQuote, singleQuote, backslash].contains with
  | none => rfl
  | some i =>
    cases t.findIdx? delim.contains with
    | none => rfl
    | some j =>
      by_cases hlt : j < i
      · simp [hlt, pure, Except.pure]
      · simp [hlt, pure, Except.pure]

/-- Where the loop is in the memory is where the loop on texts is. -/
lemma argsepLoop_cells (delim : Str) (hnul : nul ∉ s) : ∀ (n start e : ℕ) (t : Str)
    (inString inChar escaped : Bool) (r : IpcTools.Argsep), At s start t → e ≤ t.length →
    IpcTools.argsepLoop delim n t e inString inChar escaped = .ok r →
    ∃ a, argsepLoop delim n (cells nul s) start (start + e) inString inChar escaped = .ok a ∧
      stringAt a.block a.start = r.start ∧ a.stringp.map (stringAt a.block) = r.stringp ∧
      a.matched = r.matched := by
  intro n
  induction n with
  | zero => intro _ _ _ _ _ _ _ _ _ h; cases h
  | succ n ih =>
    intro start e t inString inChar escaped r hat he hr
    have hnult : nul ∉ t := fun h => hnul (hat.subset h)
    have hlen := hat.add_length
    have hate : At s (start + e) (t.drop e) :=
      ⟨by omega, by rw [← List.drop_drop, hat.drop_eq]⟩
    rw [IpcTools.argsepLoop] at hr
    rw [argsepLoop, argsepNextInteresting_cells hate fun h => hnult (List.mem_of_mem_drop h),
      Machine.ok_bind]
    cases hk : IpcTools.argsepNextInteresting (t.drop e) delim with
    | none =>
      rw [hk] at hr
      cases hr
      refine ⟨_, rfl, ?_, rfl, rfl⟩
      rw [stringAt, hat.drop_cells, cells]
      exact cStr_append hnult []
    | some k =>
      have hlt := IpcTools.argsepNextInteresting_lt hk
      rw [List.length_drop] at hlt
      have hload : load (cells nul s) (start + e + k) = .ok (charAt t (e + k)) := by
        rw [load_cells (by omega), ← hat.drop_eq, charAt_drop, charAt, Nat.add_assoc]
      have hsame : (escaped && decide (start + e + k = start + e))
          = (escaped && decide (e + k = e)) := by
        congr 2
        exact propext ⟨fun h => by omega, fun h => by omega⟩
      have hnext : start + (e + k + 1) = start + e + k + 1 := by omega
      rw [hk] at hr
      simp only [Option.map_some] at hr ⊢
      rw [hload, Machine.ok_bind, hsame]
      -- the branches are the same on both sides
      split_ifs at hr ⊢ with hdq hsq hbs hsep hzero hzero' hzero'
      · rw [← hnext]
        exact ih start (e + k + 1) t _ _ _ r hat (by omega) hr
      · rw [← hnext]
        exact ih start (e + k + 1) t _ _ _ r hat (by omega) hr
      · rw [← hnext]
        exact ih start (e + k + 1) t _ _ _ r hat (by omega) hr
      · cases hr
        obtain ⟨block, hstore, hfront, hback⟩ := hat.cut (z := nul) (k := e + k) (by omega)
        rw [← Nat.add_assoc] at hstore hback
        rw [hstore, Machine.ok_bind]
        refine ⟨_, rfl, ?_, ?_, rfl⟩
        · rw [stringAt, hfront, cells, List.append_assoc]
          exact cStr_append (fun h => hnult (List.mem_of_mem_take h)) _
        · rw [Option.map_some, stringAt, hback, cells]
          exact congrArg some (cStr_append (fun h => hnult (List.mem_of_mem_drop h)) [])
      · omega
      · omega
      · obtain ⟨ch, t, rfl⟩ := List.exists_cons_of_ne_nil (List.ne_nil_of_length_pos (l := t) (by omega))
        exact ih (start + 1) 0 t _ _ _ r hat.next (Nat.zero_le _) hr
      · exact ih start (e + 1) t _ _ _ r hat (by omega) hr

/-- On a NUL-terminated string `argsep` ends and reads nothing behind the NUL. -/
theorem argsep_cells (delim : Str) (hnul : nul ∉ s) : ∃ a r, argsep delim (cells nul s) = .ok a ∧
    IpcTools.argsep delim s = .ok r ∧ stringAt a.block a.start = r.start ∧
      a.stringp.map (stringAt a.block) = r.stringp ∧ a.matched = r.matched := by
  obtain ⟨r, hr, -⟩ := IpcTools.argsep_spec delim s
  have hloop := hr
  rw [IpcTools.argsep] at hloop
  obtain ⟨a, ha, hspec⟩ := argsepLoop_cells delim hnul _ 0 0 s false false false r (.zero s)
    (Nat.zero_le _) hloop
  refine ⟨a, r, ?_, hr, hspec⟩
  rw [argsep, length_cells]
  exact ha

/-! ## `split_args` -/

open IpcTools (SplitState)

/-- Outside a token the next token is looked for. -/
def enterToken (block : List Char) (st : SplitState) : Except Trap SplitState :=
  if st.inToken then .ok st
  else do
    let e ← scan isSpace block st.endp
    return { st with start := e, endp := e, inToken := true }

/-- `add_token`; the copy of the token has a cell for its NUL. -/
def addToken (block : List Char) (st : SplitState) : Except Trap SplitState :=
  if st.endp - st.start > 0 then do
    let token ← copy block st.start (st.endp - st.start + 1)
    let token ← store token (st.endp - st.start) nul
    if st.argv.length < st.alloc then
      let argv := st.argv ++ [cStr token]
      let alloc := if argv.length + 1 = st.alloc then st.alloc * 2 else st.alloc
      return { st with argv := argv, alloc := alloc, inToken := false, escaped := false }
    else .error .outside
  else .ok { st with inToken := false, escaped := false }

/-- One round of the loop. -/
def splitStep (block : List Char) (st : SplitState) : Except Trap SplitState := do
  let st ← enterToken block st
  let ch ← load block st.endp
  match st.readChar ch with
  | none => addToken block st
  | some st => return { st with escaped := st.escaped && ch = backslash, endp := st.endp + 1 }

/-- The loop of `split_args`; at its end `argv` gets its null pointer. -/
def splitLoop (block : List Char) : ℕ → SplitState → Except Trap (List Str)
  | 0, _ => .error .diverges
  | n + 1, st => do
    let ch ← load block st.start
    if ch ≠ nul then splitStep block st >>= splitLoop block n
    else if st.argv.length < st.alloc then return st.argv
    else .error .outside

/-- `split_args`. -/
def splitArgs (block : List Char) : Except Trap (List Str) :=
  splitLoop block (2 * block.length) .init

variable {st st' : SplitState}

lemma load_charAt {i : ℕ} (h : i ≤ s.length) : load (cells nul s) i = .ok (charAt s i) :=
  load_cells h

lemma enterToken_cells (h : st.Inv s) :
    enterToken (cells nul s) st = .ok (st.enterToken s) := by
  rw [enterToken, SplitState.enterToken]
  split_ifs
  · rfl
  · rw [scan_cells (by decide) h.endp_le]
    rfl

lemma addToken_cells (hnul : nul ∉ s) (h : st.Inv s) (hadd : st.addToken s = .ok st') :
    addToken (cells nul s) st = .ok st' := by
  have hstart := h.start_le
  have hend := h.endp_le
  have hat : At s st.start (s.drop st.start) := ⟨by omega, rfl⟩
  rw [SplitState.addToken] at hadd
  rw [addToken]
  split_ifs at hadd ⊢ with hlen hfull
  · -- the cells of the token and the one behind it
    have hle : st.endp - st.start ≤ (s.drop st.start).length := by
      rw [List.length_drop]
      omega
    obtain ⟨token, hcopy, hstore⟩ := hat.copy_terminated (z := nul) hle
    rw [hcopy, Machine.ok_bind, hstore, Machine.ok_bind, cells,
      cStr_append (fun h => hnul (List.mem_of_mem_drop (List.mem_of_mem_take h))) []]
    cases hadd
    rfl
  · cases hadd
    rfl

lemma splitStep_cells (hnul : nul ∉ s) (h : st.Inv s) (hstep : st.step s = .ok st') :
    splitStep (cells nul s) st = .ok st' := by
  obtain ⟨henter, -⟩ := SplitState.enterToken_spec h
  rw [SplitState.step] at hstep
  rw [splitStep, enterToken_cells h, Machine.ok_bind, load_charAt henter.endp_le,
    Machine.ok_bind]
  cases hread : (st.enterToken s).readChar (charAt s (st.enterToken s).endp) with
  | none =>
    rw [hread] at hstep
    exact addToken_cells hnul henter hstep
  | some st₁ =>
    rw [hread] at hstep
    cases hstep
    rfl

lemma splitLoop_cells (hnul : nul ∉ s) : ∀ (n : ℕ) (st : SplitState) (argv : List Str), st.Inv s →
    IpcTools.splitLoop s n st = .ok argv → splitLoop (cells nul s) n st = .ok argv := by
  intro n
  induction n with
  | zero => intro _ _ _ h; cases h
  | succ n ih =>
    intro st argv h hloop
    have hle : st.start ≤ s.length := h.start_le.trans h.endp_le
    rw [IpcTools.splitLoop] at hloop
    rw [splitLoop, load_charAt hle, Machine.ok_bind]
    split_ifs at hloop ⊢ with hstart hfull
    · obtain ⟨st', hstep, hinv, -⟩ := SplitState.step_spec h hstart
      rw [hstep, Machine.ok_bind] at hloop
      rw [splitStep_cells hnul h hstep, Machine.ok_bind]
      exact ih st' argv hinv hloop
    · cases hloop
      rfl

/-- On a NUL-terminated string `split_args` ends and reads nothing behind the NUL. -/
theorem splitArgs_cells (hnul : nul ∉ s) : ∃ argv, splitArgs (cells nul s) = .ok argv ∧
    IpcTools.splitArgs s = .ok argv := by
  obtain ⟨argv, hargv, -⟩ := IpcTools.splitArgs_spec s
  refine ⟨argv, ?_, hargv⟩
  rw [splitArgs, length_cells, Nat.mul_add]
  exact splitLoop_cells hnul _ _ _ (SplitState.init_inv s) hargv

end Bounded

end WayfireIpc
