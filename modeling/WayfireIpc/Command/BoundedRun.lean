/-
# Running a command string in memory

The loops of `execute_command` and of all that it calls on a command string, as they go through the
memory of the string: every read is checked against the terminating NUL, and a loop that has used
up its rounds is a fault.  They do what running the text does, so they end, and nothing behind a
terminating NUL is read.  The handlers are given the words as texts.
-/
import WayfireIpc.Command.Rounds
import WayfireIpc.Command.Splitting
import WayfireIpc.Command.BoundedCriteria

namespace WayfireIpc

open Terminated

namespace Bounded

variable (W : Commands)

/-- The loop that takes the quotes off the words which begin with one. -/
def stripArgs (name : Str) (args : List Str) : Except Trap (List Str) :=
  if name ≠ "exec".toList ∧ name ≠ "exec_always".toList ∧ name ≠ "mode".toList then
    args.mapM fun arg => do
      let ch ← load (cells nul arg) 0
      if ch = doubleQuote ∨ ch = singleQuote then cStr <$> stripQuotes (cells nul arg)
      else return arg
  else return args

/-- The part of a round behind "Handling command". -/
def runCommand (s : Exec) (cmd : List Char) : Except Trap (Exec × Flow) := do
  match ← splitArgs cmd with
  | [] => return (s, .failed .nullPointer)
  | name :: args =>
    let args ← stripArgs name args
    match coreHandler name with
    | none => return (s.append ⟨.notFound, some ("Unknown command ".toList ++ name)⟩, .cleanup)
    | some handler =>
      if ¬ s.usingCriteria then return s.runPlain W handler args
      else if s.containers = [] then return (s.append .noMatchingNode, .next)
      else return Exec.runContainers W handler args s.containers s

/-- The part of a round behind the criteria block; of the memory the command gets what is in front
of its own NUL. -/
def nextCommand (s : Exec) (head : List Char) : Except Trap (Exec × Flow) := do
  let r ← argsep ";,".toList head
  let s := { s with head := r.stringp.map (stringAt r.block), matchedDelim := r.matched }
  let cmd := cells nul (stringAt r.block r.start)
  let k ← scan isSpace cmd 0
  let cmd := cmd.drop k
  let ch ← load cmd 0
  if ch = nul then return (s, .next)
  else runCommand W (s.note (.handling (cStr cmd))) cmd

/-- One round of the loop. -/
def round (s : Exec) (head : Str) : Except Trap (Exec × Flow) := do
  let block := cells nul head
  let k ← scan isSpace block 0
  let block := block.drop k
  if s.matchedDelim = ';' then
    let s := { s with usingCriteria := false }
    let ch ← load block 0
    if ch = '[' then
      match ← parse W.library s.compositor block with
      | .error error =>
        let r := ⟨.invalidParameter, some error⟩
        return ({ s with resList := s.resList ++ [r], log := s.log ++ [.parseError r] }, .cleanup)
      | .ok criteria =>
        match criteria.getContainers W.library s.compositor with
        | .error f => return (s, .failed f)
        | .ok containers =>
          let s := { s with containers := containers, usingCriteria := true }
          let k ← scan isSpace block criteria.raw.length
          nextCommand W s (block.drop k)
    else nextCommand W s block
  else nextCommand W s block

/-- The loop. -/
def loop : ℕ → Exec → Except Trap (Exec × Flow)
  | 0, _ => .error .diverges
  | n + 1, s =>
    match s.head with
    | none => return (s, .cleanup)
    | some head => do
      match ← round W s head with
      | (s, .next) => loop n s
      | r => return r

/-- `execute_command`, with the string that `strdup` makes. -/
def executeCommand (exec : Str) (c : Compositor) : Except Trap (Exec × Flow) :=
  loop W ((cells nul (cStr exec)).length + 1) (Exec.init exec c)

variable {W} {s : Exec} {t : Str}

lemma stripArgs_cells {args : List Str} (hnul : ∀ arg ∈ args, nul ∉ arg) (name : Str) :
    stripArgs name args = .ok (Exec.stripArgs name args) := by
  rw [stripArgs, Exec.stripArgs]
  split_ifs
  · refine Machine.mapM_eq_map fun arg harg => ?_
    rw [load_charAt (Nat.zero_le _), Machine.ok_bind]
    split_ifs
    · obtain ⟨block, hstrip, -, hcstr, -⟩ := stripQuotes_block (hnul arg harg)
      rw [hstrip, Machine.map_ok, hcstr]
    · rfl
  · rfl

lemma runCommand_cells (hnul : nul ∉ t) :
    runCommand W s (cells nul t) = .ok (s.runCommand W t) := by
  obtain ⟨argv, hcells, hargv⟩ := splitArgs_cells hnul
  have hsubset := IpcTools.splitArgs_subset hnul hargv
  rw [runCommand, hcells, Machine.ok_bind, Exec.runCommand, hargv]
  cases argv with
  | nil => rfl
  | cons name args =>
    have hargs : ∀ arg ∈ args, nul ∉ arg := fun arg harg h =>
      hnul (hsubset arg (List.mem_cons_of_mem _ harg) h)
    simp only
    rw [stripArgs_cells hargs, Machine.ok_bind]
    cases coreHandler name with
    | none => rfl
    | some handler =>
      simp only
      split_ifs <;> rfl

/-- The blanks in front of a text are skipped. -/
lemma skipBlanks_cells (t : Str) : ∃ k, scan isSpace (cells nul t) 0 = .ok k ∧
    (cells nul t).drop k = cells nul (skipBlanks t) := by
  obtain ⟨k, hscan, hat, -⟩ := (At.zero t).scan (z := nul) (q := isSpace) (by decide)
  exact ⟨k, hscan, hat.drop_cells⟩

lemma nextCommand_cells (hnul : nul ∉ t) :
    nextCommand W s (cells nul t) = .ok (s.nextCommand W t) := by
  obtain ⟨a, r, ha, hr, hstart, hstringp, hmatched⟩ := argsep_cells ";,".toList hnul
  obtain ⟨r', hr', hcut⟩ := IpcTools.argsep_spec ";,".toList t
  obtain rfl : r = r' := Except.ok.inj (hr.symm.trans hr')
  obtain ⟨k, hscan, hdrop⟩ := skipBlanks_cells r.start
  have hcmd : nul ∉ skipBlanks r.start := fun h =>
    hnul (hcut.start_subset ((List.dropWhile_suffix _).subset h))
  rw [nextCommand, ha, Machine.ok_bind, Exec.nextCommand, hr]
  simp only
  rw [hstart, hstringp, hmatched, hscan, Machine.ok_bind, hdrop, (At.zero _).load,
    Machine.ok_bind]
  by_cases hempty : skipBlanks r.start = []
  · rw [if_pos ((headD_eq_nul_iff hcmd).mpr hempty), if_pos hempty]
    rfl
  · rw [if_neg fun h => hempty ((headD_eq_nul_iff hcmd).mp h), if_neg hempty,
      runCommand_cells hcmd, cells, cStr_append hcmd []]

lemma round_cells (hnul : nul ∉ t) : round W s t = .ok (s.round W t) := by
  obtain ⟨k, hscan, hdrop⟩ := skipBlanks_cells t
  have hhead : nul ∉ skipBlanks t := fun h => hnul ((List.dropWhile_suffix _).subset h)
  rw [round]
  simp only
  rw [hscan, Machine.ok_bind, hdrop, (At.zero _).load, Machine.ok_bind, Exec.round]
  simp only
  by_cases hdelim : s.matchedDelim = ';'
  · rw [if_pos hdelim, if_pos hdelim]
    by_cases hopen : (skipBlanks t).head? = some '['
    · rw [if_pos ((headD_eq_iff (by decide)).mpr hopen), if_pos hopen]
      obtain ⟨r, hcells, hparse, hraw⟩ := parse_cells W.library s.compositor hhead
      rw [hcells, Machine.ok_bind]
      simp only [hparse]
      cases r with
      | error error => rfl
      | ok criteria =>
        simp only
        cases criteria.getContainers W.library s.compositor with
        | error f => rfl
        | ok containers =>
          -- behind the block the blanks are skipped once more
          have hat : At (skipBlanks t) criteria.raw.length
              ((skipBlanks t).drop criteria.raw.length) := ⟨hraw criteria rfl, rfl⟩
          obtain ⟨k, hscan', hat', -⟩ := hat.scan (z := nul) (q := isSpace) (by decide)
          have hrest : nul ∉ skipBlanks ((skipBlanks t).drop criteria.raw.length) := fun h =>
            hhead (hat'.subset h)
          simp only
          rw [hscan', Machine.ok_bind, hat'.drop_cells]
          exact nextCommand_cells hrest
    · rw [if_neg fun h => hopen ((headD_eq_iff (by decide)).mp h), if_neg hopen]
      exact nextCommand_cells hhead
  · rw [if_neg hdelim, if_neg hdelim]
    exact nextCommand_cells hhead

lemma loop_cells : ∀ (n : ℕ) (s : Exec), (∀ t, s.head = some t → nul ∉ t ∧ t.length + 1 < n) →
    0 < n → loop W n s = .ok (Exec.loop W n s) := by
  intro n
  induction n with
  | zero => exact fun _ _ h => absurd h (Nat.lt_irrefl 0)
  | succ n ih =>
    intro s hs _
    rw [loop, Exec.loop]
    cases hhead : s.head with
    | none => rfl
    | some head =>
      obtain ⟨hnul, hlen⟩ := hs head hhead
      -- what is left is shorter
      obtain ⟨-, hsub, hshort⟩ := Exec.round_spec (W := W) s hnul
      simp only
      rw [round_cells hnul, Machine.ok_bind]
      rcases hround : s.round W head with ⟨s', flow⟩
      rw [hround] at hsub hshort
      cases flow with
      | next =>
        refine ih s' (fun t ht => ⟨fun h => hnul (hsub rfl t ht h), ?_⟩) (by omega)
        have := hshort rfl t ht
        omega
      | cleanup => rfl
      | failed f => rfl

/-- All loops that `execute_command` runs on a string end, and none of them reads anything behind
the terminating NUL: with every read checked and every loop bounded it runs the string as it is
run without. -/
theorem executeCommand_cells (W : Commands) (exec : Str) (c : Compositor) :
    executeCommand W exec c = .ok (WayfireIpc.executeCommand W exec c) := by
  rw [executeCommand, length_cells]
  refine loop_cells ((cStr exec).length + 2) (Exec.init exec c) ?_ (Nat.succ_pos _)
  rintro t ⟨⟩
  exact ⟨Exec.nul_not_mem_cStr exec, Nat.lt_succ_self _⟩

end Bounded

end WayfireIpc
