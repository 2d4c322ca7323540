/-
# The criteria in effect

Which criteria block is in effect when `execute_command` runs a command, compared with the
block of the segment in which the command stands.  The two differ where `argsep` skips a
semicolon.
-/
import WayfireIpc.Command.Scope
import WayfireIpc.Command.Rounds
import WayfireIpc.Command.Context

namespace WayfireIpc
namespace Exec

variable (W : Commands)

/-! ## Rounds -/

/-- The criteria block that a round reads at the text `head`. -/
def blockAt (s : Exec) (head : Str) : Option Str :=
  if s.matchedDelim = ';' ∧ (skipBlanks head).head? = some '[' then
    match Criteria.parse W.library s.compositor (skipBlanks head) with
    | .ok (.ok criteria) => some criteria.raw
    | _ => none
  else none

/-- The criteria block in effect in a round, if `b` was in effect before it. -/
def blockIn (s : Exec) (head : Str) (b : Option Str) : Option Str :=
  if s.matchedDelim = ';' then s.blockAt W head else b

/-- The text that a round gives to `argsep`. -/
def commandText (s : Exec) (head : Str) : Str :=
  match s.blockAt W head with
  | some raw => skipBlanks ((skipBlanks head).drop raw.length)
  | none => skipBlanks head

/-- The separators that have been skipped since the last `;` that ended a command. -/
def skippedIn (s : Exec) (head skipped : Str) : Str :=
  (if s.matchedDelim = ';' then [] else skipped) ++ (s.commandText W head).takeWhile IpcTools.isSeparator

/-- The text from the command of a round on. -/
def fromCommand (s : Exec) (head : Str) : Str :=
  skipBlanks ((s.commandText W head).dropWhile IpcTools.isSeparator)

/-- A round that starts in `s` handles a command. -/
def Handles (s : Exec) (head : Str) : Prop :=
  ∃ cmd evs, (s.round W head).1.log = s.log ++ .handling cmd :: evs

/-- The starts of the rounds of a run, with the criteria block that is in effect and the separators
that have been skipped. -/
inductive Reached (exec : Str) (c : Compositor) : Exec → Option Str → Str → Prop
  | init : Reached exec c (init exec c) none []
  | next {s : Exec} {b : Option Str} {skipped head : Str} (h : Reached exec c s b skipped)
      (hhead : s.head = some head) (hflow : (s.round W head).2 = .next) :
      Reached exec c (s.round W head).1 (s.blockIn W head b) (s.skippedIn W head skipped)

/-- A round runs its command under the criteria block of the segment in which the command stands,
and what it runs is not a criteria block. -/
structure InScope (exec : Str) (s : Exec) (head : Str) (b : Option Str) : Prop where
  block : s.blockIn W head b
    = (Scope.fresh.after (exec.take (exec.length - (s.fromCommand W head).length))).block
  usingCriteria : (s.round W head).1.usingCriteria
    = (Scope.fresh.after (exec.take (exec.length - (s.fromCommand W head).length))).block.isSome
  command : ¬ ((Scope.fresh.after
      (exec.take (exec.length - (s.fromCommand W head).length))).place = .fresh ∧
    (s.fromCommand W head).head? = some '[')

/-- No semicolon is lost: the one that is skipped directly before the command is not followed by a
criteria block, and under criteria none has been skipped since the segment began. -/
structure KeepsSemicolons (s : Exec) (head : Str) (b : Option Str) (skipped : Str) : Prop where
  block : ¬ (((s.commandText W head).takeWhile IpcTools.isSeparator).getLast? = some ';' ∧
    (s.fromCommand W head).head? = some '[')
  criteria : s.blockIn W head b = none ∨ ';' ∉ s.skippedIn W head skipped

/-! ## What a round leaves -/

variable {W}

/-- The variables of the loop that running a command leaves as they are. -/
structure SameLoop (s s' : Exec) : Prop where
  head : s'.head = s.head
  matchedDelim : s'.matchedDelim = s.matchedDelim
  usingCriteria : s'.usingCriteria = s.usingCriteria
  containers : s'.containers = s.containers

lemma SameLoop.refl (s : Exec) : SameLoop s s := ⟨rfl, rfl, rfl, rfl⟩

lemma SameLoop.trans {s s₁ s₂ : Exec} (h : SameLoop s s₁) (h' : SameLoop s₁ s₂) : SameLoop s s₂ :=
  ⟨h'.head.trans h.head, h'.matchedDelim.trans h.matchedDelim,
    h'.usingCriteria.trans h.usingCriteria, h'.containers.trans h.containers⟩

lemma sameLoop_callHandler (s : Exec) (name : CommandName) (argv : List Str)
    (context : Except Failure CommandHandlerContext) :
    SameLoop s (s.callHandler W name argv context).1 := by
  cases context with
  | error f => exact .refl s
  | ok ctx =>
    rw [callHandler]
    split <;> exact ⟨rfl, rfl, rfl, rfl⟩

lemma sameLoop_runPlain (s : Exec) (name : CommandName) (argv : List Str) :
    SameLoop s (s.runPlain W name argv).1 := by
  rw [runPlain]
  cases s.compositor.activeOutput with
  | none => exact .refl s
  | some out =>
    have hcall := sameLoop_callHandler (W := W) s name argv (s.plainContext out)
    simp only
    cases heq : s.callHandler W name argv (s.plainContext out) with
    | mk s' res =>
      rw [heq] at hcall
      cases res with
      | error f => exact hcall
      | ok res => exact hcall.trans ⟨rfl, rfl, rfl, rfl⟩

lemma sameLoop_runContainers (name : CommandName) (argv : List Str) :
    ∀ (containers : List Node) (s : Exec),
      SameLoop s (runContainers W name argv containers s).1 := by
  intro containers
  induction containers with
  | nil => exact fun s => ⟨rfl, rfl, rfl, rfl⟩
  | cons container containers ih =>
    intro s
    have hcall := sameLoop_callHandler (W := W) s name argv
      (setConfigNode s.compositor container true)
    rw [runContainers]
    cases heq : s.callHandler W name argv (setConfigNode s.compositor container true) with
    | mk s' res =>
      rw [heq] at hcall
      cases res with
      | error f => exact hcall
      | ok res =>
        simp only
        split_ifs
        · exact hcall.trans (ih s')
        · exact hcall.trans ⟨rfl, rfl, rfl, rfl⟩

lemma sameLoop_runCommand (s : Exec) (cmd : Str) : SameLoop s (s.runCommand W cmd).1 := by
  rw [runCommand]
  split
  · exact .refl s
  · exact .refl s
  · simp only
    split
    · exact ⟨rfl, rfl, rfl, rfl⟩
    · split_ifs
      · exact ⟨rfl, rfl, rfl, rfl⟩
      · exact sameLoop_runContainers _ _ _ s
      · exact sameLoop_runPlain s _ _

/-- Cutting off and running a command leaves the criteria as they are. -/
lemma criteria_nextCommand (s : Exec) (text : Str) :
    (s.nextCommand W text).1.usingCriteria = s.usingCriteria ∧
      (s.nextCommand W text).1.containers = s.containers := by
  rw [nextCommand]
  split
  · exact ⟨rfl, rfl⟩
  · simp only
    split_ifs
    · exact ⟨rfl, rfl⟩
    · exact ⟨(sameLoop_runCommand _ _).usingCriteria, (sameLoop_runCommand _ _).containers⟩

lemma Tail.exists_log {s s' : Exec} {flow : Flow} (h : Tail W s s' flow) :
    ∃ evs, s'.log = s.log ++ evs := by
  cases h with
  | passed calls h _ => exact ⟨_, h.log⟩
  | stopped calls h _ => exact ⟨_, h.log⟩
  | failed calls h _ => exact ⟨_, h.log⟩

/-- A command is cut off the text; a blank one is passed over, another one is handled. -/
lemma nextCommand_cases (s : Exec) {text : Str} (hbs : backslash ∉ text) (hnul : nul ∉ text) :
    ∃ r, r = IpcTools.Argsep.ofCut [] (text.dropWhile IpcTools.isSeparator)
        (IpcTools.cut .none (text.dropWhile IpcTools.isSeparator)) ∧
      (s.nextCommand W text).1.head = r.stringp ∧
      (s.nextCommand W text).1.matchedDelim = r.matched ∧
      (if skipBlanks r.start = [] then (s.nextCommand W text).1.log = s.log
        else ∃ cmd evs, (s.nextCommand W text).1.log = s.log ++ .handling cmd :: evs) := by
  refine ⟨_, rfl, ?_⟩
  have hstart : (IpcTools.Argsep.ofCut [] (text.dropWhile IpcTools.isSeparator)
      (IpcTools.cut .none (text.dropWhile IpcTools.isSeparator))).start ⊆ text := by
    refine List.Subset.trans ?_ (List.dropWhile_subset IpcTools.isSeparator)
    cases hcut : IpcTools.cut .none (text.dropWhile IpcTools.isSeparator) with
    | none => exact List.Subset.refl _
    | some r =>
      obtain ⟨piece, d, rest⟩ := r
      rw [(IpcTools.eq_of_cut hcut).1]
      exact List.subset_append_left _ _
  rw [nextCommand, ← IpcTools.separators_eq, IpcTools.argsep_eq hbs]
  simp only
  generalize IpcTools.Argsep.ofCut [] (text.dropWhile IpcTools.isSeparator)
    (IpcTools.cut .none (text.dropWhile IpcTools.isSeparator)) = r at hstart
  split_ifs with hblank
  · -- a blank piece is no command
    exact ⟨rfl, rfl, rfl⟩
  · -- the command is handled, whatever comes of it
    have hcmd : nul ∉ skipBlanks r.start := fun h => hnul (hstart (List.dropWhile_subset _ h))
    obtain ⟨s₁, hs₁⟩ : ∃ s₁, s₁ = note
        ({ s with head := r.stringp, matchedDelim := r.matched } : Exec)
        (.handling (skipBlanks r.start)) := ⟨_, rfl⟩
    rw [← hs₁]
    have hsame := sameLoop_runCommand (W := W) s₁ (skipBlanks r.start)
    obtain ⟨evs, hlog⟩ :=
      (runCommand_tail (W := W) s₁ hblank hcmd (isSpace_skipBlanks _)).exists_log
    refine ⟨?_, ?_, skipBlanks r.start, evs, ?_⟩
    · rw [hsame.head, hs₁]
      rfl
    · rw [hsame.matchedDelim, hs₁]
      rfl
    · rw [hlog, hs₁, note, List.append_assoc]
      rfl

/-- A round reads its criteria block and then cuts off a command, or it ends the run at the block
without handling a command. -/
lemma round_cases (s : Exec) (head : Str) {b : Option Str} (hb : s.usingCriteria = b.isSome) :
    ((s.round W head).2 ≠ .next ∧ ¬ s.Handles W head) ∨
    ∃ s₁ : Exec, s.round W head = s₁.nextCommand W (s.commandText W head) ∧ s₁.log = s.log ∧
      s₁.usingCriteria = (s.blockIn W head b).isSome ∧
      (s.matchedDelim = ';' → s.blockAt W head = none → (skipBlanks head).head? ≠ some '[') ∧
      (s.blockAt W head = none ∧ s₁.containers = s.containers ∨
        ∃ ks, s.blockAt W head = some ks.raw ∧
          Criteria.parse W.library s.compositor (skipBlanks head) = .ok (.ok ks) ∧
          ks.getContainers W.library s.compositor = .ok s₁.containers) := by
  by_cases hdelim : s.matchedDelim = ';'
  · by_cases hbracket : (skipBlanks head).head? = some '['
    · have hround := rfl (a := s.round W head)
      conv_rhs at hround => rw [round]
      simp only [if_pos hdelim, if_pos hbracket] at hround
      obtain ⟨result, hparse⟩ := Criteria.parse_ends W.library s.compositor (skipBlanks head)
      rw [hparse] at hround
      cases result with
      | error error =>
        refine Or.inl ⟨by rw [hround]; rintro ⟨⟩, ?_⟩
        rintro ⟨cmd, evs, hlog⟩
        rw [hround] at hlog
        have := List.append_cancel_left hlog
        cases this
      | ok criteria =>
        simp only at hround
        cases hget : criteria.getContainers W.library s.compositor with
        | error f =>
          rw [hget] at hround
          refine Or.inl ⟨by rw [hround]; rintro ⟨⟩, ?_⟩
          rintro ⟨cmd, evs, hlog⟩
          rw [hround] at hlog
          simp at hlog
        | ok containers =>
          rw [hget] at hround
          have hblock : s.blockAt W head = some criteria.raw := by
            rw [blockAt, if_pos ⟨hdelim, hbracket⟩, hparse]
          refine Or.inr ⟨{ s with containers := containers, usingCriteria := true }, ?_, rfl, ?_, ?_,
            Or.inr ⟨criteria, hblock, hparse, hget⟩⟩
          · rw [hround, commandText, hblock]
          · rw [blockIn, if_pos hdelim, hblock]
            rfl
          · intro _ hnone
            rw [hblock] at hnone
            cases hnone
    · have hblock : s.blockAt W head = none := if_neg fun h => hbracket h.2
      refine Or.inr ⟨{ s with usingCriteria := false }, ?_, rfl, ?_, fun _ _ => hbracket,
        Or.inl ⟨hblock, rfl⟩⟩
      · rw [round, commandText, hblock]
        simp only [if_pos hdelim, if_neg hbracket]
      · rw [blockIn, if_pos hdelim, hblock]
        rfl
  · have hblock : s.blockAt W head = none := if_neg fun h => hdelim h.1
    refine Or.inr ⟨s, ?_, rfl, ?_, fun h => absurd h hdelim, Or.inl ⟨hblock, rfl⟩⟩
    · rw [round, commandText, hblock]
      simp only [if_neg hdelim]
    · rw [blockIn, if_neg hdelim, hb]

/-! ## The invariant of the rounds -/

/-- At the start of a round that is not behind a lost semicolon, the loop knows where it is. -/
structure ScopeInv (exec : Str) (s : Exec) (b : Option Str) (skipped : Str) : Prop where
  usingCriteria : s.usingCriteria = b.isSome
  place : ∀ head, s.head = some head → ∃ pre, exec = pre ++ head ∧
    (s.matchedDelim = ';' ∧ Scope.fresh.after pre = Scope.fresh ∨
      s.matchedDelim ≠ ';' ∧ (Scope.fresh.after pre).place = .body .none ∧
        (Scope.fresh.after pre).block = if ';' ∈ skipped then none else b)

/-- What is known at the place where a round begins its command. -/
structure CommandPlace (W : Commands) (exec : Str) (s : Exec) (head : Str) (b : Option Str)
    (skipped pre : Str) : Prop where
  text : exec = pre ++ (s.commandText W head).dropWhile IpcTools.isSeparator
  plain : (Scope.fresh.after pre).Plain
  block : (Scope.fresh.after pre).block
    = if ';' ∈ s.skippedIn W head skipped then none else s.blockIn W head b
  fresh : (Scope.fresh.after pre).place = .fresh ↔
    ((s.commandText W head).takeWhile IpcTools.isSeparator).getLast? = some ';' ∨
      (s.commandText W head).takeWhile IpcTools.isSeparator = [] ∧ s.matchedDelim = ';' ∧
        s.blockAt W head = none

variable {exec : Str} {s : Exec} {b : Option Str} {skipped head : Str}

lemma exists_blanks (t : Str) : ∃ u, t = u ++ skipBlanks t ∧ ∀ ch ∈ u, isSpace ch = true :=
  ⟨t.takeWhile isSpace, List.takeWhile_append_dropWhile.symm, fun _ h => List.mem_takeWhile_imp h⟩

lemma exists_of_blockAt {raw : Str} (h : s.blockAt W head = some raw) :
    (skipBlanks head).head? = some '[' ∧ ∃ ks,
      Criteria.parse W.library s.compositor (skipBlanks head) = .ok (.ok ks) ∧ ks.raw = raw := by
  rw [blockAt] at h
  split_ifs at h with hcond
  refine ⟨hcond.2, ?_⟩
  split at h
  · rename_i ks hparse
    exact ⟨ks, hparse, Option.some_injective _ h⟩
  · cases h

/-- The place behind the criteria block, if the round reads one. -/
lemma ScopeInv.behindBlock (h : ScopeInv exec s b skipped) (hhead : s.head = some head)
    (hbs : backslash ∉ exec) : ∃ pre, exec = pre ++ s.commandText W head ∧
      (Scope.fresh.after pre).Plain ∧ (Scope.fresh.after pre).block
        = (if ';' ∈ (if s.matchedDelim = ';' then [] else skipped) then none
            else s.blockIn W head b) ∧
      ((Scope.fresh.after pre).place = .fresh ↔
        s.matchedDelim = ';' ∧ s.blockAt W head = none) := by
  obtain ⟨pre, hpre, hplace⟩ := h.place head hhead
  obtain ⟨u, hu, hblanks⟩ := exists_blanks head
  have hsplit : exec = (pre ++ u) ++ skipBlanks head := by rw [List.append_assoc, ← hu, hpre]
  rcases hplace with ⟨hdelim, hσ⟩ | ⟨hdelim, hbody, hσ⟩
  · have hσ' : Scope.fresh.after (pre ++ u) = Scope.fresh := by
      rw [Scope.after_append, hσ]
      exact Scope.Plain.after_blanks (Or.inl rfl) hblanks
    cases hat : s.blockAt W head with
    | none =>
      refine ⟨pre ++ u, by rw [commandText, hat]; exact hsplit, ?_⟩
      rw [hσ', blockIn, if_pos hdelim, if_pos hdelim, hat]
      exact ⟨Or.inl rfl, by simp [Scope.fresh], by simp [Scope.fresh, hdelim]⟩
    | some raw =>
      obtain ⟨hbracket, ks, hparse, rfl⟩ := exists_of_blockAt hat
      obtain ⟨rest, hrest, hafter⟩ := Criteria.parse_scope hparse hbracket fun h =>
        hbs (by rw [hsplit]; exact List.mem_append_right _ h)
      obtain ⟨u', hu', hblanks'⟩ := exists_blanks rest
      have htext : s.commandText W head = skipBlanks rest := by
        have hdrop : (skipBlanks head).drop ks.raw.length = rest := by
          rw [hrest]
          exact List.drop_left
        rw [commandText, hat]
        simp only [hdrop]
      have hσ₁ : Scope.fresh.after (pre ++ u ++ (ks.raw ++ u')) = ⟨some ks.raw, .body .none⟩ := by
        rw [Scope.after_append, hσ', Scope.after_append, hafter]
        exact Scope.Plain.after_blanks (Or.inr rfl) hblanks'
      refine ⟨pre ++ u ++ (ks.raw ++ u'), ?_, ?_⟩
      · rw [htext, List.append_assoc (pre ++ u), List.append_assoc ks.raw, ← hu', ← hrest,
          ← hsplit]
      · rw [hσ₁, blockIn, if_pos hdelim, if_pos hdelim, hat]
        exact ⟨Or.inr rfl, by simp, by simp⟩
  · have hσ' : Scope.fresh.after (pre ++ u) = Scope.fresh.after pre := by
      rw [Scope.after_append]
      exact Scope.Plain.after_blanks (Or.inr hbody) hblanks
    have hat : s.blockAt W head = none := if_neg fun h => hdelim h.1
    refine ⟨pre ++ u, by rw [commandText, hat]; exact hsplit, ?_⟩
    rw [hσ', hσ, hbody, blockIn, if_neg hdelim, if_neg hdelim]
    exact ⟨Or.inr hbody, rfl, by simp [hdelim]⟩

/-- The place behind the separators in front of the command. -/
lemma ScopeInv.commandPlace (h : ScopeInv exec s b skipped) (hhead : s.head = some head)
    (hbs : backslash ∉ exec) : ∃ pre, CommandPlace W exec s head b skipped pre := by
  obtain ⟨pre₁, hpre₁, hplain, hblock, hfresh⟩ := h.behindBlock (W := W) hhead hbs
  obtain ⟨hplain', hblock', hfresh'⟩ := hplain.after_separators
    (s := (s.commandText W head).takeWhile IpcTools.isSeparator)
    fun _ h => List.mem_takeWhile_imp h
  rw [← Scope.after_append] at hplain' hblock' hfresh'
  refine ⟨pre₁ ++ (s.commandText W head).takeWhile IpcTools.isSeparator, ?_, hplain', ?_, ?_⟩
  · rw [List.append_assoc, List.takeWhile_append_dropWhile, hpre₁]
  · rw [hblock', hblock, skippedIn]
    by_cases hsemi : ';' ∈ (s.commandText W head).takeWhile IpcTools.isSeparator
    · simp only [List.mem_append, hsemi, or_true, if_true]
    · simp only [List.mem_append, hsemi, or_false, if_false]
  · rw [hfresh', hfresh]

/-- What is known in front of the command itself. -/
lemma CommandPlace.fromCommand {pre : Str} (h : CommandPlace W exec s head b skipped pre) :
    Scope.fresh.after (exec.take (exec.length - (s.fromCommand W head).length))
      = Scope.fresh.after pre := by
  obtain ⟨u, hu, hblanks⟩ := exists_blanks ((s.commandText W head).dropWhile IpcTools.isSeparator)
  have hsplit : exec = (pre ++ u) ++ s.fromCommand W head := by
    rw [List.append_assoc, Exec.fromCommand, ← hu, ← h.text]
  have htake : exec.take (exec.length - (s.fromCommand W head).length) = pre ++ u := by
    conv_lhs => rw [hsplit]
    rw [List.length_append, Nat.add_sub_cancel, List.take_left]
  rw [htake, Scope.after_append]
  exact h.plain.after_blanks hblanks

/-- A criteria block at the place of the command stands behind a semicolon that is skipped. -/
lemma CommandPlace.fresh_block_iff {pre : Str} (h : CommandPlace W exec s head b skipped pre)
    (hbracket : s.matchedDelim = ';' → s.blockAt W head = none →
      (skipBlanks head).head? ≠ some '[') :
    (Scope.fresh.after pre).place = .fresh ∧ (s.fromCommand W head).head? = some '[' ↔
      ((s.commandText W head).takeWhile IpcTools.isSeparator).getLast? = some ';' ∧
        (s.fromCommand W head).head? = some '[' := by
  rw [h.fresh]
  refine ⟨?_, fun ⟨hlast, hhead⟩ => ⟨Or.inl hlast, hhead⟩⟩
  rintro ⟨hlast | ⟨hnil, hdelim, hat⟩, hhead⟩
  · exact ⟨hlast, hhead⟩
  · -- the block would have been read
    exfalso
    have htext : s.fromCommand W head = skipBlanks head := by
      have hdrop : (s.commandText W head).dropWhile IpcTools.isSeparator = s.commandText W head := by
        have := List.takeWhile_append_dropWhile (p := IpcTools.isSeparator)
          (l := s.commandText W head)
        rw [hnil, List.nil_append] at this
        exact this
      rw [Exec.fromCommand, hdrop, commandText, hat]
      exact List.dropWhile_idempotent _ _
    exact hbracket hdelim hat (htext ▸ hhead)

/-- At such a place a round runs its command in its scope exactly when it keeps the semicolons. -/
lemma CommandPlace.inScope_iff {pre : Str} (h : CommandPlace W exec s head b skipped pre)
    (husing : (s.round W head).1.usingCriteria = (s.blockIn W head b).isSome)
    (hbracket : s.matchedDelim = ';' → s.blockAt W head = none →
      (skipBlanks head).head? ≠ some '[') :
    s.InScope W exec head b ↔ s.KeepsSemicolons W head b skipped := by
  have hblock : s.blockIn W head b = (Scope.fresh.after pre).block ↔
      s.blockIn W head b = none ∨ ';' ∉ s.skippedIn W head skipped := by
    rw [h.block]
    split_ifs with hskipped
    · simp [hskipped]
    · simp [hskipped]
  have hcommand := h.fresh_block_iff hbracket
  constructor
  · rintro ⟨hb, -, hc⟩
    rw [h.fromCommand] at hb hc
    exact ⟨fun hlast => hc (hcommand.mpr hlast), hblock.mp hb⟩
  · rintro ⟨hc, hb⟩
    refine ⟨?_, ?_, ?_⟩ <;> rw [h.fromCommand]
    · exact hblock.mpr hb
    · rw [husing, hblock.mpr hb]
    · exact fun hfresh => hc (hcommand.mp hfresh)

/-- The place behind the command: the block is still that of the segment. -/
lemma CommandPlace.after_piece {pre piece rest : Str} {d : Char}
    (h : CommandPlace W exec s head b skipped pre)
    (hcut : IpcTools.cut .none ((s.commandText W head).dropWhile IpcTools.isSeparator)
      = some (piece, d, rest))
    (hcommand : skipBlanks piece ≠ [] → ¬ ((Scope.fresh.after pre).place = .fresh ∧
      (s.fromCommand W head).head? = some '[')) :
    ((Scope.fresh.after pre).after piece).Plain ∧
      ((Scope.fresh.after pre).after piece).block = (Scope.fresh.after pre).block := by
  rcases h.plain with hfresh | hbody
  · rw [hfresh]
    by_cases hblank : skipBlanks piece = []
    · rw [Scope.Plain.after_blanks (Or.inl rfl) (List.dropWhile_eq_nil_iff.mp hblank)]
      exact ⟨Or.inl rfl, rfl⟩
    · have hbracket : (skipBlanks ((s.commandText W head).dropWhile IpcTools.isSeparator)).head?
          ≠ some '[' := fun hhead => hcommand hblank ⟨by rw [hfresh]; rfl, hhead⟩
      rw [Scope.after_cut_fresh hcut hbracket, if_neg hblank]
      exact ⟨Or.inr rfl, rfl⟩
  · generalize Scope.fresh.after pre = σ at hbody
    obtain ⟨block, place⟩ := σ
    cases hbody
    rw [Scope.after_cut block hcut]
    exact ⟨Or.inr rfl, rfl⟩

lemma commandText_subset (s : Exec) (head : Str) : s.commandText W head ⊆ head := by
  rw [commandText]
  split
  · exact List.Subset.trans (List.dropWhile_subset _)
      (List.Subset.trans (List.drop_subset _ _) (List.dropWhile_subset _))
  · exact List.dropWhile_subset _

/-- A round that keeps the semicolons keeps the invariant. -/
lemma ScopeInv.round (h : ScopeInv exec s b skipped) (hhead : s.head = some head)
    (hbs : backslash ∉ exec) (hnul : nul ∉ exec) (hflow : (s.round W head).2 = .next)
    (hkeeps : s.Handles W head → s.KeepsSemicolons W head b skipped) :
    ScopeInv exec (s.round W head).1 (s.blockIn W head b) (s.skippedIn W head skipped) := by
  rcases round_cases (W := W) s head h.usingCriteria with
    ⟨hend, -⟩ | ⟨s₁, hround, hlog, husing, hbracket, -⟩
  · exact absurd hflow hend
  obtain ⟨pre, hplace⟩ := h.commandPlace (W := W) hhead hbs
  have hsubset : s.commandText W head ⊆ exec := by
    obtain ⟨pre', hpre', -⟩ := h.place head hhead
    rw [hpre']
    exact List.Subset.trans (commandText_subset s head) (List.subset_append_right _ _)
  have husing' := (criteria_nextCommand (W := W) s₁ (s.commandText W head)).1
  obtain ⟨r, hr, hstringp, hmatched, hhandles⟩ := nextCommand_cases (W := W) s₁
    (fun h => hbs (hsubset h)) (fun h => hnul (hsubset h))
  rw [← hround] at hstringp hmatched husing' hhandles
  refine ⟨husing'.trans husing, fun head' hhead' => ?_⟩
  rw [hstringp] at hhead'
  -- the round cuts at the first separator outside quotes
  cases hcut : IpcTools.cut .none ((s.commandText W head).dropWhile IpcTools.isSeparator) with
  | none =>
    rw [hcut] at hr
    rw [hr] at hhead'
    cases hhead'
  | some cutted =>
    obtain ⟨piece, d, rest⟩ := cutted
    obtain ⟨htext, hsep⟩ := IpcTools.eq_of_cut hcut
    rw [hcut] at hr
    obtain rfl : r = ⟨piece, some rest, d⟩ := hr
    cases hhead'
    have hcommand : skipBlanks piece ≠ [] → ¬ ((Scope.fresh.after pre).place = .fresh ∧
        (s.fromCommand W head).head? = some '[') := by
      intro hblank
      have hhandle : s.Handles W head := by
        rw [if_neg hblank, hlog] at hhandles
        exact hhandles
      exact fun hfresh => (hkeeps hhandle).block ((hplace.fresh_block_iff hbracket).mp hfresh)
    obtain ⟨hplain, hblock⟩ := hplace.after_piece hcut hcommand
    have hnext := hplain.next_separator hsep
    refine ⟨pre ++ (piece ++ [d]), ?_, ?_⟩
    · rw [hplace.text, htext]
      simp
    · rw [hmatched, Scope.after_append, Scope.after_append, Scope.after_cons, Scope.after_nil, hnext]
      by_cases hd : d = ';'
      · exact Or.inl ⟨hd, if_pos hd⟩
      · refine Or.inr ⟨hd, ?_, ?_⟩
        · rw [Scope.separated, if_neg hd]
        · rw [Scope.separated, if_neg hd]
          exact hblock.trans hplace.block

/-! ## Runs -/

variable {c : Compositor}

/-- The containers are those of the criteria block in effect. -/
lemma Reached.criteria (h : Reached W exec c s b skipped) : s.usingCriteria = b.isSome ∧
    ∀ raw, b = some raw → ∃ c₀ text ks, Criteria.parse W.library c₀ text = .ok (.ok ks) ∧
      ks.raw = raw ∧ ks.getContainers W.library c₀ = .ok s.containers := by
  induction h with
  | init => exact ⟨rfl, fun raw h => by cases h⟩
  | @next s b skipped head h hhead hflow ih =>
    rcases round_cases (W := W) s head ih.1 with
      ⟨hend, -⟩ | ⟨s₁, hround, -, husing, -, hcontainers⟩
    · exact absurd hflow hend
    obtain ⟨husing', hcontainers'⟩ := criteria_nextCommand (W := W) s₁ (s.commandText W head)
    rw [hround, husing', hcontainers', blockIn]
    refine ⟨husing, fun raw hraw => ?_⟩
    rcases hcontainers with ⟨hnone, hsame⟩ | ⟨ks, hks, hparse, hget⟩
    · split_ifs at hraw with hdelim
      · rw [hnone] at hraw
        cases hraw
      · rw [hsame]
        exact ih.2 raw hraw
    · split_ifs at hraw with hdelim
      · rw [hks] at hraw
        exact ⟨_, _, ks, hparse, Option.some_injective _ hraw, hget⟩
      · rw [blockAt, if_neg fun h => hdelim h.1] at hks
        cases hks

lemma loop_reached : ∀ (n : ℕ) {s : Exec} {b : Option Str} {skipped : Str},
    Reached W exec c s b skipped → (loop W n s).2 ≠ .failed .diverges →
      ∃ s' b' skipped', Reached W exec c s' b' skipped' ∧
        (loop W n s = (s', .cleanup) ∧ s'.head = none ∨
          ∃ head, s'.head = some head ∧ loop W n s = s'.round W head ∧ (loop W n s).2 ≠ .next) := by
  intro n
  induction n with
  | zero => exact fun _ hflow => absurd rfl hflow
  | succ n ih =>
    intro s b skipped h hflow
    cases hhead : s.head with
    | none => exact ⟨s, b, skipped, h, Or.inl ⟨by rw [loop, hhead], hhead⟩⟩
    | some head =>
      by_cases hnext : (s.round W head).2 = .next
      · have hloop : loop W (n + 1) s = loop W n (s.round W head).1 := by
          rw [loop, hhead]
          simp only
          rw [← Prod.mk.eta (p := s.round W head), hnext]
        rw [hloop] at hflow ⊢
        exact ih (h.next hhead hnext) hflow
      · have hloop : loop W (n + 1) s = s.round W head := by
          rw [loop, hhead]
          simp only
          split
          · rename_i hround
            rw [hround] at hnext
            exact absurd rfl hnext
          · rfl
        exact ⟨s, b, skipped, h, Or.inr ⟨head, hhead, hloop, by rwa [hloop]⟩⟩

/-- A run of `execute_command` that ends does so in a reached state, or in the round that begins
there. -/
theorem executeCommand_reached (W : Commands) (exec : Str) (c : Compositor)
    (hflow : (executeCommand W exec c).2 ≠ .failed .diverges) :
    ∃ s b skipped, Reached W exec c s b skipped ∧
      (executeCommand W exec c = (s, .cleanup) ∧ s.head = none ∨
        ∃ head, s.head = some head ∧ executeCommand W exec c = s.round W head ∧
          (executeCommand W exec c).2 ≠ .next) :=
  loop_reached _ .init hflow

/-- As long as the rounds keep the semicolons, the loop knows where it is. -/
lemma Reached.scopeInv (hbs : backslash ∉ cStr exec) (h : Reached W exec c s b skipped)
    (hkeeps : ∀ s b skipped head, Reached W exec c s b skipped → s.head = some head →
      ScopeInv (cStr exec) s b skipped → s.Handles W head → s.KeepsSemicolons W head b skipped) :
    ScopeInv (cStr exec) s b skipped := by
  induction h with
  | init =>
    refine ⟨rfl, fun head hhead => ⟨[], ?_, Or.inl ⟨rfl, rfl⟩⟩⟩
    cases hhead
    rfl
  | next h hhead hflow ih =>
    exact ih.round hhead hbs (nul_not_mem_cStr exec) hflow (hkeeps _ _ _ _ h hhead ih)

/-- In a round at which the loop knows where it is, a command is run in its scope exactly when the
round keeps the semicolons. -/
lemma ScopeInv.inScope_iff (h : ScopeInv exec s b skipped) (hhead : s.head = some head)
    (hbs : backslash ∉ exec) (hhandles : s.Handles W head) :
    s.InScope W exec head b ↔ s.KeepsSemicolons W head b skipped := by
  rcases round_cases (W := W) s head h.usingCriteria with
    ⟨-, hnot⟩ | ⟨s₁, hround, -, husing, hbracket, -⟩
  · exact absurd hhandles hnot
  obtain ⟨pre, hplace⟩ := h.commandPlace (W := W) hhead hbs
  refine hplace.inScope_iff ?_ hbracket
  rw [hround, (criteria_nextCommand s₁ _).1, husing]

/-- In a run of a string without backslashes every command is run under the criteria block of its
segment exactly when no round loses a semicolon. -/
theorem commands_inScope_iff (W : Commands) (exec : Str) (c : Compositor)
    (hbs : backslash ∉ cStr exec) :
    (∀ s b skipped head, Reached W exec c s b skipped → s.head = some head → s.Handles W head →
        s.InScope W (cStr exec) head b) ↔
      ∀ s b skipped head, Reached W exec c s b skipped → s.head = some head → s.Handles W head →
        s.KeepsSemicolons W head b skipped := by
  constructor
  · intro h s b skipped head hs hhead hhandles
    have hinv := hs.scopeInv hbs fun s b skipped head hs hhead hinv hhandles =>
      (hinv.inScope_iff hhead hbs hhandles).mp (h s b skipped head hs hhead hhandles)
    exact (hinv.inScope_iff hhead hbs hhandles).mp (h s b skipped head hs hhead hhandles)
  · intro h s b skipped head hs hhead hhandles
    have hinv := hs.scopeInv hbs fun s b skipped head hs hhead _ hhandles =>
      h s b skipped head hs hhead hhandles
    exact (hinv.inScope_iff hhead hbs hhandles).mpr (h s b skipped head hs hhead hhandles)

/-- A string with a criteria block for the first of its two segments. -/
def stickyThenKill : Str := "[con_id=7] sticky enable; kill".toList

/-- The rounds of this string run their commands in their scope if they lose no semicolon. -/
theorem stickyThenKill_inScope_iff :
    (∀ s b skipped head, Reached killAndSticky stickyThenKill
        (.flat [⟨1, [], 1, 1, ⟨0, 0⟩⟩] [.toplevelOn 7 0 .workspace] none) s b skipped →
        s.head = some head → s.Handles killAndSticky head →
          s.InScope killAndSticky (cStr stickyThenKill) head b) ↔
      ∀ s b skipped head, Reached killAndSticky stickyThenKill
        (.flat [⟨1, [], 1, 1, ⟨0, 0⟩⟩] [.toplevelOn 7 0 .workspace] none) s b skipped →
        s.head = some head → s.Handles killAndSticky head →
          s.KeepsSemicolons killAndSticky head b skipped :=
  commands_inScope_iff _ _ _ (by decide)

/-- With a comma in front of the semicolon, `kill` is run under the criteria of the first segment. -/
theorem commaSemicolon_not_inScope :
    ¬ ∀ s b skipped head, Reached killAndSticky "[con_id=7] sticky enable,; kill".toList
      (.flat [⟨1, [], 1, 1, ⟨0, 0⟩⟩] [.toplevelOn 7 0 .workspace] none) s b skipped →
      s.head = some head → s.Handles killAndSticky head →
        s.InScope killAndSticky (cStr "[con_id=7] sticky enable,; kill".toList) head b := by
  intro h
  have hinit : Reached killAndSticky "[con_id=7] sticky enable,; kill".toList
    (.flat [⟨1, [], 1, 1, ⟨0, 0⟩⟩] [.toplevelOn 7 0 .workspace] none) _ _ _ := .init
  -- the round that runs `sticky`
  have hsecond := hinit.next rfl (by decide +kernel)
  generalize hs : (round killAndSticky (Exec.init "[con_id=7] sticky enable,; kill".toList
    (.flat [⟨1, [], 1, 1, ⟨0, 0⟩⟩] [.toplevelOn 7 0 .workspace] none)) _).1 = s at hsecond
  obtain ⟨hhead, hdelim, husing⟩ : s.head = some "; kill".toList ∧ s.matchedDelim = ',' ∧
      s.usingCriteria = true := by
    rw [← hs]
    decide +kernel
  -- the round that runs `kill`
  have hne : s.matchedDelim ≠ ';' := by rw [hdelim]; decide
  have htext : skipBlanks "; kill".toList = "; kill".toList := by decide
  have hround : s.round killAndSticky "; kill".toList
      = s.nextCommand killAndSticky "; kill".toList := by
    rw [round, htext]
    simp only [if_neg hne]
  have hhandles : s.Handles killAndSticky "; kill".toList := by
    obtain ⟨r, hr, -, -, hlog⟩ := nextCommand_cases (W := killAndSticky) s
      (show backslash ∉ "; kill".toList by decide) (by decide)
    have hstart : skipBlanks r.start ≠ [] := by
      rw [hr]
      decide
    rw [if_neg hstart, ← hround] at hlog
    exact hlog
  have hscope := (h _ _ _ _ hsecond hhead hhandles).usingCriteria
  have hfrom : s.fromCommand killAndSticky "; kill".toList = "kill".toList := by
    have hat : s.blockAt killAndSticky "; kill".toList = none := if_neg fun h => hne h.1
    rw [fromCommand, commandText, hat, htext]
    decide
  rw [hround, (criteria_nextCommand s _).1, husing, hfrom] at hscope
  exact absurd hscope (by decide)

end Exec
end WayfireIpc
