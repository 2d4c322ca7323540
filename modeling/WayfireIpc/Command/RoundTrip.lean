/-
# A command that is sent as a string

The words of a command, written to a string and sent as an `IPC_COMMAND`, reach the handler as
they were if an output is active and the context of the handler can be set.  Otherwise no handler is
called.
-/
import WayfireIpc.Command.Words
import WayfireIpc.Command.InEffect
import WayfireIpc.Command.Members
import WayfireIpc.Compositor.Tree
import WayfireIpc.Server.Requests

namespace WayfireIpc

/-- The characters of a byte string. -/
def toStr (b : Buf) : Str := b.map fun x => Char.ofNat x.toNat

/-- One line is handed over with a semicolon. -/
lemma toStr_commandString {buf : Buf} (h : '\n' ∉ toStr buf) :
    toStr (Server.commandString buf) = toStr buf ++ [';'] := by
  have hmem : '\n'.toUInt8 ∉ buf := by
    rintro hmem
    refine h (List.mem_map.mpr ⟨_, hmem, by decide⟩)
  have hsplit : buf.splitOn '\n'.toUInt8 = [buf] := List.splitOn_eq_singleton hmem
  have hend : Char.ofNat ';'.toUInt8.toNat = ';' := by decide
  rw [Server.commandString, hsplit]
  simp [toStr, ascii, hend]

/-! ## The names of the commands -/

/-- A known name consists of small letters, and it is not one of those whose words keep their
quotes. -/
lemma isLower_of_coreHandler {name : Str} {handler : CommandName}
    (h : coreHandler name = some handler) : (name ≠ [] ∧ ∀ ch ∈ name, ch.isLower = true) ∧
      name ≠ "exec".toList ∧ name ≠ "exec_always".toList ∧ name ≠ "mode".toList := by
  rw [coreHandler] at h
  split_ifs at h with hname hname hname hname hname hname hname hname <;>
    rw [hname] <;> simp

lemma not_mem_of_isLower {ch : Char} {l : Str} (h : ch.isLower = true)
    (hl : ∀ d ∈ l, d.isLower = false) : ch ∉ l := by
  rintro hmem
  rw [hl ch hmem] at h
  cases h

lemma passes_of_isLower {name : Str} (h : ∀ ch ∈ name, ch.isLower = true) :
    Quote.none.Passes name .none := by
  refine Quote.passes_bare (fun ch hch => ?_) fun ch hch => ⟨?_, ?_⟩
  · exact not_mem_of_isLower (h ch hch) (by simp [nul, doubleQuote, backslash])
  · rw [isSpace, List.contains_eq_mem, decide_eq_false_iff_not]
    exact not_mem_of_isLower (h ch hch) (by simp [whitespace])
  · exact not_mem_of_isLower (h ch hch) (by simp [singleQuote])

/-! ## Cutting off the command -/

section Line

variable {name : Str} {handler : CommandName} (h : coreHandler name = some handler)
  (args : List Argument)
include h

/-- The line begins with a small letter. -/
lemma exists_commandLine : ∃ ch t, commandLine name args = ch :: t ∧ ch.isLower = true := by
  obtain ⟨⟨hne, hlower⟩, -⟩ := isLower_of_coreHandler h
  obtain ⟨ch, t, rfl⟩ := List.exists_cons_of_ne_nil hne
  exact ⟨ch, t ++ args.flatMap fun a => ' ' :: a.written, commandLine_eq _ _,
    hlower ch List.mem_cons_self⟩

/-- The delimiters in the words do not end the line. -/
lemma cut_commandLine (t : Str) : IpcTools.cut .none (commandLine name args ++ t)
    = (IpcTools.cut .none t).map fun r => (commandLine name args ++ r.1, r.2) := by
  have hwords : IpcTools.cut .none ((args.flatMap fun a => ' ' :: a.written) ++ t)
      = (IpcTools.cut .none t).map
        fun r => ((args.flatMap fun a => ' ' :: a.written) ++ r.1, r.2) := by
    induction args with
    | nil => simp
    | cons a args ih =>
      rw [List.flatMap_cons, List.cons_append, List.cons_append, List.append_assoc,
        IpcTools.cut_blank, IpcTools.cut_passes (Quote.passes_written a), ih,
        Option.map_map, Option.map_map]
      simp [Function.comp_def]
  have hname := passes_of_isLower (isLower_of_coreHandler h).1.2
  rw [commandLine_eq, List.append_assoc, IpcTools.cut_passes hname, hwords, Option.map_map]
  simp [Function.comp_def]

lemma mem_commandLine {ch : Char} (hch : ch ∈ commandLine name args) :
    ch ≠ '\n' ∧ ch ≠ nul ∧ ch ≠ backslash := by
  have hplain : ∀ {x : Char}, x ∉ ['\n', nul, doubleQuote, backslash] →
      x ≠ '\n' ∧ x ≠ nul ∧ x ≠ backslash := by
    intro x hx
    simp only [List.mem_cons, List.not_mem_nil, or_false, not_or] at hx
    exact ⟨hx.1, hx.2.1, hx.2.2.2⟩
  rw [commandLine_eq, List.mem_append, List.mem_flatMap] at hch
  rcases hch with hch | ⟨a, -, hch⟩
  · have hlower := (isLower_of_coreHandler h).1.2 ch hch
    refine ⟨?_, ?_, ?_⟩ <;> rintro rfl <;> exact absurd hlower (by simp [nul, backslash])
  · rcases List.mem_cons.mp hch with rfl | hch
    · decide
    · rw [Argument.written] at hch
      split_ifs at hch
      · rcases List.mem_cons.mp hch with rfl | hch
        · decide
        · rcases List.mem_append.mp hch with hch | hch
          · exact hplain (a.plain ch hch)
          · rw [List.mem_singleton.mp hch]
            decide
      · exact hplain (a.plain ch hch)

/-- `argsep` cuts off the whole line. -/
lemma argsep_commandLine : IpcTools.argsep ";,".toList (commandLine name args ++ [';'])
    = .ok ⟨commandLine name args, some [], ';'⟩ := by
  have hbs : backslash ∉ commandLine name args ++ [';'] := by
    rintro hmem
    rcases List.mem_append.mp hmem with hmem | hmem
    · exact (mem_commandLine h args hmem).2.2 rfl
    · exact absurd (List.mem_singleton.mp hmem) (by decide)
  have hdrop : (commandLine name args ++ [';']).dropWhile IpcTools.isSeparator
      = commandLine name args ++ [';'] := by
    obtain ⟨ch, t, hline, hch⟩ := exists_commandLine h args
    rw [hline]
    refine List.dropWhile_cons_of_neg fun hsep => ?_
    rcases IpcTools.isSeparator_iff.mp hsep with rfl | rfl <;> exact absurd hch (by simp)
  have hcut : IpcTools.cut .none [';'] = some ([], ';', []) := by decide
  rw [← IpcTools.separators_eq, IpcTools.argsep_eq hbs, hdrop, cut_commandLine h, hcut]
  simp [IpcTools.Argsep.ofCut]

/-- The words come out as they were put in. -/
lemma splitArgs_commandLine :
    IpcTools.splitArgs (commandLine name args) = .ok (name :: args.map Argument.written) := by
  obtain ⟨⟨hne, hlower⟩, -⟩ := isLower_of_coreHandler h
  have hpass : ∀ w ∈ name :: args.map Argument.written, Quote.none.Passes w .none ∧ w ≠ [] := by
    refine List.forall_mem_cons.mpr ⟨⟨passes_of_isLower hlower, hne⟩, ?_⟩
    rintro w hw
    obtain ⟨a, -, rfl⟩ := List.mem_map.mp hw
    exact ⟨Quote.passes_written a, a.written_ne_nil⟩
  have hwords := IpcTools.splitArgs_words hpass
  rwa [List.flatMap_map, ← commandLine_eq] at hwords

end Line

/-! ## The rounds -/

namespace Exec

variable {W : Commands}

/-- A command without criteria calls its handler once, if the context can be set. -/
lemma callsOf_runPlain (s : Exec) (handler : CommandName) (argv : List Str) {out : OutputRef}
    {context : CommandHandlerContext} (hout : s.compositor.activeOutput = some out)
    (hcontext : s.plainContext out = .ok context) :
    callsOf (s.runPlain W handler argv).1.log
      = callsOf s.log ++ [⟨s.usingCriteria, handler, argv, context, s.compositor⟩] := by
  have hcall : callsOf (s.callHandler W handler argv (s.plainContext out)).1.log
      = callsOf s.log ++ [⟨s.usingCriteria, handler, argv, context, s.compositor⟩] := by
    rw [hcontext, callHandler]
    split <;> exact callsOf_append _ _
  rw [runPlain, hout]
  simp only
  generalize s.callHandler W handler argv (s.plainContext out) = called at hcall
  obtain ⟨s', _ | res⟩ := called
  · exact hcall
  · show callsOf (s'.log ++ [.result res]) = _
    rw [callsOf_append, hcall, List.append_assoc]
    rfl

/-- Where the context cannot be set, or no output is active, no handler is called. -/
lemma callsOf_runPlain_of_failed (s : Exec) (handler : CommandName) (argv : List Str)
    (h : ∀ out, s.compositor.activeOutput = some out → ∀ context, s.plainContext out ≠ .ok context) :
    ∃ s' f, s.runPlain W handler argv = (s', .failed f) ∧ callsOf s'.log = callsOf s.log := by
  rw [runPlain]
  cases hout : s.compositor.activeOutput with
  | none => exact ⟨s, _, rfl, rfl⟩
  | some out =>
    cases hcontext : s.plainContext out with
    | ok context => exact absurd hcontext (h out hout context)
    | error f =>
      simp only [hcontext, callHandler]
      exact ⟨s, f, rfl, rfl⟩

/-- On the empty rest the loop ends without a command. -/
lemma log_loop_nil (n : ℕ) (s : Exec) (hhead : s.head = some []) :
    (loop W n s).1.log = s.log := by
  have hargsep : IpcTools.argsep ";,".toList [] = .ok ⟨[], none, nul⟩ := rfl
  have hnext : ∀ s₁ : Exec, s₁.nextCommand W []
      = ({ s₁ with head := none, matchedDelim := nul }, .next) := by
    intro s₁
    rw [nextCommand, hargsep]
    rfl
  have hround : ∃ s₁ : Exec, s.round W [] = (s₁, .next) ∧ s₁.head = none ∧ s₁.log = s.log := by
    rw [round]
    simp only [skipBlanks, List.dropWhile_nil, List.head?_nil, reduceCtorEq, if_false, hnext]
    split_ifs <;> exact ⟨_, rfl, rfl, rfl⟩
  obtain ⟨s₁, hs₁, hnone, hlog⟩ := hround
  cases n with
  | zero => rfl
  | succ n =>
    rw [loop, hhead]
    simp only [hs₁]
    cases n with
    | zero => exact hlog
    | succ n =>
      rw [loop, hnone]
      exact hlog

/-- When a round leaves the empty rest, it is the last one that does something. -/
lemma log_loop_of_nil {n : ℕ} {s : Exec} {head : Str} (hhead : s.head = some head)
    (hrest : (s.round W head).1.head = some []) :
    (loop W (n + 1) s).1.log = (s.round W head).1.log := by
  rw [loop, hhead]
  simp only
  generalize s.round W head = r at hrest
  obtain ⟨s', flow⟩ := r
  cases flow with
  | next => exact log_loop_nil n s' hrest
  | cleanup => rfl
  | failed f => rfl

/-- The variables when the command of a line is run. -/
def atCommand (line : Str) (c : Compositor) : Exec :=
  note { init (line ++ [';']) c with head := some [] } (.handling line)

/-- The first round of a run on a command line runs the command. -/
lemma round_commandLine {name : Str} {handler : CommandName} (h : coreHandler name = some handler)
    (args : List Argument) (c : Compositor) :
    (init (commandLine name args ++ [';']) c).round W (commandLine name args ++ [';'])
      = (atCommand (commandLine name args) c).runPlain W handler (args.map Argument.text) := by
  obtain ⟨-, hexec, halways, hmode⟩ := isLower_of_coreHandler h
  obtain ⟨ch, t, hcons, hlower⟩ := exists_commandLine h args
  have hblank : isSpace ch = false := by
    rw [isSpace, List.contains_eq_mem, decide_eq_false_iff_not]
    exact not_mem_of_isLower hlower (by simp [whitespace])
  have hskip : ∀ u, skipBlanks (commandLine name args ++ u) = commandLine name args ++ u := by
    intro u
    rw [hcons, List.cons_append]
    exact List.dropWhile_cons_of_neg (by simp [hblank])
  have hline : skipBlanks (commandLine name args) = commandLine name args := by
    simpa using hskip []
  have hne : commandLine name args ≠ [] := by
    rw [hcons]
    exact List.cons_ne_nil _ _
  have hbracket : (commandLine name args ++ [';']).head? ≠ some '[' := by
    rw [hcons]
    rintro heq
    cases heq
    exact absurd hlower (by simp)
  rw [round, hskip]
  simp only [if_neg hbracket]
  have hdelim : (init (commandLine name args ++ [';']) c).matchedDelim = ';' := rfl
  rw [if_pos hdelim, nextCommand, argsep_commandLine h args]
  simp only [hline, if_neg hne]
  rw [runCommand, splitArgs_commandLine h args]
  simp only [h, stripArgs_written hexec halways hmode]
  rfl

end Exec

/-! ## The context of a command -/

namespace Compositor

variable (c : Compositor)

/-- A command without criteria finds an active output, and where a toplevel view is active there, the
main workspace of every other toplevel view has a number: the view has an output, the workspace is in
its grid, and the glued id is an `int`. -/
def TakesCommands : Prop :=
  ∃ out, c.activeOutput = some out ∧ ∀ v, c.activeView out = some v → (c.view v).isToplevel = true →
    ∀ u ∈ c.allViews, (c.view u).id ≠ (c.view v).id → (c.view u).isToplevel = true →
      ∃ o, (c.view u).output = some o ∧ c.IsWorkspaceValid o (c.mainWorkspace o u) ∧
        Decimal.glue (c.outputKey o) (c.workspaceIndex o (c.mainWorkspace o u)) < 2 ^ 31

variable {c}

/-- A workspace is described exactly if it is in the grid and its id is an `int`. -/
lemma describeWorkspace_ok_iff {p : Point} {o : OutputRef} :
    (∃ node, c.describeWorkspace p o = .ok node) ↔ c.IsWorkspaceValid o p ∧
      Decimal.glue (c.outputKey o) (c.workspaceIndex o p) < 2 ^ 31 := by
  constructor
  · rintro ⟨node, h⟩
    rw [describeWorkspace] at h
    obtain ⟨index, hindex, h⟩ := Machine.bind_ok_iff.mp h
    obtain ⟨id, hid, -⟩ := Machine.bind_ok_iff.mp h
    have hp : c.IsWorkspaceValid o p := by
      by_contra hnot
      rw [getWorkspaceIndex, if_pos hnot] at hindex
      cases hindex
    exact ⟨hp, (workspaceNumber_iff hp).mp ⟨index, id, hindex, hid⟩⟩
  · rintro ⟨hp, hlt⟩
    obtain ⟨index, id, hindex, hid⟩ := (workspaceNumber_iff hp).mpr hlt
    rw [describeWorkspace, hindex, Machine.ok_bind, hid]
    exact ⟨_, rfl⟩

/-- The loop over the other views ends exactly if the workspace of each of them is described. -/
lemma otherViewsWorkspace_ok_iff {id : UInt32} :
    (∃ workspace, c.otherViewsWorkspace id = .ok workspace) ↔
      ∀ u ∈ c.otherToplevels id, ∃ node, c.describeMainWorkspace u = .ok node := by
  rw [otherViewsWorkspace_eq]
  constructor
  · rintro ⟨workspace, h⟩
    exact Machine.ok_of_foldlM_overwrite h
  · intro h
    have hnode : ∀ u, ∃ node, u ∈ c.otherToplevels id → c.describeMainWorkspace u = .ok node := by
      intro u
      by_cases hu : u ∈ c.otherToplevels id
      · obtain ⟨node, hnode⟩ := h u hu
        exact ⟨node, fun _ => hnode⟩
      · exact ⟨c.getI3ScratchpadOutputNodes, fun hcon => absurd hcon hu⟩
    choose node hnode using hnode
    exact ⟨_, Machine.foldlM_overwrite none hnode⟩

lemma describeMainWorkspace_ok_iff {u : ViewRef} :
    (∃ node, c.describeMainWorkspace u = .ok node) ↔ ∃ o, (c.view u).output = some o ∧
      c.IsWorkspaceValid o (c.mainWorkspace o u) ∧
      Decimal.glue (c.outputKey o) (c.workspaceIndex o (c.mainWorkspace o u)) < 2 ^ 31 := by
  rw [describeMainWorkspace]
  cases (c.view u).output with
  | none => simp
  | some o => simp [describeWorkspace_ok_iff]

/-- The context can be set for the active view exactly under the condition. -/
lemma takesCommands_iff : c.TakesCommands ↔ ∃ out, c.activeOutput = some out ∧
    ∀ v, c.activeView out = some v →
      ∃ context, setConfigNode c (c.describeView v) false = .ok context := by
  refine exists_congr fun out => and_congr_right fun _ => forall_congr' fun v =>
    imp_congr_right fun _ => ?_
  cases hdescribe : c.describeView v with
  | none =>
    have htop := describeView_eq_none_iff.mp hdescribe
    exact iff_of_true (fun h => absurd (htop.symm.trans h) (by simp)) ⟨_, rfl⟩
  | some n =>
    have htop : (c.view v).isToplevel = true := by
      by_contra hnot
      rw [describeView_eq_none_iff.mpr (by simpa using hnot)] at hdescribe
      cases hdescribe
    have hid : n.id.toUInt32 = (c.view v).id := by rw [(attr_describeView hdescribe).1]; rfl
    have hset : (∃ context, setConfigNode c (some n) false = .ok context) ↔
        ∃ workspace, c.otherViewsWorkspace n.id.toUInt32 = .ok workspace := by
      simp only [setConfigNode_describeView hdescribe]
      exact ⟨fun ⟨_, workspace, h, _⟩ => ⟨workspace, h⟩, fun ⟨workspace, h⟩ => ⟨_, workspace, h, rfl⟩⟩
    rw [hset, otherViewsWorkspace_ok_iff, hid]
    simp only [htop, true_imp_iff, describeMainWorkspace_ok_iff, otherToplevels, List.mem_filter,
      decide_eq_true_eq, and_imp, ne_comm (a := (c.view v).id)]

end Compositor

/-! ## The line as a message -/

section Message

variable (W : Commands) (c : Compositor) {name : Str} {handler : CommandName}
  (h : coreHandler name = some handler) (args : List Argument)
include h

/-- The whole run on a command line is its first round. -/
lemma log_executeCommand_commandLine {buf : Buf} (hbuf : toStr buf = commandLine name args)
    (hrest : ((Exec.atCommand (commandLine name args) c).runPlain W handler
        (args.map Argument.text)).1.head = some [] ∨
      ∃ s' f, (Exec.atCommand (commandLine name args) c).runPlain W handler
        (args.map Argument.text) = (s', .failed f)) :
    (executeCommand W (toStr (Server.commandString buf)) c).1.log
      = ((Exec.atCommand (commandLine name args) c).runPlain W handler
          (args.map Argument.text)).1.log := by
  have hnewline : '\n' ∉ toStr buf := fun hmem =>
    (mem_commandLine h args (hbuf ▸ hmem)).1 rfl
  have hcstr : cStr (commandLine name args ++ [';']) = commandLine name args ++ [';'] := by
    refine List.takeWhile_eq_self_iff.mpr fun x hx => ?_
    rcases List.mem_append.mp hx with hx | hx
    · exact decide_eq_true (mem_commandLine h args hx).2.1
    · rw [List.mem_singleton.mp hx]
      decide
  have hround := Exec.round_commandLine (W := W) h args c
  rw [toStr_commandString hnewline, hbuf, executeCommand, hcstr]
  rcases hrest with hrest | ⟨s', f, hfailed⟩
  · have hlog := Exec.log_loop_of_nil (W := W) (n := (commandLine name args ++ [';']).length + 1)
      (s := Exec.init (commandLine name args ++ [';']) c) (congrArg some hcstr)
      (by rw [hround]; exact hrest)
    rw [hlog, hround]
  · have hhead : (Exec.init (commandLine name args ++ [';']) c).head
        = some (commandLine name args ++ [';']) := congrArg some hcstr
    rw [Exec.loop, hhead]
    simp only [hround, hfailed]

/-- A command whose words are joined to a string and sent reaches its handler once, with these
words, when there is an active output and the view that is active there can be described. -/
theorem commandLine_calls {buf : Buf} (hbuf : toStr buf = commandLine name args) {out : OutputRef}
    (hout : c.activeOutput = some out)
    (hview : ∀ v, c.activeView out = some v →
      ∃ context, setConfigNode c (c.describeView v) false = .ok context) :
    (callsOf (executeCommand W (toStr (Server.commandString buf)) c).1.log).map
      (fun k => (k.name, k.argv)) = [(handler, args.map Argument.text)] := by
  set s := Exec.atCommand (commandLine name args) c with hs
  obtain ⟨context, hcontext⟩ : ∃ context, s.plainContext out = .ok context := by
    have hcompositor : s.compositor = c := rfl
    rw [Exec.plainContext, hcompositor]
    cases hv : c.activeView out with
    | none => exact ⟨_, rfl⟩
    | some v => exact hview v hv
  have hrest := (Exec.sameLoop_runPlain (W := W) s handler (args.map Argument.text)).head
  rw [log_executeCommand_commandLine W c h args hbuf (Or.inl hrest),
    Exec.callsOf_runPlain s handler _ hout hcontext]
  rfl

/-- The same message calls no handler when there is no active output, or the context of the view that
is active there cannot be set. -/
lemma commandLine_calls_none {buf : Buf} (hbuf : toStr buf = commandLine name args)
    (hnot : ¬ c.TakesCommands) :
    callsOf (executeCommand W (toStr (Server.commandString buf)) c).1.log = [] := by
  set s := Exec.atCommand (commandLine name args) c with hs
  have hcompositor : s.compositor = c := rfl
  obtain ⟨s', f, hrun, hcalls⟩ := Exec.callsOf_runPlain_of_failed (W := W) s handler
    (args.map Argument.text) (by
      intro out hout context hcontext
      refine hnot (Compositor.takesCommands_iff.mpr ⟨out, hout, fun v hv => ⟨context, ?_⟩⟩)
      rw [Exec.plainContext, hcompositor, hv] at hcontext
      exact hcontext)
  rw [log_executeCommand_commandLine W c h args hbuf (Or.inr ⟨s', f, hrun⟩), hrun, hcalls]
  rfl

end Message

/-- A command whose words are joined to a string and sent reaches its handler exactly once, with these
words, if and only if there is an active output and the context can be set there; otherwise no handler
is called. -/
theorem commandLine_called_iff (W : Commands) (c : Compositor) {name : Str} {handler : CommandName}
    (h : coreHandler name = some handler) (args : List Argument) {buf : Buf}
    (hbuf : toStr buf = commandLine name args) :
    ((callsOf (executeCommand W (toStr (Server.commandString buf)) c).1.log).map
        (fun k => (k.name, k.argv)) = [(handler, args.map Argument.text)] ↔ c.TakesCommands) ∧
      (¬ c.TakesCommands → callsOf (executeCommand W (toStr (Server.commandString buf)) c).1.log = [])
    := by
  have hnone := commandLine_calls_none W c h args hbuf
  refine ⟨⟨fun hcalls => ?_, fun htakes => ?_⟩, hnone⟩
  · by_contra hnot
    rw [hnone hnot] at hcalls
    cases hcalls
  · obtain ⟨out, hout, hview⟩ := Compositor.takesCommands_iff.mp htakes
    exact commandLine_calls W c h args hbuf hout hview

/-- A quoted word with delimiters, brackets, an apostrophe and blanks. -/
def oddWord : Argument where
  text := "a; [b] it's, c".toList
  quoted := true
  plain := by simp [nul, doubleQuote, backslash]
  bare := nofun

/-- Sticky is called once with that word. -/
theorem oddWord_called : (callsOf (executeCommand killAndSticky (toStr (Server.commandString
      ((commandLine "sticky".toList [oddWord]).map Char.toUInt8)))
      (.flat [⟨1, "A".toList, 1, 1, ⟨0, 0⟩⟩] [] none)).1.log).map (fun k => (k.name, k.argv))
    = [(.sticky, ["a; [b] it's, c".toList])] :=
  (commandLine_called_iff killAndSticky _ (show coreHandler "sticky".toList = some .sticky by decide)
    [oddWord] (by decide +kernel)).1.mpr ⟨0, rfl, nofun⟩

/-- Without an active output no handler is called. -/
theorem noOutput_no_call : ¬ (callsOf (executeCommand killAndSticky (toStr (Server.commandString
      ((commandLine "kill".toList []).map Char.toUInt8)))
      (.flat [] [] none)).1.log).map (fun k => (k.name, k.argv)) = [(.kill, [])] := by
  decide +kernel

end WayfireIpc
