/-
# Running the text of a program

`execute_command` on the text of a program runs the program: its rounds are the commands, and the
delimiter in front of a command decides whether the criteria of the block still hold.
-/
import WayfireIpc.Command.Program

namespace WayfireIpc

/-! ## Running a command -/

namespace Exec

variable {W : Commands}

/-- What the commands see of the variables of the loop. -/
def state (s : Exec) : RunState := ⟨s.compositor, s.handlerContext, s.resList, callsOf s.log⟩

/-- What the next command is run on. -/
def targets (s : Exec) : Option (List Node) := if s.usingCriteria then some s.containers else none

lemma SameLoop.targets_eq {s s' : Exec} (h : SameLoop s s') : s'.targets = s.targets := by
  rw [targets, targets, h.usingCriteria, h.containers]

lemma state_append (s : Exec) (r : CommandResult) : (s.append r).state = s.state.answer r := by
  have hlog : callsOf (s.append r).log = callsOf s.log := by
    show callsOf (s.log ++ [.result r]) = _
    rw [callsOf_append]
    exact List.append_nil _
  rw [state, hlog]
  rfl

lemma state_note (s : Exec) (cmd : Str) : (s.note (.handling cmd)).state = s.state := by
  have hlog : callsOf (s.note (.handling cmd)).log = callsOf s.log := by
    show callsOf (s.log ++ [.handling cmd]) = _
    rw [callsOf_append]
    exact List.append_nil _
  rw [state, hlog]
  rfl

lemma state_enter (s : Exec) (k : HandlerCall) :
    (s.enter k).state = { s.state with context := k.context, calls := s.state.calls ++ [k] } := by
  have hlog : callsOf (s.enter k).log = callsOf s.log ++ [k] := callsOf_append _ _
  rw [state, hlog]
  rfl

lemma state_callHandler (s : Exec) (name : CommandName) (argv : List Str)
    (context : Except Failure CommandHandlerContext) :
    ((s.callHandler W name argv context).1.state, (s.callHandler W name argv context).2)
      = s.state.call W s.usingCriteria name argv context := by
  cases context with
  | error f => rfl
  | ok context =>
    have henter := state_enter s ⟨s.usingCriteria, name, argv, context, s.compositor⟩
    have hcompositor : s.state.compositor = s.compositor := rfl
    rw [callHandler, RunState.call, hcompositor]
    cases W.handler name argv context s.compositor with
    | error f => exact Prod.ext henter rfl
    | ok res =>
      refine Prod.ext ?_ rfl
      exact congrArg (fun t : RunState => { t with compositor := res.2 }) henter

lemma state_runPlain {s : Exec} (hplain : s.usingCriteria = false) (name : CommandName)
    (argv : List Str) : ((s.runPlain W name argv).1.state, (s.runPlain W name argv).2.stop)
      = Command.onFocus W name argv s.state := by
  have hout : s.state.compositor.activeOutput = s.compositor.activeOutput := rfl
  rw [runPlain, Command.onFocus, hout]
  cases s.compositor.activeOutput with
  | none => rfl
  | some out =>
    have hcontext : s.state.focusContext out = s.plainContext out := rfl
    have hcall := state_callHandler (W := W) s name argv (s.plainContext out)
    simp only [hcontext, ← hplain]
    rw [← hcall]
    rcases s.callHandler W name argv (s.plainContext out) with ⟨s₁, f | res⟩
    · rfl
    · simp only [state_append]
      split_ifs <;> rfl

lemma state_runContainers (name : CommandName) (argv : List Str) : ∀ (containers : List Node)
    (s : Exec), s.usingCriteria = true →
    ((runContainers W name argv containers s).1.state, (runContainers W name argv containers s).2.stop)
      = Command.onEach W name argv containers s.state := by
  intro containers
  induction containers with
  | nil => exact fun s _ => Prod.ext (state_append s _) rfl
  | cons container containers ih =>
    intro s hcriteria
    have hcompositor : s.state.compositor = s.compositor := rfl
    have hcall := state_callHandler (W := W) s name argv (setConfigNode s.compositor container true)
    have hloop := sameLoop_callHandler (W := W) s name argv (setConfigNode s.compositor container true)
    rw [hcriteria] at hcall
    rw [runContainers, Command.onEach, hcompositor, ← hcall]
    rcases hcalled : s.callHandler W name argv (setConfigNode s.compositor container true) with
      ⟨s₁, f | res⟩
    · rfl
    · rw [hcalled] at hloop
      simp only
      split_ifs with hres
      · exact ih s₁ (hloop.usingCriteria.trans hcriteria)
      · exact Prod.ext (state_append s₁ res) rfl

/-- Running the text of a command runs the command. -/
lemma state_runCommand (s : Exec) (cmd : Command) :
    ((s.runCommand W cmd.line).1.state, (s.runCommand W cmd.line).2.stop)
      = cmd.run W s.targets s.state := by
  rw [runCommand, cmd.splitArgs_line, Command.run]
  cases hhandler : coreHandler cmd.name with
  | none =>
    simp only [hhandler]
    exact Prod.ext (state_append s _) rfl
  | some handler =>
    obtain ⟨-, hexec, halways, hmode⟩ := isLower_of_coreHandler hhandler
    simp only [hhandler, stripArgs_written hexec halways hmode, targets]
    cases hcriteria : s.usingCriteria with
    | false => exact state_runPlain hcriteria handler _
    | true =>
      cases hcontainers : s.containers with
      | nil =>
        simp only [not_true_eq_false, if_false, if_true]
        exact Prod.ext (state_append s _) rfl
      | cons container containers =>
        simp only [not_true_eq_false, if_false, if_true, reduceCtorEq]
        exact state_runContainers handler _ _ s hcriteria

/-! ## Running a program -/

/-- What the commands see of a run, and how it ends. -/
def outcome (r : Exec × Flow) : RunState × Flow := (r.1.state, r.2)

/-- What is run behind steps that have not stopped. -/
def andThen (p : RunState → RunState × Flow) : RunState × Option Stop → RunState × Flow
  | (s, none) => p s
  | (s, some .cleanup) => (s, .cleanup)
  | (s, some (.failed f)) => (s, .failed f)

/-- What is left of a run when nothing else comes. -/
def ending (r : RunState × Option Stop) : RunState × Flow := (r.1, .ofStop r.2)

lemma andThen_cleanup (r : RunState × Option Stop) :
    andThen (fun s => (s, .cleanup)) r = ending r := by
  obtain ⟨s, _ | _ | f⟩ := r <;> rfl

lemma andThen_seq (p : RunState → RunState × Flow) (a b : Stopping RunState Stop) (s : RunState) :
    andThen p (Stopping.seq a b s) = andThen (fun s => andThen p (b s)) (a s) := by
  rcases h : a s with ⟨s', _ | _ | f⟩
  · rw [Stopping.seq_of_none h]
    rfl
  · rw [Stopping.seq_of_some h]
    rfl
  · rw [Stopping.seq_of_some h]
    rfl

/-- The loop goes on from a round. -/
def resume (W : Commands) (n : ℕ) : Exec × Flow → Exec × Flow
  | (s, .next) => loop W n s
  | r => r

lemma loop_succ {n : ℕ} {s : Exec} {head : Str} (hhead : s.head = some head) :
    loop W (n + 1) s = resume W n (s.round W head) := by
  rw [loop, hhead]
  rfl

lemma outcome_resume {n : ℕ} {r : Exec × Flow} {x : RunState × Option Stop}
    {p : RunState → RunState × Flow} (hx : (r.1.state, r.2.stop) = x)
    (hp : outcome (loop W n r.1) = p r.1.state) : outcome (resume W n r) = andThen p x := by
  obtain ⟨s, _ | _ | f⟩ := r
  · rw [← hx]
    exact hp
  · rw [← hx]
    rfl
  · rw [← hx]
    rfl

lemma skipBlanks_spaces (n : ℕ) (t : Str) : skipBlanks (List.replicate n ' ' ++ t) = skipBlanks t := by
  induction n with
  | zero => rfl
  | succ n ih =>
    rw [List.replicate_succ, List.cons_append]
    exact ih

lemma skipBlanks_line (cmd : Command) (t : Str) : skipBlanks (cmd.line ++ t) = cmd.line ++ t := by
  obtain ⟨ch, u, hline, hlower⟩ := cmd.exists_line
  have hblank : isSpace ch = false := by
    rw [isSpace, List.contains_eq_mem, decide_eq_false_iff_not]
    exact not_mem_of_isLower hlower (by simp [whitespace])
  rw [hline, List.cons_append]
  exact List.dropWhile_cons_of_neg (by simp [hblank])

/-- Blanks in front of a line are skipped. -/
lemma skipBlanks_text (cmd : Command) (t : Str) : skipBlanks (cmd.text ++ t) = cmd.line ++ t := by
  rw [Command.text, List.append_assoc, skipBlanks_spaces, skipBlanks_line]

/-- A command in front of a delimiter is run, and then the loop goes on behind the delimiter. -/
lemma outcome_command {n : ℕ} {p : RunState → RunState × Flow} {t : Str} {d : Char}
    (hd : IpcTools.isSeparator d = true) (s : Exec) (cmd : Command)
    (hp : ∀ s' : Exec, s'.head = some t → s'.matchedDelim = d → s'.targets = s.targets →
      outcome (loop W n s') = p s'.state) :
    outcome (resume W n (s.nextCommand W (skipBlanks (cmd.text ++ d :: t))))
      = andThen p (cmd.run W s.targets s.state) := by
  have hline : skipBlanks cmd.line = cmd.line := by
    have hskip := skipBlanks_line cmd []
    rwa [List.append_nil] at hskip
  have hne : cmd.line ≠ [] := by
    obtain ⟨ch, u, hcons, -⟩ := cmd.exists_line
    rw [hcons]
    exact List.cons_ne_nil ch u
  rw [skipBlanks_text, nextCommand, IpcTools.argsep_line cmd hd]
  simp only [hline, if_neg hne]
  set s₁ : Exec := note { s with head := some t, matchedDelim := d } (.handling cmd.line) with hs₁
  have hloop := sameLoop_runCommand (W := W) s₁ cmd.line
  have hstate : s₁.state = s.state := state_note _ cmd.line
  have hrun := state_runCommand (W := W) s₁ cmd
  rw [hstate] at hrun
  exact outcome_resume hrun (hp _ hloop.head hloop.matchedDelim hloop.targets_eq)

/-- The commands of a block that are left are run, and then the loop goes on behind the block. -/
lemma outcome_commands {p : RunState → RunState × Flow} {t : Str} {k : ℕ}
    (hp : ∀ {n : ℕ} {s : Exec}, k ≤ n → s.head = some t → s.matchedDelim = ';' →
      outcome (loop W n s) = p s.state) :
    ∀ (rest : List Command) (first : Command) {n : ℕ} (s : Exec), k + rest.length ≤ n →
      outcome (resume W n (s.nextCommand W (skipBlanks (commandsText first rest ++ ';' :: t))))
        = andThen p (Stopping.all ((first :: rest).map (Command.run W s.targets)) s.state) := by
  intro rest
  induction rest with
  | nil =>
    intro first n s hn
    rw [List.map_singleton, Stopping.all_cons, Stopping.all_nil, Stopping.seq_skip, commandsText,
      List.flatMap_nil, List.append_nil]
    exact outcome_command (by decide) s first fun s' hhead hdelim _ => hp hn hhead hdelim
  | cons second rest ih =>
    intro first n s hn
    rw [List.length_cons] at hn
    obtain ⟨n, rfl⟩ : ∃ m, n = m + 1 := ⟨n - 1, by omega⟩
    have htext : commandsText first (second :: rest) ++ ';' :: t
        = first.text ++ ',' :: (commandsText second rest ++ ';' :: t) := by
      simp [commandsText]
    rw [htext, List.map_cons, Stopping.all_cons, andThen_seq]
    refine outcome_command (by decide) s first fun s' hhead hdelim htargets => ?_
    have hround : s'.round W (commandsText second rest ++ ';' :: t)
        = s'.nextCommand W (skipBlanks (commandsText second rest ++ ';' :: t)) := by
      have hcomma : s'.matchedDelim ≠ ';' := by
        rw [hdelim]
        decide
      rw [round]
      simp only [if_neg hcomma]
    rw [loop_succ hhead, hround, ih second s' (by omega), htargets]

/-! ## Blocks -/

lemma length_commandsText (first : Command) (rest : List Command) :
    rest.length ≤ (commandsText first rest).length := by
  have hrest : rest.length ≤ (rest.flatMap fun cmd => ',' :: cmd.text).length := by
    induction rest with
    | nil => exact Nat.zero_le _
    | cons cmd rest ih =>
      rw [List.flatMap_cons, List.length_append, List.length_cons, List.length_cons]
      omega
  rw [commandsText, List.length_append]
  omega

/-- Commands do not begin with a criteria block. -/
lemma head_commandsText (first : Command) (rest : List Command) (t : Str) :
    (skipBlanks (commandsText first rest ++ t)).head? ≠ some '[' := by
  obtain ⟨ch, u, hline, hlower⟩ := first.exists_line
  rw [commandsText, List.append_assoc, skipBlanks_text, hline, List.cons_append, List.head?_cons]
  rintro ⟨⟩
  exact absurd hlower (by simp)

/-- A block is run, and then the loop goes on behind it. -/
lemma outcome_block {p : RunState → RunState × Flow} {t : Str} {k : ℕ} (ht : ∀ ch ∈ t, ch ≠ nul)
    (hp : ∀ {n : ℕ} {s : Exec}, k ≤ n → s.head = some t → s.matchedDelim = ';' →
      outcome (loop W n s) = p s.state) {n : ℕ} (s : Exec) (b : Block) (hb : b.Compiles W)
    (hdelim : s.matchedDelim = ';') (hn : k + b.rest.length ≤ n) :
    outcome (resume W n (s.round W (b.text ++ ';' :: t))) = andThen p (b.run W s.state) := by
  have hrun := fun s => outcome_commands (W := W) hp b.rest b.first (n := n) s hn
  have hcompositor : s.state.compositor = s.compositor := rfl
  rw [Block.run, hcompositor, Block.select, Block.text, round]
  by_cases htokens : b.tokens = []
  · rw [if_pos htokens, if_pos htokens, List.append_nil, List.append_assoc, skipBlanks_spaces]
    dsimp only
    rw [if_pos hdelim, if_neg (head_commandsText _ _ _)]
    exact hrun { s with usingCriteria := false }
  · obtain ⟨hparse, hdrop⟩ := Criteria.parse_block (W := W.library) s.compositor htokens b.nodup
      (fun token h => ⟨(b.plain token h).1, (b.plain token h).2.2⟩) hb
      (commandsText b.first b.rest ++ ';' :: t)
    have hcstr : cStr (QuotedToken.block b.tokens ++ (commandsText b.first b.rest ++ ';' :: t))
        = QuotedToken.block b.tokens ++ (commandsText b.first b.rest ++ ';' :: t) := by
      refine cStr_of_mem fun ch hch => ?_
      rw [← List.append_assoc] at hch
      rcases List.mem_append.mp hch with hch | hch
      · refine (Block.mem_text (b := b) ?_).2
        rw [Block.text, if_neg htokens, List.append_assoc]
        exact List.mem_append_right _ hch
      · rcases List.mem_cons.mp hch with rfl | hch
        · decide
        · exact ht ch hch
    have hskip : skipBlanks (QuotedToken.block b.tokens ++ (commandsText b.first b.rest ++ ';' :: t))
        = QuotedToken.block b.tokens ++ (commandsText b.first b.rest ++ ';' :: t) :=
      List.dropWhile_cons_of_neg (by decide)
    have hopen : (QuotedToken.block b.tokens ++ (commandsText b.first b.rest ++ ';' :: t)).head?
        = some '[' := rfl
    rw [hcstr] at hparse
    rw [if_neg htokens, if_neg htokens, List.append_assoc, List.append_assoc, skipBlanks_spaces,
      hskip]
    dsimp only
    rw [if_pos hdelim, if_pos hopen, hparse]
    have hcriteria : Criteria.ofPatterns (QuotedToken.block b.tokens)
        (QuotedToken.given W.library b.tokens) = b.criteria W := rfl
    dsimp only
    rw [hcriteria]
    cases hcontainers : (b.criteria W).getContainers W.library s.compositor with
    | error f => rfl
    | ok containers =>
      dsimp only
      have hraw : (b.criteria W).raw = QuotedToken.block b.tokens := rfl
      rw [hraw, List.drop_left]
      exact hrun { s with containers := containers, usingCriteria := true }

/-- The loop runs the program that stands in front of it. -/
lemma outcome_loop (p : Program) : ∀ {n : ℕ} {s : Exec}, (∀ b ∈ p, b.Compiles W) →
    p.text.length + 2 ≤ n → s.head = some p.text → s.matchedDelim = ';' →
    outcome (loop W n s) = andThen (fun s => (s, .cleanup)) (p.run W s.state) := by
  induction p with
  | nil =>
    intro n s _ hn hhead hdelim
    obtain ⟨n, rfl⟩ : ∃ m, n = m + 2 := ⟨n - 2, by omega⟩
    have hround : s.round W []
        = ({ s with head := none, matchedDelim := nul, usingCriteria := false }, .next) := by
      rw [round]
      dsimp only
      rw [if_pos hdelim]
      rfl
    have hempty : Program.text [] = [] := rfl
    rw [loop_succ hhead, hempty, hround]
    rfl
  | cons b p ih =>
    intro n s hcompile hn hhead hdelim
    obtain ⟨hb, hcompile⟩ := List.forall_mem_cons.mp hcompile
    obtain ⟨n, rfl⟩ : ∃ m, n = m + 1 := ⟨n - 1, by omega⟩
    have htext : Program.text (b :: p) = b.text ++ ';' :: Program.text p := by
      simp [Program.text]
    have hlength : b.rest.length ≤ b.text.length := by
      have hcommands := length_commandsText b.first b.rest
      rw [Block.text, List.length_append]
      omega
    rw [htext, List.length_append, List.length_cons] at hn
    rw [htext] at hhead
    rw [loop_succ hhead, Program.run, List.map_cons, Stopping.all_cons, andThen_seq]
    exact outcome_block (fun ch hch => (Program.mem_text hch).2) (ih hcompile) s b hb hdelim (by omega)

end Exec

/-! ## The payload of a program -/

/-- The lines of a payload, each with a semicolon. -/
lemma toStr_commandString_eq (buf : Buf) : toStr (Server.commandString buf)
    = ((toStr buf).splitOn '\n').flatMap fun line => line ++ [';'] := by
  have hsplit : (toStr buf).splitOn '\n' = (buf.splitOn '\n'.toUInt8).map toStr := by
    induction buf with
    | nil => rfl
    | cons x buf ih =>
      have hx : (Char.ofNat x.toNat == '\n') = (x == '\n'.toUInt8) := by
        have hvalid : x.toNat.isValidChar := Or.inl (x.toNat_lt.trans (by decide))
        have hnat : (Char.ofNat x.toNat).toNat = x.toNat := by
          rw [Char.ofNat, dif_pos hvalid]
          rfl
        rw [Bool.eq_iff_iff, beq_iff_eq, beq_iff_eq, ← Char.toNat_inj, hnat, ← UInt8.toNat_inj]
        rfl
      have hcons : toStr (x :: buf) = Char.ofNat x.toNat :: toStr buf := rfl
      rw [hcons, List.splitOn_cons_eq_if_modifyHead, List.splitOn_cons_eq_if_modifyHead, hx, ih]
      split_ifs
      · rfl
      · obtain ⟨line, lines, hlines⟩ := List.exists_cons_of_ne_nil (List.splitOn_ne_nil '\n'.toUInt8 buf)
        rw [hlines]
        rfl
  have hend : toStr (ascii ";") = [';'] := by decide
  rw [hsplit, Server.commandString, toStr, List.map_flatMap, List.flatMap_map]
  refine List.flatMap_congr fun line _ => ?_
  rw [List.map_append]
  exact congrArg _ hend

/-- The lines of a program reach `execute_command` as its text. -/
lemma toStr_commandString_payload {buf : Buf} {lines : List Program} (hne : lines ≠ [])
    (hlines : ∀ p ∈ lines, p ≠ []) (hbuf : toStr buf = Program.payload lines) :
    toStr (Server.commandString buf) = Program.text lines.flatten := by
  have hline : ∀ p : Program, p ≠ [] →
      [';'].intercalate (p.map Block.text) ++ [';'] = Program.text p := by
    intro p
    induction p with
    | nil => exact fun h => absurd rfl h
    | cons b p ih =>
      intro _
      cases p with
      | nil => simp [Program.text, List.intercalate]
      | cons b' p =>
        have htail := ih (List.cons_ne_nil b' p)
        rw [List.map_cons] at htail
        rw [List.map_cons, List.map_cons, List.intercalate_cons_cons, List.append_assoc,
          List.append_assoc, htail]
        simp [Program.text]
  have hnewline : ∀ l ∈ lines.map (fun p => [';'].intercalate (p.map Block.text)), '\n' ∉ l := by
    intro l hl hmem
    obtain ⟨p, hp, rfl⟩ := List.mem_map.mp hl
    refine (Program.mem_text (p := p) ?_).1 rfl
    rw [← hline p (hlines p hp)]
    exact List.mem_append_left _ hmem
  rw [toStr_commandString_eq, hbuf, Program.payload,
    List.splitOn_intercalate _ hnewline (by simpa using hne), List.flatMap_map, Program.text,
    ← List.flatMap_id, List.flatMap_assoc]
  refine List.flatMap_congr fun p hp => ?_
  exact hline p (hlines p hp)

/-- Executing the text of a program runs the program. -/
lemma executeCommand_text (W : Commands) (c : Compositor) {p : Program}
    (hcompile : ∀ b ∈ p, b.Compiles W) : Exec.outcome (executeCommand W p.text c)
      = Exec.ending (p.run W (.start c)) := by
  rw [executeCommand, Exec.init, cStr_of_mem fun ch hch => (Program.mem_text hch).2,
    ← Exec.andThen_cleanup]
  exact Exec.outcome_loop p hcompile le_rfl rfl rfl

/-- The payload of an `IPC_COMMAND` that has a program written in lines runs the program: the same
handlers are called with the same words in the same contexts, the same results are returned, and
the compositor comes to be the same. -/
theorem executeCommand_program (W : Commands) (c : Compositor) {lines : List Program}
    (hne : lines ≠ []) (hlines : ∀ p ∈ lines, p ≠ [])
    (hcompile : ∀ p ∈ lines, ∀ b ∈ p, b.Compiles W) {buf : Buf}
    (hbuf : toStr buf = Program.payload lines) :
    Exec.outcome (executeCommand W (toStr (Server.commandString buf)) c)
      = Exec.ending (Program.run W lines.flatten (.start c)) := by
  rw [toStr_commandString_payload hne hlines hbuf]
  refine executeCommand_text W c fun b hb => ?_
  obtain ⟨p, hp, hb⟩ := List.mem_flatten.mp hb
  exact hcompile p hp b hb

/-- There every pattern compiles. -/
lemma killAndSticky_compiles (b : Block) : b.Compiles killAndSticky := by
  intro token _
  rw [Criteria.patternCreate]
  split_ifs <;> exact ⟨_, rfl⟩

lemma kill_ne_nil : "kill".toList ≠ [] := by simp

lemma kill_lower : ∀ ch ∈ "kill".toList, ch.isLower = true := by simp

def killCommand (spaces : ℕ) : Command := ⟨spaces, "kill".toList, [], kill_ne_nil, kill_lower⟩

lemma sticky_ne_nil : "sticky".toList ≠ [] := by simp

lemma sticky_lower : ∀ ch ∈ "sticky".toList, ch.isLower = true := by simp

def stickyCommand (spaces : ℕ) (arg : Argument) : Command :=
  ⟨spaces, "sticky".toList, [arg], sticky_ne_nil, sticky_lower⟩

lemma onOrOff_plain : ∀ ch ∈ "on; or off".toList, ch ∉ ['\n', nul, doubleQuote, backslash] := by
  simp [nul, doubleQuote, backslash]

lemma onOrOff_bare : true = false → "on; or off".toList ≠ [] ∧
    ∀ ch ∈ "on; or off".toList, isSpace ch = false ∧ ch ∉ [singleQuote, '[', ']', ';', ','] := by
  simp

/-- A quoted word with a delimiter. -/
def onOrOff : Argument := ⟨"on; or off".toList, true, onOrOff_plain, onOrOff_bare⟩

/-- A title with a bracket and a quote. -/
def bracketTitle : QuotedToken := ⟨0, .title, "a] \"b".toList⟩

lemma bracketTitle_nodup : ([bracketTitle].map QuotedToken.field).Nodup := by simp

lemma bracketTitle_plain : ∀ token ∈ [bracketTitle],
    nul ∉ token.value ∧ '\n' ∉ token.value ∧ token.value.getLast? ≠ some backslash := by
  decide +kernel

lemma nodup_no_tokens : (([] : List QuotedToken).map QuotedToken.field).Nodup := by simp

lemma plain_no_tokens : ∀ token ∈ ([] : List QuotedToken),
    nul ∉ token.value ∧ '\n' ∉ token.value ∧ token.value.getLast? ≠ some backslash := by
  simp

/-- Two lines: a block under a title, with a delimiter in a word, and `kill` without criteria. -/
def stickyThenKill : List Program :=
  [[⟨0, [bracketTitle], bracketTitle_nodup, bracketTitle_plain, stickyCommand 1 onOrOff,
    [killCommand 0]⟩], [⟨2, [], nodup_no_tokens, plain_no_tokens, killCommand 0, []⟩]]

theorem stickyThenKill_runs : Exec.outcome (executeCommand killAndSticky
      (toStr (Server.commandString ((Program.payload stickyThenKill).map Char.toUInt8)))
      (.flat [⟨1, "A".toList, 1, 1, ⟨0, 0⟩⟩] [] none))
    = Exec.ending (Program.run killAndSticky stickyThenKill.flatten
      (.start (.flat [⟨1, "A".toList, 1, 1, ⟨0, 0⟩⟩] [] none))) := by
  refine executeCommand_program killAndSticky _ (by decide) (by decide)
    (fun p _ b _ => killAndSticky_compiles b) (by decide +kernel)

end WayfireIpc
