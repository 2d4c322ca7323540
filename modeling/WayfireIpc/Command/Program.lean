/-
# Command strings as programs

What a command string means, without its text: blocks of commands, each block under criteria or on
the focused view.  Programs run in sequence, and the first command that fails stops them.
-/
import WayfireIpc.Command.RoundTrip
import WayfireIpc.Command.Quoted
import WayfireIpc.Lib.Stopping

namespace WayfireIpc

/-- A command behind some blanks: a word of small letters, known or not, and its arguments. -/
structure Command where
  spaces : ℕ
  name : Str
  args : List Argument
  name_ne_nil : name ≠ []
  lower : ∀ ch ∈ name, ch.isLower = true

/-- Commands that are run one after the other, under the criteria of the tokens or, if there are
none, on the focused view. -/
structure Block where
  spaces : ℕ
  tokens : List QuotedToken
  nodup : (tokens.map QuotedToken.field).Nodup
  plain : ∀ token ∈ tokens,
    nul ∉ token.value ∧ '\n' ∉ token.value ∧ token.value.getLast? ≠ some backslash
  first : Command
  rest : List Command

/-- What the commands of a program work on. -/
structure RunState where
  compositor : Compositor
  /-- The context of the last call. -/
  context : CommandHandlerContext
  results : List CommandResult
  calls : List HandlerCall

/-- Why a program stops before its end. -/
inductive Stop
  /-- A command has failed. -/
  | cleanup
  | failed (f : Failure)
deriving DecidableEq, Repr

def Flow.stop : Flow → Option Stop
  | .next => none
  | .cleanup => some .cleanup
  | .failed f => some (.failed f)

/-- How `execute_command` ends; it does not tell a program that has stopped from one that has come
to its end. -/
def Flow.ofStop : Option Stop → Flow
  | some (.failed f) => .failed f
  | _ => .cleanup

namespace RunState

def start (c : Compositor) : RunState := ⟨c, {}, [], []⟩

def answer (s : RunState) (r : CommandResult) : RunState := { s with results := s.results ++ [r] }

/-- A handler is called in a context, if there is one. -/
def call (W : Commands) (usingCriteria : Bool) (name : CommandName) (argv : List Str)
    (context : Except Failure CommandHandlerContext) (s : RunState) :
    RunState × Except Failure CommandResult :=
  match context with
  | .error f => (s, .error f)
  | .ok context =>
    let called : RunState := { s with
      context := context
      calls := s.calls ++ [⟨usingCriteria, name, argv, context, s.compositor⟩] }
    match W.handler name argv context s.compositor with
    | .error f => (called, .error f)
    | .ok (res, compositor) => ({ called with compositor := compositor }, .ok res)

/-- The context of the focused view, or the last one if no view has the focus. -/
def focusContext (s : RunState) (out : OutputRef) : Except Failure CommandHandlerContext :=
  match s.compositor.activeView out with
  | some view => setConfigNode s.compositor (s.compositor.describeView view) false
  | none => .ok s.context

end RunState

namespace Command

variable (W : Commands)

/-- A command on the focused view. -/
def onFocus (name : CommandName) (argv : List Str) : Stopping RunState Stop := fun s =>
  match s.compositor.activeOutput with
  | none => (s, some (.failed .assertion))
  | some out =>
    match s.call W false name argv (s.focusContext out) with
    | (s, .error f) => (s, some (.failed f))
    | (s, .ok res) => (s.answer res, if res.status ≠ .success then some .cleanup else none)

/-- A command on each of the containers; it has one result. -/
def onEach (name : CommandName) (argv : List Str) : List Node → Stopping RunState Stop
  | [], s => (s.answer ⟨.success, none⟩, none)
  | container :: containers, s =>
    match s.call W true name argv (setConfigNode s.compositor container true) with
    | (s, .error f) => (s, some (.failed f))
    | (s, .ok res) =>
      if res.status = .success then onEach name argv containers s
      else (s.answer res, some .cleanup)

/-- A command on the containers that the criteria have selected, or on the focused view. -/
def run (containers : Option (List Node)) (cmd : Command) : Stopping RunState Stop :=
  match coreHandler cmd.name with
  | none => fun s =>
    (s.answer ⟨.notFound, some ("Unknown command ".toList ++ cmd.name)⟩, some .cleanup)
  | some handler =>
    match containers with
    | none => onFocus W handler (cmd.args.map Argument.text)
    | some [] => fun s => (s.answer .noMatchingNode, none)
    | some containers => onEach W handler (cmd.args.map Argument.text) containers

end Command

namespace Block

variable (W : Commands) (b : Block)

def commands : List Command := b.first :: b.rest

/-- The criteria of the tokens. -/
def criteria : Criteria :=
  .ofPatterns (QuotedToken.block b.tokens) (QuotedToken.given W.library b.tokens)

/-- The patterns of the tokens compile. -/
def Compiles : Prop :=
  ∀ token ∈ b.tokens, ∃ pattern, Criteria.patternCreate W.library token.value = .ok pattern

/-- What the commands of a block are run on. -/
def select (c : Compositor) : Except Failure (Option (List Node)) :=
  if b.tokens = [] then .ok none else some <$> (b.criteria W).getContainers W.library c

/-- The containers are selected once, before the first command. -/
def run : Stopping RunState Stop := fun s =>
  match b.select W s.compositor with
  | .error f => (s, some (.failed f))
  | .ok containers => Stopping.all (b.commands.map (Command.run W containers)) s

end Block

/-- A program: blocks one after the other. -/
abbrev Program := List Block

def Program.run (W : Commands) (p : Program) : Stopping RunState Stop :=
  Stopping.all (p.map (Block.run W))

/-! ## The text of a program -/

namespace Command

variable (cmd : Command)

def line : Str := commandLine cmd.name cmd.args

def text : Str := List.replicate cmd.spaces ' ' ++ cmd.line

end Command

/-- Commands, with commas between them. -/
def commandsText (first : Command) (rest : List Command) : Str :=
  first.text ++ rest.flatMap fun cmd => ',' :: cmd.text

def Block.text (b : Block) : Str :=
  List.replicate b.spaces ' ' ++ (if b.tokens = [] then [] else QuotedToken.block b.tokens)
    ++ commandsText b.first b.rest

/-- Blocks, with a semicolon behind each of them. -/
def Program.text (p : Program) : Str := p.flatMap fun b => b.text ++ [';']

/-- The payload that a program is sent in, line by line. -/
def Program.payload (lines : List Program) : Str :=
  ['\n'].intercalate (lines.map fun p => [';'].intercalate (p.map Block.text))

/-! ## Cutting off a command -/

namespace Command

variable (cmd : Command)

/-- The line begins with a small letter. -/
lemma exists_line : ∃ ch t, cmd.line = ch :: t ∧ ch.isLower = true := by
  obtain ⟨ch, t, hname⟩ := List.exists_cons_of_ne_nil cmd.name_ne_nil
  refine ⟨ch, t ++ cmd.args.flatMap fun a => ' ' :: a.written, ?_, ?_⟩
  · rw [line, commandLine_eq, hname, List.cons_append]
  · exact cmd.lower ch (hname ▸ List.mem_cons_self)

lemma mem_line {ch : Char} (hch : ch ∈ cmd.line) : ch ≠ '\n' ∧ ch ≠ nul ∧ ch ≠ backslash := by
  have hplain : ∀ {x : Char}, x ∉ ['\n', nul, doubleQuote, backslash] →
      x ≠ '\n' ∧ x ≠ nul ∧ x ≠ backslash := by
    intro x hx
    simp only [List.mem_cons, List.not_mem_nil, or_false, not_or] at hx
    exact ⟨hx.1, hx.2.1, hx.2.2.2⟩
  rw [line, commandLine_eq, List.mem_append, List.mem_flatMap] at hch
  rcases hch with hch | ⟨a, -, hch⟩
  · have hlower := cmd.lower ch hch
    refine ⟨?_, ?_, ?_⟩ <;> rintro rfl <;> exact absurd hlower (by simp [nul, backslash])
  · rcases List.mem_cons.mp hch with rfl | hch
    · decide
    · rw [Argument.written] at hch
      split_ifs at hch
      · rcases List.mem_cons.mp hch with rfl | hch
        · decide
        · rcases List.mem_append.mp hch with hch | hch
          · exact hplain (a.plain ch hch)
          · rw [List.mem_singleton.mp hch]
            decide
      · exact hplain (a.plain ch hch)

/-- The words come out as they were put in. -/
lemma splitArgs_line :
    IpcTools.splitArgs cmd.line = .ok (cmd.name :: cmd.args.map Argument.written) := by
  have hpass : ∀ w ∈ cmd.name :: cmd.args.map Argument.written,
      Quote.none.Passes w .none ∧ w ≠ [] := by
    refine List.forall_mem_cons.mpr ⟨⟨passes_of_isLower cmd.lower, cmd.name_ne_nil⟩, ?_⟩
    rintro w hw
    obtain ⟨a, -, rfl⟩ := List.mem_map.mp hw
    exact ⟨Quote.passes_written a, a.written_ne_nil⟩
  have hwords := IpcTools.splitArgs_words hpass
  rwa [List.flatMap_map, ← commandLine_eq] at hwords

end Command

namespace IpcTools

/-- `argsep` goes on behind a text that passes. -/
lemma argsepCut_passes {q q' : Quote} {s : Str} (h : q.Passes s q') (t : Str) :
    argsepCut q false (s ++ t) = (argsepCut q' false t).map fun r => (s ++ r.1, r.2) := by
  induction s generalizing q with
  | nil =>
    cases h
    simp
  | cons ch s ih =>
    have hsep : ¬ (q = .none ∧ false = false ∧ isSeparator ch = true) := by
      rintro ⟨rfl, -, hsep⟩
      rw [(h.2.2.1 rfl).2.2.2] at hsep
      cases hsep
    have hsticky : sticky false ch = false := by
      rw [sticky, if_neg h.1, Bool.false_and]
    rw [List.cons_append, argsepCut, if_neg hsep, if_neg Bool.false_ne_true, hsticky, ih h.2.2.2,
      Option.map_map]
    rfl

lemma argsepCut_blank (t : Str) :
    argsepCut .none false (' ' :: t) = (argsepCut .none false t).map fun r => (' ' :: r.1, r.2) := rfl

/-- The delimiters in the words do not end the line of a command. -/
lemma argsepCut_line (cmd : Command) (t : Str) : argsepCut .none false (cmd.line ++ t)
    = (argsepCut .none false t).map fun r => (cmd.line ++ r.1, r.2) := by
  have hwords : ∀ args : List Argument,
      argsepCut .none false ((args.flatMap fun a => ' ' :: a.written) ++ t)
        = (argsepCut .none false t).map
          fun r => ((args.flatMap fun a => ' ' :: a.written) ++ r.1, r.2) := by
    intro args
    induction args with
    | nil => simp
    | cons a args ih =>
      rw [List.flatMap_cons, List.cons_append, List.cons_append, List.append_assoc,
        argsepCut_blank, argsepCut_passes (Quote.passes_written a), ih, Option.map_map,
        Option.map_map]
      simp [Function.comp_def]
  rw [Command.line, commandLine_eq, List.append_assoc, argsepCut_passes (passes_of_isLower cmd.lower),
    hwords, Option.map_map]
  simp [Function.comp_def]

/-- `argsep` cuts off the line of a command. -/
lemma argsep_line (cmd : Command) {d : Char} (hd : isSeparator d = true) (t : Str) :
    argsep ";,".toList (cmd.line ++ d :: t) = .ok ⟨cmd.line, some t, d⟩ := by
  have hdrop : (cmd.line ++ d :: t).dropWhile isSeparator = cmd.line ++ d :: t := by
    obtain ⟨ch, u, hline, hch⟩ := cmd.exists_line
    rw [hline]
    refine List.dropWhile_cons_of_neg fun hsep => ?_
    rcases isSeparator_iff.mp hsep with rfl | rfl <;> exact absurd hch (by simp)
  have hcut : argsepCut .none false (d :: t) = some ([], d, t) := by
    rw [argsepCut, if_pos ⟨rfl, rfl, hd⟩]
  rw [← separators_eq, argsep_cut, hdrop, argsepCut_line, hcut]
  simp [Argsep.ofCut]

end IpcTools

/-! ## The characters of a program -/

lemma mem_commandsText {first : Command} {rest : List Command} {ch : Char}
    (h : ch ∈ commandsText first rest) : ch ≠ '\n' ∧ ch ≠ nul := by
  have htext : ∀ {cmd : Command}, ch ∈ cmd.text → ch ≠ '\n' ∧ ch ≠ nul := by
    intro cmd hch
    rcases List.mem_append.mp hch with hch | hch
    · rw [List.eq_of_mem_replicate hch]
      decide
    · obtain ⟨hline, hnul, -⟩ := cmd.mem_line hch
      exact ⟨hline, hnul⟩
  rcases List.mem_append.mp h with h | h
  · exact htext h
  · obtain ⟨cmd, -, h⟩ := List.mem_flatMap.mp h
    rcases List.mem_cons.mp h with rfl | h
    · decide
    · exact htext h

/-- A criteria block has no other characters than its tokens. -/
lemma mem_closing {tokens : List QuotedToken} {ch : Char} (h : ch ∈ QuotedToken.closing tokens [])
    (hvalues : ∀ token ∈ tokens, nul ∉ token.value ∧ '\n' ∉ token.value) : ch ≠ '\n' ∧ ch ≠ nul := by
  induction tokens with
  | nil =>
    rw [List.mem_singleton.mp h]
    decide
  | cons token tokens ih =>
    obtain ⟨⟨hnul, hnewline⟩, hvalues⟩ := List.forall_mem_cons.mp hvalues
    have hvalue : ch ∈ escapeQuotes token.value → ch ≠ '\n' ∧ ch ≠ nul := by
      intro hch
      obtain ⟨x, hx, hch⟩ := List.mem_flatMap.mp hch
      split_ifs at hch
      · rcases List.mem_pair.mp hch with rfl | rfl <;> decide
      · rw [List.mem_singleton.mp hch]
        exact ⟨fun h => hnewline (h ▸ hx), fun h => hnul (h ▸ hx)⟩
    have hwritten : '\n' ∉ token.field.written ∧ nul ∉ token.field.written := by
      cases token.field <;> decide
    simp only [QuotedToken.closing, List.foldr_cons, QuotedToken.text, List.mem_append,
      List.mem_cons] at h
    rcases h with h | h | rfl | rfl | h | rfl | h
    · rw [List.eq_of_mem_replicate h]
      decide
    · exact ⟨fun heq => hwritten.1 (heq ▸ h), fun heq => hwritten.2 (heq ▸ h)⟩
    · decide
    · decide
    · exact hvalue h
    · decide
    · exact ih h hvalues

lemma Block.mem_text {b : Block} {ch : Char} (h : ch ∈ b.text) : ch ≠ '\n' ∧ ch ≠ nul := by
  rcases List.mem_append.mp h with h | h
  · rcases List.mem_append.mp h with h | h
    · rw [List.eq_of_mem_replicate h]
      decide
    · split_ifs at h
      · cases h
      · rcases List.mem_cons.mp h with rfl | h
        · decide
        · exact mem_closing h fun token ht => ⟨(b.plain token ht).1, (b.plain token ht).2.1⟩
  · exact mem_commandsText h

lemma Program.mem_text {p : Program} {ch : Char} (h : ch ∈ p.text) : ch ≠ '\n' ∧ ch ≠ nul := by
  obtain ⟨b, -, h⟩ := List.mem_flatMap.mp h
  rcases List.mem_append.mp h with h | h
  · exact b.mem_text h
  · rw [List.mem_singleton.mp h]
    decide

lemma cStr_of_mem {s : Str} (h : ∀ ch ∈ s, ch ≠ nul) : cStr s = s :=
  List.takeWhile_eq_self_iff.mpr fun ch hch => decide_eq_true (h ch hch)

end WayfireIpc
