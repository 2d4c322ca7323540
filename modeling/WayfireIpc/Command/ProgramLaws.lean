/-
# Laws of programs

Programs can be sent in one message or in two, and written with other blanks, quotes and orders of
tokens, without a difference in what they do.
-/
import WayfireIpc.Command.ProgramRun

namespace WayfireIpc

/-! ## Two messages in one -/

/-- `t` is `s` with other results and calls before its own. -/
structure RunState.Behind (before s t : RunState) : Prop where
  compositor : t.compositor = s.compositor
  results : t.results = before.results ++ s.results
  calls : t.calls = before.calls ++ s.calls

namespace RunState.Behind

variable {W : Commands} {before s t : RunState}

lemma answer (h : before.Behind s t) (r : CommandResult) : before.Behind (s.answer r) (t.answer r) :=
  ⟨h.compositor, by rw [RunState.answer, h.results, List.append_assoc]; rfl, h.calls⟩

/-- In a given context, a handler does not see what has been done before. -/
lemma call (h : before.Behind s t) (usingCriteria : Bool) (name : CommandName) (argv : List Str)
    (context : Except Failure CommandHandlerContext) :
    before.Behind (s.call W usingCriteria name argv context).1
        (t.call W usingCriteria name argv context).1 ∧
      (s.call W usingCriteria name argv context).2 = (t.call W usingCriteria name argv context).2 := by
  rcases context with f | context
  · exact ⟨h, rfl⟩
  · have hcalls : t.calls ++ [⟨usingCriteria, name, argv, context, s.compositor⟩]
        = before.calls ++ (s.calls ++ [⟨usingCriteria, name, argv, context, s.compositor⟩]) := by
      rw [h.calls, List.append_assoc]
    rw [RunState.call, RunState.call, h.compositor]
    rcases W.handler name argv context s.compositor with f | ⟨res, compositor⟩
    · exact ⟨⟨rfl, h.results, hcalls⟩, rfl⟩
    · exact ⟨⟨rfl, h.results, hcalls⟩, rfl⟩

lemma onEach (name : CommandName) (argv : List Str) (containers : List Node) :
    Stopping.Alike before.Behind (Command.onEach W name argv containers)
      (Command.onEach W name argv containers) := by
  induction containers with
  | nil => exact fun s t h => ⟨h.answer _, rfl⟩
  | cons container containers ih =>
    intro s t h
    obtain ⟨hcall, hres⟩ := h.call (W := W) true name argv (setConfigNode s.compositor container true)
    rw [Command.onEach, Command.onEach, h.compositor]
    rcases hs : s.call W true name argv (setConfigNode s.compositor container true) with ⟨s₁, r⟩
    rcases ht : t.call W true name argv (setConfigNode s.compositor container true) with ⟨t₁, r'⟩
    rw [hs, ht] at hcall hres
    dsimp only at hcall hres
    subst hres
    rcases r with f | res
    · exact ⟨hcall, rfl⟩
    · dsimp only
      split_ifs
      · exact ih s₁ t₁ hcall
      · exact ⟨hcall.answer res, rfl⟩

/-- A block under criteria does not see what has been done before. -/
lemma run_block {b : Block} (hb : b.tokens ≠ []) :
    Stopping.Alike before.Behind (b.run W) (b.run W) := by
  intro s t h
  have hrun : ∀ containers, ∀ cmd ∈ b.commands,
      Stopping.Alike before.Behind (cmd.run W (some containers)) (cmd.run W (some containers)) := by
    intro containers cmd _ s t h
    rw [Command.run]
    rcases coreHandler cmd.name with _ | handler
    · exact ⟨h.answer _, rfl⟩
    · rcases containers with _ | ⟨container, containers⟩
      · exact ⟨h.answer _, rfl⟩
      · exact onEach handler _ _ s t h
  rw [Block.run, Block.run, h.compositor, Block.select, if_neg hb]
  rcases (b.criteria W).getContainers W.library s.compositor with f | containers
  · exact ⟨h, rfl⟩
  · exact Stopping.Alike.all (hrun containers) s t h

end RunState.Behind

/-- Two texts of programs, of which the second one has criteria for all of its commands, can be sent
in one message: if the first program stops before its end, nothing of the second is run; else the
handlers are called and the results are returned as for two messages. -/
theorem executeCommand_append (W : Commands) (c : Compositor) {p q : Program}
    (hp : ∀ b ∈ p, b.Compiles W) (hq : ∀ b ∈ q, b.Compiles W ∧ b.tokens ≠ []) :
    let first := executeCommand W p.text c
    let second := executeCommand W q.text first.1.compositor
    let both := executeCommand W (p.text ++ q.text) c
    (∀ stop, (p.run W (.start c)).2 = some stop → Exec.outcome both = Exec.outcome first) ∧
      ((p.run W (.start c)).2 = none → both.2 = second.2 ∧
        both.1.compositor = second.1.compositor ∧
        both.1.resList = first.1.resList ++ second.1.resList ∧
        callsOf both.1.log = callsOf first.1.log ++ callsOf second.1.log) := by
  intro first second both
  have hfirst : Exec.outcome first = Exec.ending (p.run W (.start c)) :=
    executeCommand_text W c hp
  have hsecond : Exec.outcome second = Exec.ending (q.run W (.start first.1.compositor)) :=
    executeCommand_text W first.1.compositor fun b hb => (hq b hb).1
  have hboth : Exec.outcome both = Exec.ending (Stopping.seq (p.run W) (q.run W) (.start c)) := by
    have htext : Program.text (p ++ q) = p.text ++ q.text := List.flatMap_append
    have hrun : Program.run W (p ++ q) = Stopping.seq (p.run W) (q.run W) := by
      rw [Program.run, List.map_append, Stopping.all_append]
      rfl
    have hexec := executeCommand_text W c (p := p ++ q) fun b hb => by
      rcases List.mem_append.mp hb with hb | hb
      · exact hp b hb
      · exact (hq b hb).1
    rwa [htext, hrun] at hexec
  rcases hrun : p.run W (.start c) with ⟨s, e⟩
  rw [hrun] at hfirst
  cases e with
  | some e =>
    refine ⟨fun _ _ => ?_, fun h => (by cases h)⟩
    rw [hboth, hfirst, Stopping.seq_of_some hrun]
  | none =>
    refine ⟨fun _ h => (by cases h), fun _ => ?_⟩
    rw [Stopping.seq_of_none hrun] at hboth
    have hstate : first.1.state = s := congrArg Prod.fst hfirst
    have hbehind : s.Behind (.start first.1.compositor) s := by
      refine ⟨?_, (List.append_nil _).symm, (List.append_nil _).symm⟩
      rw [← hstate]
      rfl
    obtain ⟨hs, hstop⟩ := Stopping.Alike.all
      (fun b hb => RunState.Behind.run_block (W := W) (hq b hb).2) _ _ hbehind
    have hsecondState : second.1.state = _ := congrArg Prod.fst hsecond
    have hbothState : both.1.state = _ := congrArg Prod.fst hboth
    have hbehindBoth : first.1.state.Behind second.1.state both.1.state := by
      rw [hstate, hsecondState, hbothState]
      exact hs
    refine ⟨?_, hbehindBoth.compositor, hbehindBoth.results, hbehindBoth.calls⟩
    have hflow : both.2 = .ofStop (q.run W s).2 := congrArg Prod.snd hboth
    rw [hflow, Program.run, ← hstop]
    exact (congrArg Prod.snd hsecond).symm

/-- Two windows of one application. -/
def twoWindows : Compositor :=
  .flat [⟨1, "A".toList, 1, 1, ⟨0, 0⟩⟩] [.toplevelOn 7 0 .workspace, .toplevelOn 8 0 .workspace] none

/-- The empty title. -/
def untitled : QuotedToken := ⟨0, .title, []⟩

lemma untitled_nodup : ([untitled].map QuotedToken.field).Nodup := by simp

lemma untitled_plain : ∀ token ∈ [untitled],
    nul ∉ token.value ∧ '\n' ∉ token.value ∧ token.value.getLast? ≠ some backslash := by decide

/-- `kill` on the views without a title that the criteria select. -/
def killUntitled : Program := [⟨0, [untitled], untitled_nodup, untitled_plain, killCommand 1, []⟩]

theorem killUntitled_append :
    let first := executeCommand killAndSticky (Program.text killUntitled) twoWindows
    let second := executeCommand killAndSticky (Program.text killUntitled) first.1.compositor
    let both := executeCommand killAndSticky (Program.text killUntitled ++ Program.text killUntitled)
      twoWindows
    both.2 = second.2 ∧ both.1.compositor = second.1.compositor ∧
      both.1.resList = first.1.resList ++ second.1.resList ∧
      callsOf both.1.log = callsOf first.1.log ++ callsOf second.1.log := by
  refine (executeCommand_append killAndSticky twoWindows (fun b _ => killAndSticky_compiles b)
    (fun b hb => ⟨killAndSticky_compiles b, ?_⟩)).2 (by decide +kernel)
  rw [List.mem_singleton.mp hb]
  exact List.cons_ne_nil _ _

/-! ## Programs that are written differently -/

/-- What a token asks for. -/
def QuotedToken.asks (token : QuotedToken) : PatternField × Str := (token.field, token.value)

/-- The same command, with other spaces or other quotes. -/
structure Command.Same (cmd cmd' : Command) : Prop where
  name : cmd'.name = cmd.name
  args : cmd'.args.map Argument.text = cmd.args.map Argument.text

/-- The same commands under the same criteria, with the tokens in another order. -/
structure Block.Same (b b' : Block) : Prop where
  tokens : (b'.tokens.map QuotedToken.asks).Perm (b.tokens.map QuotedToken.asks)
  commands : List.Forall₂ Command.Same b.commands b'.commands

section Same

variable {W : Commands}

lemma map_eq_of_forall₂ {α β : Type*} {R : α → α → Prop} {f : α → β} {l l' : List α}
    (h : List.Forall₂ R l l') (hf : ∀ {x y}, R x y → f y = f x) : l'.map f = l.map f := by
  induction h with
  | nil => rfl
  | cons hxy _ ih => rw [List.map_cons, List.map_cons, hf hxy, ih]

lemma Command.Same.run_eq {cmd cmd' : Command} (h : cmd.Same cmd') : cmd'.run W = cmd.run W := by
  funext containers
  rw [Command.run, Command.run, h.name, h.args]

lemma QuotedToken.given_eq_some_iff {W : Library} {tokens : List QuotedToken}
    (hnodup : (tokens.map QuotedToken.field).Nodup) {field : PatternField} {pattern : Pattern} :
    given W tokens field = some pattern ↔
      ∃ value, (field, value) ∈ tokens.map QuotedToken.asks ∧
        Criteria.patternCreate W value = .ok pattern := by
  have hvalue : ∀ value, (Criteria.patternCreate W value).toOption = some pattern ↔
      Criteria.patternCreate W value = .ok pattern := by
    intro value
    rcases Criteria.patternCreate W value with _ | _ <;> simp [Except.toOption]
  rw [given, Option.bind_eq_some_iff]
  simp only [hvalue]
  constructor
  · rintro ⟨token, hfind, hpattern⟩
    have hfield : token.field = field := by simpa using List.find?_some hfind
    exact ⟨token.value, List.mem_map.mpr ⟨token, List.mem_of_find?_eq_some hfind, by rw [asks, hfield]⟩,
      hpattern⟩
  · rintro ⟨value, hmem, hpattern⟩
    obtain ⟨token, htoken, hasks⟩ := List.mem_map.mp hmem
    obtain ⟨rfl, rfl⟩ := Prod.ext_iff.mp hasks
    refine ⟨token, ?_, hpattern⟩
    obtain ⟨found, hfound⟩ : ∃ found, tokens.find? (fun t => t.field = token.field) = some found := by
      rw [← Option.isSome_iff_exists, List.find?_isSome]
      exact ⟨token, htoken, by simp⟩
    have hfield : found.field = token.field := by simpa using List.find?_some hfound
    have heq := List.inj_on_of_nodup_map hnodup (List.mem_of_find?_eq_some hfound) htoken hfield
    rw [← heq]
    exact heq ▸ hfound

/-- The text that the criteria were read from does not matter. -/
lemma Criteria.getContainers_ofPatterns (W : Library) (c : Compositor) (raw raw' : Str)
    (patterns : PatternField → Option Pattern) :
    (ofPatterns raw patterns).getContainers W c = (ofPatterns raw' patterns).getContainers W c := by
  have hmatches : ∀ containers, (ofPatterns raw patterns).matchesOf W c containers
      = (ofPatterns raw' patterns).matchesOf W c containers := by
    intro containers
    induction containers with
    | nil => rfl
    | cons container containers ih =>
      rw [matchesOf, matchesOf, ih]
      rfl
  simp only [getContainers, getContainersFrom, hmatches]

lemma Block.Same.run_eq {b b' : Block} (h : b.Same b') : b'.run W = b.run W := by
  have hgiven : QuotedToken.given W.library b'.tokens = QuotedToken.given W.library b.tokens := by
    funext field
    ext pattern
    rw [QuotedToken.given_eq_some_iff b'.nodup, QuotedToken.given_eq_some_iff b.nodup]
    simp only [h.tokens.mem_iff]
  have hnil : b'.tokens = [] ↔ b.tokens = [] := by
    have hlength := h.tokens.length_eq
    rw [List.length_map, List.length_map] at hlength
    rw [← List.length_eq_zero_iff, hlength, List.length_eq_zero_iff]
  have hcommands : ∀ containers, b'.commands.map (Command.run W containers)
      = b.commands.map (Command.run W containers) := fun containers =>
    map_eq_of_forall₂ h.commands fun hcmd => congrFun hcmd.run_eq containers
  funext s
  rw [Block.run, Block.run, Block.select, Block.select, Block.criteria, Block.criteria, hgiven,
    Criteria.getContainers_ofPatterns _ _ (QuotedToken.block b'.tokens) (QuotedToken.block b.tokens)]
  simp only [hnil, hcommands]

lemma Block.Same.compiles_iff {b b' : Block} (h : b.Same b') : b'.Compiles W ↔ b.Compiles W := by
  have hasks : ∀ b : Block, b.Compiles W ↔ ∀ a ∈ b.tokens.map QuotedToken.asks,
      ∃ pattern, Criteria.patternCreate W.library a.2 = .ok pattern := by
    intro b
    rw [List.forall_mem_map]
    rfl
  rw [hasks, hasks]
  simp only [h.tokens.mem_iff]

/-- Blanks, the quotes around words and the order of the tokens of a block do not change what is
done. -/
theorem executeCommand_same (W : Commands) (c : Compositor) {p p' : Program}
    (hsame : List.Forall₂ Block.Same p p') (hcompile : ∀ b ∈ p, b.Compiles W) :
    Exec.outcome (executeCommand W p'.text c) = Exec.outcome (executeCommand W p.text c) := by
  have hcompiles : p'.map (Block.Compiles W) = p.map (Block.Compiles W) :=
    map_eq_of_forall₂ hsame fun hb => propext hb.compiles_iff
  have hcompile' : ∀ b ∈ p', b.Compiles W := by
    have hall : ∀ P ∈ p.map (Block.Compiles W), P := List.forall_mem_map.mpr hcompile
    rw [← hcompiles] at hall
    exact fun b hb => hall _ (List.mem_map_of_mem hb)
  have hrun : p'.run W = p.run W :=
    congrArg Stopping.all (map_eq_of_forall₂ hsame fun hb => hb.run_eq)
  rw [executeCommand_text W c hcompile, executeCommand_text W c hcompile', hrun]

end Same

/-- The application `a`, behind some blanks. -/
def ofAppA (spaces : ℕ) : QuotedToken := ⟨spaces, .appId, "a".toList⟩

lemma untitledOfA_nodup : ([untitled, ofAppA 1].map QuotedToken.field).Nodup := by decide

lemma untitledOfA_plain : ∀ token ∈ [untitled, ofAppA 1],
    nul ∉ token.value ∧ '\n' ∉ token.value ∧ token.value.getLast? ≠ some backslash := by decide

lemma ofAUntitled_nodup : ([ofAppA 2, untitled].map QuotedToken.field).Nodup := by decide

lemma ofAUntitled_plain : ∀ token ∈ [ofAppA 2, untitled],
    nul ∉ token.value ∧ '\n' ∉ token.value ∧ token.value.getLast? ≠ some backslash := by decide

lemma on_plain : ∀ ch ∈ "on".toList, ch ∉ ['\n', nul, doubleQuote, backslash] := by
  simp [nul, doubleQuote, backslash]

lemma on_bare (quoted : Bool) : quoted = false → "on".toList ≠ [] ∧
    ∀ ch ∈ "on".toList, isSpace ch = false ∧ ch ∉ [singleQuote, '[', ']', ';', ','] := by
  simp [isSpace, whitespace, singleQuote]

def onWord (quoted : Bool) : Argument := ⟨"on".toList, quoted, on_plain, on_bare quoted⟩

/-- `sticky on` under a title and an application. -/
def plainSticky : Program :=
  [⟨0, [untitled, ofAppA 1], untitledOfA_nodup, untitledOfA_plain, stickyCommand 1 (onWord false), []⟩]

/-- The same with other blanks, a quoted word and the tokens in the other order. -/
def quotedSticky : Program :=
  [⟨3, [ofAppA 2, untitled], ofAUntitled_nodup, ofAUntitled_plain, stickyCommand 0 (onWord true), []⟩]

theorem quotedSticky_same :
    Exec.outcome (executeCommand killAndSticky (Program.text quotedSticky) twoWindows)
      = Exec.outcome (executeCommand killAndSticky (Program.text plainSticky) twoWindows) := by
  refine executeCommand_same killAndSticky twoWindows (.cons ⟨?_, .cons ⟨rfl, rfl⟩ .nil⟩ .nil)
    fun b _ => killAndSticky_compiles b
  exact .swap _ _ _

end WayfireIpc
