/-
# The words of a command line

The loop of `output_handler` runs one subcommand after the other, until the words end or a
subcommand does not succeed.  From this the reads of a whole command line are in bounds
unless it comes to a `mode` behind which there is nothing but `--custom`.
-/
import WayfireIpc.Output.Moves

namespace WayfireIpc

variable {words rest ws : List Str} {w : Str} {s s' : OutputRun} {E : OutputEnv} {name : Str}
  {layout layout' : OutputLayout} {sub : Subcommand} {strtof : Str → CFloat × Str}

/-! ## What a parser leaves -/

/-- A parser leaves the last words. -/
def LeavesLast (parser : List Str → Parsed) : Prop :=
  ∀ ws sub rest, parser ws = .subcommand sub rest → rest <:+ ws

lemma parseSecond_suffix {missing invalid : String} {make : Int32 → Subcommand}
    (h : parseSecond missing invalid make ws = .subcommand sub rest) : rest <:+ ws := by
  cases ws with
  | nil => cases h
  | cons w ws =>
    rw [parseSecond] at h
    cases hnumber : wholeNumber w with
    | none =>
      rw [hnumber] at h
      cases h
    | some number =>
      rw [hnumber] at h
      cases h
      exact List.suffix_cons _ _

lemma leavesLast_parsePower : LeavesLast parsePower := by
  intro ws sub rest h
  cases ws with
  | nil => cases h
  | cons w ws =>
    cases h
    exact List.suffix_cons _ _

lemma leavesLast_parseScale : LeavesLast (parseScale strtof) := by
  intro ws sub rest h
  cases ws with
  | nil => cases h
  | cons w ws =>
    simp only [parseScale] at h
    split_ifs at h
    cases h
    exact List.suffix_cons _ _

lemma leavesLast_parseTransform : LeavesLast parseTransform := by
  intro ws sub rest h
  cases ws with
  | nil => cases h
  | cons w ws =>
    rw [parseTransform] at h
    cases htransform : transformOfName w with
    | none =>
      rw [htransform] at h
      cases h
    | some transform =>
      rw [htransform] at h
      cases ws with
      | nil =>
        cases h
        exact List.suffix_cons _ _
      | cons w' ws =>
        simp only [parseDirection] at h
        split_ifs at h <;> cases h
        · exact (List.suffix_cons _ _).trans (List.suffix_cons _ _)
        · exact List.suffix_cons _ _

lemma leavesLast_parsePosition : LeavesLast parsePosition := by
  intro ws sub rest h
  cases ws with
  | nil => cases h
  | cons w ws =>
    rw [parsePosition] at h
    cases hword : positionWord w with
    | invalid error =>
      rw [hword] at h
      cases h
    | complete numbers =>
      rw [hword] at h
      cases h
      exact List.suffix_cons _ _
    | first x =>
      rw [hword] at h
      exact (parseSecond_suffix h).trans (List.suffix_cons _ _)

lemma parseSize_suffix {useCustomMode : Bool}
    (h : parseSize strtof useCustomMode w ws = .subcommand sub rest) : rest <:+ ws := by
  rw [parseSize] at h
  cases hword : modeWord strtof w with
  | invalid error =>
    rw [hword] at h
    cases h
  | complete numbers =>
    rw [hword] at h
    cases h
    exact List.suffix_rfl
  | first width =>
    rw [hword] at h
    exact parseSecond_suffix h

lemma leavesLast_parseMode : LeavesLast (parseMode strtof) := by
  intro ws sub rest h
  cases ws with
  | nil => cases h
  | cons w ws =>
    simp only [parseMode] at h
    split_ifs at h
    · cases ws with
      | nil => cases h
      | cons w' ws =>
        have hsuffix := (parseSize_suffix h).trans (List.suffix_cons w' ws)
        exact hsuffix.trans (List.suffix_cons w (w' :: ws))
    · exact (parseSize_suffix h).trans (List.suffix_cons _ _)

/-! ## Which words end in a fault -/

lemma parseSecond_ne_fault {missing invalid : String} {make : Int32 → Subcommand} :
    parseSecond missing invalid make ws ≠ .fault := by
  cases ws with
  | nil => rintro ⟨⟩
  | cons w ws =>
    rw [parseSecond]
    cases wholeNumber w <;> rintro ⟨⟩

lemma parseSize_ne_fault {useCustomMode : Bool} :
    parseSize strtof useCustomMode w ws ≠ .fault := by
  rw [parseSize]
  cases modeWord strtof w with
  | invalid error => rintro ⟨⟩
  | complete numbers => rintro ⟨⟩
  | first width => exact parseSecond_ne_fault

lemma parseMode_fault_iff : parseMode strtof ws = .fault ↔ ws = ["--custom".toList] := by
  cases ws with
  | nil => exact iff_of_false nofun nofun
  | cons w ws =>
    simp only [parseMode]
    split_ifs with hcustom
    · cases ws with
      | nil => exact iff_of_true rfl (by rw [hcustom])
      | cons w' ws => exact iff_of_false parseSize_ne_fault (by simp)
    · refine iff_of_false parseSize_ne_fault fun h => hcustom ?_
      exact (List.cons.inj h).1

lemma parseDirection_ne_fault {transform : Transform} : parseDirection transform ws ≠ .fault := by
  cases ws with
  | nil => rintro ⟨⟩
  | cons w ws =>
    rw [parseDirection]
    split_ifs <;> rintro ⟨⟩

lemma parseTransform_ne_fault : parseTransform ws ≠ .fault := by
  cases ws with
  | nil => rintro ⟨⟩
  | cons w ws =>
    rw [parseTransform]
    cases transformOfName w with
    | none => rintro ⟨⟩
    | some transform => exact parseDirection_ne_fault

lemma parseScale_ne_fault : parseScale strtof ws ≠ .fault := by
  cases ws with
  | nil => rintro ⟨⟩
  | cons w ws =>
    simp only [parseScale]
    split_ifs <;> rintro ⟨⟩

lemma parsePosition_ne_fault : parsePosition ws ≠ .fault := by
  cases ws with
  | nil => rintro ⟨⟩
  | cons w ws =>
    rw [parsePosition]
    cases positionWord w with
    | invalid error => rintro ⟨⟩
    | complete numbers => rintro ⟨⟩
    | first x => exact parseSecond_ne_fault

/-! ## The first subcommand -/

variable (E) in
/-- A handler does what a parser and the execution of what it parses do. -/
def Matches (handler : SubcommandHandler) (parser : List Str → Parsed) : Prop :=
  ∀ words name s ws, Within words name s → ws <:+ words →
    Ends E words name s.layout (handler E words (argsAt words ws) s) (parser ws)

/-- The handlers and the parsers of a name. -/
lemma maps_match (w : Str) :
    (outputHandlerMap w = none ∧ parserMap E.strtof w = none ∧ w ≠ "mode".toList) ∨
      ∃ handler parser, outputHandlerMap w = some handler ∧ parserMap E.strtof w = some parser ∧
        Matches E handler parser ∧ LeavesLast parser ∧
        ∀ ws, parser ws = .fault ↔ w = "mode".toList ∧ ws = ["--custom".toList] := by
  rw [outputHandlerMap, parserMap]
  split_ifs with hpower hscale htransform hposition hmode
  · refine Or.inr ⟨_, _, rfl, rfl, fun _ _ _ _ => outputPowerHandler_ends, leavesLast_parsePower,
      fun ws => iff_of_false (by cases ws <;> exact nofun) fun h => ?_⟩
    rw [h.1] at hpower
    exact absurd hpower (by decide)
  · refine Or.inr ⟨_, _, rfl, rfl, fun _ _ _ _ => outputScaleHandler_ends, leavesLast_parseScale,
      fun ws => iff_of_false parseScale_ne_fault fun h => ?_⟩
    rw [h.1] at hscale
    exact absurd hscale (by decide)
  · refine Or.inr ⟨_, _, rfl, rfl, fun _ _ _ _ => outputTransformHandler_ends,
      leavesLast_parseTransform, fun ws => iff_of_false parseTransform_ne_fault fun h => ?_⟩
    rw [h.1] at htransform
    exact absurd htransform (by decide)
  · refine Or.inr ⟨_, _, rfl, rfl, fun _ _ _ _ => outputPositionHandler_ends,
      leavesLast_parsePosition, fun ws => iff_of_false parsePosition_ne_fault fun h => ?_⟩
    rw [h.1] at hposition
    exact absurd hposition (by decide)
  · exact Or.inr ⟨_, _, rfl, rfl, fun _ _ _ _ => outputModeHandler_ends, leavesLast_parseMode,
      fun ws => parseMode_fault_iff.trans (and_iff_right hmode).symm⟩
  · exact Or.inl ⟨rfl, rfl, hmode⟩

variable (E) in
/-- The words with which the null pointer is handed on. -/
lemma parseSubcommand_fault_iff :
    parseSubcommand E.strtof ws = .fault ↔ ws = ["mode".toList, "--custom".toList] := by
  cases ws with
  | nil => exact iff_of_false nofun nofun
  | cons w ws =>
    rw [parseSubcommand]
    rcases maps_match (E := E) w with ⟨-, hnone, hne⟩ | ⟨-, parser, -, hparser, -, -, hfault⟩
    · rw [hnone]
      exact iff_of_false nofun fun h => hne (List.cons.inj h).1
    · rw [hparser]
      simp only [hfault ws, List.cons.injEq]

variable (E) in
lemma parseSubcommand_suffix (h : parseSubcommand E.strtof ws = .subcommand sub rest) :
    rest <:+ ws ∧ rest.length < ws.length := by
  cases ws with
  | nil => cases h
  | cons w ws =>
    rw [parseSubcommand] at h
    rcases maps_match (E := E) w with ⟨-, hnone, -⟩ | ⟨-, parser, -, hparser, -, hlast, -⟩
    · rw [hnone] at h
      cases h
    · rw [hparser] at h
      have hsuffix := hlast ws sub rest h
      have hle := hsuffix.length_le
      exact ⟨hsuffix.trans (List.suffix_cons w ws), by rw [List.length_cons]; omega⟩

/-! ## The loop -/

open OutputM

/-- How the loop ends when it has come to some layout and some words. -/
inductive LoopEnds (E : OutputEnv) (words : List Str) (name : Str) (layout : OutputLayout) :
    List Str → Except Failure CommandResult × OutputRun → Prop
  | done {s : OutputRun} : s.layout = layout → s.Bounded words →
      LoopEnds E words name layout [] (.ok ⟨.success, none⟩, s)
  | fault {ws : List Str} {s : OutputRun} : parseSubcommand E.strtof ws = .fault →
      ¬ s.Bounded words → LoopEnds E words name layout ws (.error .nullPointer, s)
  | refused {ws : List Str} {r : CommandResult} {s : OutputRun} : ws ≠ [] →
      parseSubcommand E.strtof ws = .refused r → r.status ≠ .success → s.layout = layout →
      s.Bounded words → LoopEnds E words name layout ws (.ok r, s)
  | failed {ws rest : List Str} {sub : Subcommand} {r : CommandResult} {s : OutputRun} :
      parseSubcommand E.strtof ws = .subcommand sub rest →
      sub.exec E name layout = .ok (r, s.layout) → r.status ≠ .success → s.Bounded words →
      LoopEnds E words name layout ws (.ok r, s)
  | thrown {ws rest : List Str} {sub : Subcommand} {f : Failure} {s : OutputRun} :
      parseSubcommand E.strtof ws = .subcommand sub rest → sub.exec E name layout = .error f →
      s.Bounded words → LoopEnds E words name layout ws (.error f, s)

/-- What the loop does behind the call of a handler. -/
lemma afterHandler {n : ℕ} {handler : SubcommandHandler} {args : Args} {parsed : Parsed}
    (hparsed : parseSubcommand E.strtof ws = parsed) (hne : ws ≠ [])
    (hends : Ends E words name layout (handler E words args s) parsed)
    (hrest : ∀ sub rest, parsed = .subcommand sub rest → rest <:+ words) :
    let r := (do
      let error ← handler E words args
      if error.status ≠ .success then return error
      else
        let s ← get
        outputLoop E words n (← move s.leftovers) : OutputM CommandResult) s
    LoopEnds E words name layout ws r ∨
      ∃ sub rest res s', parsed = .subcommand sub rest ∧
        sub.exec E name layout = .ok (res, s'.layout) ∧ res.status = .success ∧
        Within words name s' ∧ r = outputLoop E words n (argsAt words rest) s' := by
  intro r
  cases hrun : handler E words args s with
  | mk res s₁ =>
  rw [hrun] at hends
  cases parsed with
  | fault =>
    obtain ⟨hres, hnot⟩ := hends
    obtain rfl : res = .error .nullPointer := hres
    have hr : r = (.error .nullPointer, s₁) := bind_error hrun
    rw [hr]
    exact Or.inl (.fault hparsed hnot)
  | refused result =>
    obtain ⟨hbounded, hres, hlayout, hstatus⟩ := hends
    obtain rfl : res = .ok result := hres
    have hr : r = (.ok result, s₁) := by
      refine (bind_ok hrun).trans ?_
      rw [if_pos hstatus]
      rfl
    rw [hr]
    exact Or.inl (.refused hne hparsed hstatus hlayout hbounded)
  | subcommand sub rest =>
    obtain ⟨hbounded, hexec⟩ := hends
    cases hsub : sub.exec E name layout with
    | error f =>
      rw [hsub] at hexec
      obtain rfl : res = .error f := hexec
      have hr : r = (.error f, s₁) := bind_error hrun
      rw [hr]
      exact Or.inl (.thrown hparsed hsub hbounded)
    | ok executed =>
      rw [hsub] at hexec
      obtain ⟨hres, hlayout, hconfig, hleft⟩ := hexec
      obtain rfl : res = .ok executed.1 := hres
      by_cases hstatus : executed.1.status = .success
      · refine Or.inr ⟨sub, rest, executed.1, s₁.note (.set (argsAt words rest)), rfl, ?_, hstatus,
          ⟨hconfig, bounded_set (hrest sub rest rfl) hbounded⟩, ?_⟩
        · rw [hsub]
          exact congrArg Except.ok (Prod.ext rfl hlayout.symm)
        · refine (bind_ok hrun).trans ?_
          rw [if_neg (not_not.mpr hstatus), get_bind, move_bind, hleft hstatus]
      · have hr : r = (.ok executed.1, s₁) := by
          refine (bind_ok hrun).trans ?_
          rw [if_pos hstatus]
          rfl
        rw [hr]
        refine Or.inl (.failed hparsed ?_ hstatus hbounded)
        rw [hsub]
        exact congrArg Except.ok (Prod.ext rfl hlayout.symm)

/-- One round of the loop. -/
lemma outputLoop_round {n : ℕ} (hs : Within words name s) (hws : w :: ws <:+ words) :
    LoopEnds E words name s.layout (w :: ws)
        (outputLoop E words (n + 1) (argsAt words (w :: ws)) s) ∨
      ∃ sub rest res s', parseSubcommand E.strtof (w :: ws) = .subcommand sub rest ∧
        sub.exec E name s.layout = .ok (res, s'.layout) ∧ res.status = .success ∧
        Within words name s' ∧
        outputLoop E words (n + 1) (argsAt words (w :: ws)) s
          = outputLoop E words n (argsAt words rest) s' := by
  have hpos : (argsAt words (w :: ws)).argc > 0 := by
    show ((w :: ws).length : ℤ) > 0
    rw [List.length_cons]
    omega
  have hcleared : Within words name { s with leftovers := ⟨0, none⟩ } := ⟨hs.config, hs.bounded⟩
  have hs₁ := hcleared.word hws (k := 0) rfl
  rw [outputLoop, if_pos hpos, modify_bind, bind_ok (word_argsAt hws rfl)]
  rcases maps_match (E := E) w with ⟨hnone, hparser, -⟩ |
    ⟨handler, parser, hhandler, hparser, hmatch, hlast, -⟩
  · rw [hnone]
    refine Or.inl (.refused (List.cons_ne_nil _ _) ?_ nofun rfl hs₁.bounded)
    rw [parseSubcommand, hparser]
  · have hparsed : parseSubcommand E.strtof (w :: ws) = parser ws := by
      rw [parseSubcommand, hparser]
    have hs₂ := hs₁.set (suffix_tail hws)
    rw [hhandler, hparsed]
    simp only
    rw [move_bind, argsAt_next hws]
    exact afterHandler hparsed (List.cons_ne_nil _ _)
      (hmatch words name _ ws hs₂ (suffix_tail hws))
      fun sub rest h => (hlast ws sub rest h).trans (suffix_tail hws)

/-- The loop comes through subcommands that succeed to the words at which it ends. -/
lemma outputLoop_ends : ∀ {n : ℕ} {ws : List Str} {s : OutputRun}, ws.length < n →
    Within words name s → ws <:+ words → ∃ layout' ws',
      Succeeds E name s.layout ws layout' ws' ∧
      LoopEnds E words name layout' ws' (outputLoop E words n (argsAt words ws) s) := by
  intro n
  induction n with
  | zero => exact fun h => absurd h (Nat.not_lt_zero _)
  | succ n ih =>
    intro ws s hlt hs hws
    cases ws with
    | nil =>
      refine ⟨s.layout, [], .refl, ?_⟩
      rw [outputLoop, if_neg (by simp [argsAt])]
      exact .done rfl hs.bounded
    | cons w ws =>
      rcases outputLoop_round (n := n) hs hws with hends |
        ⟨sub, rest, res, s', hparse, hexec, hstatus, hs', hrun⟩
      · exact ⟨s.layout, w :: ws, .refl, hends⟩
      · obtain ⟨hsuffix, hshort⟩ := parseSubcommand_suffix E hparse
        obtain ⟨layout', ws', hsucceeds, hends⟩ := ih (by omega) hs' (hsuffix.trans hws)
        rw [← hrun] at hends
        exact ⟨layout', ws', .step hparse hexec hstatus hsucceeds, hends⟩

lemma argsAt_self : argsAt words words = ⟨words.length, some 0⟩ := by
  rw [argsAt, Nat.sub_self]

/-- The context when the loop begins. -/
def OutputRun.entered (name : Str) (ws : List Str) (layout : OutputLayout) : OutputRun where
  layout := layout
  outputConfig := some ⟨some name⟩
  leftovers := ⟨0, none⟩
  log := [.set (argsAt (name :: ws) (name :: ws)), .read (argsAt (name :: ws) (name :: ws)) 0,
    .parse (some name), .set (argsAt (name :: ws) ws)]

lemma within_entered (name : Str) (ws : List Str) (layout : OutputLayout) :
    Within (name :: ws) name (.entered name ws layout) := by
  have hwhole : name :: ws <:+ name :: ws := List.suffix_rfl
  have hstart : (OutputRun.start layout).Bounded (name :: ws) := nofun
  have hnamed := bounded_word (k := 0) hwhole rfl (bounded_set hwhole hstart)
  exact ⟨rfl, bounded_set (suffix_tail hwhole) hnamed⟩

lemma outputHandler_cons (E : OutputEnv) (name : Str) (ws : List Str) (layout : OutputLayout) :
    outputHandler E (name :: ws) (.start layout) = (do
      let error ← outputLoop E (name :: ws) (ws.length + 1) (argsAt (name :: ws) ws)
      cleanup
      return error : OutputM CommandResult) (.entered name ws layout) := by
  have hwhole : name :: ws <:+ name :: ws := List.suffix_rfl
  have hcheck : IpcCommand.checkarg (name :: ws).length "output".toList .atLeast 1 = none := by
    simp [IpcCommand.checkarg]
  rw [outputHandler, hcheck, ← argsAt_self]
  simp only
  rw [move_bind, bind_ok (word_argsAt hwhole rfl), modify_bind, move_bind, argsAt_next hwhole]
  rfl

/-- The command runs the loop on the words behind the name of the output. -/
lemma outputHandler_ends (E : OutputEnv) (name : Str) (ws : List Str) (layout : OutputLayout) :
    ∃ layout' ws' r, Succeeds E name layout ws layout' ws' ∧
      LoopEnds E (name :: ws) name layout' ws' r ∧
      (outputHandler E (name :: ws) (.start layout)).1 = r.1 ∧
      (outputHandler E (name :: ws) (.start layout)).2.layout = r.2.layout ∧
      (outputHandler E (name :: ws) (.start layout)).2.log = r.2.log := by
  obtain ⟨layout', ws', hsucceeds, hends⟩ := outputLoop_ends (E := E) (Nat.lt_succ_self ws.length)
    (within_entered name ws layout) (suffix_tail List.suffix_rfl)
  refine ⟨layout', ws', _, hsucceeds, hends, ?_⟩
  rw [outputHandler_cons]
  cases hloop : outputLoop E (name :: ws) (ws.length + 1) (argsAt (name :: ws) ws)
    (.entered name ws layout) with
  | mk res s' =>
  cases res with
  | error f =>
    rw [bind_error hloop]
    exact ⟨rfl, rfl, rfl⟩
  | ok r =>
    rw [bind_ok hloop]
    exact ⟨rfl, rfl, rfl⟩

/-! ## The reads of a command line -/

/-- Where the loop ends, no further subcommand succeeds. -/
def Stuck (E : OutputEnv) (name : Str) (layout : OutputLayout) (ws : List Str) : Prop :=
  ∀ sub rest r layout', parseSubcommand E.strtof ws = .subcommand sub rest →
    sub.exec E name layout = .ok (r, layout') → r.status ≠ .success

lemma LoopEnds.stuck {r : Except Failure CommandResult × OutputRun}
    (h : LoopEnds E words name layout ws r) : Stuck E name layout ws := by
  intro sub rest res layout' hparse hexec
  cases h with
  | done => cases hparse
  | fault hfault =>
    rw [hfault] at hparse
    cases hparse
  | refused hne hrefused =>
    rw [hrefused] at hparse
    cases hparse
  | failed hparse' hexec' hstatus =>
    rw [hparse'] at hparse
    cases hparse
    rw [hexec'] at hexec
    cases hexec
    exact hstatus
  | thrown hparse' hexec' =>
    rw [hparse'] at hparse
    cases hparse
    rw [hexec'] at hexec
    cases hexec

/-- Subcommands succeed up to one place only. -/
lemma Succeeds.unique {layout₁ layout₂ : OutputLayout} {ws₁ ws₂ : List Str}
    (h₁ : Succeeds E name layout ws layout₁ ws₁) (hstuck₁ : Stuck E name layout₁ ws₁)
    (h₂ : Succeeds E name layout ws layout₂ ws₂) (hstuck₂ : Stuck E name layout₂ ws₂) :
    layout₁ = layout₂ ∧ ws₁ = ws₂ := by
  induction h₁ with
  | refl =>
    cases h₂ with
    | refl => exact ⟨rfl, rfl⟩
    | step hparse hexec hstatus => exact absurd hstatus (hstuck₁ _ _ _ _ hparse hexec)
  | step hparse hexec hstatus _ ih =>
    cases h₂ with
    | refl => exact absurd hstatus (hstuck₂ _ _ _ _ hparse hexec)
    | step hparse' hexec' hstatus' hrest =>
      rw [hparse] at hparse'
      cases hparse'
      rw [hexec] at hexec'
      cases hexec'
      exact ih hstuck₁ hrest

/-- Everything that is done with the arguments of a command line is in bounds exactly when it does
not come to `mode --custom` at the end of the words. -/
theorem outputHandler_bounded_iff (E : OutputEnv) (argv : List Str) (layout : OutputLayout) :
    (outputHandler E argv (.start layout)).2.Bounded argv ↔
      ∀ name ws, argv = name :: ws →
        ¬ ∃ layout', Succeeds E name layout ws layout' ["mode".toList, "--custom".toList] := by
  cases argv with
  | nil => exact iff_of_true nofun nofun
  | cons name ws =>
    obtain ⟨layout', ws', r, hsucceeds, hends, -, -, hlog⟩ := outputHandler_ends E name ws layout
    rw [OutputRun.Bounded, hlog]
    have hfault : parseSubcommand E.strtof ["mode".toList, "--custom".toList] = .fault :=
      (parseSubcommand_fault_iff E).mpr rfl
    constructor
    · rintro hbounded name' ws'' ⟨⟩ ⟨layout'', hreached⟩
      have hstuck : Stuck E name layout'' ["mode".toList, "--custom".toList] := by
        intro sub rest res layout' hparse
        rw [hfault] at hparse
        cases hparse
      obtain ⟨-, rfl⟩ := hsucceeds.unique hends.stuck hreached hstuck
      cases hends with
      | fault _ hnot => exact hnot hbounded
      | refused _ hparse => rw [hfault] at hparse; cases hparse
      | failed hparse => rw [hfault] at hparse; cases hparse
      | thrown hparse => rw [hfault] at hparse; cases hparse
    · intro hnot
      cases hends with
      | done _ hbounded => exact hbounded
      | fault hparse =>
        rw [parseSubcommand_fault_iff] at hparse
        exact absurd ⟨layout', hparse ▸ hsucceeds⟩ (hnot name ws rfl)
      | refused _ _ _ _ hbounded => exact hbounded
      | failed _ _ _ hbounded => exact hbounded
      | thrown _ _ hbounded => exact hbounded

/-- A compositor without outputs. -/
def noOutputsEnv : OutputEnv where
  strtof s := (.nan, s)
  compose t _ := t
  world _ := {
    compositor := .flat [] [] none
    findOutput := fun _ => none
    canActivate := false
    handle := fun _ => none
    power := fun _ => false }

/-- Behind `mode --custom` the null pointer is read as a number. -/
theorem modeCustom_not_bounded : ¬ ∀ (E : OutputEnv) (argv : List Str) (layout : OutputLayout),
    (outputHandler E argv (.start layout)).2.Bounded argv := by
  intro h
  have hbounded := h noOutputsEnv ["A".toList, "mode".toList, "--custom".toList] ⟨[], []⟩
  exact hbounded (.parse none) (by decide) rfl

end WayfireIpc
