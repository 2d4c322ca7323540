/-
# The rounds of `output`

`output_handler` calls one handler in each round of its loop and goes on with the words that the
handler has left in the context.  Each round consumes a word at least, so the loop ends, and when
it succeeds the subcommands have consumed all words, one after the other.
-/
import WayfireIpc.Output.Bounds

namespace WayfireIpc

open OutputM

variable {words rest ws : List Str} {w : Str} {s s' : OutputRun} {E : OutputEnv} {name : Str}
  {layout : OutputLayout}

/-! ## Rounds -/

/-- The body of the loop of `output_handler`: it jumps to `fail` with a result, or it goes on with
the arguments that are left. -/
def outputRound (E : OutputEnv) (words : List Str) (args : Args) :
    OutputM (CommandResult ⊕ Args) := do
  modify fun s => { s with leftovers := ⟨0, none⟩ }
  let name ← word words args 0
  match outputHandlerMap name with
  | none => return .inl ⟨.notFound, none⟩
  | some cmdHandler => do
    let error ← cmdHandler E words (← move args.next)
    if error.status ≠ .success then return .inl error
    else
      let s ← get
      return .inr (← move s.leftovers)

/-- The loop runs its body. -/
lemma outputLoop_succ (n : ℕ) (args : Args) : outputLoop E words (n + 1) args =
    if args.argc > 0 then do
      match ← outputRound E words args with
      | .inl error => return error
      | .inr args => outputLoop E words n args
    else return ⟨.success, none⟩ := by
  rw [outputLoop, outputRound]
  simp only [bind_assoc]
  split_ifs
  · refine congrArg _ (funext fun _ => congrArg _ (funext fun name => ?_))
    cases outputHandlerMap name with
    | none => rfl
    | some cmdHandler =>
      simp only [bind_assoc]
      refine congrArg _ (funext fun _ => congrArg _ (funext fun error => ?_))
      split_ifs
      · rfl
      · simp only [bind_assoc, pure_bind]
  · rfl

/-- A round: the arguments with which it begins and, if its subcommand succeeds, those that are
left. -/
structure OutputRound where
  args : Args
  left : Option Args
deriving DecidableEq, Repr

/-- The rounds of the loop, with a bound on their number. -/
def outputRounds (E : OutputEnv) (words : List Str) : ℕ → Args → OutputRun → List OutputRound
  | 0, _, _ => []
  | n + 1, args, s =>
    if args.argc > 0 then
      match outputRound E words args s with
      | (.ok (.inr left), s) => ⟨args, some left⟩ :: outputRounds E words n left s
      | _ => [⟨args, none⟩]
    else []

/-- The words from one place of the array to another. -/
def wordsBetween (words : List Str) (args left : Args) : List Str :=
  match args.argv, left.argv with
  | some place, some place' => (words.drop place).take (place' - place)
  | _, _ => []

/-- The words that a round consumes; one whose subcommand does not succeed jumps out of the loop. -/
def OutputRound.consumed (words : List Str) (round : OutputRound) : List Str :=
  match round.left with
  | some left => wordsBetween words round.args left
  | none => []

lemma wordsBetween_argsAt (front : List Str) (h : front ++ rest <:+ words) :
    wordsBetween words (argsAt words (front ++ rest)) (argsAt words rest) = front := by
  obtain ⟨before, rfl⟩ := h
  simp only [wordsBetween, argsAt]
  have hfirst : (before ++ (front ++ rest)).length - (front ++ rest).length = before.length := by
    simp only [List.length_append]
    omega
  have hnext : (before ++ (front ++ rest)).length - rest.length - before.length = front.length := by
    simp only [List.length_append]
    omega
  rw [hfirst, hnext, List.drop_left, List.take_left]

/-- A round that goes on has consumed some of the words that were left, the first of which is the
name of its subcommand. -/
lemma outputRound_consumes (hs : Within words name s) (hws : w :: ws <:+ words) {left : Args}
    (h : outputRound E words (argsAt words (w :: ws)) s = (.ok (.inr left), s')) :
    Within words name s' ∧ (outputHandlerMap w).isSome ∧
      ∃ front rest, ws = front ++ rest ∧ left = argsAt words rest := by
  have hcleared : Within words name { s with leftovers := ⟨0, none⟩ } := ⟨hs.config, hs.bounded⟩
  have hs₁ := hcleared.word hws (k := 0) rfl
  rw [outputRound, modify_bind, bind_ok (word_argsAt hws rfl)] at h
  -- a word that no handler has ends the loop
  rcases maps_match (E := E) w with ⟨hnone, -, -⟩ | ⟨handler, parser, hsome, -, hmatch, hlast, -⟩
  · rw [hnone] at h
    cases h
  · have hs₂ := hs₁.set (suffix_tail hws)
    rw [hsome] at h
    simp only at h
    rw [move_bind, argsAt_next hws] at h
    have hends := hmatch words name _ ws hs₂ (suffix_tail hws)
    revert h
    generalize hrun : handler E words (argsAt words ws) _ = run at hends
    obtain ⟨res, s₁⟩ := run
    intro h
    cases res with
    | error f =>
      rw [bind_error hrun] at h
      cases h
    | ok result =>
      rw [bind_ok hrun] at h
      by_cases hstatus : result.status = .success
      · -- the handler succeeds only on a subcommand, whose words it consumes
        rw [if_neg (not_not.mpr hstatus), get_bind, move_bind] at h
        cases h
        revert hends
        cases hparsed : parser ws with
        | fault => exact fun hends => absurd hends.1 (by simp)
        | refused r =>
          rintro ⟨-, hres, -, hfail⟩
          cases hres
          exact absurd hstatus hfail
        | subcommand sub rest =>
          rintro ⟨hbounded, hexec⟩
          cases hsub : sub.exec E name _ with
          | error f =>
            rw [hsub] at hexec
            cases hexec
          | ok executed =>
            rw [hsub] at hexec
            obtain ⟨hres, -, hconfig, hleft⟩ := hexec
            cases hres
            obtain ⟨front, hfront⟩ := hlast ws sub rest hparsed
            have hsuffix : rest <:+ words := ⟨_, by
              rw [List.append_assoc, hfront]
              exact (suffix_tail hws).choose_spec⟩
            have hleft := hleft hstatus
            refine ⟨⟨hconfig, ?_⟩, by rw [hsome]; rfl, front, rest, hfront.symm, hleft⟩
            rw [hleft]
            exact bounded_set hsuffix hbounded
      · rw [if_pos hstatus] at h
        cases h

/-! ## The values of `argc` -/

/-- No value of `argc` has been negative, neither of the variable nor in the context. -/
def OutputRun.Counted (s : OutputRun) : Prop :=
  0 ≤ s.leftovers.argc ∧ ∀ args, ArgEvent.set args ∈ s.log → 0 ≤ args.argc

variable {α β : Type} {m : OutputM α} {f : α → OutputM β} {P : α → Prop} {Q : β → Prop}

/-- A part of the command does not make `argc` negative, and what it gives has the property `P`. -/
def Counts (m : OutputM α) (P : α → Prop) : Prop :=
  ∀ s : OutputRun, s.Counted → (m s).2.Counted ∧ ∀ a, (m s).1 = .ok a → P a

namespace Counts

lemma pure {a : α} (h : P a) : Counts (pure a) P := by
  refine fun s hs => ⟨hs, fun b hb => ?_⟩
  cases hb
  exact h

lemma throw (f : Failure) : Counts (throw f) P := fun s hs => ⟨hs, fun b hb => by cases hb⟩

lemma bind (h : Counts m P) (hf : ∀ a, P a → Counts (f a) Q) : Counts (m >>= f) Q := by
  intro s hs
  obtain ⟨hcounted, hP⟩ := h s hs
  cases hrun : m s with
  | mk r s' =>
  rw [hrun] at hcounted hP
  cases r with
  | error e =>
    rw [bind_error hrun]
    exact ⟨hcounted, fun b hb => by cases hb⟩
  | ok a =>
    rw [bind_ok hrun]
    exact hf a (hP a rfl) s' hcounted

lemma get : Counts get OutputRun.Counted := by
  refine fun s hs => ⟨hs, fun s' hs' => ?_⟩
  cases hs'
  exact hs

lemma world : Counts (world E) fun _ => True := fun _ hs => ⟨hs, fun _ _ => trivial⟩

/-- The words in the context are reset. -/
lemma reset : Counts (modify fun s => { s with leftovers := ⟨0, none⟩ } : OutputM Unit)
    fun _ => True :=
  fun _ hs => ⟨⟨le_rfl, hs.2⟩, fun _ _ => trivial⟩

lemma configure {set : OutputLayout → Except Failure (ReturnStatus × OutputLayout)} :
    Counts (configure set) fun _ => True := by
  intro s hs
  refine ⟨?_, fun _ _ => trivial⟩
  rw [OutputM.configure, get_bind]
  cases set s.layout with
  | error e => exact hs
  | ok r => exact hs

lemma lift {x : Except Failure α} : Counts (liftM x) fun _ => True := by
  refine fun s hs => ⟨?_, fun _ _ => trivial⟩
  cases x <;> exact hs

lemma note {event : ArgEvent} (h : ∀ args, event = .set args → 0 ≤ args.argc) (hs : s.Counted) :
    (s.note event).Counted := by
  refine ⟨hs.1, fun args hargs => ?_⟩
  rcases List.mem_append.mp hargs with hargs | hargs
  · exact hs.2 args hargs
  · exact h args (List.mem_singleton.mp hargs).symm

lemma move {args : Args} (h : 0 ≤ args.argc) : Counts (move args) (· = args) := by
  refine fun s hs => ⟨note (fun _ heq => by cases heq; exact h) hs, fun a ha => ?_⟩
  cases ha
  rfl

lemma leave {args : Args} (h : 0 ≤ args.argc) : Counts (leave args) fun _ => True := by
  refine fun s hs => ⟨⟨h, ?_⟩, fun _ _ => trivial⟩
  exact (note (fun _ heq => by cases heq; exact h) hs).2

/-- A word is read in front of the end of the array only. -/
lemma word {args : Args} (h : args.InStep words) (k : ℕ) :
    Counts (word words args k) fun _ => k < args.argc := by
  obtain ⟨place, hplace, hend⟩ := h
  intro s hs
  have hread : (s.note (.read args k)).Counted := note (by simp) hs
  have hnote : OutputM.note (.read args k) s = (.ok (), s.note (.read args k)) := rfl
  by_cases hle : place + k ≤ words.length
  · have helement : element words args k s = (.ok words[place + k]?, s.note (.read args k)) := by
      rw [element, bind_ok hnote, hplace]
      simp only [if_pos hle]
      rfl
    rw [OutputM.word, bind_ok helement]
    refine ⟨?_, fun w hw => ?_⟩
    · cases words[place + k]? <;> exact note (by simp) hread
    · cases hget : words[place + k]? with
      | none =>
        rw [hget] at hw
        cases hw
      | some w' =>
        have := (List.getElem?_eq_some_iff.mp hget).1
        omega
  · have helement : element words args k s = (.error .outOfBounds, s.note (.read args k)) := by
      rw [element, bind_ok hnote, hplace]
      simp only [if_neg hle]
      rfl
    rw [OutputM.word, bind_error helement]
    exact ⟨hread, fun w hw => by cases hw⟩

lemma checkContext {missing : String} {absent : Bool} {body : Str → OutputM CommandResult}
    (h : absent = false → ∀ name, Counts (body name) fun _ => True) :
    Counts (checkContext missing absent body) fun _ => True := by
  refine get.bind fun s _ => ?_
  rcases s.outputConfig with _ | ⟨_ | name⟩
  · exact pure trivial
  · exact pure trivial
  · cases absent with
    | true => exact pure trivial
    | false => exact h rfl name

end Counts

/-! ## The handlers -/

variable {args : Args}

lemma Args.InStep.next (h : args.InStep words) : args.next.InStep words := by
  obtain ⟨place, hplace, hend⟩ := h
  refine ⟨place + 1, by rw [Args.next, hplace]; rfl, ?_⟩
  rw [Args.next]
  push_cast
  omega

lemma Args.next_argc (args : Args) : args.next.argc = args.argc - 1 := rfl

/-- Where `argc` is positive, the next value is not negative. -/
lemma Args.next_nonneg (h : 0 < args.argc) : 0 ≤ args.next.argc := by
  rw [Args.next_argc]
  omega

/-- A setter is called at the end of a handler. -/
lemma counts_configure {set : OutputLayout → Except Failure (ReturnStatus × OutputLayout)} :
    Counts (do
      let status ← configure set
      return ⟨status, none⟩ : OutputM CommandResult) fun _ => True :=
  Counts.configure.bind fun _ _ => Counts.pure trivial

lemma counts_configure_leave {set : OutputLayout → Except Failure (ReturnStatus × OutputLayout)}
    (hpos : 0 < args.argc) : Counts (do
      let status ← configure set
      leave args.next
      return ⟨status, none⟩ : OutputM CommandResult) fun _ => True :=
  Counts.configure.bind fun _ _ =>
    (Counts.leave (Args.next_nonneg hpos)).bind fun _ _ => Counts.pure trivial

lemma outputPowerHandler_counts (h : args.InStep words) :
    Counts (outputPowerHandler E words args) fun _ => True := by
  refine Counts.checkContext fun habsent name => ?_
  have hpos : 0 < args.argc := by simpa using habsent
  have hwords : ∀ ks : List ℕ, Counts (ks.mapM fun k => word words args k) fun _ => True := by
    intro ks
    induction ks with
    | nil => exact Counts.pure trivial
    | cons k ks ih =>
      rw [List.mapM_cons]
      exact (Counts.word h k).bind fun _ _ => ih.bind fun _ _ => Counts.pure trivial
  refine (hwords _).bind fun options _ => (Counts.leave (Args.next_nonneg hpos)).bind fun _ _ => ?_
  refine Counts.bind (P := fun _ => True) (Counts.world.bind fun world _ => ?_) fun _ _ =>
    Counts.pure trivial
  cases world.compositor.activeOutput with
  | none => exact Counts.throw _
  | some output => exact Counts.configure

lemma outputScaleHandler_counts (h : args.InStep words) :
    Counts (outputScaleHandler E words args) fun _ => True := by
  refine Counts.checkContext fun _ name => (Counts.word h 0).bind fun text hpos => ?_
  simp only
  split_ifs
  · exact Counts.pure trivial
  · refine Counts.world.bind fun world _ => ?_
    cases world.compositor.allOutputByNameOrId name with
    | none => exact Counts.pure trivial
    | some output => exact counts_configure_leave (by exact_mod_cast hpos)

/-- A relative transform: there is a second word, so both can be counted off. -/
lemma relative_counts {transform : Transform} {direction : Str} {output : OutputRef}
    {world : OutputWorld} (hmore : args.argc > 1) :
    Counts (if name = "*".toList then
        return invalidParameter "Cannot apply relative transform to all outputs."
      else
        let transform := if direction = "anticlockwise".toList then
          invertRotationDirection transform else transform
        match world.handle output with
        | none => return unknownOutput
        | some handle => do
          leave args.next.next
          applyTransform world output (E.compose handle.transform transform) :
      OutputM CommandResult) fun _ => True := by
  by_cases hname : name = "*".toList
  · rw [if_pos hname]
    exact Counts.pure trivial
  · rw [if_neg hname]
    cases world.handle output with
    | none => exact Counts.pure trivial
    | some handle =>
      have hnext : 0 < args.next.argc := by
        rw [Args.next_argc]
        omega
      exact (Counts.leave (Args.next_nonneg hnext)).bind fun _ _ => counts_configure

lemma outputTransformHandler_counts (h : args.InStep words) :
    Counts (outputTransformHandler E words args) fun _ => True := by
  refine Counts.checkContext fun _ name => (Counts.word h 0).bind fun text hpos => ?_
  have hpos' : 0 < args.argc := by exact_mod_cast hpos
  cases transformOfName text with
  | none => exact Counts.pure trivial
  | some transform =>
    refine Counts.world.bind fun world _ => ?_
    cases world.compositor.allOutputByNameOrId name with
    | none => exact Counts.pure trivial
    | some output =>
      refine (Counts.leave (Args.next_nonneg hpos')).bind fun _ _ => ?_
      by_cases hmore : args.argc > 1
      · rw [if_pos hmore]
        refine (Counts.word h 1).bind fun direction _ => ?_
        by_cases hdirection : direction = "clockwise".toList ∨ direction = "anticlockwise".toList
        · rw [if_pos hdirection]
          exact relative_counts hmore
        · rw [if_neg hdirection]
          exact counts_configure
      · rw [if_neg hmore]
        exact counts_configure

lemma applyPosition_counts {x y : Int32} (hpos : 0 < args.argc) :
    Counts (applyPosition E name args x y) fun _ => True := by
  refine Counts.world.bind fun world _ => ?_
  cases world.compositor.allOutputByNameOrId name with
  | none => exact Counts.pure trivial
  | some output => exact counts_configure_leave hpos

lemma outputPositionHandler_counts (h : args.InStep words) :
    Counts (outputPositionHandler E words args) fun _ => True := by
  refine Counts.checkContext fun _ name => (Counts.word h 0).bind fun text hpos => ?_
  have hpos' : 0 < args.argc := by exact_mod_cast hpos
  cases positionWord text with
  | invalid error => exact Counts.pure trivial
  | complete numbers => exact applyPosition_counts hpos'
  | first x =>
    refine (Counts.move (Args.next_nonneg hpos')).bind fun _ hargs => ?_
    subst hargs
    split_ifs
    · exact Counts.pure trivial
    · refine (Counts.word h.next 0).bind fun text hpos => ?_
      cases wholeNumber text with
      | none => exact Counts.pure trivial
      | some y => exact applyPosition_counts (by exact_mod_cast hpos)

lemma applyMode_counts {useCustomMode : Bool} {width height : Int32} {rate : CFloat}
    (hpos : 0 < args.argc) :
    Counts (applyMode E name args useCustomMode width height rate) fun _ => True := by
  refine Counts.world.bind fun world _ => ?_
  cases world.compositor.allOutputByNameOrId name with
  | none => exact Counts.pure trivial
  | some output =>
    simp only
    cases world.handle output with
    | none => exact Counts.pure trivial
    | some handle =>
      simp only
      split_ifs
      · exact Counts.lift.bind fun mode _ => counts_configure_leave hpos
      · cases selectMode handle.modes width height rate with
        | none => exact Counts.pure trivial
        | some mode => exact counts_configure_leave hpos

lemma readSize_counts {useCustomMode : Bool} (h : args.InStep words) :
    Counts (readSize E words name useCustomMode args) fun _ => True := by
  refine (Counts.word h 0).bind fun text hpos => ?_
  have hpos' : 0 < args.argc := by exact_mod_cast hpos
  cases modeWord E.strtof text with
  | invalid error => exact Counts.pure trivial
  | complete numbers => exact applyMode_counts hpos'
  | first width =>
    refine (Counts.move (Args.next_nonneg hpos')).bind fun _ hargs => ?_
    subst hargs
    split_ifs
    · exact Counts.pure trivial
    · refine (Counts.word h.next 0).bind fun text hpos => ?_
      cases wholeNumber text with
      | none => exact Counts.pure trivial
      | some height => exact applyMode_counts (by exact_mod_cast hpos)

lemma outputModeHandler_counts (h : args.InStep words) :
    Counts (outputModeHandler E words args) fun _ => True := by
  refine Counts.checkContext fun _ name => (Counts.word h 0).bind fun first hpos => ?_
  split_ifs
  · refine (Counts.move (Args.next_nonneg (by exact_mod_cast hpos))).bind fun _ hargs => ?_
    subst hargs
    exact readSize_counts h.next
  · exact readSize_counts h

lemma outputHandlerMap_counts {handler : SubcommandHandler} (hname : outputHandlerMap w = some handler)
    (h : args.InStep words) : Counts (handler E words args) fun _ => True := by
  rw [outputHandlerMap] at hname
  split_ifs at hname <;> cases hname
  · exact outputPowerHandler_counts h
  · exact outputScaleHandler_counts h
  · exact outputTransformHandler_counts h
  · exact outputPositionHandler_counts h
  · exact outputModeHandler_counts h

/-- One round keeps count, and it jumps to `fail` with a failure. -/
lemma outputRound_counts (h : args.InStep words) : Counts (outputRound E words args)
    fun r => ∀ error, r = .inl error → error.status ≠ .success := by
  refine Counts.reset.bind fun _ _ => (Counts.word h 0).bind fun w hpos => ?_
  cases hmap : outputHandlerMap w with
  | none => exact Counts.pure (by rintro error ⟨⟩; exact nofun)
  | some handler =>
    simp only
    refine (Counts.move (Args.next_nonneg (by exact_mod_cast hpos))).bind fun _ hargs => ?_
    subst hargs
    refine (outputHandlerMap_counts hmap h.next).bind fun error _ => ?_
    by_cases hstatus : error.status = .success
    · rw [if_neg (not_not.mpr hstatus)]
      exact Counts.get.bind fun s hs =>
        (Counts.move hs.1).bind fun _ _ => Counts.pure (by rintro error ⟨⟩)
    · rw [if_pos hstatus]
      exact Counts.pure (by rintro error ⟨⟩; exact hstatus)

/-! ## The loop -/

lemma argsAt_pos (words : List Str) (w : Str) (ws : List Str) :
    (argsAt words (w :: ws)).argc > 0 := by
  show ((w :: ws).length : ℤ) > 0
  rw [List.length_cons]
  omega

/-- Rounds that take some words to others: each but the last takes the name of a subcommand and some
of the words behind it. -/
inductive GoesThrough (words : List Str) : List Str → List OutputRound → List Str → Prop
  | refl (ws : List Str) : GoesThrough words ws [] ws
  | stop (w : Str) (ws : List Str) :
      GoesThrough words (w :: ws) [⟨argsAt words (w :: ws), none⟩] (w :: ws)
  | next {w : Str} {front rest ws : List Str} {rounds : List OutputRound} :
      (outputHandlerMap w).isSome → GoesThrough words rest rounds ws →
      GoesThrough words (w :: (front ++ rest))
        (⟨argsAt words (w :: (front ++ rest)), some (argsAt words rest)⟩ :: rounds) ws

namespace GoesThrough

variable {rounds : List OutputRound}

lemma length_le (h : GoesThrough words ws rounds rest) : rounds.length ≤ ws.length := by
  induction h with
  | refl ws => exact Nat.zero_le _
  | stop w ws => simp
  | next _ _ ih =>
    simp only [List.length_cons, List.length_append]
    omega

/-- Each round that goes on leaves fewer words than it has found. -/
lemma shrinks (h : GoesThrough words ws rounds rest) : ∀ round ∈ rounds, 0 < round.args.argc ∧
    ∀ left, round.left = some left → 0 ≤ left.argc ∧ left.argc < round.args.argc := by
  induction h with
  | refl ws => exact fun _ h => absurd h List.not_mem_nil
  | stop w ws =>
    intro round hround
    rw [List.mem_singleton.mp hround]
    exact ⟨argsAt_pos words w ws, nofun⟩
  | next _ _ ih =>
    intro round hround
    rcases List.mem_cons.mp hround with rfl | hround
    · refine ⟨argsAt_pos words _ _, ?_⟩
      rintro left ⟨⟩
      simp only [argsAt, List.length_cons, List.length_append]
      push_cast
      omega
    · exact ih round hround

/-- Rounds that come to the end of the words have consumed them all, in order. -/
lemma consumes (h : GoesThrough words ws rounds rest) (hws : ws <:+ words) (hrest : rest = []) :
    (rounds.map (OutputRound.consumed words)).flatten = ws ∧ ∀ round ∈ rounds, ∃ w front,
      round.consumed words = w :: front ∧ (outputHandlerMap w).isSome := by
  induction h with
  | refl ws => exact ⟨hrest.symm, fun _ h => absurd h List.not_mem_nil⟩
  | stop w ws => cases hrest
  | @next w front rest ws rounds hmap _ ih =>
    have hround : OutputRound.consumed words
        ⟨argsAt words (w :: (front ++ rest)), some (argsAt words rest)⟩ = w :: front :=
      wordsBetween_argsAt (w :: front) hws
    obtain ⟨hflat, hall⟩ :=
      ih ((List.suffix_append (w :: front) rest).trans hws) hrest
    refine ⟨?_, fun round hmem => ?_⟩
    · rw [List.map_cons, List.flatten_cons, hflat, hround]
      rfl
    · rcases List.mem_cons.mp hmem with rfl | hmem
      · exact ⟨w, front, hround, hmap⟩
      · exact hall round hmem

end GoesThrough

/-- The rounds of the loop go through the words, to their end if the loop succeeds. -/
lemma outputLoop_goes : ∀ (n : ℕ) (ws : List Str) (s : OutputRun), Within words name s →
    ws <:+ words → s.Counted → (outputLoop E words n (argsAt words ws) s).2.Counted ∧
      ∃ rest, GoesThrough words ws (outputRounds E words n (argsAt words ws) s) rest ∧
        ∀ r, (outputLoop E words n (argsAt words ws) s).1 = .ok r → r.status = .success →
          rest = [] := by
  intro n
  induction n with
  | zero => exact fun ws s _ _ hcount => ⟨hcount, ws, .refl ws, by rintro r ⟨⟩⟩
  | succ n ih =>
    intro ws s hs hws hcount
    rw [outputLoop_succ, outputRounds]
    cases ws with
    | nil =>
      rw [if_neg (by simp [argsAt]), if_neg (by simp [argsAt])]
      exact ⟨hcount, [], .refl _, fun _ _ _ => rfl⟩
    | cons w ws =>
      rw [if_pos (argsAt_pos words w ws), if_pos (argsAt_pos words w ws)]
      obtain ⟨hcount', hfail⟩ := outputRound_counts (E := E) (argsAt_inStep hws) s hcount
      rcases hround : outputRound E words (argsAt words (w :: ws)) s with ⟨f | error | left, s'⟩
      · -- the handler does not return
        rw [hround] at hcount'
        rw [bind_error hround]
        exact ⟨hcount', w :: ws, .stop w ws, by rintro r ⟨⟩⟩
      · rw [hround] at hcount' hfail
        rw [bind_ok hround]
        refine ⟨hcount', w :: ws, .stop w ws, fun r hr hstatus => ?_⟩
        cases hr
        exact absurd hstatus (hfail _ rfl error rfl)
      · rw [hround] at hcount'
        obtain ⟨hs', hmap, front, rest, rfl, rfl⟩ := outputRound_consumes hs hws hround
        have hrest : rest <:+ words := (List.suffix_append (w :: front) rest).trans hws
        obtain ⟨hcount'', ws', hgoes, hend⟩ := ih rest s' hs' hrest hcount'
        rw [bind_ok hround]
        exact ⟨hcount'', ws', .next hmap hgoes, hend⟩

/-- As many rounds as there are words are enough. -/
lemma outputLoop_stable : ∀ (n m : ℕ) (ws : List Str) (s : OutputRun), Within words name s →
    ws <:+ words → ws.length < n → ws.length < m →
      outputLoop E words n (argsAt words ws) s = outputLoop E words m (argsAt words ws) s := by
  intro n
  induction n with
  | zero => exact fun _ _ _ _ _ h => absurd h (Nat.not_lt_zero _)
  | succ n ih =>
    intro m ws s hs hws hn hm
    obtain ⟨m, rfl⟩ := Nat.exists_eq_succ_of_ne_zero (by omega : m ≠ 0)
    rw [outputLoop_succ, outputLoop_succ]
    cases ws with
    | nil => rfl
    | cons w ws =>
      rw [if_pos (argsAt_pos words w ws), if_pos (argsAt_pos words w ws)]
      rcases hround : outputRound E words (argsAt words (w :: ws)) s with ⟨f | error | left, s'⟩
      · rw [bind_error hround, bind_error hround]
      · rw [bind_ok hround, bind_ok hround]
      · obtain ⟨hs', -, front, rest, rfl, rfl⟩ := outputRound_consumes hs hws hround
        rw [bind_ok hround, bind_ok hround]
        simp only [List.length_cons, List.length_append] at hn hm
        exact ih m rest s' hs' ((List.suffix_append (w :: front) rest).trans hws)
          (by omega) (by omega)

/-! ## The command -/

/-- The loop of `output_handler` ends after at most as many rounds as there are words behind the
name of the output, and each round consumes a word at least.  When the command succeeds, the words
have been consumed one after the other, each by the subcommand whose name comes first.  No value of
`argc` is ever negative, and when the command returns, nothing is left in the context. -/
theorem outputHandler_consumes (E : OutputEnv) (name : Str) (ws : List Str)
    (layout : OutputLayout) :
    let argv := name :: ws
    let run := outputHandler E argv (.start layout)
    let loop := fun n => outputLoop E argv n (argsAt argv ws) (.entered name ws layout)
    let rounds := fun n => outputRounds E argv n (argsAt argv ws) (.entered name ws layout)
    run.1 = (loop argv.length).1 ∧ (∀ n, ws.length < n → loop n = loop argv.length) ∧
    (∀ n, (rounds n).length ≤ ws.length) ∧
    (∀ round ∈ rounds argv.length, 0 < round.args.argc ∧
      ∀ left, round.left = some left → 0 ≤ left.argc ∧ left.argc < round.args.argc) ∧
    (∀ args, ArgEvent.set args ∈ run.2.log → 0 ≤ args.argc) ∧
    (∀ r, run.1 = .ok r → r.status = .success →
      ((rounds argv.length).map (OutputRound.consumed argv)).flatten = ws ∧
      ∀ round ∈ rounds argv.length, ∃ w front,
        round.consumed argv = w :: front ∧ (outputHandlerMap w).isSome) ∧
    ∀ r, run.1 = .ok r → run.2.outputConfig = none ∧ run.2.leftovers = ⟨0, none⟩ := by
  intro argv run loop rounds
  have hin := within_entered name ws layout
  have hlast : ws <:+ argv := suffix_tail List.suffix_rfl
  have hcount : (OutputRun.entered name ws layout).Counted := by
    refine ⟨le_rfl, fun args hargs => ?_⟩
    simp only [OutputRun.entered, List.mem_cons, ArgEvent.set.injEq, reduceCtorEq, false_or,
      List.not_mem_nil, or_false] at hargs
    rcases hargs with rfl | rfl
    · exact Int.natCast_nonneg _
    · exact Int.natCast_nonneg _
  have hgoes := fun n => outputLoop_goes (E := E) n ws _ hin hlast hcount
  obtain ⟨hcount', rest, hrounds, hend⟩ := hgoes argv.length
  -- behind the loop there is the cleanup
  have hrun : run.1 = (loop argv.length).1 ∧ run.2.log = (loop argv.length).2.log ∧
      ∀ r, run.1 = .ok r → run.2.outputConfig = none ∧ run.2.leftovers = ⟨0, none⟩ := by
    have hcons := outputHandler_cons E name ws layout
    rcases hloop : loop argv.length with ⟨f | r, s⟩
    · have heq : run = (.error f, s) := hcons.trans (bind_error hloop)
      rw [heq]
      exact ⟨rfl, rfl, nofun⟩
    · have heq : run = (.ok r, { s with outputConfig := none, leftovers := ⟨0, none⟩ }) :=
        hcons.trans (bind_ok hloop)
      rw [heq]
      exact ⟨rfl, rfl, fun _ _ => ⟨rfl, rfl⟩⟩
  obtain ⟨hres, hlog, hexit⟩ := hrun
  refine ⟨hres, fun n hn => ?_, fun n => ?_, hrounds.shrinks, ?_, fun r hr hstatus => ?_, hexit⟩
  · exact outputLoop_stable n _ ws _ hin hlast hn (Nat.lt_succ_self _)
  · obtain ⟨-, rest, hrounds, -⟩ := hgoes n
    exact hrounds.length_le
  · rw [hlog]
    exact hcount'.2
  · rw [hres] at hr
    exact hrounds.consumes hlast (hend r hr hstatus)

end WayfireIpc
