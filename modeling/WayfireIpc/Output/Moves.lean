/-
# How the handlers of `output` move through the words

A handler that is given the arguments for some of the last words does what parsing these
words and executing the subcommand does.  All that it reads is in bounds, except where the
parser finds `--custom` with nothing behind it.
-/
import WayfireIpc.Output.Subcommands

namespace WayfireIpc

/-! ## Runs -/

namespace OutputM

variable {α β : Type} {m : OutputM α} {f : α → OutputM β} {s s' : OutputRun}

lemma bind_ok {a : α} (h : m s = (.ok a, s')) : (m >>= f) s = f a s' := by
  show (match m s with | (r, s') => ExceptT.bindCont f r s') = _
  rw [h]
  rfl

lemma bind_error {e : Failure} (h : m s = (.error e, s')) : (m >>= f) s = (.error e, s') := by
  show (match m s with | (r, s') => ExceptT.bindCont f r s') = _
  rw [h]
  rfl

lemma get_bind {f : OutputRun → OutputM β} : (get >>= f) s = f s s := rfl

lemma modify_bind {g : OutputRun → OutputRun} {f : Unit → OutputM β} :
    (modify g >>= f) s = f () (g s) := rfl

lemma move_bind {args : Args} {f : Args → OutputM β} :
    (move args >>= f) s = f args (s.note (.set args)) := rfl

lemma leave_bind {args : Args} {f : Unit → OutputM β} :
    (leave args >>= f) s = f () { s.note (.set args) with leftovers := args } := rfl

lemma world_bind {E : OutputEnv} {f : OutputWorld → OutputM β} :
    (world E >>= f) s = f (E.world s.layout.config) s := rfl

lemma except_bind {x : Except Failure α} : ((liftM x : OutputM α) >>= f) s =
    match x with
    | .error e => (.error e, s)
    | .ok a => f a s := by
  cases x <;> rfl

lemma configure_bind {set : OutputLayout → Except Failure (ReturnStatus × OutputLayout)}
    {f : ReturnStatus → OutputM β} : (configure set >>= f) s =
    match set s.layout with
    | .error e => (.error e, s)
    | .ok (status, layout) => f status { s with layout := layout } := by
  cases h : set s.layout with
  | error e =>
    refine bind_error ?_
    rw [configure, get_bind, h]
    rfl
  | ok r =>
    refine bind_ok ?_
    rw [configure, get_bind, h]
    rfl

end OutputM

/-! ## Bounds -/

/-- The two variables are in step: together they make the end of the array. -/
def Args.InStep (words : List Str) (args : Args) : Prop :=
  ∃ place, args.argv = some place ∧ place + args.argc = words.length

/-- What the handlers may do with the arguments. -/
def ArgEvent.InBounds (words : List Str) : ArgEvent → Prop
  | set args => args.InStep words
  | read args k => args.InStep words ∧ k < args.argc
  | parse word => word ≠ none

/-- All that has been done with the arguments is in bounds. -/
def OutputRun.Bounded (words : List Str) (s : OutputRun) : Prop :=
  ∀ event ∈ s.log, event.InBounds words

/-- The arguments for the last words. -/
def argsAt (words rest : List Str) : Args := ⟨rest.length, some (words.length - rest.length)⟩

variable {words rest : List Str} {w : Str} {s s' : OutputRun} {E : OutputEnv} {name : Str}

lemma bounded_note {event : ArgEvent} :
    (s.note event).Bounded words ↔ s.Bounded words ∧ event.InBounds words := by
  simp only [OutputRun.Bounded, OutputRun.note, List.mem_append, List.mem_singleton]
  exact ⟨fun h => ⟨fun e he => h e (Or.inl he), h event (Or.inr rfl)⟩,
    fun h e he => he.elim (h.1 e) fun heq => heq ▸ h.2⟩

lemma argsAt_inStep (h : rest <:+ words) : (argsAt words rest).InStep words := by
  have hle := h.length_le
  refine ⟨_, rfl, ?_⟩
  show ((words.length - rest.length : ℕ) : ℤ) + (rest.length : ℤ) = words.length
  omega

lemma argsAt_next (h : w :: rest <:+ words) :
    (argsAt words (w :: rest)).next = argsAt words rest := by
  have hle := h.length_le
  rw [List.length_cons] at hle
  simp only [argsAt, Args.next, List.length_cons, Option.map_some, Args.mk.injEq, Option.some.injEq]
  omega

lemma suffix_tail (h : w :: rest <:+ words) : rest <:+ words := (List.suffix_cons w rest).trans h

namespace OutputM

lemma element_argsAt {k : ℕ} (h : rest <:+ words) (hk : k ≤ rest.length) :
    element words (argsAt words rest) k s
      = (.ok rest[k]?, s.note (.read (argsAt words rest) k)) := by
  obtain ⟨front, rfl⟩ := h
  have hplace : (front ++ rest).length - rest.length = front.length := by
    rw [List.length_append]
    omega
  have hread : (front ++ rest)[front.length + k]? = rest[k]? := by
    rw [List.getElem?_append_right (Nat.le_add_right _ _), Nat.add_sub_cancel_left]
  have hnote : note (.read (argsAt (front ++ rest) rest) k) s
      = (.ok (), s.note (.read (argsAt (front ++ rest) rest) k)) := rfl
  rw [element, bind_ok hnote]
  simp only [argsAt, hplace]
  rw [if_pos (by rw [List.length_append]; omega), hread]
  rfl

/-- A word that is there is read and handed on. -/
lemma word_argsAt {k : ℕ} (h : rest <:+ words) (hk : rest[k]? = some w) :
    word words (argsAt words rest) k s
      = (.ok w, (s.note (.read (argsAt words rest) k)).note (.parse (some w))) := by
  have hlt : k < rest.length := (List.getElem?_eq_some_iff.mp hk).1
  rw [word, bind_ok (element_argsAt h hlt.le), hk]
  rfl

/-- Behind the last word there is a null pointer. -/
lemma word_end : word words (argsAt words []) 0 s
    = (.error .nullPointer, (s.note (.read (argsAt words []) 0)).note (.parse none)) := by
  rw [word, bind_ok (element_argsAt List.nil_suffix (Nat.zero_le 0))]
  rfl

end OutputM

lemma bounded_word {k : ℕ} (h : rest <:+ words) (hk : rest[k]? = some w) (hs : s.Bounded words) :
    ((s.note (.read (argsAt words rest) k)).note (.parse (some w))).Bounded words := by
  have hlt : k < rest.length := (List.getElem?_eq_some_iff.mp hk).1
  rw [bounded_note, bounded_note]
  refine ⟨⟨hs, argsAt_inStep h, ?_⟩, nofun⟩
  show (k : ℤ) < (rest.length : ℤ)
  exact_mod_cast hlt

lemma bounded_set (h : rest <:+ words) (hs : s.Bounded words) :
    (s.note (.set (argsAt words rest))).Bounded words :=
  bounded_note.mpr ⟨hs, argsAt_inStep h⟩

/-! ## Handlers and parsers -/

/-- How a part of a handler ends when it executes a subcommand and leaves the words `rest`. -/
def Executes (E : OutputEnv) (words : List Str) (name : Str) (layout : OutputLayout)
    (sub : Subcommand) (rest : List Str) (r : Except Failure CommandResult × OutputRun) : Prop :=
  r.2.Bounded words ∧
    match sub.exec E name layout with
    | .error f => r.1 = .error f
    | .ok (result, layout') => r.1 = .ok result ∧ r.2.layout = layout' ∧
        r.2.outputConfig = some ⟨some name⟩ ∧
        (result.status = .success → r.2.leftovers = argsAt words rest)

/-- How a handler ends, given what its words say. -/
def Ends (E : OutputEnv) (words : List Str) (name : Str) (layout : OutputLayout)
    (r : Except Failure CommandResult × OutputRun) : Parsed → Prop
  | .fault => r.1 = .error .nullPointer ∧ ¬ r.2.Bounded words
  | .refused result => r.2.Bounded words ∧ r.1 = .ok result ∧ r.2.layout = layout ∧
      result.status ≠ .success
  | .subcommand sub rest => Executes E words name layout sub rest r

/-- The output configuration is that of the command, and all that has been done is in bounds. -/
structure Within (words : List Str) (name : Str) (s : OutputRun) : Prop where
  config : s.outputConfig = some ⟨some name⟩
  bounded : s.Bounded words

lemma Within.word {k : ℕ} (hs : Within words name s) (h : rest <:+ words) (hk : rest[k]? = some w) :
    Within words name ((s.note (.read (argsAt words rest) k)).note (.parse (some w))) :=
  ⟨hs.config, bounded_word h hk hs.bounded⟩

lemma Within.set (hs : Within words name s) (h : rest <:+ words) :
    Within words name (s.note (.set (argsAt words rest))) :=
  ⟨hs.config, bounded_set h hs.bounded⟩

lemma Within.leave (hs : Within words name s) (h : rest <:+ words) :
    Within words name { s.note (.set (argsAt words rest)) with leftovers := argsAt words rest } :=
  ⟨hs.config, (hs.set h).bounded⟩

lemma checkContext_run {missing : String} {absent : Bool} {body : Str → OutputM CommandResult}
    (hs : Within words name s) : checkContext missing absent body s =
      if absent then (.ok (invalidParameter missing), s) else body name s := by
  rw [checkContext, OutputM.get_bind, hs.config]
  cases absent <;> rfl

/-- Without words a handler refuses. -/
lemma checkContext_nil {missing : String} {body : Str → OutputM CommandResult}
    (hs : Within words name s) :
    Ends E words name s.layout (checkContext missing
      (decide ((argsAt words []).argc = 0)) body s) (.refused (invalidParameter missing)) := by
  rw [checkContext_run hs]
  exact ⟨hs.bounded, rfl, rfl, nofun⟩

lemma argc_cons_ne_zero : (argsAt words (w :: rest)).argc ≠ 0 := by
  show ((w :: rest).length : ℤ) ≠ 0
  rw [List.length_cons]
  omega

lemma checkContext_cons {missing : String} {body : Str → OutputM CommandResult}
    (hs : Within words name s) :
    checkContext missing (decide ((argsAt words (w :: rest)).argc = 0)) body s = body name s := by
  rw [checkContext_run hs, if_neg fun h => argc_cons_ne_zero (of_decide_eq_true h)]

open OutputM

/-! ## Executing -/

/-- The end of most handlers: a setter is called, and then the words behind are left. -/
lemma configure_executes {sub : Subcommand} {layout : OutputLayout}
    {set : OutputLayout → Except Failure (ReturnStatus × OutputLayout)} (hs : Within words name s)
    (hrest : rest <:+ words) (hexec : sub.exec E name layout = Subcommand.set set s.layout) :
    Executes E words name layout sub rest ((do
      let status ← configure set
      leave (argsAt words rest)
      return ⟨status, none⟩ : OutputM CommandResult) s) := by
  rw [configure_bind, Executes, hexec, Subcommand.set]
  cases set s.layout with
  | error f => exact ⟨hs.bounded, rfl⟩
  | ok r =>
    have hbounded := bounded_set (s := { s with layout := r.2 }) hrest hs.bounded
    exact ⟨hbounded, rfl, rfl, hs.config, fun _ => rfl⟩

/-- The end of the others: the words behind have been left before the setter is called. -/
lemma leave_configure_executes {sub : Subcommand} {layout : OutputLayout}
    {set : OutputLayout → Except Failure (ReturnStatus × OutputLayout)} (hs : Within words name s)
    (hleft : s.leftovers = argsAt words rest)
    (hexec : sub.exec E name layout = Subcommand.set set s.layout) :
    Executes E words name layout sub rest ((do
      let status ← configure set
      return ⟨status, none⟩ : OutputM CommandResult) s) := by
  rw [configure_bind, Executes, hexec, Subcommand.set]
  cases set s.layout with
  | error f => exact ⟨hs.bounded, rfl⟩
  | ok r => exact ⟨hs.bounded, rfl, rfl, hs.config, fun _ => hleft⟩

/-- A subcommand that is refused leaves everything as it is. -/
lemma refused_executes {sub : Subcommand} {layout : OutputLayout} {result : CommandResult}
    (hs : Within words name s) (hexec : sub.exec E name layout = .ok (result, s.layout))
    (hstatus : result.status ≠ .success) :
    Executes E words name layout sub rest ((return result : OutputM CommandResult) s) := by
  rw [Executes, hexec]
  exact ⟨hs.bounded, rfl, rfl, hs.config, fun h => absurd h hstatus⟩

/-! ## The handlers -/

theorem outputScaleHandler_ends {ws : List Str} (hs : Within words name s) (hws : ws <:+ words) :
    Ends E words name s.layout (outputScaleHandler E words (argsAt words ws) s)
      (parseScale E.strtof ws) := by
  cases ws with
  | nil => exact checkContext_nil hs
  | cons w rest =>
    rw [outputScaleHandler, checkContext_cons hs, bind_ok (word_argsAt hws rfl), parseScale,
      argsAt_next hws]
    have hs₁ := hs.word hws (k := 0) rfl
    by_cases htail : (E.strtof w).2 = []
    · simp only [htail, ne_eq, not_true_eq_false, if_false]
      rw [world_bind]
      show Executes ..
      cases houtput : (E.world s.layout.config).compositor.allOutputByNameOrId name with
      | none =>
        simp only [OutputRun.note, houtput]
        exact refused_executes hs₁ (by rw [Subcommand.exec, houtput]) nofun
      | some output =>
        simp only [OutputRun.note, houtput]
        exact configure_executes hs₁ (suffix_tail hws) (by rw [Subcommand.exec, houtput])
    · simp only [ne_eq, htail, not_false_eq_true, if_true]
      exact ⟨hs₁.bounded, rfl, rfl, nofun⟩

/-- The end of `output_transform_handler`. -/
lemma applyTransform_executes {transform value : Transform} {anticlockwise : Option Bool}
    {output : OutputRef} {layout : OutputLayout} (hs : Within words name s)
    (hleft : s.leftovers = argsAt words rest) (hlayout : s.layout = layout)
    (houtput : (E.world layout.config).compositor.allOutputByNameOrId name = some output)
    (hvalue : Subcommand.transformOf E name (E.world layout.config) output transform anticlockwise
      = .ok value) :
    Executes E words name layout (.transform transform anticlockwise) rest
      (applyTransform (E.world layout.config) output value s) := by
  refine leave_configure_executes hs hleft ?_
  rw [Subcommand.exec, houtput, hlayout]
  simp only [hvalue]

/-- The loop of `output_power_handler` reads words that are there. -/
lemma mapM_word {ws : List Str} (hws : ws <:+ words) : ∀ {s : OutputRun} {ks : List ℕ},
    Within words name s → (∀ k ∈ ks, k < ws.length) →
    ∃ s', (ks.mapM fun k => word words (argsAt words ws) k) s
        = (.ok (ks.map fun k => ws.getD k []), s') ∧
      Within words name s' ∧ s'.layout = s.layout := by
  intro s ks
  induction ks generalizing s with
  | nil => exact fun hs _ => ⟨s, rfl, hs, rfl⟩
  | cons k ks ih =>
    intro hs hks
    obtain ⟨hk, hks⟩ := List.forall_mem_cons.mp hks
    have hget : ws[k]? = some (ws.getD k []) := by
      rw [List.getD_eq_getElem _ _ hk, List.getElem?_eq_getElem hk]
    obtain ⟨s', hrun, hs', hlayout⟩ := ih (hs.word hws hget) hks
    refine ⟨s', ?_, hs', hlayout⟩
    rw [List.mapM_cons, bind_ok (word_argsAt hws hget), bind_ok hrun]
    rfl

lemma map_getD_range (ws : List Str) : (List.range ws.length).map (fun k => ws.getD k []) = ws := by
  refine List.ext_getElem (by simp) fun k hk hk' => ?_
  rw [List.getElem_map, List.getElem_range, List.getD_eq_getElem _ _ hk']

lemma signalPowerCmd_executes {options : List Str} (hs : Within words name s)
    (hleft : s.leftovers = argsAt words rest) :
    Executes E words name s.layout (.power options) rest ((do
      let status ← signalPowerCmd E (["output".toList, name, "power".toList] ++ options)
      return ⟨status, none⟩ : OutputM CommandResult) s) := by
  rw [signalPowerCmd, bind_assoc, world_bind]
  cases hactive : (E.world s.layout.config).compositor.activeOutput with
  | none =>
    rw [Executes, Subcommand.exec, hactive]
    exact ⟨hs.bounded, rfl⟩
  | some output =>
    refine leave_configure_executes hs hleft ?_
    rw [Subcommand.exec, hactive]
    cases hpower : (E.world s.layout.config).power output with
    | true => simp only [hpower, if_true]
    | false =>
      simp only [hpower, Bool.false_eq_true, if_false]
      rfl

theorem outputPowerHandler_ends {ws : List Str} (hs : Within words name s) (hws : ws <:+ words) :
    Ends E words name s.layout (outputPowerHandler E words (argsAt words ws) s)
      (parsePower ws) := by
  have hargc : (argsAt words ws).argc.toNat = ws.length := rfl
  rw [outputPowerHandler, checkContext_run hs, hargc]
  cases ws with
  | nil => exact ⟨hs.bounded, rfl, rfl, nofun⟩
  | cons w rest =>
    have hpos : (argsAt words (w :: rest)).argc > 0 := by
      show ((w :: rest).length : ℤ) > 0
      rw [List.length_cons]
      omega
    obtain ⟨s₁, hrun, hs₁, hlayout⟩ := mapM_word hws hs
      (fun k (hk : k ∈ List.range (w :: rest).length) => List.mem_range.mp hk)
    rw [if_neg (by simpa using hpos), bind_ok hrun, map_getD_range, leave_bind, argsAt_next hws,
      ← hlayout]
    have hs₂ := hs₁.leave (suffix_tail hws)
    exact signalPowerCmd_executes hs₂ rfl

/-- A relative transform. -/
lemma relative_executes {transform : Transform} {direction : Str} {output : OutputRef}
    {layout : OutputLayout} {args : Args} (hs : Within words name s) (hrest : rest <:+ words)
    (hlayout : s.layout = layout) (hargs : args.next = argsAt words rest)
    (houtput : (E.world layout.config).compositor.allOutputByNameOrId name = some output) :
    Executes E words name layout
      (.transform transform (some (decide (direction = "anticlockwise".toList)))) rest
      ((if name = "*".toList then
          return invalidParameter "Cannot apply relative transform to all outputs."
        else
          let transform := if direction = "anticlockwise".toList then
            invertRotationDirection transform else transform
          match (E.world layout.config).handle output with
          | none => return unknownOutput
          | some handle => do
            leave args.next
            applyTransform (E.world layout.config) output (E.compose handle.transform transform) :
        OutputM CommandResult) s) := by
  by_cases hname : name = "*".toList
  · rw [if_pos hname]
    refine refused_executes hs ?_ nofun
    rw [Subcommand.exec, houtput, hlayout]
    simp only [Subcommand.transformOf, if_pos hname]
  · rw [if_neg hname]
    cases hhandle : (E.world layout.config).handle output with
    | none =>
      refine refused_executes hs ?_ nofun
      rw [Subcommand.exec, houtput, hlayout]
      simp only [Subcommand.transformOf, if_neg hname, hhandle]
    | some handle =>
      simp only
      rw [leave_bind, hargs]
      refine applyTransform_executes (hs.leave hrest) rfl hlayout houtput ?_
      simp only [Subcommand.transformOf, if_neg hname, hhandle, decide_eq_true_eq]

theorem outputTransformHandler_ends {ws : List Str} (hs : Within words name s)
    (hws : ws <:+ words) :
    Ends E words name s.layout (outputTransformHandler E words (argsAt words ws) s)
      (parseTransform ws) := by
  cases ws with
  | nil => exact checkContext_nil hs
  | cons w rest =>
    have hrest := suffix_tail hws
    rw [outputTransformHandler, checkContext_cons hs, bind_ok (word_argsAt hws rfl),
      parseTransform, argsAt_next hws]
    have hs₁ := hs.word hws (k := 0) rfl
    cases htransform : transformOfName w with
    | none => exact ⟨hs₁.bounded, rfl, rfl, nofun⟩
    | some transform =>
      simp only
      rw [world_bind]
      cases houtput : (E.world s.layout.config).compositor.allOutputByNameOrId name with
      | none =>
        simp only [OutputRun.note, houtput]
        -- the words behind are not read
        have hrefused : ∀ {anticlockwise rest'}, Executes E words name s.layout
            (.transform (invertRotationDirection transform) anticlockwise) rest'
            ((return unknownOutput : OutputM CommandResult) _) :=
          refused_executes hs₁ (by rw [Subcommand.exec, houtput]; rfl) nofun
        rcases rest with _ | ⟨w', rest⟩
        · exact hrefused
        · rw [parseDirection]
          split_ifs <;> exact hrefused
      | some output =>
        simp only [OutputRun.note, houtput]
        rw [leave_bind]
        have hs₂ := hs₁.leave hrest
        cases rest with
        | nil =>
          rw [if_neg (by simp [argsAt])]
          exact applyTransform_executes hs₂ rfl rfl houtput rfl
        | cons w' rest =>
          have hargc : (argsAt words (w :: w' :: rest)).argc > 1 := by
            show ((w :: w' :: rest).length : ℤ) > 1
            simp only [List.length_cons]
            omega
          rw [if_pos hargc, bind_ok (word_argsAt hws rfl), parseDirection]
          have hs₃ := hs₂.word hws (k := 1) rfl
          by_cases hdirection : w' = "clockwise".toList ∨ w' = "anticlockwise".toList
          · rw [if_pos hdirection, if_pos hdirection]
            exact relative_executes hs₃ (suffix_tail hrest) rfl (argsAt_next hrest) houtput
          · rw [if_neg hdirection, if_neg hdirection]
            exact applyTransform_executes hs₃ rfl rfl houtput rfl

/-! ## Position and mode -/

lemma applyPosition_executes {x y : Int32} (hs : Within words name s) (hrest : rest <:+ words)
    {args : Args} (hargs : args.next = argsAt words rest) :
    Executes E words name s.layout (.position x y) rest (applyPosition E name args x y s) := by
  rw [applyPosition, world_bind, hargs]
  cases houtput : (E.world s.layout.config).compositor.allOutputByNameOrId name with
  | none => exact refused_executes hs (by rw [Subcommand.exec, houtput]) nofun
  | some output => exact configure_executes hs hrest (by rw [Subcommand.exec, houtput])

lemma applyMode_executes {useCustomMode : Bool} {width height : Int32} {rate : CFloat}
    (hs : Within words name s) (hrest : rest <:+ words) {args : Args}
    (hargs : args.next = argsAt words rest) :
    Executes E words name s.layout (.mode useCustomMode width height rate) rest
      (applyMode E name args useCustomMode width height rate s) := by
  rw [applyMode, world_bind, hargs]
  cases houtput : (E.world s.layout.config).compositor.allOutputByNameOrId name with
  | none => exact refused_executes hs (by rw [Subcommand.exec, houtput]) (by simp)
  | some output =>
    simp only
    cases hhandle : (E.world s.layout.config).handle output with
    | none =>
      refine refused_executes hs ?_ (by simp)
      simp only [Subcommand.exec, houtput, Subcommand.modeOf, hhandle]
      rfl
    | some handle =>
      simp only
      cases useCustomMode with
      | true =>
        rw [if_pos rfl, except_bind]
        cases hmode : customMode width height rate with
        | error f =>
          have hexec :
              (Subcommand.mode true width height rate).exec E name s.layout = .error f := by
            simp only [Subcommand.exec, houtput, Subcommand.modeOf, hhandle, if_true, hmode]
            rfl
          rw [Executes, hexec]
          exact ⟨hs.bounded, rfl⟩
        | ok mode =>
          refine configure_executes hs hrest ?_
          simp only [Subcommand.exec, houtput, Subcommand.modeOf, hhandle, if_true, hmode]
          rfl
      | false =>
        rw [if_neg (by simp)]
        cases hmode : selectMode handle.modes width height rate with
        | none =>
          refine refused_executes hs ?_ (by simp [noSuchMode])
          simp only [Subcommand.exec, houtput, Subcommand.modeOf, hhandle, Bool.false_eq_true,
            if_false, hmode]
          rfl
        | some mode =>
          refine configure_executes hs hrest ?_
          simp only [Subcommand.exec, houtput, Subcommand.modeOf, hhandle, Bool.false_eq_true,
            if_false, hmode]
          rfl

theorem outputPositionHandler_ends {ws : List Str} (hs : Within words name s)
    (hws : ws <:+ words) :
    Ends E words name s.layout (outputPositionHandler E words (argsAt words ws) s)
      (parsePosition ws) := by
  cases ws with
  | nil => exact checkContext_nil hs
  | cons w rest =>
    have hrest := suffix_tail hws
    rw [outputPositionHandler, checkContext_cons hs, bind_ok (word_argsAt hws rfl), parsePosition]
    have hs₁ := hs.word hws (k := 0) rfl
    cases hword : positionWord w with
    | invalid error => exact ⟨hs₁.bounded, rfl, rfl, nofun⟩
    | complete numbers => exact applyPosition_executes hs₁ hrest (argsAt_next hws)
    | first x =>
      simp only
      rw [move_bind, argsAt_next hws]
      have hs₂ := hs₁.set hrest
      cases rest with
      | nil => exact ⟨hs₂.bounded, rfl, rfl, nofun⟩
      | cons w' rest =>
        rw [if_neg argc_cons_ne_zero, bind_ok (word_argsAt hrest rfl), parseSecond]
        have hs₃ := hs₂.word hrest (k := 0) rfl
        cases hnumber : wholeNumber w' with
        | none => exact ⟨hs₃.bounded, rfl, rfl, nofun⟩
        | some y => exact applyPosition_executes hs₃ (suffix_tail hrest) (argsAt_next hrest)

lemma readSize_ends {useCustomMode : Bool} (hs : Within words name s) (hws : w :: rest <:+ words) :
    Ends E words name s.layout (readSize E words name useCustomMode (argsAt words (w :: rest)) s)
      (parseSize E.strtof useCustomMode w rest) := by
  have hrest := suffix_tail hws
  rw [readSize, bind_ok (word_argsAt hws rfl), parseSize]
  have hs₁ := hs.word hws (k := 0) rfl
  cases hword : modeWord E.strtof w with
  | invalid error => exact ⟨hs₁.bounded, rfl, rfl, nofun⟩
  | complete numbers => exact applyMode_executes hs₁ hrest (argsAt_next hws)
  | first width =>
    simp only
    rw [move_bind, argsAt_next hws]
    have hs₂ := hs₁.set hrest
    cases rest with
    | nil => exact ⟨hs₂.bounded, rfl, rfl, nofun⟩
    | cons w' rest =>
      rw [if_neg argc_cons_ne_zero, bind_ok (word_argsAt hrest rfl), parseSecond]
      have hs₃ := hs₂.word hrest (k := 0) rfl
      cases hnumber : wholeNumber w' with
      | none => exact ⟨hs₃.bounded, rfl, rfl, nofun⟩
      | some height => exact applyMode_executes hs₃ (suffix_tail hrest) (argsAt_next hrest)

/-- Behind `--custom` there may be nothing but the null pointer. -/
lemma readSize_nil {useCustomMode : Bool} {layout : OutputLayout} :
    Ends E words name layout (readSize E words name useCustomMode (argsAt words []) s) .fault := by
  rw [readSize, bind_error word_end]
  exact ⟨rfl, fun hbounded => (bounded_note.mp hbounded).2 rfl⟩

/-- `mode` is the only handler that can hand on the null pointer behind the words. -/
theorem outputModeHandler_ends {ws : List Str} (hs : Within words name s) (hws : ws <:+ words) :
    Ends E words name s.layout (outputModeHandler E words (argsAt words ws) s)
      (parseMode E.strtof ws) := by
  cases ws with
  | nil => exact checkContext_nil hs
  | cons w rest =>
    have hrest := suffix_tail hws
    rw [outputModeHandler, checkContext_cons hs, bind_ok (word_argsAt hws rfl)]
    simp only [parseMode]
    have hs₁ := hs.word hws (k := 0) rfl
    by_cases hcustom : w = "--custom".toList
    · rw [if_pos hcustom, if_pos hcustom, move_bind, argsAt_next hws]
      have hs₂ := hs₁.set hrest
      cases rest with
      | nil =>
        exact readSize_nil
      | cons w' rest => exact readSize_ends hs₂ hrest
    · rw [if_neg hcustom, if_neg hcustom]
      exact readSize_ends hs₁ hws

end WayfireIpc
