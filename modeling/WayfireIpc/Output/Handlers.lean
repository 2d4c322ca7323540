/-
# The command `output`

`output_handler` and the handlers of its subcommands.  They are given `argc` and `argv` and
move both by hand; what a handler leaves of the words goes through the member `leftovers` of
the context.  The array ends with a null pointer.  `log` records the values that the two
variables get, the elements that are read and what is handed to a string or number parser.
-/
import WayfireIpc.Output.Config
import WayfireIpc.Command.Handlers

namespace WayfireIpc

/-! ## Numbers -/

/-- `strtol(s, &endptr, 10)`, with the text at `endptr`. -/
def strtol (s : Str) : ℤ × Str :=
  match numeral s with
  | none => (0, s)
  | some (negative, digits, rest) =>
    let v : ℤ := if negative then -(Nat.ofDigitChars 10 digits 0) else Nat.ofDigitChars 10 digits 0
    (max (-2 ^ 63) (min (2 ^ 63 - 1) v), rest)

namespace CFloat

/-- `==` of two numbers. -/
def equal : CFloat → CFloat → Bool
  | finite p, finite q => p = q
  | infinite b, infinite b' => b = b'
  | _, _ => false

/-- The `float` that is nearest to an `int`, one with an even significand if there are two. -/
def roundInt (n : ℤ) : ℤ :=
  let step : ℕ := 2 ^ (Nat.log2 n.natAbs - 23)
  let low := n.natAbs / step
  let rest := n.natAbs % step
  let up := step < 2 * rest ∨ (2 * rest = step ∧ low % 2 = 1)
  n.sign * ((if up then low + 1 else low) * step : ℕ)

/-- The conversion of an `int`. -/
def ofInt32 (n : Int32) : CFloat := finite (roundInt n.toInt)

/-- The conversion to an `int32_t`, which is defined for values in the range of the type. -/
def toInt32 : CFloat → Except Failure Int32
  | finite q =>
    let v : ℤ := if q < 0 then -⌊-q⌋ else ⌊q⌋
    if -2 ^ 31 ≤ v ∧ v < 2 ^ 31 then .ok (.ofInt v) else .error .overflow
  | _ => .error .overflow

end CFloat

/-! ## The surroundings -/

/-- Of a `wlr_output` what the subcommands read. -/
structure WlrHandle where
  modes : List OutputMode
  transform : Transform

/-- What the compositor answers to the queries of the subcommands. -/
structure OutputWorld extends Power.Queries where
  /-- The `handle` of an output. -/
  handle : OutputRef → Option WlrHandle
  /-- Whether an instance of the power plugin listens on an output. -/
  power : OutputRef → Bool

structure OutputEnv where
  /-- `strtof(s, &endptr)`, with the text at `endptr`. -/
  strtof : Str → CFloat × Str
  /-- `wlr_output_transform_compose`. -/
  compose : Transform → Transform → Transform
  /-- The answers under a configuration. -/
  world : List OutputEntry → OutputWorld

/-! ## Arguments -/

/-- `argc` and `argv`; the pointer is a place in the array, if it is not null. -/
structure Args where
  argc : ℤ
  argv : Option ℕ
deriving DecidableEq, Repr

/-- `argc - 1` and `argv + 1`. -/
def Args.next (args : Args) : Args := ⟨args.argc - 1, args.argv.map (· + 1)⟩

/-- What is done with the arguments. -/
inductive ArgEvent
  /-- The two variables get their values. -/
  | set (args : Args)
  /-- `argv[k]` is read. -/
  | read (args : Args) (k : ℕ)
  /-- An element, or a null pointer, is handed to a parser. -/
  | parse (word : Option Str)
deriving DecidableEq, Repr

/-- `struct output_config`. -/
structure OutputConfig where
  name : Option Str
deriving DecidableEq, Repr

/-- The members `output_config` and `leftovers` of the context, with the output layout. -/
structure OutputRun where
  layout : OutputLayout
  outputConfig : Option OutputConfig
  leftovers : Args
  log : List ArgEvent

/-- A part of the command; it may end without returning. -/
abbrev OutputM := ExceptT Failure (StateM OutputRun)

namespace OutputRun

/-- The context before the command. -/
def start (layout : OutputLayout) : OutputRun := ⟨layout, none, ⟨0, none⟩, []⟩

def note (s : OutputRun) (event : ArgEvent) : OutputRun := { s with log := s.log ++ [event] }

end OutputRun

namespace OutputM

def note (event : ArgEvent) : OutputM Unit := modify fun s => s.note event

/-- `argv[k]`; behind the null pointer there is nothing to read. -/
def element (words : List Str) (args : Args) (k : ℕ) : OutputM (Option Str) := do
  note (.read args k)
  match args.argv with
  | none => throw .nullPointer
  | some place => if place + k ≤ words.length then return words[place + k]? else throw .outOfBounds

/-- `argv[k]` in a call of a parser. -/
def word (words : List Str) (args : Args) (k : ℕ) : OutputM Str := do
  let element ← element words args k
  note (.parse element)
  match element with
  | none => throw .nullPointer
  | some word => return word

/-- `argc` and `argv` get new values. -/
def move (args : Args) : OutputM Args := do
  note (.set args)
  return args

/-- `ctx->leftovers` gets its values. -/
def leave (args : Args) : OutputM Unit :=
  modify fun s => { s.note (.set args) with leftovers := args }

/-- A call of a setter. -/
def configure (set : OutputLayout → Except Failure (ReturnStatus × OutputLayout)) :
    OutputM ReturnStatus := do
  let s ← get
  match set s.layout with
  | .error f => throw f
  | .ok (status, layout) => do
    MonadState.set { s with layout := layout }
    return status

/-- The answers of the compositor at this moment. -/
def world (E : OutputEnv) : OutputM OutputWorld := do
  let s ← get
  return E.world s.layout.config

end OutputM

open OutputM

/-- A handler of a subcommand, for the array of the command. -/
abbrev SubcommandHandler := OutputEnv → List Str → Args → OutputM CommandResult

/-- The result of a parameter that is not accepted. -/
def invalidParameter (error : String) : CommandResult := ⟨.invalidParameter, some error.toList⟩

/-- What the handlers of the subcommands begin with. -/
def checkContext (missing : String) (absent : Bool) (body : Str → OutputM CommandResult) :
    OutputM CommandResult := do
  let s ← get
  match s.outputConfig with
  | none => return ⟨.aborted, some "Missing output config".toList⟩
  | some config =>
    match config.name with
    | none => return invalidParameter "Output config name not set"
    | some name => if absent then return invalidParameter missing else body name

/-! ## Power and scale -/

/-- `signal_power_cmd`. -/
def signalPowerCmd (E : OutputEnv) (argv : List Str) : OutputM ReturnStatus := do
  let world ← world E
  match world.compositor.activeOutput with
  | none => throw .nullPointer
  | some output =>
    configure fun layout =>
      if world.power output then (.success, ·) <$> layout.onPowerCommand world.toQueries argv
      else .ok (.success, layout)

/-- `output_power_handler`. -/
def outputPowerHandler : SubcommandHandler := fun E words args =>
  checkContext "Missing power argument." (¬ args.argc > 0) fun name => do
    let options ← (List.range args.argc.toNat).mapM fun i => word words args i
    leave args.next
    let status ← signalPowerCmd E (["output".toList, name, "power".toList] ++ options)
    return ⟨status, none⟩

/-- `output_scale_handler`. -/
def outputScaleHandler : SubcommandHandler := fun E words args =>
  checkContext "Missing scale argument." (args.argc = 0) fun name => do
    let text ← word words args 0
    let (scale, rest) := E.strtof text
    if rest ≠ [] then return invalidParameter "Invalid scale."
    else
      let world ← world E
      match world.compositor.allOutputByNameOrId name with
      | none => return ⟨.aborted, some "Missing output".toList⟩
      | some output => do
        let status ← configure fun layout => layout.setScale world.toQueries scale output
        leave args.next
        return ⟨status, none⟩

/-! ## Transform -/

/-- `invert_rotation_direction`. -/
def invertRotationDirection : Transform → Transform
  | .rotated90 => .rotated270
  | .rotated270 => .rotated90
  | .flipped90 => .flipped270
  | .flipped270 => .flipped90
  | t => t

/-- The transforms by their names. -/
def transformOfName (name : Str) : Option Transform :=
  if name = "normal".toList ∨ name = "0".toList then some .normal
  else if name = "90".toList then some .rotated90
  else if name = "180".toList then some .rotated180
  else if name = "270".toList then some .rotated270
  else if name = "flipped".toList then some .flipped
  else if name = "flipped-90".toList then some .flipped90
  else if name = "flipped-180".toList then some .flipped180
  else if name = "flipped-270".toList then some .flipped270
  else none

/-- The result of a relative transform of an output that is not known. -/
def unknownOutput : CommandResult :=
  ⟨.aborted, some "Cannot apply relative transform to unknown output".toList⟩

/-- The call of `set_tranform` at the end of the handler. -/
def applyTransform (world : OutputWorld) (output : OutputRef) (transform : Transform) :
    OutputM CommandResult := do
  let status ← configure fun layout => layout.setTransform world.toQueries transform output
  return ⟨status, none⟩

/-- `output_transform_handler`. -/
def outputTransformHandler : SubcommandHandler := fun E words args =>
  checkContext "Missing transform argument." (args.argc = 0) fun name => do
    let text ← word words args 0
    match transformOfName text with
    | none => return invalidParameter "Invalid output transform."
    | some transform =>
      let transform := invertRotationDirection transform
      let world ← world E
      match world.compositor.allOutputByNameOrId name with
      | none => return unknownOutput
      | some output => do
        leave args.next
        if args.argc > 1 then
          let direction ← word words args 1
          if direction = "clockwise".toList ∨ direction = "anticlockwise".toList then
            if name = "*".toList then
              return invalidParameter "Cannot apply relative transform to all outputs."
            else
              let transform := if direction = "anticlockwise".toList then
                invertRotationDirection transform else transform
              match world.handle output with
              | none => return unknownOutput
              | some handle => do
                leave args.next.next
                applyTransform world output (E.compose handle.transform transform)
          else applyTransform world output transform
        else applyTransform world output transform

/-! ## Position and mode -/

/-- A number that is all of a word. -/
def wholeNumber (word : Str) : Option Int32 :=
  let (v, rest) := strtol word
  if rest = [] then some (.ofInt v) else none

/-- What the first word of a subcommand with two numbers says. -/
inductive FirstWord (α : Type)
  | invalid (error : String)
  /-- All numbers. -/
  | complete (numbers : α)
  /-- The first number only. -/
  | first (number : Int32)

/-- The format 1234,4321. -/
def positionWord (word : Str) : FirstWord (Int32 × Int32) :=
  match strtol word with
  | (x, []) => .first (.ofInt x)
  | (x, ch :: rest) =>
    if ch ≠ ',' then .invalid "Invalid position x."
    else
      match wholeNumber rest with
      | none => .invalid "Invalid position y."
      | some y => .complete (.ofInt x, y)

/-- The end of `output_position_handler`. -/
def applyPosition (E : OutputEnv) (name : Str) (args : Args) (x y : Int32) :
    OutputM CommandResult := do
  let world ← world E
  match world.compositor.allOutputByNameOrId name with
  | none => return ⟨.aborted, some "Missing output".toList⟩
  | some output => do
    let status ← configure fun layout => layout.setPosition world.toQueries (.fixed x y) output
    leave args.next
    return ⟨status, none⟩

/-- `output_position_handler`. -/
def outputPositionHandler : SubcommandHandler := fun E words args =>
  checkContext "Missing position argument." (args.argc = 0) fun name => do
    let text ← word words args 0
    match positionWord text with
    | .invalid error => return invalidParameter error
    | .complete (x, y) => applyPosition E name args x y
    | .first x => do
      -- the format is 1234 4321
      let args ← move args.next
      if args.argc = 0 then return invalidParameter "Missing position argument (y)."
      else
        let text ← word words args 0
        match wholeNumber text with
        | none => return invalidParameter "Invalid position y."
        | some y => applyPosition E name args x y

/-- The format 1234x4321, with an optional rate behind it; without one the rate is -1. -/
def modeWord (strtof : Str → CFloat × Str) (word : Str) : FirstWord (Int32 × Int32 × CFloat) :=
  match strtol word with
  | (width, []) => .first (.ofInt width)
  | (width, ch :: rest) =>
    if ch ≠ 'x' then .invalid "Invalid mode width."
    else
      match strtol rest with
      | (height, []) => .complete (.ofInt width, .ofInt height, .finite (-1))
      | (height, ch :: rest) =>
        if ch ≠ '@' then .invalid "Invalid mode height."
        else
          let (rate, rest) := strtof rest
          if ¬ eqIgnoringCase rest "hz".toList then .invalid "Invalid mode refresh rate."
          else .complete (.ofInt width, .ofInt height, rate)

/-- The first mode of a list with the given size and rate; -1 stands for any rate. -/
def selectMode (modes : List OutputMode) (width height : Int32) (rate : CFloat) :
    Option OutputMode :=
  modes.find? fun mode =>
    (rate.equal (.finite (-1)) || rate.equal (.ofInt32 mode.refresh)) &&
      mode.height = height && mode.width = width

/-- The mode that is forced with `--custom`. -/
def customMode (width height : Int32) (rate : CFloat) : Except Failure OutputMode := do
  let refresh ← rate.toInt32
  return ⟨width, height, refresh, true⟩

/-- The result when no mode is selected. -/
def noSuchMode : CommandResult :=
  ⟨.aborted, some (("The specified mode is invalid or not found in the list of available modes " ++
    "of the specified output, use *--custom* to force this mode if you know what you're doing")
      |>.toList)⟩

/-- The end of `output_mode_handler`. -/
def applyMode (E : OutputEnv) (name : Str) (args : Args) (useCustomMode : Bool)
    (width height : Int32) (rate : CFloat) : OutputM CommandResult := do
  let world ← world E
  match world.compositor.allOutputByNameOrId name with
  | none => return ⟨.aborted, some "Missing output".toList⟩
  | some output =>
    match world.handle output with
    | none => return ⟨.aborted, some "Missing output".toList⟩
    | some handle =>
      if useCustomMode then do
        let mode ← liftM (customMode width height rate)
        let status ← configure fun layout => layout.setMode world.toQueries mode output
        leave args.next
        return ⟨status, none⟩
      else
        match selectMode handle.modes width height rate with
        | none => return noSuchMode
        | some mode => do
          let status ← configure fun layout => layout.setMode world.toQueries mode output
          leave args.next
          return ⟨status, none⟩

/-- The part of `output_mode_handler` that reads the size. -/
def readSize (E : OutputEnv) (words : List Str) (name : Str) (useCustomMode : Bool) (args : Args) :
    OutputM CommandResult := do
  let text ← word words args 0
  match modeWord E.strtof text with
  | .invalid error => return invalidParameter error
  | .complete (width, height, rate) => applyMode E name args useCustomMode width height rate
  | .first width => do
    -- the format is 1234 4321
    let args ← move args.next
    if args.argc = 0 then return invalidParameter "Missing mode argument (height)."
    else
      let text ← word words args 0
      match wholeNumber text with
      | none => return invalidParameter "Invalid mode height."
      | some height => applyMode E name args useCustomMode width height (.finite (-1))

/-- `output_mode_handler`. -/
def outputModeHandler : SubcommandHandler := fun E words args =>
  checkContext "Missing mode argument." (args.argc = 0) fun name => do
    let first ← word words args 0
    if first = "--custom".toList then
      let args ← move args.next
      readSize E words name true args
    else readSize E words name false args

/-! ## The command -/

/-- `output_handler_map`. -/
def outputHandlerMap (name : Str) : Option SubcommandHandler :=
  if name = "dpms".toList ∨ name = "power".toList then some outputPowerHandler
  else if name = "scale".toList then some outputScaleHandler
  else if name = "transform".toList then some outputTransformHandler
  else if name = "position".toList then some outputPositionHandler
  else if name = "mode".toList then some outputModeHandler
  else none

variable (E : OutputEnv) (words : List Str)

/-- The loop of `output_handler`, with a bound on its rounds. -/
def outputLoop : ℕ → Args → OutputM CommandResult
  | 0, _ => throw .diverges
  | n + 1, args =>
    if args.argc > 0 then do
      modify fun s => { s with leftovers := ⟨0, none⟩ }
      let name ← word words args 0
      match outputHandlerMap name with
      | none => return ⟨.notFound, none⟩
      | some cmdHandler => do
        let error ← cmdHandler E words (← move args.next)
        if error.status ≠ .success then return error
        else
          let s ← get
          outputLoop n (← move s.leftovers)
    else return ⟨.success, none⟩

/-- `cleanup`. -/
def cleanup : OutputM Unit :=
  modify fun s => { s with outputConfig := none, leftovers := ⟨0, none⟩ }

/-- `output_handler`; memory does not run out. -/
def outputHandler : OutputM CommandResult := do
  match IpcCommand.checkarg words.length "output".toList .atLeast 1 with
  | some error => return error
  | none => do
    let args ← move ⟨words.length, some 0⟩
    let name ← word words args 0
    modify fun s => { s with outputConfig := some ⟨some name⟩ }
    let error ← outputLoop E words words.length (← move args.next)
    cleanup
    return error

end WayfireIpc
