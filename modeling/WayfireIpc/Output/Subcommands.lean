/-
# Subcommands

What the words of `output` say, apart from how the handlers move through them.  A
subcommand is parsed from the words that are left, and it is executed before the next one
is parsed.
-/
import WayfireIpc.Output.Handlers

namespace WayfireIpc

inductive Subcommand
  /-- All words that are left. -/
  | power (options : List Str)
  | scale (scale : CFloat)
  /-- A transform, and whether the turn is anticlockwise if it is a relative one. -/
  | transform (transform : Transform) (anticlockwise : Option Bool)
  | position (x y : Int32)
  | mode (useCustomMode : Bool) (width height : Int32) (rate : CFloat)
deriving DecidableEq, Repr

/-- What is read from words. -/
inductive Parsed
  /-- A null pointer is handed to a parser. -/
  | fault
  | refused (r : CommandResult)
  | subcommand (sub : Subcommand) (rest : List Str)
deriving DecidableEq, Repr

/-! ## Parsing -/

def parsePower : List Str → Parsed
  | [] => .refused (invalidParameter "Missing power argument.")
  | option :: words => .subcommand (.power (option :: words)) words

def parseScale (strtof : Str → CFloat × Str) : List Str → Parsed
  | [] => .refused (invalidParameter "Missing scale argument.")
  | word :: words =>
    let (scale, rest) := strtof word
    if rest ≠ [] then .refused (invalidParameter "Invalid scale.")
    else .subcommand (.scale scale) words

/-- A transform, with the word behind it if this is a direction. -/
def parseDirection (transform : Transform) : List Str → Parsed
  | [] => .subcommand (.transform transform none) []
  | word :: words =>
    if word = "clockwise".toList ∨ word = "anticlockwise".toList then
      .subcommand (.transform transform (some (word = "anticlockwise".toList))) words
    else .subcommand (.transform transform none) (word :: words)

def parseTransform : List Str → Parsed
  | [] => .refused (invalidParameter "Missing transform argument.")
  | word :: words =>
    match transformOfName word with
    | none => .refused (invalidParameter "Invalid output transform.")
    | some transform => parseDirection (invertRotationDirection transform) words

/-- The word with the second number. -/
def parseSecond (missing invalid : String) (sub : Int32 → Subcommand) : List Str → Parsed
  | [] => .refused (invalidParameter missing)
  | word :: words =>
    match wholeNumber word with
    | none => .refused (invalidParameter invalid)
    | some number => .subcommand (sub number) words

def parsePosition : List Str → Parsed
  | [] => .refused (invalidParameter "Missing position argument.")
  | word :: words =>
    match positionWord word with
    | .invalid error => .refused (invalidParameter error)
    | .complete (x, y) => .subcommand (.position x y) words
    | .first x =>
      parseSecond "Missing position argument (y)." "Invalid position y." (.position x) words

/-- A size, with or without `--custom` before it. -/
def parseSize (strtof : Str → CFloat × Str) (useCustomMode : Bool) (word : Str)
    (words : List Str) : Parsed :=
  match modeWord strtof word with
  | .invalid error => .refused (invalidParameter error)
  | .complete (width, height, rate) => .subcommand (.mode useCustomMode width height rate) words
  | .first width =>
    parseSecond "Missing mode argument (height)." "Invalid mode height."
      (fun height => .mode useCustomMode width height (.finite (-1))) words

def parseMode (strtof : Str → CFloat × Str) : List Str → Parsed
  | [] => .refused (invalidParameter "Missing mode argument.")
  | word :: words =>
    if word = "--custom".toList then
      match words with
      | [] => .fault
      | word :: words => parseSize strtof true word words
    else parseSize strtof false word words

/-- The parsers, as `output_handler_map` has the handlers. -/
def parserMap (strtof : Str → CFloat × Str) (name : Str) : Option (List Str → Parsed) :=
  if name = "dpms".toList ∨ name = "power".toList then some parsePower
  else if name = "scale".toList then some (parseScale strtof)
  else if name = "transform".toList then some parseTransform
  else if name = "position".toList then some parsePosition
  else if name = "mode".toList then some (parseMode strtof)
  else none

/-- The first subcommand of some words. -/
def parseSubcommand (strtof : Str → CFloat × Str) : List Str → Parsed
  | [] => .refused ⟨.invalidParameter, none⟩
  | name :: words =>
    match parserMap strtof name with
    | none => .refused ⟨.notFound, none⟩
    | some parser => parser words

/-! ## Execution -/

namespace Subcommand

variable (E : OutputEnv) (name : Str)

/-- A setter is called, and the subcommand has its status. -/
def set (setter : OutputLayout → Except Failure (ReturnStatus × OutputLayout))
    (layout : OutputLayout) : Except Failure (CommandResult × OutputLayout) := do
  let (status, layout) ← setter layout
  return (⟨status, none⟩, layout)

/-- The transform that a subcommand sets, unless it is refused. -/
def transformOf (world : OutputWorld) (output : OutputRef) (transform : Transform) :
    Option Bool → Except CommandResult Transform
  | none => .ok transform
  | some anticlockwise =>
    if name = "*".toList then
      .error (invalidParameter "Cannot apply relative transform to all outputs.")
    else
      match world.handle output with
      | none => .error unknownOutput
      | some handle => .ok <| E.compose handle.transform <|
          if anticlockwise then invertRotationDirection transform else transform

/-- The mode that a subcommand sets, unless it is refused. -/
def modeOf (world : OutputWorld) (output : OutputRef) (useCustomMode : Bool)
    (width height : Int32) (rate : CFloat) : Except Failure (Except CommandResult OutputMode) :=
  match world.handle output with
  | none => .ok (.error ⟨.aborted, some "Missing output".toList⟩)
  | some handle =>
    if useCustomMode then .ok <$> customMode width height rate
    else
      match selectMode handle.modes width height rate with
      | none => .ok (.error noSuchMode)
      | some selected => .ok (.ok selected)

/-- What a subcommand does to the layout, for the output with the given name. -/
def exec (layout : OutputLayout) : Subcommand → Except Failure (CommandResult × OutputLayout)
  | power options =>
    let world := E.world layout.config
    match world.compositor.activeOutput with
    | none => .error .nullPointer
    | some output =>
      if world.power output then
        set (fun layout => (ReturnStatus.success, ·) <$> layout.onPowerCommand world.toQueries
          (["output".toList, name, "power".toList] ++ options)) layout
      else .ok (⟨.success, none⟩, layout)
  | scale value =>
    let world := E.world layout.config
    match world.compositor.allOutputByNameOrId name with
    | none => .ok (⟨.aborted, some "Missing output".toList⟩, layout)
    | some output => set (fun layout => layout.setScale world.toQueries value output) layout
  | transform value anticlockwise =>
    let world := E.world layout.config
    match world.compositor.allOutputByNameOrId name with
    | none => .ok (unknownOutput, layout)
    | some output =>
      match transformOf E name world output value anticlockwise with
      | .error r => .ok (r, layout)
      | .ok value => set (fun layout => layout.setTransform world.toQueries value output) layout
  | position x y =>
    let world := E.world layout.config
    match world.compositor.allOutputByNameOrId name with
    | none => .ok (⟨.aborted, some "Missing output".toList⟩, layout)
    | some output =>
      set (fun layout => layout.setPosition world.toQueries (.fixed x y) output) layout
  | mode useCustomMode width height rate =>
    let world := E.world layout.config
    match world.compositor.allOutputByNameOrId name with
    | none => .ok (⟨.aborted, some "Missing output".toList⟩, layout)
    | some output => do
      match ← modeOf world output useCustomMode width height rate with
      | .error r => return (r, layout)
      | .ok value => set (fun layout => layout.setMode world.toQueries value output) layout

end Subcommand

/-- Subcommands at the front of some words succeed one after the other. -/
inductive Succeeds (E : OutputEnv) (name : Str) :
    OutputLayout → List Str → OutputLayout → List Str → Prop
  | refl {layout words} : Succeeds E name layout words layout words
  | step {layout words sub rest r layout' layout'' words'} :
      parseSubcommand E.strtof words = .subcommand sub rest →
      sub.exec E name layout = .ok (r, layout') → r.status = .success →
      Succeeds E name layout' rest layout'' words' →
      Succeeds E name layout words layout'' words'

end WayfireIpc
