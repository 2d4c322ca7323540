/-
# Setting the configuration of an output

The functions with which the subcommands of `output` change the configuration of the output
layout, and the functions of the power plugin behind `output … power`, over whole entries.
Each of the six looks for the entry of its output in a loop of its own.
-/
import WayfireIpc.Compositor.Layout
import WayfireIpc.Power.State

namespace WayfireIpc

/-- `enum wl_output_transform`. -/
inductive Transform
  | normal | rotated90 | rotated180 | rotated270
  | flipped | flipped90 | flipped180 | flipped270
deriving DecidableEq, Repr

/-- A value of the types `float` and `double`. -/
inductive CFloat
  | finite (q : ℚ)
  | infinite (negative : Bool)
  | nan
deriving DecidableEq, Repr

/-- `wlr_output_mode`; the rate is in mHz. -/
structure OutputMode where
  width : Int32
  height : Int32
  refresh : Int32
  preferred : Bool
deriving DecidableEq, Repr

/-- `wf::output_config::position_t`. -/
inductive OutputPosition
  | automatic
  | fixed (x y : Int32)
deriving DecidableEq, Repr

/-- An entry of the configuration with the fields that the subcommands set. -/
structure OutputEntry extends OutputState where
  mode : OutputMode
  position : OutputPosition
  scale : CFloat
  transform : Transform
deriving DecidableEq, Repr

/-- The output layout: its current configuration, and the configurations that have been applied,
the latest first. -/
structure OutputLayout where
  config : List OutputEntry
  applied : List (List OutputEntry)
deriving DecidableEq, Repr

namespace OutputLayout

/-- `apply_configuration` makes the given configuration the current one. -/
def apply (L : OutputLayout) (config : List OutputEntry) : OutputLayout :=
  ⟨config, config :: L.applied⟩

variable (q : Power.Queries)

/-! ## The setters of the subcommands -/

/-- The loop over the configuration, with the variable `found` of the source. -/
def setEntry (output : OutputRef) (change : OutputEntry → OutputEntry) (found : Bool) :
    List OutputEntry → Except Failure (Bool × List OutputEntry)
  | [] => .ok (found, [])
  | entry :: entries =>
    match q.findOutput entry.output with
    | none => .error .nullPointer
    | some o =>
      if (q.compositor.output o).id = (q.compositor.output output).id then
        .ok (true, change entry :: entries)
      else do
        let (found, entries) ← setEntry output change found entries
        return (found, entry :: entries)

/-- The common body of the setters. -/
def setField (output : OutputRef) (change : OutputEntry → OutputEntry) (L : OutputLayout) :
    Except Failure (ReturnStatus × OutputLayout) := do
  let (found, config) ← setEntry q output change true L.config
  return (.success, if found then L.apply config else L)

/-- `set_mode`. -/
def setMode (mode : OutputMode) (output : OutputRef) (L : OutputLayout) :
    Except Failure (ReturnStatus × OutputLayout) :=
  L.setField q output fun entry => { entry with mode := mode }

/-- `set_scale`. -/
def setScale (scale : CFloat) (output : OutputRef) (L : OutputLayout) :
    Except Failure (ReturnStatus × OutputLayout) :=
  L.setField q output fun entry => { entry with scale := scale }

/-- `set_tranform`. -/
def setTransform (transform : Transform) (output : OutputRef) (L : OutputLayout) :
    Except Failure (ReturnStatus × OutputLayout) :=
  L.setField q output fun entry => { entry with transform := transform }

/-- `set_position`. -/
def setPosition (position : OutputPosition) (output : OutputRef) (L : OutputLayout) :
    Except Failure (ReturnStatus × OutputLayout) :=
  L.setField q output fun entry => { entry with position := position }

/-! ## The power plugin -/

/-- The body of the loop in `set_state_off` and `set_state_on`: the entry, and whether it has
changed.  `none` stands for all outputs. -/
def switchEntry (dst : OutputImageSource) (target : Option OutputRef) (entry : OutputEntry) :
    Except Failure (Bool × OutputEntry) :=
  let switched :=
    if entry.source ≠ dst then (true, { entry with source := dst }) else (false, entry)
  match target with
  | none => .ok switched
  | some output =>
    match q.findOutput entry.output with
    | none => .error .nullPointer
    | some o =>
      if (q.compositor.output o).id ≠ (q.compositor.output output).id then .ok (false, entry)
      else .ok switched

/-- The loop of `set_state_off` and `set_state_on`. -/
def switchEntries (dst : OutputImageSource) (target : Option OutputRef) (L : OutputLayout) :
    Except Failure OutputLayout := do
  let visited ← L.config.mapM (switchEntry q dst target)
  return if visited.any Prod.fst then L.apply (visited.map Prod.snd) else L

/-- The common body of `set_state_off` and `set_state_on`, for a name or a number that is given as
a string. -/
def switchNamed (dst : OutputImageSource) (nameOrId : Str) (L : OutputLayout) :
    Except Failure OutputLayout :=
  if nameOrId = ipcAnyTocken.toList then L.switchEntries q dst none
  else
    match q.compositor.allOutputByNameOrId (cStr nameOrId) with
    | none => .ok L
    | some output => L.switchEntries q dst (some output)

/-- `wayfire_power::set_state_off`. -/
def setStateOff (nameOrId : Str) (L : OutputLayout) : Except Failure OutputLayout :=
  L.switchNamed q .dpms nameOrId

/-- `wayfire_power::set_state_on`. -/
def setStateOn (nameOrId : Str) (L : OutputLayout) : Except Failure OutputLayout :=
  L.switchNamed q .self nameOrId

/-- `wayfire_power_plugin::on_power_command`, for a signal whose words are all strings. -/
def onPowerCommand (argv : List Str) (L : OutputLayout) : Except Failure OutputLayout :=
  if !q.canActivate then .ok L
  else
    let option := argv.getD 3 ipcOnTocken.toList
    let nameOrId := argv.getD 1 ipcAnyTocken.toList
    if option = ipcOffTocken.toList then L.setStateOff q nameOrId else L.setStateOn q nameOrId

/-! ## The entries as the power plugin sees them -/

/-- What the power plugin reads and writes of the configuration. -/
def sources (L : OutputLayout) : OutputConfiguration := L.config.map OutputEntry.toOutputState

end OutputLayout
end WayfireIpc
