/-
# The power plugin

`power.cpp` switches the outputs off when nothing happens for a while and on again on the
next activity.  `Power` is the object `wayfire_power`, which all instances of the plugin
share, with the parts of the compositor that it writes: the one-shot timer, the
connection to the activity signal and the configuration of the outputs.  `darkened` is
only kept for the statements below.
-/
import WayfireIpc.Compositor.Layout
import WayfireIpc.Protocol
import WayfireIpc.Lib.Machine

namespace WayfireIpc

/-- The ways in which a handler of the power plugin can fail. -/
inductive PowerFault
  /-- A JSON value is converted to a string, and it is an array or an object. -/
  | jsonLogicError
  /-- An output that has no `wf::output_t` is asked for its number. -/
  | nullPointer
deriving DecidableEq, Repr

namespace Json

/-- `Json::Value::asString`. -/
def asString : Json → Except PowerFault String
  | null => .ok ""
  | bool b => .ok (if b then "true" else "false")
  | int i => .ok (toString i)
  | real numeral => .ok numeral
  | str s => .ok s
  | arr _ | obj _ => .error .jsonLogicError

end Json

/-- `IPC_ANY_TOCKEN`. -/
def ipcAnyTocken : String := "*"

/-- `IPC_OFF_TOCKEN`. -/
def ipcOffTocken : String := "off"

/-- `IPC_ON_TOCKEN`. -/
def ipcOnTocken : String := "on"

/-- `wayfire_power`. -/
structure Power where
  /-- The option "power/power_timeout", in seconds. -/
  powerTimeout : ℤ
  isIdle : Bool
  /-- Whether `on_seat_activity` is connected. -/
  onSeatActivity : Bool
  /-- The delay in milliseconds of `timeout_power`, while it is connected. -/
  timeoutPower : Option UInt32
  /-- The configuration of the output layout. -/
  config : OutputConfiguration
  /-- The outputs that the timer has switched off and no command has touched since. -/
  darkened : List WlrOutput
deriving DecidableEq, Repr

namespace Power

/-- The entries of a configuration with the source `src` get the source `dst`. -/
def switchSource (src dst : OutputImageSource) (config : OutputConfiguration) :
    OutputConfiguration :=
  config.map fun e => if e.source = src then { e with source := dst } else e

/-- `wayfire_power::set_state`.  `apply_configuration` makes the given configuration the current
one. -/
def setState (p : Power) (src dst : OutputImageSource) : Power :=
  { p with config := switchSource src dst p.config }

/-- `wayfire_power::create_power_timeout`.  The product of two `int` is taken as an unsigned
delay.  A timeout of more than 24 days overflows the `int`, which is undefined in the source and not
modelled; nothing that is proved here depends on the delay. -/
def createPowerTimeout (p : Power) : Power :=
  if p.powerTimeout ≤ 0 then
    { p with timeoutPower := none }
  else if p.timeoutPower.isNone && p.isIdle then
    { p with isIdle := false }.setState .dpms .self
  else
    { p with timeoutPower := some (.ofInt (1000 * p.powerTimeout)) }

/-- The callback of `timeout_power`; a one-shot timer is disconnected when it has fired. -/
def timerFired (p : Power) : Power :=
  { { p with timeoutPower := none, isIdle := true }.setState .self .dpms with
    darkened := p.darkened ++ (p.config.filter fun e => e.source = .self).map OutputState.output }

/-- The constructor: the option has the value `powerTimeout`. -/
def start (powerTimeout : ℤ) (config : OutputConfiguration) : Power :=
  { createPowerTimeout ⟨powerTimeout, false, false, none, config, []⟩ with onSeatActivity := true }

/-! ## Power commands -/

/-- What the compositor answers to the queries of a command. -/
structure Queries where
  compositor : Compositor
  /-- `output_layout->find_output`. -/
  findOutput : WlrOutput → Option OutputRef
  /-- `output->can_activate_plugin`. -/
  canActivate : Bool

/-- The token for all outputs. -/
def isAny (nameOrId : Json) : Bool :=
  match nameOrId with
  | .str s => s = ipcAnyTocken
  | _ => false

/-- Whether the loop over the configuration gets past its `continue`: `none` stands for all
outputs. -/
def reaches (q : Queries) (target : Option OutputRef) (e : OutputState) : Except PowerFault Bool :=
  match target with
  | none => .ok true
  | some output =>
    match q.findOutput e.output with
    | none => .error .nullPointer
    | some o => .ok ((q.compositor.output o).id = (q.compositor.output output).id)

/-- The body of the loop over the configuration. -/
def visitEntry (q : Queries) (target : Option OutputRef) (dst : OutputImageSource)
    (e : OutputState) : Except PowerFault (OutputState × Bool) := do
  let reached ← reaches q target e
  return (if reached && e.source ≠ dst then { e with source := dst } else e, reached)

/-- The loop of `set_state_off` and `set_state_on`: all entries that it reaches get the source
`dst`. -/
def switchTo (q : Queries) (dst : OutputImageSource) (target : Option OutputRef) (p : Power) :
    Except PowerFault Power := do
  let visited ← p.config.mapM (visitEntry q target dst)
  let config := visited.map Prod.fst
  let touched := (visited.filter Prod.snd).map fun e => e.1.output
  -- the source applies the configuration only when an entry has changed
  return { p with config := config, darkened := p.darkened.filter (· ∉ touched) }

/-- The common body of `set_state_off` and `set_state_on`. -/
def switchNamed (q : Queries) (dst : OutputImageSource) (nameOrId : Json) (p : Power) :
    Except PowerFault Power := do
  if isAny nameOrId then
    switchTo q dst none p
  else
    let strNameOrId ← nameOrId.asString
    match q.compositor.allOutputByNameOrId (cStr strNameOrId.toList) with
    | none => return p
    | some output => switchTo q dst (some output) p

/-- `wayfire_power::set_state_off`. -/
def setStateOff (q : Queries) (nameOrId : Json) (p : Power) : Except PowerFault Power :=
  switchNamed q .dpms nameOrId p

/-- `wayfire_power::set_state_on`. -/
def setStateOn (q : Queries) (nameOrId : Json) (p : Power) : Except PowerFault Power :=
  switchNamed q .self nameOrId p

/-- `wayfire_power_plugin::on_power_command`. -/
def onPowerCommand (q : Queries) (argv : List Json) (p : Power) : Except PowerFault Power := do
  if !q.canActivate then
    return p
  else
    let option := argv.getD 3 (.str ipcOnTocken)
    let nameOrId := argv.getD 1 (.str ipcAnyTocken)
    if !option.isString || option.empty then
      return p
    else
      let state ← option.asString
      if state = ipcOffTocken then setStateOff q nameOrId p else setStateOn q nameOrId p

/-! ## Steps -/

/-- `wayfire_power_plugin::inhibit_changed`. -/
def inhibitChanged (inhibit : Bool) (p : Power) : Power :=
  if inhibit then
    { p with onSeatActivity := false, timeoutPower := none }
  else
    { p with onSeatActivity := true }.createPowerTimeout

/-- What happens to the plugin. -/
inductive Input
  /-- The seat signals an activity. -/
  | activity
  | timerExpires
  /-- The option "power/power_timeout" gets a value. -/
  | setPowerTimeout (v : ℤ)
  | inhibitChanged (inhibit : Bool)
  | command (q : Queries) (argv : List Json)

/-- The step of the plugin on an input.  The timer expires only while it is connected, and an
activity is noticed only while `on_seat_activity` is. -/
def step (p : Power) : Input → Except PowerFault Power
  | .activity => .ok (if p.onSeatActivity then p.createPowerTimeout else p)
  | .timerExpires => .ok (if p.timeoutPower.isSome then p.timerFired else p)
  | .setPowerTimeout v => .ok { p with powerTimeout := v }.createPowerTimeout
  | .inhibitChanged inhibit => .ok (p.inhibitChanged inhibit)
  | .command q argv => p.onPowerCommand q argv

end Power

end WayfireIpc
