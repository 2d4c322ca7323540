/-
# What `wf-msg` prints

The functions of `wf-msg` that print replies for a reader.  jsoncpp throws when a value is converted
that has no such conversion; what has been printed before is left out then.
-/
import WayfireIpc.Client.Status
import WayfireIpc.Compositor.ReadBack

namespace WayfireIpc

/-- The conversions of numbers that are no integers, and how numbers are written. -/
structure Formats where
  /-- The integer that a number is cut to, if it is an `int`. -/
  truncate : String → Option ℤ
  /-- Whether a number is neither zero nor no number. -/
  nonzero : String → Bool
  /-- `%f` of a number. -/
  fixed : Json → String
  /-- `%.3f` of a rate that is given in mHz. -/
  hertz : ℤ → String
  /-- `%X`. -/
  hex : ℤ → String

namespace WfMsg

/-! ## Conversions -/

/-- `Json::Value::asString().c_str()`, as `%s` prints it. -/
def asString (v : Json) : Except WfMsgFault String :=
  match v.asString with
  | .ok s => .ok (String.ofList (cStr s.toList))
  | .error _ => .error .jsonLogicError

/-- `Json::Value::asBool`. -/
def asBool (F : Formats) (v : Json) : Except WfMsgFault Bool :=
  match v with
  | .null => .ok false
  | .bool b => .ok b
  | .int i => .ok (i ≠ 0)
  | .real numeral => .ok (F.nonzero numeral)
  | _ => .error .jsonLogicError

/-- `Json::Value::asInt`. -/
def asInt (F : Formats) (v : Json) : Except WfMsgFault ℤ :=
  match v with
  | .null => .ok 0
  | .bool b => .ok (if b then 1 else 0)
  | .int i => if -2 ^ 31 ≤ i ∧ i < 2 ^ 31 then .ok i else .error .jsonLogicError
  | .real numeral => (F.truncate numeral).elim (.error .jsonLogicError) .ok
  | _ => .error .jsonLogicError

/-- `%f` of `Json::Value::asDouble`. -/
def asDouble (F : Formats) (v : Json) : Except WfMsgFault String :=
  match v with
  | .str _ | .arr _ | .obj _ => .error .jsonLogicError
  | v => .ok (F.fixed v)

/-- `json_to_string(v)`. -/
def jsonString (J : JsonCpp) (v : Json) : String :=
  match v with
  | .str s => s
  | v => (J.jsonToString v).text

/-- `json_to_string(v).c_str()`, as `%s` prints it. -/
def jsonText (J : JsonCpp) (v : Json) : String := String.ofList (cStr (jsonString J v).toList)

/-- The string of a member. -/
def stringOf (v : Json) (key : String) : Except WfMsgFault String := v.get key >>= asString

variable (F : Formats) (J : JsonCpp)

def boolOf (v : Json) (key : String) : Except WfMsgFault Bool := v.get key >>= asBool F

def intOf (v : Json) (key : String) : Except WfMsgFault ℤ := v.get key >>= asInt F

/-! ## Printing -/

/-- `pretty_print_workspace`. -/
def prettyPrintWorkspace (w : Json) : Except WfMsgFault String :=
  if w.isNull then .ok ""
  else do
    let name ← stringOf w "name"
    let focused ← boolOf F w "focused"
    let visible ← boolOf F w "visible"
    let urgent ← boolOf F w "urgent"
    let output ← stringOf w "output"
    let layout ← stringOf w "layout"
    let representation ← stringOf w "representation"
    return "Workspace " ++ name ++ (if focused then " (focused)" else "")
      ++ (if !visible then " (off-screen)" else "") ++ (if urgent then " (urgent)" else "") ++ "\n"
      ++ "  Output: " ++ output ++ "\n  Layout: " ++ layout
      ++ "\n  Representation: " ++ representation ++ "\n\n"

/-- `pretty_type_name`. -/
def prettyTypeName (name : String) : String :=
  ([("keyboard", "Keyboard"), ("pointer", "Mouse"), ("touchpad", "Touchpad"),
    ("tablet_pad", "Tablet pad"), ("tablet_tool", "Tablet tool"), ("touch", "Touch"),
    ("switch", "Switch")].lookup name).getD name

/-- The part of `pretty_print_input` on a member `libinput`. -/
def prettyPrintLibinput (libinput : Json) : Except WfMsgFault String :=
  if libinput.isNull then .ok ""
  else do
    let events ← libinput.get "send_events"
    if events.isNull then return ""
    else
      let text ← asString events
      return "  Libinput Send Events: " ++ text ++ "\n"

/-- `pretty_print_input`. -/
def prettyPrintInput (i : Json) : Except WfMsgFault String :=
  if i.isNull then .ok "\n"
  else do
    let name ← stringOf i "name"
    let type ← stringOf i "type"
    let id ← stringOf i "identifier"
    let product ← intOf F i "product"
    let vendor ← intOf F i "vendor"
    let kbdlayout ← i.get "xkb_active_layout_name"
    let libinput ← i.get "libinput"
    let libinputText ← prettyPrintLibinput libinput
    return "Input device: " ++ name ++ "\n  Type: " ++ prettyTypeName type ++ "\n  Identifier: " ++ id
      ++ "\n  Product ID: " ++ toString product ++ "\n  Vendor ID: " ++ toString vendor ++ "\n"
      ++ "  Active Keyboard Layout: "
      ++ (if kbdlayout.isNull then "(unnamed)" else jsonText J kbdlayout) ++ "\n"
      ++ libinputText ++ "\n"

/-- A line of the list of devices of a seat. -/
def prettyPrintDevice (device : Json) : Except WfMsgFault String := do
  let name ← stringOf device "name"
  return "    " ++ name ++ "\n"

/-- `pretty_print_seat`. -/
def prettyPrintSeat (i : Json) : Except WfMsgFault String :=
  if i.isNull then .ok "\n"
  else do
    let name ← stringOf i "name"
    let capabilities ← intOf F i "capabilities"
    let devices ← i.get "devices"
    let lines ← devices.elements.mapM prettyPrintDevice
    return "Seat: " ++ name ++ "\n  Capabilities: " ++ toString capabilities ++ "\n"
      ++ (if devices.elements = [] then "" else "  Devices:\n") ++ String.join lines ++ "\n"

/-- A line of the list of modes of an output. -/
def prettyPrintMode (mode : Json) : Except WfMsgFault String := do
  let width ← intOf F mode "width"
  let height ← intOf F mode "height"
  let refresh ← intOf F mode "refresh"
  let ratio ← mode.get "picture_aspect_ratio"
  let ratioText ← asString ratio
  return "    " ++ toString width ++ "x" ++ toString height ++ " @ " ++ F.hertz refresh ++ " Hz"
    ++ (if !ratio.isNull && ratioText ≠ "none" then " (" ++ ratioText ++ ")" else "") ++ "\n"

/-- The first line of an output, up to its end. -/
def outputTitle (o : Json) : Except WfMsgFault String := do
  let name ← stringOf o "name"
  let make ← stringOf o "make"
  let model ← stringOf o "model"
  let serial ← stringOf o "serial"
  return "Output " ++ name ++ " '" ++ make ++ " " ++ model ++ " " ++ serial ++ "'"

/-- The lines of an output that is active. -/
def activeOutputLines (o rect currentMode : Json) : Except WfMsgFault String := do
  let title ← outputTitle o
  let focused ← boolOf F o "focused"
  let width ← intOf F currentMode "width"
  let height ← intOf F currentMode "height"
  let refresh ← intOf F currentMode "refresh"
  let power ← boolOf F o "power"
  let x ← intOf F rect "x"
  let y ← intOf F rect "y"
  let scale ← o.get "scale" >>= asDouble F
  let scaleFilter ← stringOf o "scale_filter"
  let subpixel ← stringOf o "subpixel_hinting"
  let transform ← stringOf o "transform"
  let ws ← stringOf o "current_workspace"
  let maxRenderTime ← intOf F o "max_render_time"
  let adaptiveSyncStatus ← stringOf o "adaptive_sync_status"
  return title ++ (if focused then " (focused)" else "") ++ "\n"
    ++ "  Current mode: " ++ toString width ++ "x" ++ toString height ++ " @ " ++ F.hertz refresh ++ " Hz\n"
    ++ "  Power: " ++ (if power then "on" else "off") ++ "\n"
    ++ "  Position: " ++ toString x ++ "," ++ toString y ++ "\n"
    ++ "  Scale factor: " ++ scale ++ "\n  Scale filter: " ++ scaleFilter ++ "\n"
    ++ "  Subpixel hinting: " ++ subpixel ++ "\n  Transform: " ++ transform ++ "\n"
    ++ "  Workspace: " ++ ws ++ "\n  Max render time: "
    ++ (if maxRenderTime = 0 then "off" else toString maxRenderTime ++ " ms") ++ "\n"
    ++ "  Adaptive sync: " ++ adaptiveSyncStatus ++ "\n"

/-- `pretty_print_output`. -/
def prettyPrintOutput (o : Json) : Except WfMsgFault String :=
  if o.isNull then .ok "\n"
  else do
    let rect ← o.get "rect"
    let nonDesktop ← o.get "non_desktop"
    let active ← o.get "active"
    let _ ← rect.get "x"
    let modes ← o.get "modes"
    let currentMode ← o.get "current_mode"
    let _ ← currentMode.get "width"
    let text ←
      if ← asBool F nonDesktop then do
        let title ← outputTitle o
        pure (title ++ " (non-desktop)\n")
      else if ← asBool F active then activeOutputLines F o rect currentMode
      else do
        let title ← outputTitle o
        pure (title ++ " (disabled)\n")
    let lines ← modes.elements.mapM (prettyPrintMode F)
    return text ++ (if modes.elements = [] then "" else "  Available modes:\n") ++ String.join lines
      ++ "\n"

/-- `pretty_print_version`. -/
def prettyPrintVersion (v : Json) : Except WfMsgFault String :=
  if v.isNull then .ok ""
  else do
    let ver ← v.get "human_readable"
    return "wayfire version " ++ jsonText J ver ++ "\n"

/-- `pretty_print_config`. -/
def prettyPrintConfig (c : Json) : Except WfMsgFault String :=
  if c.isNull then .ok ""
  else do
    let config ← c.get "config"
    return jsonText J config ++ "\n"

/-- A part of a line that is printed only if there is a value. -/
def optionalText (v : Json) (before after : String) : Except WfMsgFault String :=
  if v.isNull then .ok ""
  else do
    let text ← asString v
    return before ++ text ++ after

/-- The member of `window_properties`, which may be missing. -/
def propertyOf (windowProps : Json) (key : String) : Except WfMsgFault Json :=
  if windowProps.isNull then .ok .null else windowProps.get key

/-- What is printed of a view behind its name. -/
def shellText (obj shell : Json) : Except WfMsgFault String := do
  let pid ← intOf F obj "pid"
  let appId ← obj.get "app_id"
  let windowProps ← obj.get "window_properties"
  let inst ← propertyOf windowProps "instance"
  let clazz ← propertyOf windowProps "class"
  let x11Id ← obj.get "window"
  let shellName ← asString shell
  let appIdText ← optionalText appId ", app_id: \"" "\""
  let instText ← optionalText inst ", instance: \"" "\""
  let clazzText ← optionalText clazz ", class: \"" "\""
  let x11 ← asInt F x11Id
  return " (" ++ shellName ++ ", pid: " ++ toString pid ++ appIdText ++ instText ++ clazzText
    ++ (if x11 ≠ 0 then ", X11 window: 0x" ++ F.hex x11 else "") ++ ")"

/-- The line of a node in `pretty_print_tree`. -/
def treeLine (obj : Json) (indent : ℕ) : Except WfMsgFault String := do
  let id ← intOf F obj "id"
  let name ← stringOf obj "name"
  let type ← stringOf obj "type"
  let shell ← obj.get "shell"
  let text ← if shell.isNull then pure "" else shellText F obj shell
  return String.join (List.replicate indent "  ") ++ "#" ++ toString id ++ ": " ++ type ++ " \""
    ++ name ++ "\"" ++ text

/-- `pretty_print_tree`: the lines that are printed. -/
def prettyPrintTree (obj : Json) (indent : ℕ) : Except WfMsgFault (List String) :=
  if obj.isNull then .ok []
  else do
    let line ← treeLine F obj indent
    let nodes ← (obj.memberElements "nodes").attach.mapM fun node =>
      prettyPrintTree node.1 (indent + 1)
    let floatingNodes ← (obj.memberElements "floating_nodes").attach.mapM fun node =>
      prettyPrintTree node.1 (indent + 1)
    return line :: (nodes.flatten ++ floatingNodes.flatten)
termination_by sizeOf obj
decreasing_by
  · exact Json.sizeOf_memberElements node.2
  · exact Json.sizeOf_memberElements node.2

/-- The loop over an array; nothing else is printed of other values. -/
def prettyPrintAll (print : Json → Except WfMsgFault String) (resp : Json) : Except WfMsgFault String :=
  String.join <$> resp.elements.mapM print

/-- `pretty_print` of the types other than `IPC_COMMAND`. -/
def prettyPrintText (type : IpcPayloadType) (resp : Json) : Except WfMsgFault String :=
  match type with
  | .sendTick => .ok ""
  | .getVersion => prettyPrintVersion J resp
  | .getConfig => prettyPrintConfig J resp
  | .getTree => (fun lines => String.join (lines.map (· ++ "\n"))) <$> prettyPrintTree F resp 0
  | .getWorkspaces => prettyPrintAll (prettyPrintWorkspace F) resp
  | .getInputs => prettyPrintAll (prettyPrintInput F J) resp
  | .getOutputs => prettyPrintAll (prettyPrintOutput F) resp
  | .getSeats => prettyPrintAll (prettyPrintSeat F) resp
  | _ => .ok (jsonString J resp ++ "\n")

/-- `pretty_print`, of which only whether it throws matters for the exit status. -/
def printOther (type : IpcPayloadType) (resp : Json) : Except WfMsgFault Unit :=
  (fun _ => ()) <$> prettyPrintText F J type resp

end WfMsg

end WayfireIpc
