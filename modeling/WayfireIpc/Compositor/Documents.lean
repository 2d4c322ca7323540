/-
# The documents of the server

The JSON documents that `ipc-json.cpp` makes of the compositor for the requests: the nodes of the
tree with all of their members, the outputs, the input devices, the seat and the version.  Numbers
that are computed with floating point are given as numerals.
-/
import WayfireIpc.Compositor.RootRect
import WayfireIpc.Output.Config
import WayfireIpc.Lib.Members

namespace WayfireIpc

/-- An object after the assignments to its members; the last one to a member counts. -/
def Json.object (assignments : List (String × Json)) : Json :=
  .obj (Members.setAll assignments [])

def Json.string (s : Str) : Json := .str (String.ofList s)

/-- An assignment that is made only if there is a value. -/
def assignSome (key : String) (value : Option Json) : List (String × Json) :=
  (value.map fun v => (key, v)).toList

/-! ## Details of the compositor -/

/-- `enum wl_output_subpixel`. -/
inductive Subpixel
  | unknown | none | horizontalRgb | horizontalBgr | verticalRgb | verticalBgr
deriving DecidableEq, Repr

/-- `enum wlr_output_mode_aspect_ratio`. -/
inductive AspectRatio
  | none | ratio4x3 | ratio16x9 | ratio64x27 | ratio256x135
deriving DecidableEq, Repr

/-- Of a `wlr_output_mode` what is described. -/
structure DescribedMode where
  width : Int32
  height : Int32
  refresh : Int32
  pictureAspectRatio : AspectRatio
deriving DecidableEq, Repr

/-- Of a `wlr_output` what is described. -/
structure OutputHandle where
  name : String
  make : Option String
  model : Option String
  serial : Option String
  enabled : Bool
  scale : String
  transform : Transform
  subpixel : Subpixel
  adaptiveSync : Bool
  modes : List DescribedMode
  currentMode : Option DescribedMode
  width : Int32
  height : Int32
  refresh : Int32

/-- Of a `wlr_xwayland_surface` what is described, beside its hints. -/
structure XwaylandSurface where
  windowId : UInt32
  clazz : Option String
  «instance» : Option String
  title : Option String
  role : Option String

/-- Of a view what only its document has. -/
structure ViewDetails where
  /-- The share of the parent's box, if there is a parent with a box. -/
  percent : Option String
  parent : Option UInt32
  /-- The pending state of the surface. -/
  surface : Option Geometry
  boundingBox : Geometry
  /-- The geometry of the toplevel and whether it is fullscreen. -/
  toplevel : Option (Geometry × Bool)
  xsurface : XwaylandSurface

/-- What only the documents read of the compositor. -/
structure Details where
  handle : OutputRef → OutputHandle
  /-- `get_layout_geometry`. -/
  layoutGeometry : OutputRef → Geometry
  /-- `get_workspace_rectangle`. -/
  workspaceRectangle : OutputRef → Point → Geometry
  view : ViewRef → ViewDetails
  /-- The rectangle that `get_root_node` comes to. -/
  rootRect : Geometry
  maxRenderTime : Int32
  dynamicDelay : Bool

/-! ## Names -/

/-- `output_transform_description`. -/
def outputTransformDescription : Transform → String
  | .normal => "normal"
  | .rotated90 => "90"
  | .rotated180 => "180"
  | .rotated270 => "270"
  | .flipped => "flipped"
  | .flipped90 => "flipped-90"
  | .flipped180 => "flipped-180"
  | .flipped270 => "flipped-270"

/-- `output_adaptive_sync_status_description`. -/
def outputAdaptiveSyncStatusDescription (enabled : Bool) : String :=
  if enabled then "enabled" else "disabled"

/-- `output_subpixel_description`. -/
def outputSubpixelDescription : Subpixel → String
  | .unknown => "unknown"
  | .none => "none"
  | .horizontalRgb => "rgb"
  | .horizontalBgr => "bgr"
  | .verticalRgb => "vrgb"
  | .verticalBgr => "vbgr"

/-- `describe_output_mode_aspect_ratio`. -/
def describeOutputModeAspectRatio : AspectRatio → String
  | .none => "none"
  | .ratio4x3 => "4:3"
  | .ratio16x9 => "16:9"
  | .ratio64x27 => "64:27"
  | .ratio256x135 => "256:135"

/-- `orientation_description` of a transform. -/
def orientationDescription : Transform → String
  | .rotated180 | .normal | .flipped | .flipped180 => "horizontal"
  | .rotated90 | .rotated270 | .flipped90 | .flipped270 => "vertical"

/-- `orientation_description` of an output, which may be missing. -/
def orientationOf (D : Details) (o : Option OutputRef) : String :=
  o.elim "none" fun o => orientationDescription (D.handle o).transform

/-! ## Nodes -/

/-- `create_empty_rect`. -/
def createEmptyRect : Json := describeGeometry ⟨0, 0, 0, 0⟩

/-- The names of the types of nodes. -/
def NodeType.text : NodeType → String
  | .root => "root"
  | .output => "output"
  | .workspace => "workspace"
  | .con => "con"
  | .floatingCon => "floating_con"

def Urgent.json : Urgent → Json
  | .bool b => .bool b
  | .number n => .int n

/-- The list of numbers in the member `focus`. -/
def focusJson (focus : List Int32) : Json := .arr (focus.map fun id => .int id.toInt)

/-- The assignments of `create_node`. -/
def createNodeMembers (id : Int32) (type : NodeType) (name : Str) (focused : Bool) (rect : Geometry) :
    List (String × Json) :=
  [("id", .int id.toInt), ("name", .string name), ("type", .str type.text), ("percent", .null),
    ("border", .str "none"), ("current_border_width", .int 0), ("layout", .str "none"),
    ("orientation", .str "none"), ("rect", describeGeometry rect), ("window_rect", createEmptyRect),
    ("deco_rect", createEmptyRect), ("geometry", createEmptyRect), ("urgent", .bool false),
    ("sticky", .bool false), ("marks", .arr []), ("windows", .null), ("focused", .bool focused),
    ("focus", .null), ("nodes", .arr []), ("floating_nodes", .arr []), ("floating", .null),
    ("scratchpad_state", .null)]

/-- `wayfire_point_to_json`. -/
def wayfirePointToJson (p : Point) : Json := .object [("x", .int p.x), ("y", .int p.y)]

/-- `describe_output_mode`. -/
def describeOutputMode (mode : DescribedMode) : Json :=
  .object [("width", .int mode.width.toInt), ("height", .int mode.height.toInt),
    ("refresh", .int mode.refresh.toInt),
    ("picture_aspect_ratio", .str (describeOutputModeAspectRatio mode.pictureAspectRatio))]

/-- The member `current_mode`. -/
def describeCurrentMode (handle : OutputHandle) : Json :=
  match handle.currentMode with
  | some mode => describeOutputMode mode
  | none => .object [("width", .int handle.width.toInt), ("height", .int handle.height.toInt),
      ("refresh", .int handle.refresh.toInt)]

section Members

variable (c : Compositor) (D : Details)

/-- The number of a workspace, from 1 on. -/
def workspaceNumber (o : OutputRef) (p : Point) : ℤ := p.x + p.y * (c.output o).gridWidth + 1

/-- What `describe_view` assigns for an Xwayland surface. -/
def xwaylandMembers (attr : Attr) (surface : XwaylandSurface) (parent : Option UInt32) :
    List (String × Json) :=
  [("is_xwayland", .bool true), ("shell", .str "xwayland"),
    ("window", .int surface.windowId.toNat), ("urgent", attr.urgent.json)]
  ++ assignSome "class" (surface.clazz.map .str)
  ++ [("window_properties", .object (
      assignSome "instance" (surface.instance.map .str) ++ assignSome "title" (surface.title.map .str)
        ++ assignSome "window_role" (surface.role.map .str)
        ++ assignSome "transient_for" (parent.map fun id => .int id.toNat)
        ++ [("type", .str "unknown")]))]

/-- What `describe_view` assigns after `create_node`. -/
def viewMembers (attr : Attr) (v : ViewRef) : List (String × Json) :=
  let view := c.view v
  let details := D.view v
  let xwayland := c.xwayland && view.xwaylandHints.isSome
  [("layout", .str "stacked"), ("orientation", .str (orientationOf D view.output)),
    ("sticky", .bool view.sticky),
    ("floating", .str (if c.isFloating v then "user_on" else "auto_off")),
    ("focus", focusJson attr.focus), ("focused", .bool attr.focused)]
  ++ assignSome "percent" (details.percent.map .real)
  ++ assignSome "pid" (view.pid.map fun pid => .int pid.toInt)
  ++ assignSome "rect" (details.surface.map describeGeometry)
  ++ [("app_id", .string view.appId), ("visible", .bool view.enabled),
    ("window_rect", describeGeometry details.boundingBox)]
  ++ assignSome "geometry" (details.toplevel.map fun top => describeGeometry top.1)
  ++ assignSome "fullscreen_mode" (details.toplevel.map fun top => .int (if top.2 then 1 else 0))
  ++ [("scratchpad_state", .str (if view.minimized then "fresh" else "none")),
    ("shell", .str "xdg_shell"), ("inhibit_idle", .bool false),
    ("idle_inhibitors", .object [("user", .str "none"), ("application", .str "none")])]
  ++ (if xwayland then xwaylandMembers attr details.xsurface details.parent else [])

/-- What `describe_workspace` assigns after `create_node`. -/
def workspaceMembers (attr : Attr) (o : OutputRef) (p : Point) : List (String × Json) :=
  [("layout", .str "stacked"), ("orientation", .str (orientationOf D (some o))),
    ("representation", .str ""), ("focus", focusJson attr.focus),
    ("num", .int (workspaceNumber c o p)), ("fullscreen_mode", .int 1),
    ("visible", .bool ((c.output o).currentWorkspace = p)), ("output", .str (D.handle o).name),
    ("grid_position", wayfirePointToJson p)]

/-- What `describe_output` assigns after `create_node`. -/
def outputMembers (attr : Attr) (o : OutputRef) : List (String × Json) :=
  let handle := D.handle o
  [("orientation", .str (orientationDescription handle.transform)), ("focus", focusJson attr.focus),
    ("non_desktop", .bool false), ("active", .bool true), ("dpms", .bool handle.enabled),
    ("power", .bool handle.enabled), ("primary", .bool false), ("layout", .str "output"),
    ("make", .str (handle.make.getD "")), ("model", .str (handle.model.getD "")),
    ("serial", .str (handle.serial.getD "")), ("scale", .real handle.scale),
    ("scale_filter", .str "unknown"), ("transform", .str (outputTransformDescription handle.transform)),
    ("adaptive_sync_status", .str (outputAdaptiveSyncStatusDescription handle.adaptiveSync)),
    ("current_workspace", .str (toString (workspaceNumber c o (c.output o).currentWorkspace))),
    ("modes", .arr (handle.modes.map describeOutputMode)),
    ("subpixel_hinting", .str (outputSubpixelDescription handle.subpixel)),
    ("current_mode", describeCurrentMode handle), ("max_render_time", .int D.maxRenderTime.toInt),
    ("dynamic_repaint_delay", .bool D.dynamicDelay)]

/-- What is assigned after `create_node`, without the children. -/
def entityMembers (attr : Attr) : List (String × Json) :=
  match attr.entity with
  | .root => [("layout", .str "stacked"), ("orientation", .str "horizontal"),
      ("rect", describeGeometry D.rootRect), ("focus", focusJson attr.focus)]
  | .output o => outputMembers c D attr o
  | .workspace o p => workspaceMembers c D attr o p
  | .view v => viewMembers c D attr v
  | .i3Output => [("orientation", .str "horizontal"), ("rect", describeGeometry D.rootRect),
      ("focus", focusJson attr.focus), ("layout", .str "output")]
  | .i3Scratch => [("layout", .str "stacked"), ("orientation", .str "horizontal"),
      ("focus", focusJson attr.focus), ("fullscreen_mode", .int 1),
      ("rect", describeGeometry D.rootRect)]

/-- The rectangle that `create_node` is called with. -/
def entityRect : Entity → Geometry
  | .output o => D.layoutGeometry o
  | .workspace o p => D.workspaceRectangle o p
  | _ => ⟨0, 0, 0, 0⟩

/-- All assignments to the members of a node but those of its children. -/
def nodeMembers (attr : Attr) : List (String × Json) :=
  createNodeMembers attr.id attr.type attr.name attr.focused (entityRect D attr.entity)
    ++ entityMembers c D attr

mutual

/-- The document of a node. -/
def Node.document : Node → Json
  | .mk attr nodes floatingNodes => .object (nodeMembers c D attr
      ++ [("nodes", .arr (documents nodes)), ("floating_nodes", .arr (documents floatingNodes))])

def documents : List Node → List Json
  | [] => []
  | node :: nodes => node.document :: documents nodes

end

end Members

/-! ## Outputs -/

/-- `describe_disabled_output`. -/
def describeDisabledOutput (handle : OutputHandle) : Json :=
  .object [("non_desktop", .bool false), ("type", .str "output"), ("name", .str handle.name),
    ("active", .bool false), ("dpms", .bool false), ("power", .bool false), ("primary", .bool false),
    ("layout", .str "output"), ("orientation", .str "none"), ("make", .str (handle.make.getD "")),
    ("model", .str (handle.model.getD "")), ("serial", .str (handle.serial.getD "")),
    ("nodes", .arr []), ("modes", .arr []), ("rect", createEmptyRect),
    ("window_rect", createEmptyRect), ("geometry", createEmptyRect)]

/-! ## Devices -/

/-- `enum wlr_input_device_type`. -/
inductive InputType
  | keyboard | pointer | touch | tablet | tabletPad | switch
deriving DecidableEq, Repr

/-- Of a `wlr_keyboard` what is described. -/
structure Keyboard where
  /-- The names of the layouts, if there is a keymap. -/
  keymap : Option (List (Option String))
  /-- Whether a layout is active, if there is a state. -/
  state : Option (ℕ → Bool)

/-- Of a `wlr_input_device` what is described. -/
structure DescribedInput where
  name : Option String
  type : InputType
  keyboard : Option Keyboard

/-- The options that `describe_input` reads. -/
structure InputOptions where
  repeatDelay : Int32
  repeatRate : Int32
  scrollFactor : String

/-- `input_device_get_type_description`; no device is taken for a touchpad. -/
def inputDeviceGetTypeDescription : InputType → String
  | .pointer => "pointer"
  | .keyboard => "keyboard"
  | .touch => "touch"
  | .tablet => "tablet_tool"
  | .tabletPad => "tablet_pad"
  | .switch => "switch"

/-- The loop over the layouts, from the layout `i` on. -/
def activeLayoutMembers (state : ℕ → Bool) : ℕ → List (Option String) → List (String × Json)
  | _, [] => []
  | i, layout :: layouts =>
    (if state i then [("xkb_active_layout_index", .int i),
        ("xkb_active_layout_name", .str (layout.getD ""))] else [])
      ++ activeLayoutMembers state (i + 1) layouts

/-- The members of a keyboard.  The names of the layouts are appended to a copy of
`xkb_layout_names`. -/
def keyboardMembers (options : InputOptions) (keyboard : Option Keyboard) : List (String × Json) :=
  [("repeat_delay", .int options.repeatDelay.toInt), ("repeat_rate", .int options.repeatRate.toInt),
    ("xkb_layout_names", .arr [])]
  ++ match keyboard with
    | some ⟨some layouts, some state⟩ => activeLayoutMembers state 0 layouts
    | _ => []

/-- `describe_input`; a device without a handle has a null.  A name that is missing makes a value of
a null pointer. -/
def describeInput (options : InputOptions) (device : Option DescribedInput) : Except Failure Json :=
  match device with
  | none => .ok .null
  | some device =>
    match device.name with
    | none => .error .nullPointer
    | some name => .ok (.object (
        [("identifier", .str ("0:0:" ++ name.map fun ch => if ch = ' ' then '_' else ch)),
          ("name", .str name), ("vendor", .int 0), ("product", .int 0),
          ("type", .str (inputDeviceGetTypeDescription device.type))]
        ++ (if device.type = .keyboard then keyboardMembers options device.keyboard else [])
        ++ (if device.type = .pointer then [("scroll_factor", .real options.scrollFactor)] else [])))

/-- `describe_seat`. -/
def describeSeat (options : InputOptions) (name : String) (capabilities : UInt32)
    (devices : List (Option DescribedInput)) : Except Failure Json := do
  let devices ← devices.mapM (describeInput options)
  return .object [("name", .str name), ("capabilities", .int capabilities.toNat), ("focus", .int 1),
    ("devices", .arr devices)]

/-! ## The version -/

/-- `WAYFIRE_VERSION` with the numbers that `sscanf` reads of it, and `WAYFIRE_API_ABI_VERSION`
with the date that `strptime` reads of it. -/
structure VersionInfo where
  version : String
  major : Int32
  minor : Int32
  patch : Int32
  abi : Int32
  abiDate : Option (Int32 × Int32 × Int32)

/-- `get_abi_version`. -/
def getAbiVersion (info : VersionInfo) : Json :=
  .object ([("human_readable", .str (toString info.abi.toInt)), ("version", .int info.abi.toInt)]
    ++ match info.abiDate with
      | none => []
      | some (year, month, day) => [("year", .int year.toInt), ("month", .int month.toInt),
          ("day", .int day.toInt)])

/-- `get_version`. -/
def getVersion (info : VersionInfo) : Json :=
  .object [("human_readable", .str info.version), ("variant", .str "wayfire"),
    ("major", .int info.major.toInt), ("minor", .int info.minor.toInt),
    ("patch", .int info.patch.toInt), ("abi", getAbiVersion info),
    ("loaded_config_file_name", .str "")]

/-! ## Replies -/

/-- `v[key] = x`. -/
def Json.assign (v : Json) (key : String) (x : Json) : Json :=
  match v with
  | .obj members => .obj (Members.set key x members)
  | _ => .obj [(key, x)]

/-- A section of the configuration, with the names and values of its options. -/
structure ConfigSection where
  name : String
  options : List (String × String)

/-- What the replies describe. -/
structure Desktop where
  compositor : Compositor
  details : Details
  inputOptions : InputOptions
  /-- `get_input_devices`; a device without a handle is `none`. -/
  inputDevices : List (Option DescribedInput)
  seatName : String
  seatCapabilities : UInt32
  version : VersionInfo
  sections : List ConfigSection
  /-- `Json::Value::toStyledString`. -/
  toStyledString : Json → String

namespace Desktop

variable (d : Desktop)

/-- An output that is enabled, as `IPC_GET_OUTPUTS` describes it. -/
def enabledOutput (o : OutputRef) : Except Failure Json := do
  let node ← d.compositor.describeOutput o
  let outputJson := (node.document d.compositor d.details).assign "focused"
    (.bool (d.compositor.activeOutput = some o))
  return outputJson.assign "subpixel_hinting"
    (.str (outputSubpixelDescription (d.details.handle o).subpixel))

/-- The reply to `IPC_GET_OUTPUTS`: the outputs that are enabled, and then the others. -/
def getOutputs : Except Failure Json := do
  let outputs := d.compositor.outputs
  let enabled ← (outputs.filter fun o => (d.details.handle o).enabled).mapM d.enabledOutput
  let disabled := (outputs.filter fun o => ¬ (d.details.handle o).enabled).map fun o =>
    describeDisabledOutput (d.details.handle o)
  return .arr (enabled ++ disabled)

/-- The reply to `IPC_GET_WORKSPACES`. -/
def getWorkspaces : Except Failure Json := do
  let nodes ← d.compositor.outputs.mapM fun o => d.compositor.getWorkspacesNodes o false
  return .arr (documents d.compositor d.details nodes.flatten)

/-- The reply to `IPC_GET_INPUTS`; without a device it is a null. -/
def getInputs : Except Failure Json := do
  let devices ← d.inputDevices.mapM (describeInput d.inputOptions)
  return if devices = [] then .null else .arr devices

/-- The reply to `IPC_GET_SEATS`. -/
def getSeats : Except Failure Json := do
  let seat ← describeSeat d.inputOptions d.seatName d.seatCapabilities d.inputDevices
  return .arr [seat]

/-- The reply to `IPC_GET_CONFIG`. -/
def getConfig : Json :=
  let sections : Json := .arr (d.sections.map fun s => .object
    [("name", .str s.name), ("type", .str "section"),
      ("options", .arr (s.options.map fun option => .object
        [("name", .str option.1), ("type", .str "option"), ("value", .str option.2)]))])
  .object [("config", .str (d.toStyledString sections))]

/-- The reply to `IPC_GET_TREE`. -/
def getTree : Except Failure Json := do
  let tree ← d.compositor.getTree
  return tree.elim .null fun root => root.document d.compositor d.details

/-- The description that is sent for a query; the other requests have no description. -/
def describe : IpcPayloadType → Except Failure Json
  | .getOutputs => d.getOutputs
  | .getWorkspaces => d.getWorkspaces
  | .getInputs => d.getInputs
  | .getVersion => .ok (WayfireIpc.getVersion d.version)
  | .getSeats => d.getSeats
  | .getConfig => .ok d.getConfig
  | .getTree => d.getTree
  | _ => .ok .null

end Desktop

end WayfireIpc
