/-
# The signals that the plugin listens to

Each connection of an `ipc_t` has a handler, which attaches or takes away connections where
an output or a view comes or goes, and signals an event to the clients.  The texts of the
events are made from what the compositor answers to the queries of the handler.
-/
import WayfireIpc.Plugin.State

namespace WayfireIpc

namespace Json

/-- `object[key] = v`; the members of an object are kept in the order of their keys. -/
def set (key : String) (v : Json) : Json → Json
  | obj members =>
    obj (members.takeWhile (·.1 < key) ++
      (key, v) :: (members.dropWhile (·.1 < key)).dropWhile (·.1 = key))
  | j => j

end Json

/-- The pointer of an input device. -/
abbrev InputDevice := ℕ

/-- The pointer of a `wlr_input_device`. -/
abbrev WlrInputDevice := ℕ

/-- `wf::workspace_changed_signal`. -/
structure WorkspaceChanged where
  output : OutputRef
  oldViewport : Point
  newViewport : Point
deriving DecidableEq, Repr

/-- The signals, with the fields that the handlers read. -/
inductive PluginSignal
  | viewMapped (view : Option ViewRef)
  | viewUnmapped (view : Option ViewRef)
  | viewMinimized (view : Option ViewRef)
  | viewFullscreen (view : Option ViewRef) (state : Bool)
  | viewActivatedState (view : Option ViewRef)
  | viewChangeWorkspace (view : Option ViewRef)
  | wmActionsAboveChanged (view : Option ViewRef)
  | viewTitleChanged (view : Option ViewRef)
  | viewGeometryChanged (view : Option ViewRef)
  | viewHintsChanged (view : Option ViewRef) (demandsAttention : Bool)
  | outputAdded (output : Option OutputRef)
  | outputRemoved (output : Option OutputRef)
  | outputLayoutConfigurationChanged
  | inputDeviceAdded (device : Option InputDevice)
  | inputDeviceRemoved (device : Option InputDevice)
  | keyboardModifiers (device : WlrInputDevice)
  | workspaceChanged (data : WorkspaceChanged)
  | workspaceGridChanged
deriving DecidableEq, Repr

/-- The answers of the compositor to the queries of the handlers. -/
structure PluginQueries where
  /-- `ipc_json::describe_view`. -/
  describeView : ViewRef → Json
  /-- `ipc_json::describe_input`. -/
  describeInput : InputDevice → Json
  /-- `ipc_json::describe_workspace`. -/
  describeWorkspace : Point → OutputRef → Json
  /-- The state `fullscreen` of a view, if it is a toplevel view. -/
  fullscreen : ViewRef → Option Bool
  /-- The keyboard of the current seat. -/
  keyboard : WlrInputDevice
  /-- `get_input_devices()`, with the `get_wlr_handle()` of each device. -/
  inputDevices : List (InputDevice × WlrInputDevice)
  /-- `get_workspace_grid_size()` of an output. -/
  gridSize : OutputRef → ℕ × ℕ
  /-- `seat->get_active_output()`, while the grid of an output changes; that it is null is left out. -/
  activeOutput : OutputRef
  currentWorkspace : OutputRef → Point
  /-- What is in a `wf::point_t` that has not been written. -/
  indeterminate : Point

namespace PluginSignal

/-- The connection that listens to the signal. -/
def connection : PluginSignal → Connection
  | viewMapped _ => .onViewMapped
  | viewUnmapped _ => .onViewUnmapped
  | viewMinimized _ => .onViewMinimized
  | viewFullscreen _ _ => .onViewFullscreened
  | viewActivatedState _ => .viewActivated
  | viewChangeWorkspace _ => .onViewChangeWorkspace
  | wmActionsAboveChanged _ => .onWmActionsAboveChanged
  | viewTitleChanged _ => .onViewTitleChanged
  | viewGeometryChanged _ => .onViewGeometryChanged
  | viewHintsChanged _ _ => .onViewHintsChanged
  | outputAdded _ => .onOutputAdded
  | outputRemoved _ => .onOutputRemoved
  | outputLayoutConfigurationChanged => .onOutputLayoutConfigurationChanged
  | inputDeviceAdded _ => .onInputDeviceAdded
  | inputDeviceRemoved _ => .onInputDeviceRemoved
  | keyboardModifiers _ => .onKeyboardModifiers
  | workspaceChanged _ => .onWorkspaceChanged
  | workspaceGridChanged => .onWorkspaceGridChanged

end PluginSignal

namespace IpcPlugin

variable (W : World) (q : PluginQueries)

/-! ## The texts of the events -/

/-- `window_json_data`. -/
def windowJsonData (s : Server) (view : Option ViewRef) (change : String)
    (demandsAttention : Bool) : Json :=
  match view with
  | none => .null
  | some v =>
    if s.ipcClientList.length = 0 then .null
    else
      let container := q.describeView v
      if container.isNull then .null
      else
        let container :=
          if change = "urgent" then container.set "urgent" (.bool demandsAttention) else container
        .obj [("change", .str change), ("container", container)]

/-- `shutdown_json_data`. -/
def shutdownJsonData : Json := .obj [("change", .str "exit")]

/-- `output_json_data`. -/
def outputJsonData (s : Server) (change : String) : Json :=
  if s.ipcClientList.length = 0 then .null else .obj [("change", .str change)]

/-- `input_json_data`. -/
def inputJsonData (s : Server) (device : Option InputDevice) (change : String) : Json :=
  match device with
  | none => .null
  | some d =>
    if s.ipcClientList.length = 0 then .null
    else .obj [("change", .str change), ("input", q.describeInput d)]

/-- The members that `workspace_json_data` sets while it visits the workspace `point` of the output
of the signal. -/
def visitWorkspace (data : WorkspaceChanged) (object : Json) (point : Point) : Json :=
  let object :=
    if point = data.newViewport then object.set "current" (q.describeWorkspace point data.output)
    else object
  if point = data.oldViewport then object.set "old" (q.describeWorkspace point data.output)
  else object

/-- `workspace_json_data`, where `outputs` are the outputs of the layout. -/
def workspaceJsonData (s : Server) (outputs : List OutputRef) (data : WorkspaceChanged)
    (change : String) : Json :=
  if s.ipcClientList.length = 0 then .null
  else
    (outputs.filter (data.output = ·)).foldl (fun object output =>
      (List.range (q.gridSize output).1).foldl (fun object (x : ℕ) =>
        (List.range (q.gridSize output).2).foldl (fun object (y : ℕ) =>
          visitWorkspace q data object ⟨x, y⟩) object) object)
      (.obj [("change", .str change)])

/-! ## Signalling an event -/

/-- What all functions `signal_*_event` do: the text is made only if a client listens, and it is
signalled unless it is null. -/
def signalJson (s : Server) (ev : IpcEventType) (json : Server → Json) : Except Fault Server := do
  let listening ← s.hasEventListeners ev
  if !listening then return s
  else if (json s).isNull then return s
  else s.signalEvent W ev (W.jsonToString (json s))

/-- `signal_shutdown_event`. -/
def signalShutdownEvent (s : Server) : Except Fault Server :=
  signalJson W s .shutdown fun _ => shutdownJsonData

/-- `signal_window_event`. -/
def signalWindowEvent (s : Server) (view : Option ViewRef) (change : String)
    (demandsAttention : Bool) : Except Fault Server :=
  signalJson W s .window fun s => windowJsonData q s view change demandsAttention

/-- `signal_output_event`. -/
def signalOutputEvent (s : Server) (change : String) : Except Fault Server :=
  signalJson W s .output fun s => outputJsonData s change

/-- `signal_input_event`. -/
def signalInputEvent (s : Server) (device : Option InputDevice) (change : String) :
    Except Fault Server :=
  match device with
  | none => .ok s
  | some d => signalJson W s .input fun s => inputJsonData q s (some d) change

/-- `signal_workspace_event`. -/
def signalWorkspaceEvent (s : Server) (outputs : List OutputRef) (data : WorkspaceChanged)
    (change : String) : Except Fault Server :=
  signalJson W s .workspace fun s => workspaceJsonData q s outputs data change

/-! ## The handlers -/

/-- The body of `on_view_fullscreened`. -/
def signalFullscreen (s : Server) (view : Option ViewRef) (state : Bool) : Except Fault Server :=
  match view with
  | none => .ok s
  | some v =>
    match q.fullscreen v with
    | none => .ok s
    | some current =>
      if current ≠ state then signalWindowEvent W q s (some v) "fullscreen_mode" false else .ok s

/-- The body of `on_keyboard_modifiers`. -/
def signalModifiers (s : Server) (device : WlrInputDevice) : Except Fault Server :=
  if device ≠ q.keyboard then .ok s
  else
    q.inputDevices.foldlM (fun s dev =>
      if dev.2 = device then do
        let s ← signalInputEvent W q s (some dev.1) "xkb_layout"
        signalInputEvent W q s (some dev.1) "xkb_keymap"
      else return s) s

/-- The event that the handler of the signal sends. -/
def signalHandler (outputs : List OutputRef) (s : Server) : PluginSignal → Except Fault Server
  | .viewMapped view => signalWindowEvent W q s view "new" false
  | .viewUnmapped view => signalWindowEvent W q s view "close" false
  | .viewMinimized view => signalWindowEvent W q s view "move" false
  | .viewFullscreen view state => signalFullscreen W q s view state
  | .viewActivatedState view => signalWindowEvent W q s view "focus" false
  | .viewChangeWorkspace view => signalWindowEvent W q s view "move" false
  | .wmActionsAboveChanged view => signalWindowEvent W q s view "floating" false
  | .viewTitleChanged view => signalWindowEvent W q s view "title" false
  | .viewGeometryChanged view => signalWindowEvent W q s view "move" false
  | .viewHintsChanged view demandsAttention =>
    signalWindowEvent W q s view "urgent" demandsAttention
  | .outputAdded _ | .outputRemoved _ | .outputLayoutConfigurationChanged =>
    signalOutputEvent W s "unspecified"
  | .inputDeviceAdded device => signalInputEvent W q s device "added"
  | .inputDeviceRemoved device => signalInputEvent W q s device "removed"
  | .keyboardModifiers device => signalModifiers W q s device
  | .workspaceChanged data => signalWorkspaceEvent W q s outputs data "focus"
  | .workspaceGridChanged =>
    signalWorkspaceEvent W q s outputs
      ⟨q.activeOutput, q.indeterminate, q.currentWorkspace q.activeOutput⟩ "reload"

/-- The connections that the handler of the signal attaches or takes away. -/
def rebind (p : IpcPlugin) (i : ℕ) : PluginSignal → IpcPlugin
  | .viewMapped view => p.bindViewEvents i view
  | .viewUnmapped view => p.unbindViewEvents i view
  | .outputAdded output => p.bindOutputEvents i output
  | .outputRemoved output => p.unbindOutputEvents i output
  | _ => p

/-- The handler that the instance `i` has for the signal. -/
def handle (sig : PluginSignal) (p : IpcPlugin) (i : ℕ) : Except Fault IpcPlugin := do
  let p := p.rebind i sig
  let server ← signalHandler W q p.outputs p.server sig
  return { p with server := server }

/-- The output layout knows of an output that is added or removed before it emits the signal. -/
def announce (p : IpcPlugin) (e : Emitter) (sig : PluginSignal) : IpcPlugin :=
  match e, sig with
  | .outputLayout, .outputAdded (some o) => { p with outputs := p.outputs ++ [o] }
  | .outputLayout, .outputRemoved (some o) => { p with outputs := p.outputs.filter (· ≠ o) }
  | _, _ => p

/-- An object emits a signal: each connection that is attached to it is called once. -/
def emit (p : IpcPlugin) (e : Emitter) (sig : PluginSignal) : Except Fault IpcPlugin :=
  let p := p.announce e sig
  (p.listeners e sig.connection).foldlM (handle W q sig) p

end IpcPlugin

end WayfireIpc
