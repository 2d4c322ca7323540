/-
# The instances of the plugin

The plugin has one `ipc_t` for every output.  All of them share the server, the listener
`display_destroy` and the pointer `fini_event_source`, which are static.  An instance has
its own connections, one for each kind of signal, and attaches them to all outputs, all
views and the core.
-/
import WayfireIpc.Server.Callbacks
import WayfireIpc.Compositor.State
import WayfireIpc.Lib.Ledger

namespace WayfireIpc

/-- The connections of an `ipc_t`. -/
inductive Connection
  | onViewMapped | onViewUnmapped | onViewMinimized | onViewFullscreened | viewActivated
  | onViewChangeWorkspace | onWmActionsAboveChanged | onViewTitleChanged | onViewGeometryChanged
  | onViewHintsChanged | onOutputAdded | onOutputRemoved | onOutputLayoutConfigurationChanged
  | onInputDeviceAdded | onInputDeviceRemoved | onKeyboardModifiers | onWorkspaceChanged
  | onWorkspaceGridChanged
deriving DecidableEq, Repr

/-- The objects that emit signals. -/
inductive Emitter
  | output (o : OutputRef)
  | view (v : ViewRef)
  | outputLayout
  | core
deriving DecidableEq, Repr

/-- The listeners that the plugin registers for the destruction of the display: the one of
`i3-ipc-server.cpp` and the one of `ipc.cpp`. -/
inductive DestroyListener
  | ipcDisplayDestroy
  | displayDestroy
deriving DecidableEq, Repr

/-- What `fini` acquires. -/
inductive FiniResource
  | displayDestroyListener
  | timer (id : ℕ)
deriving DecidableEq, Repr

/-- The list of the listeners for the destruction of the display.  It is intrusive: each listener
holds its own links. -/
structure DestroySignal where
  /-- The listeners whose links are set, in the order they are notified in. -/
  linked : List DestroyListener
  /-- A listener has been added while it was linked.  That overwrites its links, so that the links are
  no list any more. -/
  tangled : Bool
deriving DecidableEq, Repr

namespace DestroySignal

variable (s : DestroySignal) (l : DestroyListener)

/-- `wl_display_add_destroy_listener`. -/
def add : DestroySignal :=
  if l ∈ s.linked then { s with tangled := true } else { s with linked := s.linked ++ [l] }

/-- `wl_list_remove(&l.link)`. -/
def remove : DestroySignal := { s with linked := s.linked.erase l }

variable {s l}

lemma add_of_notMem (h : l ∉ s.linked) : s.add l = { s with linked := s.linked ++ [l] } := if_neg h

end DestroySignal

/-- The instances of the plugin with all that they share, and the part of the compositor that
they attach their connections to. -/
structure IpcPlugin where
  server : Server
  /-- The instances that have been initialised and not finalised. -/
  instances : List ℕ
  nextInstance : ℕ
  /-- `output_layout->get_outputs()`. -/
  outputs : List OutputRef
  /-- `get_all_views()`. -/
  views : List ViewRef
  /-- The connections that are attached, by emitter and instance. -/
  attached : List (Emitter × ℕ × Connection)
  destroySignal : DestroySignal
  finiEventSource : Option ℕ
  /-- The timers of `fini` that have not expired. -/
  finiTimers : List ℕ
  nextTimer : ℕ
  /-- What the calls of `fini` have acquired and released. -/
  ledger : Ledger FiniResource
  /-- The display has been destroyed, and the event loop with it. -/
  destroyed : Bool

namespace IpcPlugin

/-- The state before the plugin is loaded. -/
def initial : IpcPlugin where
  server := .init
  instances := []
  nextInstance := 0
  outputs := []
  views := []
  attached := []
  destroySignal := ⟨[], false⟩
  finiEventSource := none
  finiTimers := []
  nextTimer := 0
  ledger := []
  destroyed := false

variable (p : IpcPlugin) (i : ℕ)

/-- The instances whose connection `m` is attached to the emitter. -/
def listeners (e : Emitter) (m : Connection) : List ℕ :=
  (p.attached.filter fun a => a.1 = e ∧ a.2.2 = m).map fun a => a.2.1

/-! ## Connections -/

/-- `emitter->connect(&m)`. -/
def connect (e : Emitter) (m : Connection) : IpcPlugin :=
  if (e, i, m) ∈ p.attached then p else { p with attached := p.attached ++ [(e, i, m)] }

/-- `emitter->disconnect(&m)`. -/
def disconnect (e : Emitter) (m : Connection) : IpcPlugin :=
  { p with attached := p.attached.filter (· ≠ (e, i, m)) }

/-- The connections that are attached to an output. -/
def outputConnections : List Connection :=
  [.onViewMapped, .onViewUnmapped, .onViewGeometryChanged, .onViewMinimized, .onViewFullscreened,
    .onWmActionsAboveChanged, .onViewChangeWorkspace, .onWorkspaceGridChanged, .onWorkspaceChanged]

/-- The connections that are attached to a view. -/
def viewConnections : List Connection := [.onViewTitleChanged, .onViewGeometryChanged, .viewActivated]

/-- The connections that are attached to the output layout and to the core. -/
def coreConnections : List (Emitter × Connection) :=
  [(.outputLayout, .onOutputAdded), (.outputLayout, .onOutputRemoved),
    (.outputLayout, .onOutputLayoutConfigurationChanged), (.core, .onViewHintsChanged),
    (.core, .onInputDeviceAdded), (.core, .onInputDeviceRemoved), (.core, .onKeyboardModifiers)]

/-- Attach connections of an instance, one after the other. -/
def connectAll (cs : List (Emitter × Connection)) : IpcPlugin :=
  cs.foldl (fun p c => p.connect i c.1 c.2) p

/-- Take connections of an instance away, one after the other. -/
def disconnectAll (cs : List (Emitter × Connection)) : IpcPlugin :=
  cs.foldl (fun p c => p.disconnect i c.1 c.2) p

/-- The connections of an output, with the output. -/
def outputBindings (o : OutputRef) : List (Emitter × Connection) :=
  outputConnections.map fun m => (.output o, m)

/-- The connections of a view, with the view. -/
def viewBindings (v : ViewRef) : List (Emitter × Connection) :=
  viewConnections.map fun m => (.view v, m)

/-- `bind_output_events`. -/
def bindOutputEvents (output : Option OutputRef) : IpcPlugin :=
  match output with
  | none => p
  | some o => p.connectAll i (outputBindings o)

/-- `unbind_output_events`. -/
def unbindOutputEvents (output : Option OutputRef) : IpcPlugin :=
  match output with
  | none => p
  | some o => p.disconnectAll i (outputBindings o)

/-- `bind_view_events`. -/
def bindViewEvents (view : Option ViewRef) : IpcPlugin :=
  match view with
  | none => p
  | some v => p.connectAll i (viewBindings v)

/-- `unbind_view_events`. -/
def unbindViewEvents (view : Option ViewRef) : IpcPlugin :=
  match view with
  | none => p
  | some v => p.disconnectAll i (viewBindings v)

/-- `bind_core_events`. -/
def bindCoreEvents : IpcPlugin := p.connectAll i coreConnections

/-- `unbind_core_events`. -/
def unbindCoreEvents : IpcPlugin := p.disconnectAll i coreConnections

/-- `bind_events`. -/
def bindEvents : IpcPlugin :=
  let p := p.outputs.foldl (fun p o => p.bindOutputEvents i (some o)) p
  let p := p.views.foldl (fun p v => p.bindViewEvents i (some v)) p
  p.bindCoreEvents i

/-- `unbind_events`. -/
def unbindEvents : IpcPlugin :=
  let p := p.views.foldl (fun p v => p.unbindViewEvents i (some v)) p
  let p := p.outputs.foldl (fun p o => p.unbindOutputEvents i (some o)) p
  p.unbindCoreEvents i

end IpcPlugin

end WayfireIpc
