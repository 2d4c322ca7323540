/-
# Starting and finishing instances

`init` and `fini` of an instance, the timer that `fini` sets, and what happens when the
display is destroyed; then the step function of the plugin.  The pointers `ipc_event_source`
and `fini_event_source` are never reset, so that a teardown releases whatever they point to.
-/
import WayfireIpc.Plugin.Signals

namespace WayfireIpc

/-- The answers of the compositor to one request, where the commands signal events.  An output that
appears or disappears while a command runs is an input of its own, behind the command. -/
structure EventAnswers where
  describe : IpcPayloadType → Json
  executeCommand : Buf → List (IpcEventType × Buf) × Json

/-- The same answers. -/
def EventAnswers.answers (A : EventAnswers) : Answers where
  describe := A.describe
  executeCommand := fun buf =>
    ((A.executeCommand buf).1.map fun e => .event e.1 e.2, (A.executeCommand buf).2)

/-- The calls of the event loop to the handlers of the server, and what the peers do. -/
inductive Callback
  | connection (accepted : Bool)
  | arrive (c : ℕ) (bs : Buf)
  | readable (c : ℕ) (mask : Server.EventMask) (calls : Server.ReadCalls) (A : EventAnswers)
  | writable (c : ℕ) (mask : Server.EventMask) (res : Server.WriteResult)

/-- The input of the server that a callback is. -/
def Callback.input : Callback → Server.Input
  | connection accepted => .connection accepted
  | arrive c bs => .arrive c bs
  | readable c mask calls A => .readable c mask calls A.answers
  | writable c mask res => .writable c mask res

namespace IpcPlugin

variable (W : World) (p : IpcPlugin)

/-- `ipc_t::init` of a new instance.  `serve` adds the listener of the server to the display. -/
def initInstance : IpcPlugin :=
  { { p with server := p.server.serve }.bindEvents p.nextInstance with
    instances := p.instances ++ [p.nextInstance]
    nextInstance := p.nextInstance + 1
    destroySignal := p.destroySignal.add .ipcDisplayDestroy }

/-- `ipc_t::fini` of the instance `i`.  The instance is deleted behind it, and with it all of its
connections. -/
def fini (i : ℕ) : Except Fault IpcPlugin := do
  let server ← signalShutdownEvent W p.server
  let p := { p with server := server }.unbindEvents i
  return { p with
    instances := p.instances.filter (· ≠ i)
    attached := p.attached.filter fun a => a.2.1 ≠ i
    destroySignal := p.destroySignal.add .displayDestroy
    finiEventSource := some p.nextTimer
    finiTimers := p.finiTimers ++ [p.nextTimer]
    nextTimer := p.nextTimer + 1
    ledger := p.ledger ++ [.acquired .displayDestroyListener, .acquired (.timer p.nextTimer)] }

/-- `i3_ipc_server::handle_display_destroy`, which takes its listener off the display.  If the listener
is not linked, `wl_list_remove` follows a null pointer, behind all that has been released by then. -/
def serverDisplayDestroy : Except Fault IpcPlugin := do
  let server ← p.server.handleDisplayDestroy
  return { p with
    server := server
    destroySignal := p.destroySignal.remove .ipcDisplayDestroy }

/-- `wl_event_source_remove(fini_event_source)`, unless it is null. -/
def removeFiniEventSource : IpcPlugin :=
  match p.finiEventSource with
  | none => p
  | some t =>
    { p with
      finiTimers := p.finiTimers.filter (· ≠ t)
      ledger := p.ledger ++ [.released (.timer t)] }

/-- `ipc_t::handle_display_destroy`. -/
def handleDisplayDestroy : Except Fault IpcPlugin :=
  let p := p.removeFiniEventSource
  serverDisplayDestroy { p with
    destroySignal := p.destroySignal.remove .displayDestroy
    ledger := p.ledger ++ [.released .displayDestroyListener] }

/-- The timer `t` expires: `handle_fini_timeout`, by way of `fini_timeout`. -/
def handleFiniTimeout (t : ℕ) : Except Fault IpcPlugin :=
  handleDisplayDestroy { p with finiTimers := p.finiTimers.filter (· ≠ t) }

/-- Call the function of a listener, if the listener is still linked. -/
def notify (l : DestroyListener) : Except Fault IpcPlugin :=
  if l ∈ p.destroySignal.linked then
    match l with
    | .ipcDisplayDestroy => p.serverDisplayDestroy
    | .displayDestroy => p.handleDisplayDestroy
  else .ok p

/-- The display is destroyed: each listener of the list is notified once. -/
def destroyDisplay : Except Fault IpcPlugin :=
  if p.destroySignal.tangled then .error .corruptList
  else do
    let p ← p.destroySignal.linked.foldlM notify p
    return { p with destroyed := true }

/-! ## Steps -/

/-- What happens to the plugin. -/
inductive Input
  /-- An output gets its instance. -/
  | init
  /-- The instance `i` is finalised: its output goes away. -/
  | fini (i : ℕ)
  | finiTimeout (t : ℕ)
  | displayDestroy
  | callback (cb : Callback)
  | emit (q : PluginQueries) (e : Emitter) (sig : PluginSignal)
  | viewCreated (v : ViewRef)
  | viewDestroyed (v : ViewRef)

/-- The step of the plugin on an input.  Nothing happens behind the destruction of the display; an
instance is finalised once, and a timer expires once, unless it is removed before. -/
def step (p : IpcPlugin) (input : Input) : Except Fault IpcPlugin :=
  if p.destroyed then .ok p
  else
    match input with
    | .init => .ok p.initInstance
    | .fini i => if i ∈ p.instances then p.fini W i else .ok p
    | .finiTimeout t => if t ∈ p.finiTimers then p.handleFiniTimeout t else .ok p
    | .displayDestroy => p.destroyDisplay
    | .callback cb => do
      let server ← Server.step W p.server cb.input
      return { p with server := server }
    | .emit q e sig => p.emit W q e sig
    | .viewCreated v => .ok { p with views := p.views ++ [v] }
    | .viewDestroyed v =>
      .ok { p with
        views := p.views.filter (· ≠ v)
        attached := p.attached.filter fun a => a.1 ≠ .view v }

end IpcPlugin

end WayfireIpc
