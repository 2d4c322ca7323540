/-
# Events

`send_event` goes over the list of clients and sends a message to every client whose mask
has the bit of the event.  A client whose buffer is too full is disconnected by
`send_reply`, which takes it out of the list the loop is running over.
-/
import WayfireIpc.Server.Queue
import WayfireIpc.Lib.EraseLoop

namespace WayfireIpc

namespace I3IpcClient

/-- The mask of the client has the bit of the event. -/
def Subscribed (k : I3IpcClient) (ev : IpcEventType) : Prop :=
  k.subscribedEvents &&& eventMask ev ≠ 0

instance (k : I3IpcClient) (ev : IpcEventType) : Decidable (k.Subscribed ev) :=
  inferInstanceAs (Decidable (_ ≠ _))

end I3IpcClient

namespace Server

/-- The loop of `has_event_listeners`. -/
def anyListener (s : Server) (ev : IpcEventType) : List ℕ → Except Fault Bool
  | [] => .ok false
  | c :: cs => do
    let k ← s.deref c
    if k.Subscribed ev then return true else anyListener s ev cs

/-- `i3_ipc_server::has_event_listeners`. -/
def hasEventListeners (s : Server) (ev : IpcEventType) : Except Fault Bool :=
  s.anyListener ev s.ipcClientList

/-- The body of the loop of `send_event`; the answer is whether the client is still
there. -/
def visitClient (W : World) (ev : IpcEventType) (json : Buf) (s : Server) (c : ℕ) :
    Except Fault (Bool × Server) := do
  let k ← s.deref c
  if k.subscribedEvents = 0 ∨ ¬ k.Subscribed ev then
    return (true, s)
  else
    sendReply W s c ev.code json.cStr

/-- `i3_ipc_server::send_event`. -/
def sendEvent (W : World) (s : Server) (json : Buf) (ev : IpcEventType) : Except Fault Server :=
  EraseLoop.loop ipcClientList (visitClient W ev json) .diverges
    (s.ipcClientList.length + 1) 0 s

/-- The message of a tick event. -/
def tickMessage (first : Bool) (payload : Buf) : Json :=
  .obj [("first", .bool first), ("payload", .str payload.text)]

/-- `i3_ipc_server::send_tick`. -/
def sendTick (W : World) (s : Server) (payload : Buf) : Except Fault Server := do
  let listening ← s.hasEventListeners .tick
  if !listening then return s
  else s.sendEvent W (W.jsonToString (tickMessage false payload)) .tick

/-- `ipc_t::signal_event`. -/
def signalEvent (W : World) (s : Server) (ev : IpcEventType) (json : Buf) :
    Except Fault Server := do
  let listening ← s.hasEventListeners ev
  if !listening then return s else s.sendEvent W json ev

end Server

end WayfireIpc
