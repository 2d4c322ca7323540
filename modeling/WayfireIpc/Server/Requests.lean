/-
# Requests

`ipc_client_handle_command` reads the payload of a request and answers it according to
the request type.  The answers of the rest of the compositor are a parameter: the JSON
value each query returns, and, for a command string, the result list together with what
the compositor does to the server while the commands run.
-/
import WayfireIpc.Server.Events

namespace WayfireIpc

/-- What the compositor can do to the server while a command string is executed: signal an
event, or start the plugin instance of an output that appears. -/
inductive Signal
  | event (ev : IpcEventType) (json : Buf)
  | serve
deriving DecidableEq, Repr

/-- The answers of the rest of the compositor to one request. -/
structure Answers where
  /-- The JSON value that the query of a request type returns. -/
  describe : IpcPayloadType → Json
  /-- `ipc_command::execute_command`. -/
  executeCommand : Buf → List Signal × Json

namespace Server

/-- `i3_ipc_server::serve`, when its system calls succeed; it exits otherwise. -/
def serve (s : Server) : Server :=
  { s with
    ipcClientList := []
    ipcSocket := some s.nextResource
    ipcEventSource := some (s.nextResource + 1)
    nextResource := s.nextResource + 2
    log := s.log ++ [.acquired (.listenSocket s.nextResource), .acquired .displayDestroyListener,
      .acquired (.listenSource (s.nextResource + 1))] }

/-- The string handed to `execute_command`: the lines of the payload, each with a
semicolon. -/
def commandString (buf : Buf) : Buf :=
  (buf.splitOn '\n'.toUInt8).flatMap fun line => line ++ ascii ";"

/-- What happens to the server while a command string is executed. -/
def performSignals (W : World) : Server → List Signal → Except Fault Server
  | s, [] => .ok s
  | s, .event ev json :: rest => do
    let s ← s.signalEvent W ev json
    performSignals W s rest
  | s, .serve :: rest => performSignals W s.serve rest

/-- The event types `IPC_SUBSCRIBE` knows, in the order of its tests. -/
def subscribeType (event : String) : Option IpcEventType :=
  if event = ipcI3EventWorkspace then some .workspace
  else if event = ipcI3EventShutdown then some .shutdown
  else if event = ipcI3EventWindow then some .window
  else if event = ipcI3EventTick then some .tick
  else if event = ipcSwayEventInput then some .input
  else if event = ipcI3EventOutput then some .output
  else none

/-- The loop of the `IPC_SUBSCRIBE` branch.  It answers whether a tick event was named, or
`none` when it has met an unsupported name and sent the reply. -/
def subscribeLoop (W : World) (c : ℕ) (payloadType : UInt32) :
    Server → List Json → Bool → Except Fault (Option Bool × Server)
  | s, [], hasTick => .ok (some hasTick, s)
  | s, .str event :: rest, hasTick => do
    let k ← s.deref c
    match subscribeType event with
    | some ev =>
      let s := s.put c { k with subscribedEvents := k.subscribedEvents ||| eventMask ev }
      subscribeLoop W c payloadType s rest (hasTick || ev = .tick)
    | none =>
      let s := s.put c { k with subscribedEvents := 0 }
      let s ← sendStatus W s c payloadType .unsupported
      return (none, s)
  | s, _ :: rest, hasTick => subscribeLoop W c payloadType s rest hasTick

/-- The loop of the `IPC_UNSUBSCRIBE` branch; it answers `false` when it has met an
unsupported name and sent the reply. -/
def unsubscribeLoop (W : World) (c : ℕ) (payloadType : UInt32) :
    Server → List Json → Except Fault (Bool × Server)
  | s, [] => .ok (true, s)
  | s, .str event :: rest => do
    match eventToType event with
    | none =>
      let s ← sendStatus W s c payloadType .unsupported
      return (false, s)
    | some ev =>
      let k ← s.deref c
      let s :=
        if k.Subscribed ev then
          s.put c { k with subscribedEvents := k.subscribedEvents &&& ~~~eventMask ev }
        else s
      unsubscribeLoop W c payloadType s rest
  | s, _ :: rest => unsubscribeLoop W c payloadType s rest

/-- The `IPC_SUBSCRIBE` branch. -/
def handleSubscribe (W : World) (s : Server) (c : ℕ) (payloadType : UInt32) (buf : Buf) :
    Except Fault Server := do
  let request := W.stringToJson buf
  if request.size = 0 || !request.isArray then
    sendStatus W s c payloadType .invalidParameter
  else
    let (hasTick, s) ← subscribeLoop W c payloadType s request.elements false
    match hasTick with
    | none => return s
    | some hasTick =>
      let s ← sendStatus W s c payloadType .success
      if hasTick then
        let (_, s) ← sendReply W s c IpcEventType.tick.code
          (W.jsonToString (tickMessage true []))
        return s
      else return s

/-- The `IPC_UNSUBSCRIBE` branch. -/
def handleUnsubscribe (W : World) (s : Server) (c : ℕ) (payloadType : UInt32) (buf : Buf) :
    Except Fault Server := do
  let request := W.stringToJson buf
  if request.empty || !request.isArray then
    sendStatus W s c payloadType .invalidParameter
  else
    let (done, s) ← unsubscribeLoop W c payloadType s request.elements
    if done then sendStatus W s c payloadType .success else return s

/-- The `switch` of `ipc_client_handle_command`, on a payload that has been read. -/
def handlePayload (W : World) (A : Answers) (s : Server) (c : ℕ) (payloadType : UInt32) (buf : Buf) :
    Except Fault Server :=
  match IpcPayloadType.ofCode payloadType with
  | some .command => do
    let (signals, retList) := A.executeCommand (commandString buf)
    let s ← performSignals W s signals
    let (_, s) ← sendReply W s c payloadType (W.jsonToString retList)
    return s
  | some .sendTick => do
    let s ← s.sendTick W buf
    sendStatus W s c payloadType .success
  | some .subscribe => handleSubscribe W s c payloadType buf
  | some .unsubscribe => handleUnsubscribe W s c payloadType buf
  | some .getOutputs => query .getOutputs
  | some .getWorkspaces => query .getWorkspaces
  | some .getInputs => query .getInputs
  | some .getVersion => query .getVersion
  | some .getSeats => query .getSeats
  | some .getConfig => query .getConfig
  | some .getTree => query .getTree
  -- `IPC_SYNC` and the `default` branch
  | _ => sendStatus W s c payloadType .unsupported
where
  /-- The branches that describe something and send the description. -/
  query (t : IpcPayloadType) : Except Fault Server := do
    let (_, s) ← sendReply W s c payloadType (W.jsonToString (A.describe t))
    return s

/-- `i3_ipc_server::ipc_client_handle_command`; `recvOk` is whether `recv` succeeds. -/
def ipcClientHandleCommand (W : World) (A : Answers) (recvOk : Bool) (s : Server)
    (c payloadLength : ℕ) (payloadType : UInt32) : Except Fault Server := do
  if 0 < payloadLength then
    let _ ← s.deref c
    if !recvOk then
      s.clientDisconnect c
    else
      let (got, s) := s.recv c payloadLength
      let buf := got ++ List.replicate (payloadLength - got.length) 0
      handlePayload W A (s.note (.dispatched c ⟨payloadType, buf⟩)) c payloadType buf
  else
    handlePayload W A (s.note (.dispatched c ⟨payloadType, []⟩)) c payloadType []

end Server

end WayfireIpc
