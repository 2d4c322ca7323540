/-
# The callbacks of the event loop

`client_handle_readable`, `handle_connection` and `handle_display_destroy`, and the step
function that says which callback each input of the server runs.  The event loop calls
the handler of a client only while the client's event source is registered.
-/
import WayfireIpc.Server.Requests

namespace WayfireIpc

namespace Server

/-- The outcomes of the system calls of `client_handle_readable`: whether `ioctl`, the `recv`
of the header and the `recv` of the payload succeed. -/
structure ReadCalls where
  ioctlOk : Bool
  headerOk : Bool
  payloadOk : Bool
deriving DecidableEq, Repr

/-- The number of unread bytes as `FIONREAD` reports it, in an `int`. -/
def available (unread : Buf) : ℤ := (unread.length : ℤ).bmod (2 ^ 32)

/-- Hand the pending request to `ipc_client_handle_command`. -/
def dispatchPending (W : World) (A : Answers) (calls : ReadCalls) (s : Server) (c : ℕ)
    (k : I3IpcClient) : Except Fault Server :=
  ipcClientHandleCommand W A calls.payloadOk (s.put c { k with pendingLength := 0 }) c
    k.pendingLength k.pendingType

/-- `i3_ipc_server::client_handle_readable`. -/
def clientHandleReadable (W : World) (A : Answers) (s : Server) (c : ℕ) (mask : EventMask)
    (calls : ReadCalls) : Except Fault Server := do
  if mask.error then
    s.clientDisconnect c
  else if mask.hangup then
    let _ ← s.deref c
    s.clientDisconnect c
  else
    let k ← s.deref c
    if !calls.ioctlOk then
      s.clientDisconnect c
    else
      let readAvailable := available (s.unread c)
      if 0 < k.pendingLength then
        if (k.pendingLength : ℤ) ≤ readAvailable % 2 ^ 32 then
          dispatchPending W A calls s c k
        else return s
      else if readAvailable < ipcHeaderSize then
        return s
      else if !calls.headerOk then
        s.clientDisconnect c
      else
        let (buf, s) := s.recv c ipcHeaderSize
        if buf.take 6 ≠ ipcMagic then
          s.clientDisconnect c
        else
          let k := { k with pendingLength := headerLength buf, pendingType := headerType buf }
          let s := s.put c k
          if (k.pendingLength : ℤ) ≤ readAvailable - buf.length then
            dispatchPending W A calls s c k
          else return s

/-- `i3_ipc_server::handle_connection`, when `accept` and `fcntl` succeed. -/
def handleConnection (s : Server) : Server :=
  let c := s.nextClient
  { s with
    heap := Function.update s.heap c (some I3IpcClient.fresh)
    nextClient := c + 1
    ipcClientList := s.ipcClientList ++ [c]
    readSources := Function.update s.readSources c true
    unread := Function.update s.unread c []
    log := s.log ++ [.connected c] }

/-- The loop of `handle_display_destroy`, with the last client of the list each time. -/
def disconnectAll : ℕ → Server → Except Fault Server
  | 0, s => if s.ipcClientList = [] then .ok s else .error .diverges
  | fuel + 1, s =>
    match s.ipcClientList.getLast? with
    | none => .ok s
    | some c => do
      let s ← s.clientDisconnect c
      disconnectAll fuel s

/-- `i3_ipc_server::handle_display_destroy`. -/
def handleDisplayDestroy (s : Server) : Except Fault Server := do
  let s := match s.ipcEventSource with
    | some r => s.note (.released (.listenSource r))
    | none => s
  let s := match s.ipcSocket with
    | some r => s.note (.released (.listenSocket r))
    | none => s
  let s ← disconnectAll s.ipcClientList.length s
  return { s with ipcClientList := [] }.note (.released .displayDestroyListener)

/-- The inputs of the server: what the event loop, the kernel and the compositor do. -/
inductive Input
  | serve
  | displayDestroy
  /-- A peer connects; `accepted` is whether `accept` and `fcntl` succeed. -/
  | connection (accepted : Bool)
  /-- Bytes of the peer of a client arrive. -/
  | arrive (c : ℕ) (bs : Buf)
  | readable (c : ℕ) (mask : EventMask) (calls : ReadCalls) (A : Answers)
  | writable (c : ℕ) (mask : EventMask) (res : WriteResult)
  /-- The compositor signals an event. -/
  | signal (ev : IpcEventType) (json : Buf)

/-- The step of the server on an input. -/
def step (W : World) (s : Server) : Input → Except Fault Server
  | .serve => .ok s.serve
  | .displayDestroy => s.handleDisplayDestroy
  | .connection accepted => .ok (if accepted then s.handleConnection else s)
  | .arrive c bs =>
    .ok (if s.Live c then
      { s with
        unread := Function.update s.unread c (s.unread c ++ bs)
        log := s.log ++ [.arrived c bs] }
    else s)
  | .readable c mask calls A =>
    if s.readSources c then clientHandleReadable W A s c mask calls else .ok s
  | .writable c mask res =>
    if s.writeSources c then s.clientHandleWritable c mask res else .ok s
  | .signal ev json => s.signalEvent W ev json

/-- The states of the server: what is left of a run from the start. -/
def Reachable (W : World) (s : Server) : Prop := ∃ es, Machine.run (step W) init es = .ok s

end Server

end WayfireIpc
