/-
# The write buffer of a client

`send_reply` puts a message at the end of the client's write buffer, doubling the buffer
until it fits, and disconnects the client when the buffer would pass 4 MB or cannot be
reallocated; `client_handle_writable` hands the front of the buffer to the socket and
moves the rest to the start.
-/
import WayfireIpc.Server.State

namespace WayfireIpc

/-- The bound `(size_t)4e6` on the size of a write buffer. -/
def maxWriteBuffer : ℕ := 4000000

/-- `while (need >= size) size *= 2` in 64-bit arithmetic.  A size that has been doubled 64
times is 0 and stays 0, so a loop that has not ended by then never ends. -/
def growTo (need : ℕ) : ℕ → ℕ → Option ℕ
  | 0, _ => none
  | fuel + 1, size => if size ≤ need then growTo need fuel (size * 2 % 2 ^ 64) else some size

namespace I3IpcClient

variable (k : I3IpcClient)

/-- The size of the write buffer after the loop of `send_reply`, for a payload of `n`
bytes. -/
def grown (n : ℕ) : Option ℕ :=
  growTo ((k.writeBufferLen + ipcHeaderSize + n) % 2 ^ 64) 65 k.writeBufferSize

/-- Reallocate the buffer and copy a header and a payload behind the bytes that wait. -/
def append (header payload : Buf) : Except Fault I3IpcClient := do
  let block := Server.realloc k.writeBuffer k.writeBufferSize
  let block ← Server.memcpy block k.writeBufferLen header
  let len := k.writeBufferLen + header.length
  let block ← Server.memcpy block len payload
  return { k with
    writeBuffer := block
    writeBufferLen := len + payload.length
    reallocs := k.reallocs + 1 }

/-- The front of the buffer, `n` bytes, has been written: `memmove` the rest down. -/
def consume (n : ℕ) : I3IpcClient :=
  { k with
    writeBuffer :=
      Bytes.splice k.writeBuffer 0 (Bytes.slice k.writeBuffer n (k.writeBufferLen - n))
    writeBufferLen := k.writeBufferLen - n }

end I3IpcClient

namespace Server

/-- Register the writable event source of a client, unless it is there. -/
def arm (s : Server) (c : ℕ) (k : I3IpcClient) : Server :=
  if k.writableEventSource then s
  else
    { s.put c { k with writableEventSource := true } with
      writeSources := Function.update s.writeSources c true }

/-- `i3_ipc_server::send_reply`.  The length field of the header is a `uint32_t`. -/
def sendReply (W : World) (s : Server) (c : ℕ) (payloadType : UInt32) (payload : Buf) :
    Except Fault (Bool × Server) := do
  let k ← s.deref c
  let payloadLength := payload.length % 2 ^ 32
  match k.grown payloadLength with
  | none => .error .diverges
  | some size =>
    let k := { k with writeBufferSize := size }
    let s := s.put c k
    if maxWriteBuffer < size then
      let s ← (s.note (.tooBig c)).clientDisconnect c
      return (false, s)
    else if W.reallocOk c k.reallocs = false then
      let s ← (s.note (.reallocFailed c)).clientDisconnect c
      return (false, s)
    else
      let sent := payload.take payloadLength
      let k ← k.append (encodeHeader payloadLength payloadType) sent
      let s := (s.put c k).arm c k
      return (true, s.note (.queued c ⟨payloadType, sent⟩))

/-- The texts of `send_status`. -/
def statusMessage : ReturnStatus → Buf
  | .success => ascii "\x7b\"success\": true\x7d"
  | _ => ascii "\x7b\"success\": false\x7d"

/-- `i3_ipc_server::send_status`. -/
def sendStatus (W : World) (s : Server) (c : ℕ) (payloadType : UInt32) (status : ReturnStatus) :
    Except Fault Server := do
  let (_, s) ← sendReply W s c payloadType (statusMessage status)
  return s

/-- The `mask` an event source is called with. -/
structure EventMask where
  error : Bool
  hangup : Bool
deriving DecidableEq, Repr

/-- The outcome of `write`. -/
inductive WriteResult
  /-- The socket takes up to `n` bytes of what it is given. -/
  | wrote (n : ℕ)
  | again
  | failed
deriving DecidableEq, Repr

/-- `i3_ipc_server::client_handle_writable`. -/
def clientHandleWritable (s : Server) (c : ℕ) (mask : EventMask) (res : WriteResult) :
    Except Fault Server := do
  if mask.error then
    s.clientDisconnect c
  else if mask.hangup then
    let _ ← s.deref c
    s.clientDisconnect c
  else
    let k ← s.deref c
    -- `(int)write_buffer_len <= 0`
    if (k.writeBufferLen : ℤ).bmod (2 ^ 32) ≤ 0 then
      return s
    else
      match res with
      | .again => return s
      | .failed => s.clientDisconnect c
      | .wrote n =>
        let written := min n k.writeBufferLen
        let s := s.note (.written c (k.writeBuffer.take written))
        let k := k.consume written
        if k.writeBufferLen = 0 && k.writableEventSource then
          return { s.put c { k with writableEventSource := false } with
            writeSources := Function.update s.writeSources c false }
        else
          return s.put c k

end Server

end WayfireIpc
