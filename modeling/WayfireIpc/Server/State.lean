/-
# The state of the server

The objects of `i3-ipc-server.cpp`: the clients on the heap, the list of clients that
events are sent to, and the event sources that the event loop holds for them, each with
a pointer to its client.  A pointer is the number of the allocation it came from, and no
number is used twice; following a pointer to a client that `client_disconnect` has
deleted is a fault.  `log` records what the server does to each client.
-/
import WayfireIpc.JsonText
import WayfireIpc.Lib.Machine

namespace WayfireIpc

/-- The ways in which a handler can leave the behaviour that C++ defines, or not return. -/
inductive Fault
  /-- A read or a write of a client that has been deleted. -/
  | useAfterDelete (c : ℕ)
  /-- A write behind the end of a block. -/
  | outOfBounds
  /-- A loop that does not end. -/
  | diverges
  /-- A walk over an intrusive list whose links are corrupt. -/
  | corruptList
deriving DecidableEq, Repr

/-- `i3_ipc_client`, with the number of times its buffer has been reallocated. -/
structure I3IpcClient where
  /-- Whether `writable_event_source` is set. -/
  writableEventSource : Bool
  subscribedEvents : BitVec 64
  writeBufferLen : ℕ
  writeBufferSize : ℕ
  /-- The allocated block `write_buffer` points to. -/
  writeBuffer : Buf
  /-- The payload length of a header already read; 0 when no header is pending. -/
  pendingLength : ℕ
  pendingType : UInt32
  reallocs : ℕ
deriving DecidableEq, Repr

namespace I3IpcClient

/-- The bytes that wait to be written to the socket. -/
def queue (k : I3IpcClient) : Buf := k.writeBuffer.take k.writeBufferLen

/-- A client as `handle_connection` sets it up. -/
def fresh : I3IpcClient where
  writableEventSource := false
  subscribedEvents := 0
  writeBufferLen := 0
  writeBufferSize := 128
  writeBuffer := List.replicate 128 0
  pendingLength := 0
  pendingType := 0
  reallocs := 0

end I3IpcClient

/-- What `serve` acquires. -/
inductive Resource
  | listenSocket (id : ℕ)
  | displayDestroyListener
  | listenSource (id : ℕ)
deriving DecidableEq, Repr

/-- The entries of the log. -/
inductive Obs
  | connected (c : ℕ)
  /-- Bytes from the peer arrive in the receive queue of the socket. -/
  | arrived (c : ℕ) (bs : Buf)
  /-- Bytes taken from the receive queue by `recv`. -/
  | received (c : ℕ) (bs : Buf)
  /-- A request handed to `ipc_client_handle_command`, with the payload read there. -/
  | dispatched (c : ℕ) (f : Frame)
  /-- A message put into the client's write buffer. -/
  | queued (c : ℕ) (f : Frame)
  /-- Bytes of the write buffer accepted by the socket. -/
  | written (c : ℕ) (bs : Buf)
  /-- "Client write buffer too big". -/
  | tooBig (c : ℕ)
  /-- "Unable to reallocate ipc client write buffer". -/
  | reallocFailed (c : ℕ)
  | disconnected (c : ℕ)
  | acquired (r : Resource)
  | released (r : Resource)
deriving DecidableEq, Repr

/-- The state shared by the callbacks of the server, and the part of the event loop and of
the kernel that they use. -/
structure Server where
  /-- The live clients, by pointer. -/
  heap : ℕ → Option I3IpcClient
  /-- The pointer of the next client. -/
  nextClient : ℕ
  ipcClientList : List ℕ
  /-- The readable event sources in the event loop, by the client they point to. -/
  readSources : ℕ → Bool
  /-- The writable event sources in the event loop, by the client they point to. -/
  writeSources : ℕ → Bool
  /-- The bytes in the receive queue of each client's socket. -/
  unread : ℕ → Buf
  ipcSocket : Option ℕ
  ipcEventSource : Option ℕ
  nextResource : ℕ
  log : List Obs

/-- What is outside the server: the allocator and the JSON library. -/
structure World where
  /-- Whether the `n`-th reallocation of the buffer of a client succeeds. -/
  reallocOk : ℕ → ℕ → Bool
  /-- `json::string_to_json`.  On values nested more deeply than its limit the reader throws, which
  ends the process; such payloads are left out. -/
  stringToJson : Buf → Json
  /-- `json::json_to_string`. -/
  jsonToString : Json → Buf

namespace Server

/-- The state before the plugin has started. -/
def init : Server where
  heap := fun _ => none
  nextClient := 0
  ipcClientList := []
  readSources := fun _ => false
  writeSources := fun _ => false
  unread := fun _ => []
  ipcSocket := none
  ipcEventSource := none
  nextResource := 0
  log := []

variable (s : Server) (c : ℕ)

/-- A client is live from `handle_connection` until `client_disconnect` deletes it. -/
def Live : Prop := ∃ k, s.heap c = some k

instance : Decidable (s.Live c) :=
  decidable_of_iff ((s.heap c).isSome = true) Option.isSome_iff_exists

/-- Follow the pointer to a client. -/
def deref : Except Fault I3IpcClient :=
  match s.heap c with
  | some k => .ok k
  | none => .error (.useAfterDelete c)

/-- Write the fields of a client. -/
def put (k : I3IpcClient) : Server := { s with heap := Function.update s.heap c (some k) }

/-- Add an entry to the log. -/
def note (o : Obs) : Server := { s with log := s.log ++ [o] }

/-! ## Taking a client away -/

/-- The state after `client_disconnect`: both event sources are removed from the event
loop, every occurrence of the client in `ipc_client_list` is erased and the object is
deleted. -/
def drop (k : I3IpcClient) : Server :=
  { s with
    heap := Function.update s.heap c none
    ipcClientList := s.ipcClientList.filter (· ≠ c)
    readSources := Function.update s.readSources c false
    writeSources :=
      if k.writableEventSource then Function.update s.writeSources c false else s.writeSources
    log := s.log ++ [.disconnected c] }

/-- `i3_ipc_server::client_disconnect`. -/
def clientDisconnect : Except Fault Server := do
  let k ← s.deref c
  return s.drop c k

/-! ## The memory operations of the write buffer -/

/-- `memcpy` into a block. -/
def memcpy (dst : Buf) (off : ℕ) (src : Buf) : Except Fault Buf :=
  if off + src.length ≤ dst.length then .ok (Bytes.splice dst off src) else .error .outOfBounds

/-- `realloc`, when it succeeds; the new cells are indeterminate and read as 0 here. -/
def realloc (block : Buf) (size : ℕ) : Buf :=
  block.take size ++ List.replicate (size - block.length) 0

/-- `recv` with room for `n` bytes, on a socket with unread bytes. -/
def recv (n : ℕ) : Buf × Server :=
  ((s.unread c).take n,
    { s with
      unread := Function.update s.unread c ((s.unread c).drop n)
      log := s.log ++ [.received c ((s.unread c).take n)] })

end Server

end WayfireIpc
