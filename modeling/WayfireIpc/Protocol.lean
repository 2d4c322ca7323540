/-
# The wire protocol

The constants of `ipc.h`: the magic and the header of a message, the request types, the
event types with the bit that stands for each of them in a client's subscription mask,
and the status codes.  Then the JSON values that requests and replies carry.
-/
import WayfireIpc.Lib.Bytes

namespace WayfireIpc

/-- The bytes of a message, a buffer or a `std::string`. -/
abbrev Buf := List UInt8

/-- The bytes of an ASCII text. -/
def ascii (s : String) : Buf := s.toList.map Char.toUInt8

/-- The bytes of a `std::string` as a text, one character for each byte. -/
def Buf.text (b : Buf) : String := String.ofList (b.map fun x => Char.ofNat x.toNat)

/-- What a reader of a `const char*` sees of a buffer: the bytes before the first NUL. -/
def Buf.cStr (b : Buf) : Buf := b.takeWhile (· ≠ 0)

/-! ## Messages -/

/-- `ipc_magic`. -/
def ipcMagic : Buf := ascii "i3-ipc"

/-- `IPC_HEADER_SIZE`: the magic and two `uint32_t`. -/
def ipcHeaderSize : ℕ := 14

/-- The header of a message: magic, payload length and payload type, the two numbers in
native (little-endian) byte order. -/
def encodeHeader (payloadLength : ℕ) (payloadType : UInt32) : Buf :=
  ipcMagic ++ Bytes.le 4 payloadLength ++ Bytes.le 4 payloadType.toNat

/-- A message as it travels: its type and its payload. -/
structure Frame where
  /-- The request type, or the event type with the event bit set. -/
  type : UInt32
  /-- The bytes after the header. -/
  payload : Buf
deriving DecidableEq, Repr

/-- The bytes of a message. -/
def Frame.encode (f : Frame) : Buf := encodeHeader f.payload.length f.type ++ f.payload

/-- The header can hold the length of the message. -/
def Frame.Fits (f : Frame) : Prop := f.payload.length < 2 ^ 32

instance (f : Frame) : Decidable f.Fits := inferInstanceAs (Decidable (_ < _))

@[simp] lemma length_ipcMagic : ipcMagic.length = 6 := rfl

@[simp] lemma length_encodeHeader (n : ℕ) (t : UInt32) : (encodeHeader n t).length = ipcHeaderSize := by
  simp [encodeHeader, ipcHeaderSize]

lemma Frame.length_encode (f : Frame) : f.encode.length = ipcHeaderSize + f.payload.length := by
  simp [Frame.encode]

/-- The length field of a header. -/
def headerLength (header : Buf) : ℕ := Bytes.readLe (Bytes.slice header 6 4)

/-- The type field of a header. -/
def headerType (header : Buf) : UInt32 := UInt32.ofNat (Bytes.readLe (Bytes.slice header 10 4))

lemma take_magic_encodeHeader (n : ℕ) (t : UInt32) : (encodeHeader n t).take 6 = ipcMagic := by
  simp [encodeHeader, List.take_append]

lemma headerLength_encodeHeader {n : ℕ} (h : n < 2 ^ 32) (t : UInt32) :
    headerLength (encodeHeader n t) = n := by
  have hs : Bytes.slice (encodeHeader n t) 6 4 = Bytes.le 4 n := by
    simp [encodeHeader, Bytes.slice, List.drop_append, List.take_append]
  rw [headerLength, hs, Bytes.readLe_le_of_lt (by omega)]

lemma headerType_encodeHeader (n : ℕ) (t : UInt32) : headerType (encodeHeader n t) = t := by
  have hmagic : ipcMagic.drop 10 = [] := rfl
  have hs : Bytes.slice (encodeHeader n t) 10 4 = Bytes.le 4 t.toNat := by
    simp [encodeHeader, Bytes.slice, List.drop_append, hmagic, List.take_of_length_le]
  have hlt : t.toNat < 256 ^ 4 := t.toNat_lt
  rw [headerType, hs, Bytes.readLe_le_of_lt hlt, UInt32.ofNat_toNat]

lemma headerLength_lt (header : Buf) : headerLength header < 2 ^ 32 := by
  have h := Bytes.readLe_lt (Bytes.slice header 6 4)
  have hlen : (Bytes.slice header 6 4).length ≤ 4 := List.length_take_le _ _
  have hpow : 256 ^ (Bytes.slice header 6 4).length ≤ 256 ^ 4 :=
    Nat.pow_le_pow_right (by norm_num) hlen
  rw [headerLength]
  omega

/-- A header is the encoding of its fields. -/
lemma encodeHeader_of_magic {header : Buf} (hlen : header.length = ipcHeaderSize)
    (hmagic : header.take 6 = ipcMagic) :
    encodeHeader (headerLength header) (headerType header) = header := by
  have hsize : ipcHeaderSize = 14 := rfl
  have hslice : ∀ off, off + 4 ≤ 14 → Bytes.le 4 (Bytes.readLe (Bytes.slice header off 4))
      = Bytes.slice header off 4 := by
    intro off hoff
    have h4 : (Bytes.slice header off 4).length = 4 := Bytes.length_slice (by omega)
    have := Bytes.le_readLe (Bytes.slice header off 4)
    rwa [h4] at this
  have htype : (headerType header).toNat = Bytes.readLe (Bytes.slice header 10 4) := by
    have h4 : (Bytes.slice header 10 4).length = 4 := Bytes.length_slice (by omega)
    have hlt := Bytes.readLe_lt (Bytes.slice header 10 4)
    rw [h4] at hlt
    rw [headerType, UInt32.toNat_ofNat']
    exact Nat.mod_eq_of_lt hlt
  have hlast : (header.drop 10).take 4 = header.drop 10 :=
    List.take_of_length_le (by rw [List.length_drop]; omega)
  have hdrop : header.drop 10 = (header.drop 6).drop 4 := by rw [List.drop_drop]
  rw [encodeHeader, htype, headerLength, hslice 6 (by omega), hslice 10 (by omega), ← hmagic,
    Bytes.slice, Bytes.slice, hlast, hdrop, List.append_assoc, List.take_append_drop,
    List.take_append_drop]

/-- A stream that begins with a message begins with no other. -/
lemma Frame.encode_append_inj {f g : Frame} (hf : f.Fits) (hg : g.Fits) {x y : Buf}
    (h : f.encode ++ x = g.encode ++ y) : f = g ∧ x = y := by
  rw [Frame.encode, Frame.encode, List.append_assoc, List.append_assoc] at h
  obtain ⟨hheader, hrest⟩ := List.append_inj h (by simp)
  have hlen : f.payload.length = g.payload.length := by
    rw [← headerLength_encodeHeader hf f.type, hheader, headerLength_encodeHeader hg]
  have htype : f.type = g.type := by
    rw [← headerType_encodeHeader f.payload.length f.type, hheader, headerType_encodeHeader]
  obtain ⟨hpayload, hxy⟩ := List.append_inj hrest hlen
  refine ⟨?_, hxy⟩
  cases f
  cases g
  simp_all

/-- A list of messages, one after the other. -/
def encodeAll (fs : List Frame) : Buf := fs.flatMap Frame.encode

@[simp] lemma encodeAll_nil : encodeAll [] = [] := rfl

@[simp] lemma encodeAll_cons (f : Frame) (fs : List Frame) :
    encodeAll (f :: fs) = f.encode ++ encodeAll fs := rfl

@[simp] lemma encodeAll_append (fs gs : List Frame) :
    encodeAll (fs ++ gs) = encodeAll fs ++ encodeAll gs := by
  simp [encodeAll]

/-- If a stream consists of the messages `fs` and something that is no message, the messages at
its front are messages of `fs`. -/
lemma messages_of_encodeAll {ds fs : List Frame} {tail : Buf} (hds : ∀ f ∈ ds, f.Fits)
    (hfs : ∀ f ∈ fs, f.Fits) (htail : tail.take 6 ≠ ipcMagic)
    (h : encodeAll ds <+: encodeAll fs ++ tail) : ds <+: fs := by
  induction ds generalizing fs with
  | nil => exact List.nil_prefix
  | cons d ds ih =>
    obtain ⟨rest, hrest⟩ := h
    rw [encodeAll_cons, List.append_assoc] at hrest
    cases fs with
    | nil =>
      refine absurd ?_ htail
      rw [encodeAll_nil, List.nil_append] at hrest
      rw [← hrest, Frame.encode, encodeHeader]
      simp [List.take_append]
    | cons f fs =>
      rw [encodeAll_cons, List.append_assoc] at hrest
      obtain ⟨rfl, hrest'⟩ := Frame.encode_append_inj (hds d List.mem_cons_self)
        (hfs f List.mem_cons_self) hrest
      exact List.prefix_cons_inj d |>.mpr (ih (fun g hg => hds g (List.mem_cons_of_mem d hg))
        (fun g hg => hfs g (List.mem_cons_of_mem d hg)) ⟨rest, hrest'⟩)

/-! ## Request types -/

/-- `ipc_payload_type`. -/
inductive IpcPayloadType
  | command | getWorkspaces | subscribe | getOutputs | getTree | getMarks | getBarConfig
  | getVersion | getBindingModes | getConfig | sendTick | sync | getBindingState
  | getInputs | getSeats | unsubscribe
deriving DecidableEq, Repr

namespace IpcPayloadType

/-- The number of a request type on the wire. -/
def code : IpcPayloadType → UInt32
  | command => 0
  | getWorkspaces => 1
  | subscribe => 2
  | getOutputs => 3
  | getTree => 4
  | getMarks => 5
  | getBarConfig => 6
  | getVersion => 7
  | getBindingModes => 8
  | getConfig => 9
  | sendTick => 10
  | sync => 11
  | getBindingState => 12
  | getInputs => 100
  | getSeats => 101
  | unsubscribe => 200

/-- The request type of a number, if it has one. -/
def ofCode (n : UInt32) : Option IpcPayloadType :=
  [command, getWorkspaces, subscribe, getOutputs, getTree, getMarks, getBarConfig, getVersion,
    getBindingModes, getConfig, sendTick, sync, getBindingState, getInputs, getSeats,
    unsubscribe].find? fun t => t.code == n

end IpcPayloadType

/-! ## Event types -/

/-- The event types of `ipc_event_type`. -/
inductive IpcEventType
  | workspace | output | mode | window | binding | shutdown | tick | input
deriving DecidableEq, Repr

namespace IpcEventType

/-- The number of an event type on the wire; events have the highest bit set. -/
def code : IpcEventType → UInt32
  | workspace => 0x80000000
  | output => 0x80000001
  | mode => 0x80000002
  | window => 0x80000003
  | binding => 0x80000005
  | shutdown => 0x80000006
  | tick => 0x80000007
  | input => 0x80000015

/-- The bit of an event type in a subscription mask, `ev & 0x8F`. -/
def bit (ev : IpcEventType) : ℕ := (ev.code &&& 0x8F).toNat

end IpcEventType

/-- `event_mask`: `1 << (ev & 0x8F)`, widened to the `long` of a client's mask. -/
def eventMask (ev : IpcEventType) : BitVec 64 := 1#64 <<< ev.bit

/-- The names of the events, `IPC_I3_EVENT_WORKSPACE` and so on. -/
def ipcI3EventWorkspace : String := "workspace"
def ipcI3EventShutdown : String := "shutdown"
def ipcI3EventWindow : String := "window"
def ipcI3EventBinding : String := "binding"
def ipcI3EventTick : String := "tick"
def ipcSwayEventInput : String := "input"
def ipcI3EventOutput : String := "output"

/-- `ipc_tools::event_to_type`; `none` stands for `IPC_WF_EVENT_TYPE_UNSUPPORTED`. -/
def eventToType (s : String) : Option IpcEventType :=
  if s = ipcI3EventWorkspace then some .workspace
  else if s = ipcI3EventOutput then some .output
  else if s = ipcI3EventWindow then some .window
  else if s = ipcI3EventBinding then some .binding
  else if s = ipcI3EventShutdown then some .shutdown
  else if s = ipcI3EventTick then some .tick
  else if s = ipcSwayEventInput then some .input
  else none

/-! ## Status codes -/

/-- `RETURN_STATUS`. -/
inductive ReturnStatus
  | success | loadError | invalidParameter | unsupported | badBufferSize | bufferTooSmall
  | notReady | deviceError | writeProtected | outOfResources | noMedia | mediaChanged | notFound
  | accessDenied | noResponse | noMapping | timeout | notStarted | alreadyStarted | aborted
  | protocolError | incompatibleVersion | bufferDefer | bufferBlock | bufferBlockCommands
  | bufferBlockEnd
deriving DecidableEq, Repr

/-! ## JSON values -/

/-- A JSON value, as `Json::Value` holds it. -/
inductive Json
  | null
  | bool (b : Bool)
  | int (i : ℤ)
  /-- A number that is no integer, by its numeral. -/
  | real (numeral : String)
  | str (s : String)
  | arr (xs : List Json)
  | obj (members : List (String × Json))
deriving Repr

namespace Json

/-- `Json::Value::isNull`. -/
def isNull : Json → Bool
  | null => true
  | _ => false

/-- `Json::Value::size`. -/
def size : Json → ℕ
  | arr xs => xs.length
  | obj members => members.length
  | _ => 0

/-- `Json::Value::empty`: a null, an empty array or an empty object. -/
def empty : Json → Bool
  | null => true
  | arr xs => xs.isEmpty
  | obj members => members.isEmpty
  | _ => false

/-- `Json::Value::isArray`, which is false on a null. -/
def isArray : Json → Bool
  | arr _ => true
  | _ => false

/-- `Json::Value::isString`. -/
def isString : Json → Bool
  | str _ => true
  | _ => false

/-- The elements of an array, in order. -/
def elements : Json → List Json
  | arr xs => xs
  | _ => []

end Json

end WayfireIpc
