/-
# Receiving a response

`ipc_recv_response` of the client: a header is read into an array of its size, a block is
allocated for the payload and a final NUL, and the payload is read into the block.  A
`recv` may return any positive number of the bytes that it is asked for.
-/
import WayfireIpc.Protocol
import WayfireIpc.Lib.Machine

namespace WayfireIpc
namespace Client

/-- The ways in which `ipc_recv_response` can fail to return a response. -/
inductive Halt
  /-- `client_abort`. -/
  | aborted
  /-- The null pointer is returned. -/
  | null
  /-- A write behind the end of a block. -/
  | outOfBounds
  /-- A loop that does not end. -/
  | diverges
deriving DecidableEq, Repr

/-- The kernel and the allocator. -/
structure Env where
  /-- The most that the `n`-th `recv` returns, or `none` if it fails. -/
  chunk : ℕ → Option ℕ
  /-- Whether the `n`-th `malloc` succeeds. -/
  mallocOk : ℕ → Bool

/-- The socket: the bytes that the peer sends before it closes the connection.  The numbers of
calls made so far identify the next answer of the environment. -/
structure Socket where
  data : Buf
  recvs : ℕ
  mallocs : ℕ
deriving DecidableEq, Repr

/-- `ipc_response`; the payload is the block that `payload` points to. -/
structure IpcResponse where
  size : ℕ
  type : UInt32
  payload : Buf
deriving DecidableEq, Repr

/-- `recv` with room for `n` bytes: `none` stands for the result -1, and no bytes for the end of
the stream. -/
def recv (E : Env) (n : ℕ) (s : Socket) : Option Buf × Socket :=
  if s.data = [] then (some [], { s with recvs := s.recvs + 1 })
  else
    match E.chunk s.recvs with
    | none => (none, { s with recvs := s.recvs + 1 })
    | some k =>
      let m := min (max 1 k) n
      (some (s.data.take m), { s with data := s.data.drop m, recvs := s.recvs + 1 })

/-- The value that `recv` returns. -/
def received : Option Buf → ℤ
  | none => -1
  | some bs => bs.length

/-- Write bytes into a block. -/
def write (block : Buf) (off : ℕ) (bs : Buf) : Except Halt Buf :=
  if off + bs.length ≤ block.length then .ok (Bytes.splice block off bs) else .error .outOfBounds

/-- `while (total < size)`: receive into the block behind `total`.  `fails` is the test that
the result of `recv` is put to. -/
def recvLoop (E : Env) (fails : ℤ → Bool) (size : ℕ) :
    ℕ → ℕ → Buf → Socket → Except Halt (Buf × Socket)
  | 0, total, block, s => if total < size then .error .diverges else .ok (block, s)
  | fuel + 1, total, block, s =>
    if total < size then
      let (bs, s) := recv E (size - total) s
      if fails (received bs) then .error .aborted
      else do
        let block ← write block total (bs.getD [])
        recvLoop E fails size fuel (total + (bs.getD []).length) block s
    else .ok (block, s)

/-- `malloc` of a block. -/
def malloc (E : Env) (n : ℕ) (s : Socket) : Option Buf × Socket :=
  (if E.mallocOk s.mallocs then some (List.replicate n 0) else none,
    { s with mallocs := s.mallocs + 1 })

/-- `ipc_recv_response`.  The size of the payload block is computed as a `uint32_t`. -/
def ipcRecvResponse (E : Env) (s : Socket) : Except Halt (IpcResponse × Socket) := do
  let (data, s) ← recvLoop E (· ≤ 0) ipcHeaderSize ipcHeaderSize 0
    (List.replicate ipcHeaderSize 0) s
  let (response, s) := malloc E 1 s
  if response.isNone then .error .null
  else
    let size := headerLength data
    let type := headerType data
    let (payload, s) := malloc E ((size + 1) % 2 ^ 32) s
    match payload with
    | none => .error .null
    | some payload => do
      let (payload, s) ← recvLoop E (· < 0) size size 0 payload s
      let payload ← write payload size [0]
      return (⟨size, type, payload⟩, s)

/-- The response for a message. -/
def response (f : Frame) : IpcResponse where
  size := f.payload.length
  type := f.type
  payload := f.payload ++ [0]

/-- `n` calls of `ipc_recv_response`. -/
def ipcRecvResponses (E : Env) : ℕ → Socket → Except Halt (List IpcResponse × Socket)
  | 0, s => .ok ([], s)
  | n + 1, s => do
    let (r, s) ← ipcRecvResponse E s
    let (rs, s) ← ipcRecvResponses E n s
    return (r :: rs, s)

variable {E : Env} {s : Socket}

/-- A `recv` on a stream that has not ended takes at least one byte. -/
lemma recv_spec (hchunk : ∀ n, E.chunk n ≠ none) {n : ℕ} (hn : 0 < n) (hdata : s.data ≠ []) :
    ∃ m, 0 < m ∧ m ≤ n ∧ m ≤ s.data.length ∧
      recv E n s = (some (s.data.take m),
        { s with data := s.data.drop m, recvs := s.recvs + 1 }) := by
  have hlen : 0 < s.data.length := List.length_pos_iff.mpr hdata
  cases hk : E.chunk s.recvs with
  | none => exact absurd hk (hchunk _)
  | some k =>
    refine ⟨min (min (max 1 k) n) s.data.length, by omega, by omega, by omega, ?_⟩
    rw [recv, if_neg hdata, hk]
    simp only [Prod.mk.injEq, Option.some.injEq]
    rcases Nat.le_total (min (max 1 k) n) s.data.length with hle | hle
    · rw [min_eq_left hle]
      exact ⟨rfl, rfl⟩
    · rw [min_eq_right hle, List.take_of_length_le hle, List.take_length,
        List.drop_eq_nil_of_le hle, List.drop_length]
      exact ⟨rfl, rfl⟩

/-- One round of a loop on a stream that has not ended: at least one byte moves from the stream
into the block. -/
lemma recvLoop_round {fails : ℤ → Bool} (size : ℕ) (hchunk : ∀ n, E.chunk n ≠ none)
    (hfails : ∀ n : ℕ, 0 < n → fails n = false) (fuel : ℕ) (done room : Buf)
    (hlt : done.length < size) (hdata : s.data ≠ [])
    (hroom : min (size - done.length) s.data.length ≤ room.length) :
    ∃ m, 0 < m ∧ m ≤ size - done.length ∧ m ≤ s.data.length ∧
      recvLoop E fails size (fuel + 1) done.length (done ++ room) s
        = recvLoop E fails size fuel (done ++ s.data.take m).length
            (done ++ s.data.take m ++ room.drop m)
            { s with data := s.data.drop m, recvs := s.recvs + 1 } := by
  obtain ⟨m, hm, hmn, hmlen, hrecv⟩ := recv_spec hchunk (n := size - done.length) (by omega) hdata
  have hlen : (s.data.take m).length = m := List.length_take_of_le hmlen
  have hok : fails (received (some (s.data.take m))) = false := by
    rw [received, hlen]
    exact hfails m hm
  have hwrite : write (done ++ room) done.length (s.data.take m)
      = .ok (done ++ s.data.take m ++ room.drop m) := by
    rw [write, if_pos (by rw [List.length_append, hlen]; omega), Bytes.splice, hlen,
      List.take_left, List.drop_append, List.drop_eq_nil_of_le (by omega)]
    simp
  refine ⟨m, hm, hmn, hmlen, ?_⟩
  rw [recvLoop, if_pos hlt, hrecv, List.length_append]
  simp only [hok, Bool.false_eq_true, if_false, Option.getD_some, hwrite, Machine.ok_bind]

/-- If the stream goes on with all the bytes that the loop waits for, the loop puts exactly
these into the block, whatever the pieces in which they are received. -/
lemma recvLoop_ok (fails : ℤ → Bool) (size : ℕ) (hchunk : ∀ n, E.chunk n ≠ none)
    (hfails : ∀ n : ℕ, 0 < n → fails n = false) {rest : Buf} :
    ∀ (fuel : ℕ) (done bs room : Buf) (s : Socket), s.data = bs ++ rest →
      done.length + bs.length = size → bs.length ≤ fuel → bs.length ≤ room.length →
      ∃ s', recvLoop E fails size fuel done.length (done ++ room) s
          = .ok (done ++ bs ++ room.drop bs.length, s') ∧
        s'.data = rest ∧ s'.mallocs = s.mallocs := by
  intro fuel
  induction fuel with
  | zero =>
    intro done bs room s hdata hsize hfuel _
    obtain rfl : bs = [] := List.length_eq_zero_iff.mp (Nat.le_zero.mp hfuel)
    refine ⟨s, ?_, by simpa using hdata, rfl⟩
    rw [recvLoop, if_neg (by simp at hsize; omega)]
    simp
  | succ fuel ih =>
    intro done bs room s hdata hsize hfuel hroom
    by_cases hbs : bs = []
    · subst hbs
      refine ⟨s, ?_, by simpa using hdata, rfl⟩
      rw [recvLoop, if_neg (by simp at hsize; omega)]
      simp
    · have hpos : 0 < bs.length := List.length_pos_iff.mpr hbs
      have hne : s.data ≠ [] := by
        rw [hdata]
        simp [hbs]
      -- a round receives some of the bytes
      obtain ⟨m, hm, hmn, -, hround⟩ :=
        recvLoop_round size hchunk hfails fuel done room (by omega) hne (by omega)
      have hmbs : m ≤ bs.length := by omega
      have htake : s.data.take m = bs.take m := by
        rw [hdata, List.take_append_of_le_length hmbs]
      have hdrop : s.data.drop m = bs.drop m ++ rest := by
        rw [hdata, List.drop_append_of_le_length hmbs]
      have hlen : (bs.take m).length = m := List.length_take_of_le hmbs
      obtain ⟨s', heq, hdata', hmallocs⟩ := ih (done ++ bs.take m) (bs.drop m) (room.drop m)
        { s with data := s.data.drop m, recvs := s.recvs + 1 } hdrop
        (by rw [List.length_append, hlen, List.length_drop]; omega)
        (by rw [List.length_drop]; omega) (by rw [List.length_drop, List.length_drop]; omega)
      refine ⟨s', ?_, hdata', hmallocs⟩
      rw [hround, htake, heq, List.append_assoc done, List.take_append_drop, List.drop_drop,
        List.length_drop]
      congr 5
      omega

/-- On a stream that begins with a message, `ipc_recv_response` returns the message and leaves
the rest of the stream, for every way in which the stream is received. -/
theorem ipcRecvResponse_encode (hchunk : ∀ n, E.chunk n ≠ none)
    (hmalloc : ∀ n, E.mallocOk n = true) {f : Frame} (hf : f.payload.length + 1 < 2 ^ 32)
    {rest : Buf} (hdata : s.data = f.encode ++ rest) :
    ∃ s', ipcRecvResponse E s = .ok (response f, s') ∧ s'.data = rest := by
  have hheader : s.data = encodeHeader f.payload.length f.type ++ (f.payload ++ rest) := by
    rw [hdata, Frame.encode, List.append_assoc]
  obtain ⟨s₁, heq₁, hdata₁, -⟩ :=
    recvLoop_ok (E := E) (· ≤ 0) ipcHeaderSize hchunk (by simp; omega) ipcHeaderSize []
    (encodeHeader f.payload.length f.type) (List.replicate ipcHeaderSize 0) s hheader
    (by simp) (by simp) (by simp)
  rw [List.drop_eq_nil_of_le (by simp)] at heq₁
  simp only [List.nil_append, List.append_nil, List.length_nil] at heq₁
  obtain ⟨s₂, heq₂, hdata₂, -⟩ :=
    recvLoop_ok (E := E) (· < 0) f.payload.length hchunk (by simp) f.payload.length [] f.payload
    (List.replicate (f.payload.length + 1) 0) { s₁ with mallocs := s₁.mallocs + 1 + 1 } hdata₁
    (by simp) le_rfl (by simp)
  simp only [List.nil_append, List.length_nil] at heq₂
  have hwrite : write (f.payload ++ (List.replicate (f.payload.length + 1) 0).drop f.payload.length)
      f.payload.length [0] = .ok (f.payload ++ [0]) := by
    rw [List.drop_replicate, Nat.add_sub_cancel_left, write, if_pos (by simp), Bytes.splice]
    simp
  refine ⟨s₂, ?_, hdata₂⟩
  rw [ipcRecvResponse, heq₁]
  simp only [Machine.ok_bind, malloc, hmalloc, if_true, Option.isNone_some, Bool.false_eq_true,
    if_false, headerLength_encodeHeader (Nat.lt_of_succ_lt hf), headerType_encodeHeader,
    Nat.mod_eq_of_lt hf, heq₂, hwrite]
  rfl

/-- Successive calls return the messages of the stream in their order. -/
theorem ipcRecvResponses_encodeAll (hchunk : ∀ n, E.chunk n ≠ none)
    (hmalloc : ∀ n, E.mallocOk n = true) :
    ∀ (fs : List Frame) (s : Socket), (∀ f ∈ fs, f.payload.length + 1 < 2 ^ 32) →
      s.data = encodeAll fs →
      ∃ s', ipcRecvResponses E fs.length s = .ok (fs.map response, s') ∧ s'.data = [] := by
  intro fs
  induction fs with
  | nil => exact fun s _ hdata => ⟨s, rfl, hdata⟩
  | cons f fs ih =>
    intro s hfs hdata
    obtain ⟨s₁, heq₁, hdata₁⟩ :=
      ipcRecvResponse_encode hchunk hmalloc (hfs f List.mem_cons_self) hdata
    obtain ⟨s₂, heq₂, hdata₂⟩ := ih s₁ (fun g hg => hfs g (List.mem_cons_of_mem f hg)) hdata₁
    refine ⟨s₂, ?_, hdata₂⟩
    rw [List.length_cons, ipcRecvResponses, heq₁, Machine.ok_bind]
    simp only [heq₂, Machine.ok_bind]
    rfl

end Client
end WayfireIpc
