/-
# How the reception of a response ends

The server may close the connection at any byte, and the length in the header is its choice.
When the stream ends, `recv` returns 0 again and again: the loop over the header takes this for
a failure, the loop over the payload does not.  The block for the payload has room for the
length and a NUL as long as their number fits in 32 bits.
-/
import WayfireIpc.Client.Recv

namespace WayfireIpc
namespace Client

/-- `ipc_recv_response` with loops that may go round `extra` times more than there are bytes to
wait for. -/
def ipcRecvResponseFor (E : Env) (extra : ℕ) (s : Socket) :
    Except Halt (IpcResponse × Socket) := do
  let (data, s) ← recvLoop E (· ≤ 0) ipcHeaderSize (ipcHeaderSize + extra) 0
    (List.replicate ipcHeaderSize 0) s
  let (response, s) := malloc E 1 s
  if response.isNone then .error .null
  else
    let size := headerLength data
    let type := headerType data
    let (payload, s) := malloc E ((size + 1) % 2 ^ 32) s
    match payload with
    | none => .error .null
    | some payload => do
      let (payload, s) ← recvLoop E (· < 0) size (size + extra) 0 payload s
      let payload ← write payload size [0]
      return (⟨size, type, payload⟩, s)

/-- The length that the header at the front of a stream announces. -/
def announced (data : Buf) : ℕ := headerLength (data.take ipcHeaderSize)

/-- The stream begins with a whole header and the whole payload that it announces. -/
def Complete (data : Buf) : Prop := ipcHeaderSize + announced data ≤ data.length

instance (data : Buf) : Decidable (Complete data) := inferInstanceAs (Decidable (_ ≤ _))

/-- Both allocations of the call succeed. -/
def Allocates (E : Env) (s : Socket) : Prop :=
  E.mallocOk s.mallocs = true ∧ E.mallocOk (s.mallocs + 1) = true

instance (E : Env) (s : Socket) : Decidable (Allocates E s) := inferInstanceAs (Decidable (_ ∧ _))

/-- After finitely many rounds of its loops the call is over: it returns a response if the
message is complete, it aborts if the stream ends before that, and it returns the null pointer
if there is no memory. -/
def Ends (E : Env) (s : Socket) : Prop :=
  ∃ extra,
    (Complete s.data ∧ ∃ r s', ipcRecvResponseFor E extra s = .ok (r, s')) ∨
    (¬ Complete s.data ∧ ipcRecvResponseFor E extra s = .error .aborted) ∨
    (¬ Allocates E s ∧ ipcRecvResponseFor E extra s = .error .null)

/-- However long the loops go on, nothing is written outside of a block. -/
def InBounds (E : Env) (s : Socket) : Prop :=
  ∀ extra, ipcRecvResponseFor E extra s ≠ .error .outOfBounds

variable {E : Env} {s : Socket}

/-! ## The loops -/

/-- After the end of the stream, a round finds nothing. -/
lemma recvLoop_closed (fails : ℤ → Bool) {size fuel total : ℕ} {block : Buf}
    (hlt : total < size) (htotal : total ≤ block.length) (hdata : s.data = []) :
    recvLoop E fails size (fuel + 1) total block s
      = if fails 0 then .error .aborted
        else recvLoop E fails size fuel total block { s with recvs := s.recvs + 1 } := by
  have hwrite : write block total [] = .ok block := by
    rw [write, if_pos (by simpa using htotal), Bytes.splice]
    simp
  rw [recvLoop, if_pos hlt, recv, if_pos hdata]
  simp only [received, List.length_nil, Nat.cast_zero, Option.getD_some, hwrite, Machine.ok_bind,
    Nat.add_zero]

/-- A stream that ends too early makes a loop abort that takes 0 for a failure. -/
lemma recvLoop_aborted (hchunk : ∀ n, E.chunk n ≠ none) {fails : ℤ → Bool} (hzero : fails 0 = true)
    (hfails : ∀ n : ℕ, 0 < n → fails n = false) {size : ℕ} :
    ∀ (fuel : ℕ) (done room : Buf) (s : Socket), done.length + s.data.length < size →
      s.data.length < fuel → s.data.length ≤ room.length →
      recvLoop E fails size fuel done.length (done ++ room) s = .error .aborted := by
  intro fuel
  induction fuel with
  | zero => exact fun done room s _ hfuel _ => absurd hfuel (Nat.not_lt_zero _)
  | succ fuel ih =>
    intro done room s hsize hfuel hroom
    by_cases hdata : s.data = []
    · rw [recvLoop_closed fails (by omega) (by simp) hdata, if_pos hzero]
    · obtain ⟨m, hm, hmn, hmlen, hround⟩ :=
        recvLoop_round size hchunk hfails fuel done room (by omega) hdata (by omega)
      rw [hround]
      refine ih _ _ _ ?_ ?_ ?_ <;>
        simp only [List.length_append, List.length_take, List.length_drop] <;> omega

/-- A stream that ends too early keeps a loop going that does not. -/
lemma recvLoop_diverges (hchunk : ∀ n, E.chunk n ≠ none) {fails : ℤ → Bool}
    (hfails : ∀ n : ℕ, fails n = false) {size : ℕ} :
    ∀ (fuel : ℕ) (done room : Buf) (s : Socket), done.length + s.data.length < size →
      s.data.length ≤ room.length →
      recvLoop E fails size fuel done.length (done ++ room) s = .error .diverges := by
  intro fuel
  induction fuel with
  | zero =>
    intro done room s hsize _
    rw [recvLoop, if_pos (by omega)]
  | succ fuel ih =>
    intro done room s hsize hroom
    by_cases hdata : s.data = []
    · rw [recvLoop_closed fails (by omega) (by simp) hdata, if_neg (by simpa using hfails 0)]
      exact ih done room _ hsize hroom
    · obtain ⟨m, hm, hmn, hmlen, hround⟩ :=
        recvLoop_round size hchunk (fun n _ => hfails n) fuel done room (by omega) hdata (by omega)
      rw [hround]
      refine ih _ _ _ ?_ ?_ <;>
        simp only [List.length_append, List.length_take, List.length_drop] <;> omega

/-- In a block of no bytes there is no room for the first byte. -/
lemma recvLoop_noRoom (hchunk : ∀ n, E.chunk n ≠ none) {fails : ℤ → Bool}
    (hfails : ∀ n : ℕ, fails n = false) {size fuel : ℕ} (hsize : 0 < size) (hdata : s.data ≠ []) :
    recvLoop E fails size (fuel + 1) 0 [] s = .error .outOfBounds := by
  obtain ⟨m, hm, -, hmlen, hrecv⟩ := recv_spec hchunk hsize hdata
  have hlen : (s.data.take m).length = m := List.length_take_of_le hmlen
  rw [recvLoop, if_pos hsize, Nat.sub_zero, hrecv]
  simp only [received, hfails, Bool.false_eq_true, if_false, Option.getD_some]
  rw [write, if_neg (by rw [hlen, List.length_nil]; omega), Machine.error_bind]

/-! ## The call -/

lemma ipcRecvResponseFor_aborted (hchunk : ∀ n, E.chunk n ≠ none) (extra : ℕ)
    (hlen : s.data.length < ipcHeaderSize) : ipcRecvResponseFor E extra s = .error .aborted := by
  have hloop : recvLoop E (· ≤ 0) ipcHeaderSize (ipcHeaderSize + extra) 0
      (List.replicate ipcHeaderSize 0) s = .error .aborted :=
    recvLoop_aborted hchunk (by simp) (by simp; omega) _ [] (List.replicate ipcHeaderSize 0) s
      (by simpa using hlen) (by omega) (by rw [List.length_replicate]; omega)
  rw [ipcRecvResponseFor, hloop, Machine.error_bind]

/-- The call after the header: it allocates, and receives the payload that is announced. -/
lemma ipcRecvResponseFor_header (hchunk : ∀ n, E.chunk n ≠ none) (extra : ℕ)
    (hlen : ipcHeaderSize ≤ s.data.length) :
    ∃ s₁ : Socket, s₁.data = s.data.drop ipcHeaderSize ∧ ipcRecvResponseFor E extra s =
      if Allocates E s then do
        let (payload, s₂) ← recvLoop E (· < 0) (announced s.data) (announced s.data + extra) 0
          (List.replicate ((announced s.data + 1) % 2 ^ 32) 0) s₁
        let payload ← write payload (announced s.data) [0]
        return (⟨announced s.data, headerType (s.data.take ipcHeaderSize), payload⟩, s₂)
      else .error .null := by
  have htake : (s.data.take ipcHeaderSize).length = ipcHeaderSize := List.length_take_of_le hlen
  obtain ⟨s₀, hloop, hdata, hmallocs⟩ :=
    recvLoop_ok (E := E) (· ≤ 0) ipcHeaderSize hchunk (by simp; omega) (ipcHeaderSize + extra) []
      (s.data.take ipcHeaderSize) (List.replicate ipcHeaderSize 0) s
      (List.take_append_drop _ _).symm (by simpa using htake) (by omega) (by simp)
  rw [htake, List.drop_eq_nil_of_le (by simp)] at hloop
  simp only [List.nil_append, List.append_nil, List.length_nil] at hloop
  refine ⟨{ s₀ with mallocs := s₀.mallocs + 1 + 1 }, hdata, ?_⟩
  rw [ipcRecvResponseFor, hloop]
  simp only [Machine.ok_bind, malloc, hmallocs, Allocates]
  -- the two allocations, in the order in which they are made
  cases E.mallocOk s.mallocs with
  | false => rfl
  | true =>
    cases E.mallocOk (s.mallocs + 1) with
    | false => rfl
    | true => rfl

/-- The call on a complete message whose block is large enough. -/
lemma ipcRecvResponseFor_ok (hchunk : ∀ n, E.chunk n ≠ none) (extra : ℕ) (halloc : Allocates E s)
    (hcomplete : Complete s.data) (hfits : announced s.data + 1 < 2 ^ 32) :
    ∃ r s', ipcRecvResponseFor E extra s = .ok (r, s') := by
  have hle : announced s.data ≤ (s.data.drop ipcHeaderSize).length := by
    rw [List.length_drop]
    exact Nat.le_sub_of_add_le' hcomplete
  have htake : ((s.data.drop ipcHeaderSize).take (announced s.data)).length = announced s.data :=
    List.length_take_of_le hle
  obtain ⟨s₁, hdata, hcall⟩ :=
    ipcRecvResponseFor_header hchunk extra (le_trans (Nat.le_add_right _ _) hcomplete)
  obtain ⟨s₂, hloop, -, -⟩ :=
    recvLoop_ok (E := E) (· < 0) (announced s.data) hchunk (by simp) (announced s.data + extra) []
      ((s.data.drop ipcHeaderSize).take (announced s.data))
      (List.replicate (announced s.data + 1) 0) s₁ (hdata.trans (List.take_append_drop _ _).symm)
      (by simpa using htake) (by omega) (by rw [htake, List.length_replicate]; omega)
  rw [htake, List.drop_replicate, Nat.add_sub_cancel_left] at hloop
  simp only [List.nil_append, List.length_nil] at hloop
  rw [hcall, if_pos halloc, Nat.mod_eq_of_lt hfits, hloop, Machine.ok_bind]
  simp only []
  rw [write, if_pos (by rw [List.length_append, htake]; simp)]
  exact ⟨_, _, rfl⟩

/-- The call on a message whose payload is cut off goes on for ever. -/
lemma ipcRecvResponseFor_diverges (hchunk : ∀ n, E.chunk n ≠ none) (extra : ℕ)
    (halloc : Allocates E s) (hlen : ipcHeaderSize ≤ s.data.length) (hcut : ¬ Complete s.data)
    (hroom : s.data.length - ipcHeaderSize ≤ (announced s.data + 1) % 2 ^ 32) :
    ipcRecvResponseFor E extra s = .error .diverges := by
  obtain ⟨s₁, hdata, hcall⟩ := ipcRecvResponseFor_header hchunk extra hlen
  have hlen₁ : s₁.data.length = s.data.length - ipcHeaderSize := by rw [hdata, List.length_drop]
  have hlt : s.data.length < ipcHeaderSize + announced s.data := Nat.lt_of_not_le hcut
  have hloop : recvLoop E (· < 0) (announced s.data) (announced s.data + extra) 0
      (List.replicate ((announced s.data + 1) % 2 ^ 32) 0) s₁ = .error .diverges :=
    recvLoop_diverges hchunk (by simp) _ [] _ s₁ (by rw [List.length_nil, hlen₁]; omega)
      (by rw [List.length_replicate, hlen₁]; exact hroom)
  rw [hcall, if_pos halloc, hloop, Machine.error_bind]

/-- The length whose block is empty: the first byte of the payload has no room. -/
lemma ipcRecvResponseFor_outOfBounds (hchunk : ∀ n, E.chunk n ≠ none) (extra : ℕ)
    (halloc : Allocates E s) (hlen : ipcHeaderSize < s.data.length)
    (hwrap : announced s.data + 1 = 2 ^ 32) :
    ipcRecvResponseFor E extra s = .error .outOfBounds := by
  obtain ⟨s₁, hdata, hcall⟩ := ipcRecvResponseFor_header hchunk extra hlen.le
  have hne : s₁.data ≠ [] := by
    rw [hdata, ← List.length_pos_iff, List.length_drop]
    omega
  have hfuel : announced s.data + extra = (2 ^ 32 - 2 + extra) + 1 := by omega
  have hloop : recvLoop E (· < 0) (announced s.data) (announced s.data + extra) 0 [] s₁
      = .error .outOfBounds := by
    rw [hfuel]
    exact recvLoop_noRoom hchunk (by simp) (by omega) hne
  rw [hcall, if_pos halloc, hwrap, Nat.mod_self, List.replicate_zero, hloop, Machine.error_bind]

lemma announced_lt (data : Buf) : announced data < 2 ^ 32 := headerLength_lt _

lemma Complete.header_le {data : Buf} (h : Complete data) : ipcHeaderSize ≤ data.length :=
  le_trans (Nat.le_add_right _ _) h

/-- The five ways in which a call can go, by the stream and the two allocations. -/
lemma ipcRecvResponseFor_cases (hchunk : ∀ n, E.chunk n ≠ none) (extra : ℕ) :
    (s.data.length < ipcHeaderSize ∧ ipcRecvResponseFor E extra s = .error .aborted) ∨
    (ipcHeaderSize ≤ s.data.length ∧ ¬ Allocates E s ∧
      ipcRecvResponseFor E extra s = .error .null) ∨
    (Allocates E s ∧ Complete s.data ∧ announced s.data + 1 < 2 ^ 32 ∧
      ∃ r s', ipcRecvResponseFor E extra s = .ok (r, s')) ∨
    (Allocates E s ∧ ipcHeaderSize ≤ s.data.length ∧ ¬ Complete s.data ∧
      (announced s.data + 1 < 2 ^ 32 ∨ s.data.length = ipcHeaderSize) ∧
      ipcRecvResponseFor E extra s = .error .diverges) ∨
    (Allocates E s ∧ ipcHeaderSize < s.data.length ∧ announced s.data + 1 = 2 ^ 32 ∧
      ipcRecvResponseFor E extra s = .error .outOfBounds) := by
  have hlt := announced_lt s.data
  by_cases hlen : s.data.length < ipcHeaderSize
  · exact Or.inl ⟨hlen, ipcRecvResponseFor_aborted hchunk extra hlen⟩
  have hle : ipcHeaderSize ≤ s.data.length := Nat.le_of_not_lt hlen
  by_cases halloc : Allocates E s
  · by_cases hfits : announced s.data + 1 < 2 ^ 32
    · by_cases hcomplete : Complete s.data
      · -- the whole message is there
        exact Or.inr (Or.inr (Or.inl ⟨halloc, hcomplete, hfits,
          ipcRecvResponseFor_ok hchunk extra halloc hcomplete hfits⟩))
      · -- the stream ends in the payload
        have hroom : s.data.length - ipcHeaderSize ≤ (announced s.data + 1) % 2 ^ 32 := by
          have : s.data.length < ipcHeaderSize + announced s.data := Nat.lt_of_not_le hcomplete
          rw [Nat.mod_eq_of_lt hfits]
          omega
        exact Or.inr (Or.inr (Or.inr (Or.inl ⟨halloc, hle, hcomplete, Or.inl hfits,
          ipcRecvResponseFor_diverges hchunk extra halloc hle hcomplete hroom⟩)))
    · -- the size of the block wraps to 0
      have hwrap : announced s.data + 1 = 2 ^ 32 := by omega
      rcases hle.lt_or_eq with hlong | hshort
      · exact Or.inr (Or.inr (Or.inr (Or.inr ⟨halloc, hlong, hwrap,
          ipcRecvResponseFor_outOfBounds hchunk extra halloc hlong hwrap⟩)))
      · have hcut : ¬ Complete s.data := by
          rw [Complete]
          omega
        exact Or.inr (Or.inr (Or.inr (Or.inl ⟨halloc, hle, hcut, Or.inr hshort.symm,
          ipcRecvResponseFor_diverges hchunk extra halloc hle hcut (by omega)⟩)))
  · -- there is no memory
    obtain ⟨s₁, -, hcall⟩ := ipcRecvResponseFor_header hchunk extra hle
    rw [if_neg halloc] at hcall
    exact Or.inr (Or.inl ⟨hle, halloc, hcall⟩)

/-- The call comes to an end exactly if the stream ends within the header, or there is no memory,
or the whole payload arrives in a block that is large enough for it. -/
theorem ipcRecvResponse_ends_iff (hchunk : ∀ n, E.chunk n ≠ none) :
    Ends E s ↔ s.data.length < ipcHeaderSize ∨ ¬ Allocates E s ∨
      (Complete s.data ∧ announced s.data + 1 < 2 ^ 32) := by
  constructor
  · rintro ⟨extra, hends⟩
    rcases ipcRecvResponseFor_cases hchunk extra with ⟨hlen, -⟩ | ⟨-, hnull, -⟩ |
      ⟨-, hcomplete, hfits, -⟩ | ⟨halloc, -, -, -, hcall⟩ | ⟨halloc, -, -, hcall⟩
    · exact Or.inl hlen
    · exact Or.inr (Or.inl hnull)
    · exact Or.inr (Or.inr ⟨hcomplete, hfits⟩)
    -- neither a loop that goes on nor a write outside of the block is an end
    · rw [hcall] at hends
      simp [halloc] at hends
    · rw [hcall] at hends
      simp [halloc] at hends
  · intro hcond
    refine ⟨0, ?_⟩
    rcases ipcRecvResponseFor_cases (E := E) (s := s) hchunk 0 with ⟨hlen, hcall⟩ |
      ⟨-, hnull, hcall⟩ | ⟨-, hcomplete, -, hcall⟩ | ⟨halloc, hlen, hcut, -, -⟩ |
      ⟨halloc, hlen, hwrap, -⟩
    · exact Or.inr (Or.inl ⟨fun h => absurd h.header_le (Nat.not_le.mpr hlen), hcall⟩)
    · exact Or.inr (Or.inr ⟨hnull, hcall⟩)
    · exact Or.inl ⟨hcomplete, hcall⟩
    · rcases hcond with h | h | ⟨h, -⟩
      · omega
      · exact absurd halloc h
      · exact absurd h hcut
    · rcases hcond with h | h | ⟨-, h⟩
      · omega
      · exact absurd halloc h
      · omega

/-- An environment without failures, in which every `recv` returns what there is. -/
def Env.fair : Env where
  chunk _ := some (2 ^ 32)
  mallocOk _ := true

lemma Env.fair_chunk (n : ℕ) : Env.fair.chunk n ≠ none := by simp [Env.fair]

/-- An empty JSON array with its header. -/
theorem ipcRecvResponse_ends_iff_header :
    let data := encodeHeader 2 0 ++ [0x5b, 0x5d]
    Ends Env.fair ⟨data, 0, 0⟩ ↔ data.length < ipcHeaderSize ∨ ¬ Allocates Env.fair ⟨data, 0, 0⟩ ∨
      (Complete data ∧ announced data + 1 < 2 ^ 32) :=
  ipcRecvResponse_ends_iff Env.fair_chunk

/-- The server announces a payload of one byte and goes away. -/
theorem ipcRecvResponse_not_ends : ¬ Ends Env.fair ⟨encodeHeader 1 0, 0, 0⟩ := by
  rintro ⟨extra, hends⟩
  have hcut : ¬ Complete (encodeHeader 1 0) := by decide
  rw [ipcRecvResponseFor_diverges Env.fair_chunk extra (by decide) (by decide) hcut (by decide)]
    at hends
  simp [hcut] at hends

/-! ## The block of the payload -/

/-- Nothing is written outside of a block exactly if the length is not the largest number of 32
bits, or there is no memory, or no byte of the payload arrives. -/
theorem ipcRecvResponse_inBounds_iff (hchunk : ∀ n, E.chunk n ≠ none) :
    InBounds E s ↔ announced s.data ≠ 2 ^ 32 - 1 ∨ ¬ Allocates E s ∨
      s.data.length ≤ ipcHeaderSize := by
  constructor
  · intro hbounds
    by_contra hnot
    simp only [not_or, not_not, not_le] at hnot
    obtain ⟨hwrap, halloc, hlong⟩ := hnot
    exact hbounds 0 (ipcRecvResponseFor_outOfBounds hchunk 0 halloc hlong (by omega))
  · intro hcond extra
    rcases ipcRecvResponseFor_cases (E := E) (s := s) hchunk extra with ⟨-, hcall⟩ |
      ⟨-, -, hcall⟩ | ⟨-, -, -, r, s', hcall⟩ | ⟨-, -, -, -, hcall⟩ | ⟨halloc, hlong, hwrap, -⟩
    · rw [hcall]
      simp
    · rw [hcall]
      simp
    · rw [hcall]
      simp
    · rw [hcall]
      simp
    · rcases hcond with h | h | h
      · omega
      · exact absurd halloc h
      · omega

theorem ipcRecvResponse_inBounds_iff_header :
    let data := encodeHeader 2 0 ++ [0x5b, 0x5d]
    InBounds Env.fair ⟨data, 0, 0⟩ ↔ announced data ≠ 2 ^ 32 - 1 ∨
      ¬ Allocates Env.fair ⟨data, 0, 0⟩ ∨ data.length ≤ ipcHeaderSize :=
  ipcRecvResponse_inBounds_iff Env.fair_chunk

/-- A length of 2³² − 1 and the first byte of the payload. -/
theorem ipcRecvResponse_not_inBounds :
    ¬ InBounds Env.fair ⟨encodeHeader (2 ^ 32 - 1) 0 ++ [0], 0, 0⟩ := fun hbounds =>
  hbounds 0 (ipcRecvResponseFor_outOfBounds Env.fair_chunk 0 (by decide) (by decide) (by decide))

end Client
end WayfireIpc
