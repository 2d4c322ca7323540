/-
# What `send_reply` does to a client

A client is well formed when its buffer has the size the client records, a power of two
between 128 bytes and 2 MiB, and is not full.  For a well-formed client `send_reply` ends:
it puts the whole message behind the bytes that wait, or it disconnects the client, and
it does the first exactly when the message leaves room below 2 MiB and `realloc` succeeds.
-/
import WayfireIpc.Server.Queue

namespace WayfireIpc

/-! ## The loop that doubles the buffer -/

lemma growTo_spec {n m : ℕ} (hn : n < 128 * 2 ^ m) (hm : m ≤ 50) :
    ∀ (fuel j : ℕ), j ≤ m → m - j < fuel →
      ∃ j', j ≤ j' ∧ growTo n fuel (128 * 2 ^ j) = some (128 * 2 ^ j') ∧
        n < 128 * 2 ^ j' ∧ (j' = j ∨ ∃ i, j' = i + 1 ∧ 128 * 2 ^ i ≤ n) := by
  intro fuel
  induction fuel with
  | zero => intro j _ hfuel; omega
  | succ fuel ih =>
    intro j hj hfuel
    by_cases hle : 128 * 2 ^ j ≤ n
    · have hjm : j < m := by
        by_contra hcon
        have : 2 ^ m ≤ 2 ^ j := Nat.pow_le_pow_right (by norm_num) (by omega)
        omega
      have hsmall : 2 ^ (j + 1) ≤ 2 ^ 50 := Nat.pow_le_pow_right (by norm_num) (by omega)
      have hdouble : 128 * 2 ^ j * 2 % 2 ^ 64 = 128 * 2 ^ (j + 1) := by
        rw [Nat.mod_eq_of_lt (by omega)]
        ring
      obtain ⟨j', hjj', hgrow, hlt, hlast⟩ := ih (j + 1) hjm (by omega)
      refine ⟨j', by omega, ?_, hlt, ?_⟩
      · rw [growTo, if_pos hle, hdouble, hgrow]
      · rcases hlast with rfl | ⟨i, rfl, hi⟩
        · exact Or.inr ⟨j, rfl, hle⟩
        · exact Or.inr ⟨i, rfl, hi⟩
    · refine ⟨j, le_rfl, ?_, by omega, Or.inl rfl⟩
      rw [growTo, if_neg hle]

namespace I3IpcClient

/-- What holds of a client between two callbacks. -/
structure WF (k : I3IpcClient) : Prop where
  size_pow : ∃ j, k.writeBufferSize = 128 * 2 ^ j
  size_le : k.writeBufferSize ≤ 2 ^ 21
  len_lt : k.writeBufferLen < k.writeBufferSize
  block_size : k.writeBuffer.length = k.writeBufferSize
  armed_iff : k.writableEventSource = true ↔ 0 < k.writeBufferLen

lemma wf_fresh : fresh.WF where
  size_pow := ⟨0, rfl⟩
  size_le := by norm_num [fresh]
  len_lt := by norm_num [fresh]
  block_size := by simp [fresh]
  armed_iff := by simp [fresh]

variable {k : I3IpcClient}

/-- The buffer of the client takes a message with a payload of `n` bytes. -/
def Accepts (W : World) (c : ℕ) (k : I3IpcClient) (n : ℕ) : Prop :=
  k.writeBufferLen + ipcHeaderSize + n < 2 ^ 21 ∧ W.reallocOk c k.reallocs = true

instance (W : World) (c : ℕ) (k : I3IpcClient) (n : ℕ) : Decidable (k.Accepts W c n) :=
  inferInstanceAs (Decidable (_ ∧ _))

/-- The loop of `send_reply` ends, and the size it ends with is within the bound of 4 MB
exactly when the message leaves room below 2 MiB. -/
lemma WF.grown_spec (h : k.WF) {n : ℕ} (hn : n < 2 ^ 32) :
    ∃ size, k.grown n = some size ∧ (∃ j, size = 128 * 2 ^ j) ∧
      k.writeBufferLen + ipcHeaderSize + n < size ∧
      (size ≤ maxWriteBuffer ↔ k.writeBufferLen + ipcHeaderSize + n < 2 ^ 21) ∧
      (size ≤ maxWriteBuffer → size ≤ 2 ^ 21) := by
  obtain ⟨j, hj⟩ := h.size_pow
  have hsize := h.size_le
  have hlen := h.len_lt
  have hhead : ipcHeaderSize = 14 := rfl
  -- the size of a buffer is at most the limit
  have hjle : j ≤ 14 := by
    by_contra hcon
    have : 2 ^ 15 ≤ 2 ^ j := Nat.pow_le_pow_right (by norm_num) (by omega)
    omega
  -- the sum does not wrap
  have hmod : (k.writeBufferLen + ipcHeaderSize + n) % 2 ^ 64
      = k.writeBufferLen + ipcHeaderSize + n := Nat.mod_eq_of_lt (by omega)
  obtain ⟨j', hjj', hgrow, hlt, hlast⟩ :=
    growTo_spec (n := k.writeBufferLen + ipcHeaderSize + n) (m := 27) (by omega) (by omega)
      65 j (by omega) (by omega)
  -- the sizes up to the limit
  have hbound : 128 * 2 ^ j' ≤ maxWriteBuffer → j' ≤ 14 := by
    intro hle
    by_contra hcon
    have : 2 ^ 15 ≤ 2 ^ j' := Nat.pow_le_pow_right (by norm_num) (by omega)
    simp only [maxWriteBuffer] at hle
    omega
  have hpow : j' ≤ 14 → 128 * 2 ^ j' ≤ 2 ^ 21 := by
    intro hle
    have : 2 ^ j' ≤ 2 ^ 14 := Nat.pow_le_pow_right (by norm_num) hle
    omega
  refine ⟨128 * 2 ^ j', ?_, ⟨j', rfl⟩, hlt, ⟨?_, ?_⟩, fun hle => hpow (hbound hle)⟩
  · rw [grown, hmod, hj, hgrow]
  · intro hle
    have := hpow (hbound hle)
    omega
  · intro hroom
    have hj14 : j' ≤ 14 := by
      rcases hlast with rfl | ⟨i, rfl, hi⟩
      · exact hjle
      · by_contra hcon
        have : 2 ^ 14 ≤ 2 ^ i := Nat.pow_le_pow_right (by norm_num) (by omega)
        omega
    have := hpow hj14
    simp only [maxWriteBuffer]
    omega

/-- `k'` is the client `k` with the message `f` behind the bytes that wait. -/
structure Enqueues (k : I3IpcClient) (f : Frame) (k' : I3IpcClient) : Prop where
  wf : k'.WF
  queue_eq : k'.queue = k.queue ++ f.encode
  len_eq : k'.writeBufferLen = k.writeBufferLen + ipcHeaderSize + f.payload.length
  subscribed_eq : k'.subscribedEvents = k.subscribedEvents
  pendingLength_eq : k'.pendingLength = k.pendingLength
  pendingType_eq : k'.pendingType = k.pendingType
  reallocs_eq : k'.reallocs = k.reallocs + 1

lemma realloc_take {block : Buf} {size len : ℕ} (h₁ : len ≤ block.length) (h₂ : len ≤ size) :
    (Server.realloc block size).take len = block.take len := by
  rw [Server.realloc, List.take_append_of_le_length (by simp; omega), List.take_take,
    min_eq_left h₂]

lemma length_realloc {block : Buf} {size : ℕ} :
    (Server.realloc block size).length = size := by
  simp only [Server.realloc, List.length_append, List.length_take, List.length_replicate]
  omega

/-- With room for the message, the two copies stay inside the block and put the message
behind the bytes that wait. -/
lemma append_ok (header payload : Buf) (hblock : k.writeBufferLen ≤ k.writeBuffer.length)
    (hroom : k.writeBufferLen + header.length + payload.length ≤ k.writeBufferSize) :
    ∃ block, k.append header payload
        = .ok { k with
            writeBuffer := block
            writeBufferLen := k.writeBufferLen + header.length + payload.length
            reallocs := k.reallocs + 1 } ∧
      block.length = k.writeBufferSize ∧
      block.take (k.writeBufferLen + header.length + payload.length)
        = k.queue ++ header ++ payload := by
  have hlen₀ : (Server.realloc k.writeBuffer k.writeBufferSize).length = k.writeBufferSize :=
    length_realloc
  have h₁ : k.writeBufferLen + header.length
      ≤ (Server.realloc k.writeBuffer k.writeBufferSize).length := by omega
  have hlen₁ := Bytes.length_splice h₁
  have h₂ : k.writeBufferLen + header.length + payload.length
      ≤ (Bytes.splice (Server.realloc k.writeBuffer k.writeBufferSize) k.writeBufferLen
          header).length := by omega
  refine ⟨_, ?_, (Bytes.length_splice h₂).trans (hlen₁.trans hlen₀), ?_⟩
  · rw [append, Server.memcpy, if_pos h₁]
    simp only [Machine.ok_bind]
    rw [Server.memcpy, if_pos h₂]
    rfl
  · rw [Bytes.take_splice h₂, Bytes.take_splice h₁, realloc_take hblock (by omega), queue]

end I3IpcClient

/-! ## The two outcomes of `send_reply` -/

/-- The message that `send_reply` makes of a payload; the length is a `uint32_t`. -/
def replyFrame (payloadType : UInt32) (payload : Buf) : Frame where
  type := payloadType
  payload := payload.take (payload.length % 2 ^ 32)

@[simp] lemma length_replyFrame (t : UInt32) (payload : Buf) :
    (replyFrame t payload).payload.length = payload.length % 2 ^ 32 := by
  simp only [replyFrame, List.length_take]
  exact min_eq_left (Nat.mod_le _ _)

lemma replyFrame_of_lt (t : UInt32) {payload : Buf} (h : payload.length < 2 ^ 32) :
    replyFrame t payload = ⟨t, payload⟩ := by
  rw [replyFrame, Nat.mod_eq_of_lt h, List.take_length]

namespace Server

/-- The state with the message `f` put into the buffer of the client, which becomes `k'`. -/
def enqueued (s : Server) (c : ℕ) (k k' : I3IpcClient) (f : Frame) : Server :=
  { s with
    heap := Function.update s.heap c (some k')
    writeSources :=
      if k.writableEventSource then s.writeSources else Function.update s.writeSources c true
    log := s.log ++ [.queued c f] }

/-- The state after a message for the client has been refused for the reason `o`. -/
def refused (s : Server) (c : ℕ) (k : I3IpcClient) (o : Obs) : Server := (s.note o).drop c k

/-- The reason for which `send_reply` refuses a payload of `n` bytes: the size is tested before
the memory is asked for. -/
def refusal (c : ℕ) (k : I3IpcClient) (n : ℕ) : Obs :=
  if k.writeBufferLen + ipcHeaderSize + n < 2 ^ 21 then .reallocFailed c else .tooBig c

variable {W : World} {s : Server} {c : ℕ} {k : I3IpcClient}

lemma deref_of_some (h : s.heap c = some k) : s.deref c = .ok k := by
  rw [deref, h]

lemma not_live_iff : ¬ s.Live c ↔ s.heap c = none := by
  rw [Live, not_exists, Option.eq_none_iff_forall_ne_some]

lemma deref_of_not_live (h : ¬ s.Live c) : s.deref c = .error (.useAfterDelete c) := by
  rw [deref, not_live_iff.mp h]

theorem sendReply_accepted (h : s.heap c = some k) (hk : k.WF) {t : UInt32} {payload : Buf}
    (hacc : k.Accepts W c (payload.length % 2 ^ 32)) :
    ∃ k', k.Enqueues (replyFrame t payload) k' ∧
      sendReply W s c t payload = .ok (true, s.enqueued c k k' (replyFrame t payload)) := by
  obtain ⟨size, hgrown, hpow, hlt, hbound, hle⟩ :=
    hk.grown_spec (n := payload.length % 2 ^ 32) (Nat.mod_lt _ (by norm_num))
  have hmax : size ≤ maxWriteBuffer := hbound.mpr hacc.1
  have hblock : k.writeBufferLen ≤ k.writeBuffer.length := by
    rw [hk.block_size]
    exact hk.len_lt.le
  have hsent : (payload.take (payload.length % 2 ^ 32)).length = payload.length % 2 ^ 32 :=
    length_replyFrame t payload
  obtain ⟨block, happ, hblocklen, hblocktake⟩ :=
    I3IpcClient.append_ok (k := { k with writeBufferSize := size })
      (encodeHeader (payload.length % 2 ^ 32) t) (payload.take (payload.length % 2 ^ 32)) hblock
      (by rw [length_encodeHeader, hsent]; exact hlt.le)
  rw [length_encodeHeader, hsent] at happ hblocktake
  refine ⟨{ k with
      writableEventSource := true
      writeBufferSize := size
      writeBuffer := block
      writeBufferLen := k.writeBufferLen + ipcHeaderSize + payload.length % 2 ^ 32
      reallocs := k.reallocs + 1 }, ?_, ?_⟩
  · refine ⟨⟨hpow, hle hmax, hlt, hblocklen, ?_⟩, ?_, ?_, rfl, rfl, rfl, rfl⟩
    · simp [ipcHeaderSize]
    · rw [Frame.encode, length_replyFrame, ← List.append_assoc]
      exact hblocktake
    · rw [length_replyFrame]
  · have hnot : ¬ maxWriteBuffer < size := not_lt.mpr hmax
    rw [sendReply, deref_of_some h]
    simp only [Machine.ok_bind, hgrown]
    rw [if_neg hnot, if_neg (by simp [hacc.2]), happ]
    cases hw : k.writableEventSource <;>
      simp [arm, put, note, enqueued, replyFrame, hw, Function.update_idem, pure, Except.pure]

theorem sendReply_refused (h : s.heap c = some k) (hk : k.WF) {t : UInt32} {payload : Buf}
    (hacc : ¬ k.Accepts W c (payload.length % 2 ^ 32)) :
    sendReply W s c t payload
      = .ok (false, s.refused c k (refusal c k (payload.length % 2 ^ 32))) := by
  obtain ⟨size, hgrown, -, -, hbound, -⟩ :=
    hk.grown_spec (n := payload.length % 2 ^ 32) (Nat.mod_lt _ (by norm_num))
  have hdrop : ∀ o, ((s.put c { k with writeBufferSize := size }).note o).clientDisconnect c
      = .ok (s.refused c k o) := by
    intro o
    have hheap : ((s.put c { k with writeBufferSize := size }).note o).heap c
        = some { k with writeBufferSize := size } := by
      simp [put, note]
    rw [clientDisconnect, deref_of_some hheap]
    simp [refused, drop, put, note, Function.update_idem, pure, Except.pure]
  rw [sendReply, deref_of_some h]
  simp only [Machine.ok_bind, hgrown]
  by_cases hroom : k.writeBufferLen + ipcHeaderSize + payload.length % 2 ^ 32 < 2 ^ 21
  · have hrealloc : W.reallocOk c k.reallocs = false := by
      by_contra hcon
      exact hacc ⟨hroom, by simpa using hcon⟩
    rw [if_neg (not_lt.mpr (hbound.mpr hroom)), if_pos hrealloc, hdrop, refusal, if_pos hroom]
    rfl
  · have hbig : maxWriteBuffer < size := not_le.mp fun hle => hroom (hbound.mp hle)
    rw [if_pos hbig, hdrop, refusal, if_neg hroom]
    rfl

lemma client_refusal (c : ℕ) (k : I3IpcClient) (n : ℕ) :
    refusal c k n = .tooBig c ∨ refusal c k n = .reallocFailed c := by
  rw [refusal]
  split
  · exact Or.inr rfl
  · exact Or.inl rfl

/-- `send_reply` follows the pointer to its client first. -/
lemma sendReply_of_not_live (h : ¬ s.Live c) (t : UInt32) (payload : Buf) :
    sendReply W s c t payload = .error (.useAfterDelete c) := by
  rw [sendReply, deref_of_not_live h, Machine.error_bind]

lemma live_of_sendReply {t : UInt32} {payload : Buf} {r : Bool × Server}
    (heq : sendReply W s c t payload = .ok r) : s.Live c := by
  by_contra hdead
  cases (sendReply_of_not_live hdead _ _).symm.trans heq

end Server

end WayfireIpc
