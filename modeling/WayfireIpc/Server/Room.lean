/-
# The room in the write buffer

The buffer of a live client has a size between 128 bytes and 2 MiB and is never full, and its
writable event source is registered exactly while something waits.  `send_reply` ends, and it
takes a message exactly when the message leaves room below 2 MiB.
-/
import WayfireIpc.Server.Replies

namespace WayfireIpc

namespace I3IpcClient

variable {k : I3IpcClient}

/-- The loop of `send_reply` doubles the size until the message fits, and no product is 2 ^ 64 or
more. -/
lemma WF.grown_exact (h : k.WF) {n : ℕ} (hn : n < 2 ^ 32) :
    k.writeBufferLen + ipcHeaderSize + n < 2 ^ 64 ∧
    ∃ j, k.grown n = some (k.writeBufferSize * 2 ^ j) ∧ k.writeBufferSize * 2 ^ j < 2 ^ 64 ∧
      k.writeBufferLen + ipcHeaderSize + n < k.writeBufferSize * 2 ^ j ∧
      ∀ i < j, k.writeBufferSize * 2 ^ i ≤ k.writeBufferLen + ipcHeaderSize + n := by
  obtain ⟨j, hj⟩ := h.size_pow
  have hsize := h.size_le
  have hlen := h.len_lt
  have hhead : ipcHeaderSize = 14 := rfl
  have hneed : k.writeBufferLen + ipcHeaderSize + n < 2 ^ 34 := by omega
  have hjle : j ≤ 14 := by
    by_contra hcon
    have : 2 ^ 15 ≤ 2 ^ j := Nat.pow_le_pow_right (by norm_num) (by omega)
    omega
  obtain ⟨j', hjj', hgrow, hlt, hlast⟩ :=
    growTo_spec (n := k.writeBufferLen + ipcHeaderSize + n) (m := 27) (by omega) (by omega)
      65 j (by omega) (by omega)
  have hpow : ∀ i, k.writeBufferSize * 2 ^ i = 128 * 2 ^ (j + i) := by
    intro i
    rw [hj, pow_add, mul_assoc]
  refine ⟨by omega, j' - j, ?_⟩
  rw [grown, Nat.mod_eq_of_lt (by omega), hpow, Nat.add_sub_cancel' hjj', ← hgrow, hj]
  refine ⟨rfl, ?_, hlt, fun i hi => ?_⟩
  · -- the last size that did not suffice is below 2 ^ 34
    rcases hlast with rfl | ⟨i, rfl, hi⟩
    · omega
    · rw [pow_succ]
      omega
  · rw [← hj, hpow]
    rcases hlast with rfl | ⟨i', rfl, hi'⟩
    · omega
    · have : 2 ^ (j + i) ≤ 2 ^ i' := Nat.pow_le_pow_right (by norm_num) (by omega)
      omega

end I3IpcClient

namespace Server

variable {W : World} {s : Server} {c : ℕ} {k : I3IpcClient}

/-- What `send_reply` does to a live client if memory can be allocated: it queues the message when
there is room for it, and otherwise it takes the client away. -/
lemma sendReply_room (hs : s.Inv) (hk : s.heap c = some k) (halloc : ∀ c n, W.reallocOk c n = true)
    (t : UInt32) {payload : Buf} (hlen : payload.length < 2 ^ 32) :
    ∃ b s', sendReply W s c t payload = .ok (b, s') ∧
      (b = true ↔ k.writeBufferLen + ipcHeaderSize + payload.length < 2 ^ 21) ∧
      (b = true → queuedFor c s'.log = queuedFor c s.log ++ [⟨t, payload⟩] ∧ s'.Live c) ∧
      (b = false → queuedFor c s'.log = queuedFor c s.log ∧ ¬ s'.Live c) := by
  obtain ⟨b, s', heq, -, hb, hlive⟩ := sendReply_outputs (W := W) hs hk t payload
  rw [Nat.mod_eq_of_lt hlen] at hb
  have hroom : b = true ↔ k.writeBufferLen + ipcHeaderSize + payload.length < 2 ^ 21 := by
    rw [hb, I3IpcClient.Accepts]
    exact and_iff_left (halloc c k.reallocs)
  refine ⟨b, s', heq, hroom, fun hb => ?_, fun hb => ?_⟩ <;>
    rcases sendReply_outcome hs hk heq with ⟨hq, k', hk', -⟩ | ⟨hq, hnone⟩
  · rw [replyFrame_of_lt t hlen] at hq
    exact ⟨hq, k', hk'⟩
  · obtain ⟨k', hk'⟩ := hlive.mpr hb
    rw [hnone] at hk'
    cases hk'
  · have := hlive.mp ⟨k', hk'⟩
    rw [hb] at this
    cases this
  · refine ⟨hq, ?_⟩
    rw [hlive, hb]
    exact Bool.false_ne_true

/-- In every reachable state the buffer of a live client is within its bounds, its writable event
source is there exactly while something waits, and a reply is queued exactly when it leaves room
below 2 MiB. -/
theorem writeBuffer_room (h : Reachable W s) (hk : s.heap c = some k) :
    (∃ j, k.writeBufferSize = 128 * 2 ^ j) ∧ k.writeBufferSize ≤ 2 ^ 21 ∧
    k.writeBufferLen < k.writeBufferSize ∧
    (k.writableEventSource = true ↔ 0 < k.writeBufferLen) ∧
    (s.writeSources c = true ↔ 0 < k.writeBufferLen) ∧
    ∀ (t : UInt32) (payload : Buf), payload.length < 2 ^ 32 →
      k.writeBufferLen + ipcHeaderSize + payload.length < 2 ^ 64 ∧
      (∃ j, k.grown payload.length = some (k.writeBufferSize * 2 ^ j) ∧
        k.writeBufferSize * 2 ^ j < 2 ^ 64 ∧
        k.writeBufferLen + ipcHeaderSize + payload.length < k.writeBufferSize * 2 ^ j ∧
        ∀ i < j, k.writeBufferSize * 2 ^ i
          ≤ k.writeBufferLen + ipcHeaderSize + payload.length) ∧
      ((∀ c n, W.reallocOk c n = true) → ∃ b s', sendReply W s c t payload = .ok (b, s') ∧
        (b = true ↔ k.writeBufferLen + ipcHeaderSize + payload.length < 2 ^ 21) ∧
        (b = true → queuedFor c s'.log = queuedFor c s.log ++ [⟨t, payload⟩] ∧ s'.Live c) ∧
        (b = false → queuedFor c s'.log = queuedFor c s.log ∧ ¬ s'.Live c)) := by
  have hs := h.inv
  have hwf := hs.wf c k hk
  have hsource : s.writeSources c = true ↔ 0 < k.writeBufferLen := by
    rw [hs.write_iff c, ← hwf.armed_iff]
    constructor
    · rintro ⟨k', hk', harmed⟩
      cases hk.symm.trans hk'
      exact harmed
    · exact fun harmed => ⟨k, hk, harmed⟩
  refine ⟨hwf.size_pow, hwf.size_le, hwf.len_lt, hwf.armed_iff, hsource, fun t payload hlen => ?_⟩
  obtain ⟨hneed, hgrown⟩ := hwf.grown_exact hlen
  exact ⟨hneed, hgrown, fun halloc => sendReply_room hs hk halloc t hlen⟩

/-- The first reply to a client that has just connected is queued. -/
theorem first_reply_queued : ∃ b s',
    sendReply plainWorld (after plainWorld [.connection true]) 0 10 (ascii "\x7b\x7d")
        = .ok (b, s') ∧ b = true ∧ queuedFor 0 s'.log = [⟨10, ascii "\x7b\x7d"⟩] := by
  have hk : (after plainWorld [.connection true]).heap 0 = some .fresh := rfl
  obtain ⟨-, -, -, -, -, hreply⟩ :=
    writeBuffer_room (reachable_after plainWorld [.connection true]) hk
  obtain ⟨-, -, hsend⟩ := hreply 10 (ascii "\x7b\x7d") (by decide)
  obtain ⟨b, s', heq, hroom, hqueued, -⟩ := hsend fun _ _ => rfl
  have hb : b = true := hroom.mpr (by decide)
  have hempty : queuedFor 0 (after plainWorld [.connection true]).log = [] := by decide
  exact ⟨b, s', heq, hb, by rw [(hqueued hb).1, hempty, List.nil_append]⟩

end Server

end WayfireIpc
