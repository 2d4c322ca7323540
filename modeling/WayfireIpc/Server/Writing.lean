/-
# The stream to a client

What a client is sent, over any run of the server: the bytes already written to its socket,
followed by the bytes that wait in its buffer, are the messages that `send_reply` has
accepted for it, one after the other.  The client's own decoder gets them back.
-/
import WayfireIpc.Server.Steps
import WayfireIpc.Client.Recv

namespace WayfireIpc

namespace I3IpcClient

variable {k : I3IpcClient}

/-- Writing takes the bytes from the front of the queue. -/
lemma queue_wrote (h : k.WF) {n : ℕ} (hn : n ≤ k.writeBufferLen) :
    (k.wrote n).queue = k.queue.drop n := by
  have hlt := h.len_lt
  have hblock := h.block_size
  have hslice : (Bytes.slice k.writeBuffer n (k.writeBufferLen - n)).length
      = k.writeBufferLen - n := Bytes.length_slice (by omega)
  rw [queue, wrote_writeBufferLen, wrote_writeBuffer, consume]
  have hroom : 0 + (Bytes.slice k.writeBuffer n (k.writeBufferLen - n)).length
      ≤ k.writeBuffer.length := by omega
  have htake := Bytes.take_splice hroom
  rw [hslice, Nat.zero_add, List.take_zero, List.nil_append] at htake
  rw [htake, Bytes.slice_eq_drop_take, queue, Nat.add_sub_cancel' hn]

end I3IpcClient

namespace Server

/-- The accounting of the bytes sent to a client. -/
structure Sent (v : View) : Prop where
  wf : ∀ k, v.record = some k → k.WF
  stream : ∀ k, v.record = some k → v.written ++ k.queue = encodeAll v.queued
  small : ∀ f ∈ v.queued, f.payload.length < 2 ^ 21

variable {W : World} {s s' : Server} {c : ℕ} {k k' : I3IpcClient}

lemma Sent.fresh : Sent .fresh where
  wf := fun k hk => by
    cases hk
    exact I3IpcClient.wf_fresh
  stream := fun k hk => by
    cases hk
    rfl
  small := fun f hf => by simp [View.fresh] at hf

/-- A change of the record that leaves its buffer alone. -/
lemma Sent.keep {v v' : View} (h : Sent v) (hk : v.record = some k) (hk' : v'.record = some k')
    (hwf : k.WF → k'.WF) (hqueue : k'.queue = k.queue) (hwritten : v'.written = v.written)
    (hqueued : v'.queued = v.queued) : Sent v' where
  wf := fun k₁ hk₁ => by
    cases hk'.symm.trans hk₁
    exact hwf (h.wf k hk)
  stream := fun k₁ hk₁ => by
    cases hk'.symm.trans hk₁
    rw [hwritten, hqueue, hqueued, h.stream k hk]
  small := hqueued ▸ h.small

/-- The client is gone. -/
lemma Sent.gone {v v' : View} (h : Sent v) (hk' : v'.record = none)
    (hqueued : v'.queued = v.queued) : Sent v' where
  wf := fun k₁ hk₁ => by cases hk'.symm.trans hk₁
  stream := fun k₁ hk₁ => by cases hk'.symm.trans hk₁
  small := hqueued ▸ h.small

lemma Sent.move {v v' : View} {e : Effect} (h : Sent v) (hm : LocalMove W c v e v') :
    Sent v' := by
  cases hm with
  | skip => exact h
  | @enqueue k k' f hk hacc hk' =>
    refine ⟨fun k₁ hk₁ => ?_, fun k₁ hk₁ => ?_, fun g hg => ?_⟩
    · cases hk₁
      exact hk'.wf
    · cases hk₁
      simp only [hk'.queue_eq, encodeAll_append, encodeAll_cons, encodeAll_nil, List.append_nil]
      rw [← List.append_assoc, h.stream k hk]
    · rcases List.mem_append.mp hg with hg | hg
      · exact h.small g hg
      · rw [List.mem_singleton.mp hg]
        have := hacc.1
        omega
  | refuse hk | drop hk | badHeader hk => exact h.gone rfl rfl
  | setMask hk m => exact h.keep hk rfl (fun hwf => hwf.setMask m) rfl rfl rfl
  | arrive hk => exact ⟨h.wf, h.stream, h.small⟩
  | header hk => exact h.keep hk rfl (fun hwf => hwf.expecting _) rfl rfl rfl
  | payload hk => exact h.keep hk rfl (fun hwf => hwf.idle) rfl rfl rfl
  | bare hk => exact h.keep hk rfl (fun hwf => (hwf.expecting _).idle) rfl rfl rfl
  | @write k n hk hpos hn =>
    refine ⟨fun k₁ hk₁ => ?_, fun k₁ hk₁ => ?_, h.small⟩
    · cases hk₁
      exact (h.wf k hk).wrote hpos n
    · cases hk₁
      simp only
      rw [I3IpcClient.queue_wrote (h.wf k hk) hn, List.append_assoc, List.take_append_drop,
        h.stream k hk]

/-! ## Runs -/

/-- The calls of a run: the inputs of the server, and further calls of `send_reply`. -/
inductive Call
  | input (i : Input)
  | sendReply (c : ℕ) (payloadType : UInt32) (payload : Buf)

/-- The step of the server on a call. -/
def callStep (W : World) (s : Server) : Call → Except Fault Server
  | .input i => step W s i
  | .sendReply c payloadType payload => Prod.snd <$> sendReply W s c payloadType payload

lemma callStep_moves (hs : s.Inv) {call : Call} (h : callStep W s call = .ok s') :
    ∃ es, Moves W s es s' := by
  cases call with
  | input i =>
    obtain ⟨es, hmoves, -⟩ := step_moves hs h
    exact ⟨es, hmoves⟩
  | sendReply c t payload =>
    by_cases hlive : s.Live c
    · obtain ⟨k, hk⟩ := hlive
      obtain ⟨b, s₁, heq, ⟨es, hmoves, -⟩, -, -⟩ := sendReply_outputs (W := W) hs hk t payload
      rw [callStep, heq] at h
      cases h
      exact ⟨es, hmoves⟩
    · rw [callStep, sendReply_of_not_live hlive] at h
      cases h

/-- The accounting holds for every client after every run of calls. -/
theorem run_sent {calls : List Call} (h : Machine.run (callStep W) init calls = .ok s) :
    s.Inv ∧ ∀ c < s.nextClient, Sent (s.view c) := by
  obtain ⟨hs, es, hmoves⟩ := Machine.run_invariant (callStep W)
    (I := fun s => s.Inv ∧ ∃ es, Moves W init es s)
    (by
      rintro s call s' ⟨hs, es, hmoves⟩ hstep
      obtain ⟨es', hmoves'⟩ := callStep_moves hs hstep
      exact ⟨hmoves'.inv hs, es ++ es', hmoves.append hmoves'⟩)
    ⟨inv_init, [], .nil⟩ h
  exact ⟨hs, fun c hlt => hmoves.view_invariant (Q := fun _ => True) (by simp) Sent.fresh
    (fun _ _ _ _ hv hm => hv.move hm) hlt⟩

/-- `send_reply` queues its message exactly when it answers `true`. -/
lemma sendReply_queued (hs : s.Inv) (hk : s.heap c = some k) (t : UInt32) (payload : Buf) :
    ∃ b s', sendReply W s c t payload = .ok (b, s') ∧
      queuedFor c s'.log = queuedFor c s.log ++ if b then [replyFrame t payload] else [] := by
  by_cases hacc : k.Accepts W c (payload.length % 2 ^ 32)
  · obtain ⟨k', hk', heq⟩ := sendReply_accepted (t := t) hk (hs.wf c k hk) hacc
    refine ⟨true, _, heq, ?_⟩
    simp [enqueued, queuedFor]
  · refine ⟨false, _, sendReply_refused hk (hs.wf c k hk) hacc, ?_⟩
    rw [queuedFor_refused]
    simp

/-- After every run, what has been written to a live client followed by what waits in its buffer
are the messages of the `send_reply` calls that succeeded, in their order; and a peer that
receives these bytes, in whatever pieces, gets the same messages in the same order. -/
theorem stream_eq_queued {calls : List Call} (h : Machine.run (callStep W) init calls = .ok s)
    (hk : s.heap c = some k) :
    writtenTo c s.log ++ k.writeBuffer.take k.writeBufferLen = encodeAll (queuedFor c s.log) ∧
    (∀ t payload, ∃ b s', sendReply W s c t payload = .ok (b, s') ∧
      queuedFor c s'.log = queuedFor c s.log ++ if b then [replyFrame t payload] else []) ∧
    ∀ E : Client.Env, (∀ n, E.chunk n ≠ none) → (∀ n, E.mallocOk n = true) → ∃ sock,
      Client.ipcRecvResponses E (queuedFor c s.log).length
          ⟨writtenTo c s.log ++ k.writeBuffer.take k.writeBufferLen, 0, 0⟩
        = .ok ((queuedFor c s.log).map Client.response, sock) ∧ sock.data = [] := by
  obtain ⟨hs, hall⟩ := run_sent h
  have hsent := hall c (hs.live_lt c ⟨k, hk⟩)
  have hstream := hsent.stream k hk
  refine ⟨hstream, sendReply_queued hs hk, fun E hchunk hmalloc => ?_⟩
  refine Client.ipcRecvResponses_encodeAll hchunk hmalloc _ _ (fun f hf => ?_) hstream
  have := hsent.small f hf
  omega

/-- Two replies, with a write of five bytes between them. -/
def twoReplies : List Call :=
  [.input (.connection true), .sendReply 0 7 (ascii "version"),
    .input (.writable 0 ⟨false, false⟩ (.wrote 5)), .sendReply 0 1 []]

/-- A peer that receives one byte at a time gets the two replies. -/
theorem twoReplies_received : ∃ sock, Client.ipcRecvResponses ⟨fun _ => some 1, fun _ => true⟩ 2
      ⟨encodeAll [⟨7, ascii "version"⟩, ⟨1, []⟩], 0, 0⟩
    = .ok ([⟨7, 7, ascii "version" ++ [0]⟩, ⟨0, 1, [0]⟩], sock) := by
  have hrun : Machine.run (callStep plainWorld) init twoReplies
      = .ok (Machine.final (callStep plainWorld) init twoReplies) :=
    Machine.run_final _ (by decide +kernel)
  obtain ⟨k, hk⟩ : (Machine.final (callStep plainWorld) init twoReplies).Live 0 := by
    decide +kernel
  obtain ⟨hstream, -, hrecv⟩ := stream_eq_queued hrun hk
  obtain ⟨sock, heq, -⟩ := hrecv ⟨fun _ => some 1, fun _ => true⟩ (by simp) (by simp)
  have hqueued : queuedFor 0 (Machine.final (callStep plainWorld) init twoReplies).log
      = [⟨7, ascii "version"⟩, ⟨1, []⟩] := by decide +kernel
  rw [hstream, hqueued] at heq
  exact ⟨sock, heq⟩

end Server

end WayfireIpc
