/-
# The queue of a client is written out

What a callback of the writable source writes is taken off the queue of the client, whatever else the
server does meanwhile.  When the socket has taken as many bytes as there were, everything that was
queued has been written and the source is gone.
-/
import WayfireIpc.Client.Exchange

namespace WayfireIpc

namespace Server

variable {W : World} {s s' : Server} {c : ℕ} {k k' : I3IpcClient}

/-- How many bytes for the client the socket has room for in the callback. -/
def Input.room (c : ℕ) : Input → ℕ
  | .writable c' mask (.wrote n) => if c' = c ∧ mask.error = false ∧ mask.hangup = false then n else 0
  | _ => 0

lemma queue_length (hs : s.Inv) (hk : s.heap c = some k) : k.queue.length = k.writeBufferLen := by
  have hwf := hs.wf c k hk
  rw [I3IpcClient.queue, List.length_take_of_le]
  rw [hwf.block_size]
  exact hwf.len_lt.le

/-- The bytes of a client that stays connected and is sent nothing are written or wait. -/
lemma Wired.conserved (h : Wired (s.view c)) (h' : Wired (s'.view c)) (hk : s.heap c = some k)
    (hk' : s'.heap c = some k') (hqueued : queuedFor c s'.log = queuedFor c s.log) :
    (writtenTo c s'.log).length + k'.queue.length = (writtenTo c s.log).length + k.queue.length := by
  have hstream := h.sent.stream k hk
  have hstream' := h'.sent.stream k' hk'
  change writtenTo c s'.log ++ k'.queue = encodeAll (queuedFor c s'.log) at hstream'
  change writtenTo c s.log ++ k.queue = encodeAll (queuedFor c s.log) at hstream
  rw [← List.length_append, ← List.length_append, hstream, hstream', hqueued]

lemma writtenTo_append (c : ℕ) (log log' : List Obs) :
    writtenTo c (log ++ log') = writtenTo c log ++ writtenTo c log' := List.flatMap_append

/-- A callback writes what the socket has room for, as far as there is something to write. -/
lemma step_written (hs : s.Inv) (hk : s.heap c = some k) {i : Input}
    (hstep : step W s i = .ok s') {obs : List Obs} (hlog : s'.log = s.log ++ obs) :
    min (i.room c) k.queue.length ≤ (writtenTo c obs).length := by
  by_cases hroom : i.room c = 0
  · simp [hroom]
  have hwf := hs.wf c k hk
  have hlen := queue_length hs hk
  by_cases hempty : k.writeBufferLen = 0
  · simp [hlen, hempty]
  obtain ⟨mask, n, rfl, herror, hhangup, hn⟩ : ∃ mask n, i = .writable c mask (.wrote n) ∧
      mask.error = false ∧ mask.hangup = false ∧ i.room c = n := by
    cases i with
    | writable c' mask res =>
      cases res with
      | wrote n =>
        rw [Input.room] at hroom
        split_ifs at hroom with hmask
        · obtain ⟨rfl, herror, hhangup⟩ := hmask
          exact ⟨mask, n, rfl, herror, hhangup, by simp [Input.room, herror, hhangup]⟩
        · exact absurd rfl hroom
      | again | failed => exact absurd rfl hroom
    | serve | displayDestroy | connection | arrive | readable | signal => exact absurd rfl hroom
  have harmed : s.writeSources c = true :=
    (hs.write_iff c).mpr ⟨k, hk, hwf.armed_iff.mpr (Nat.pos_of_ne_zero hempty)⟩
  have hbmod : (k.writeBufferLen : ℤ).bmod (2 ^ 32) = k.writeBufferLen := by
    have hlt := hwf.len_lt
    have hle := hwf.size_le
    exact bmod_of_lt (by omega)
  have hlog' : s'.log = s.log ++ [.written c (k.writeBuffer.take (min n k.writeBufferLen))] := by
    rw [step, if_pos harmed, clientHandleWritable, if_neg (by simp [herror]),
      if_neg (by simp [hhangup]), deref_of_some hk, Machine.ok_bind, hbmod, if_neg (by omega)] at hstep
    simp only at hstep
    split_ifs at hstep with hlast
    · cases hstep
      rfl
    · cases hstep
      rfl
  obtain rfl : obs = _ := List.append_cancel_left (hlog.symm.trans hlog')
  have hlt := hwf.len_lt
  have hblock := hwf.block_size
  rw [hn, hlen]
  simp [writtenTo]
  omega

/-- A step keeps what is in the log. -/
lemma step_log_grows (hs : s.Inv) {i : Input} (hstep : step W s i = .ok s') :
    ∃ obs, s'.log = s.log ++ obs := by
  obtain ⟨es, hmoves, -⟩ := step_moves hs hstep
  obtain ⟨obs, hlog, -⟩ := hmoves.log_grows
  exact ⟨obs, hlog⟩

lemma Reachable.step (h : Reachable W s) {i : Input} (hstep : step W s i = .ok s') :
    Reachable W s' := by
  obtain ⟨is, hrun⟩ := h
  refine ⟨is ++ [i], (Machine.run_append_ok _).mpr ⟨s, hrun, ?_⟩⟩
  rw [Machine.run_cons, hstep]
  rfl

/-- What the log says of a run goes on from what it said before. -/
lemma run_log_grows {is : List Input} (hs : s.Inv) (hrun : Machine.run (step W) s is = .ok s') :
    ∃ obs, s'.log = s.log ++ obs := by
  refine (Machine.run_invariant (step W) (I := fun t => t.Inv ∧ ∃ obs, t.log = s.log ++ obs) ?_
    ⟨hs, [], (List.append_nil _).symm⟩ hrun).2
  rintro t i t' ⟨ht, obs, hlog⟩ hstep
  obtain ⟨obs', hlog'⟩ := step_log_grows ht hstep
  exact ⟨step_inv ht hstep, obs ++ obs', by rw [hlog', hlog, List.append_assoc]⟩

/-- A client that has been connected and is there after a run has been there all the time. -/
lemma run_live_of {is : List Input} (hs : s.Inv) (hlt : c < s.nextClient)
    (hrun : Machine.run (step W) s is = .ok s') (hlive : s'.Live c) : s.Live c := by
  refine (Machine.run_invariant (step W)
    (I := fun t => t.Inv ∧ s.nextClient ≤ t.nextClient ∧ (t.Live c → s.Live c)) ?_
    ⟨hs, le_rfl, id⟩ hrun).2.2 hlive
  rintro t i t' ⟨ht, hle, hback⟩ hstep
  obtain ⟨es, hmoves, -⟩ := step_moves ht hstep
  exact ⟨hmoves.inv ht, hle.trans hmoves.nextClient_le,
    fun hlive => hback (hmoves.live_of (hlt.trans_le hle) hlive)⟩

/-- One step of a client that stays connected and is sent nothing. -/
lemma step_queue_length (h : Reachable W s) (hk : s.heap c = some k) {i : Input}
    (hstep : Server.step W s i = .ok s') (hk' : s'.heap c = some k')
    (hqueued : queuedFor c s'.log = queuedFor c s.log) :
    k'.queue.length ≤ k.queue.length - i.room c := by
  have hs := h.inv
  have h' := h.step hstep
  have hconserved := (h.wired (hs.live_lt c ⟨k, hk⟩)).conserved
    (h'.wired (h'.inv.live_lt c ⟨k', hk'⟩)) hk hk' hqueued
  obtain ⟨obs, hlog⟩ := step_log_grows hs hstep
  have hwritten := step_written hs hk hstep hlog
  rw [hlog, writtenTo_append, List.length_append] at hconserved
  omega

/-- Over a run in which nothing is queued to the client, the queue gets shorter by what the socket
takes. -/
lemma run_queue_length {is : List Input} (h : Reachable W s) (hk : s.heap c = some k)
    (hrun : Machine.run (step W) s is = .ok s') (hk' : s'.heap c = some k')
    (hqueued : queuedFor c s'.log = queuedFor c s.log) :
    k'.queue.length ≤ k.queue.length - (is.map (Input.room c)).sum := by
  induction is generalizing s k with
  | nil =>
    cases hrun
    cases hk.symm.trans hk'
    simp
  | cons i is ih =>
    obtain ⟨s₁, hstep, hrest⟩ := Machine.bind_ok_iff.mp hrun
    have hs := h.inv
    have h₁ := h.step hstep
    obtain ⟨es, hmoves, -⟩ := step_moves hs hstep
    have hlt₁ : c < s₁.nextClient := (hs.live_lt c ⟨k, hk⟩).trans_le hmoves.nextClient_le
    obtain ⟨k₁, hk₁⟩ := run_live_of h₁.inv hlt₁ hrest ⟨k', hk'⟩
    -- nothing is queued in the step, and nothing behind it
    obtain ⟨obs, hlog⟩ := step_log_grows hs hstep
    obtain ⟨obs', hlog'⟩ := run_log_grows h₁.inv hrest
    obtain ⟨hnil, hnil'⟩ : queuedFor c obs = [] ∧ queuedFor c obs' = [] := by
      rw [hlog', hlog, queuedFor_append, queuedFor_append, List.append_assoc,
        List.append_right_eq_self] at hqueued
      exact List.append_eq_nil_iff.mp hqueued
    have hstep_le := step_queue_length h hk hstep hk₁ (by rw [hlog, queuedFor_append, hnil,
      List.append_nil])
    have hrest_le := ih h₁ hk₁ hrest (by rw [hlog', queuedFor_append, hnil', List.append_nil])
    rw [List.map_cons, List.sum_cons]
    omega

/-- Whatever the server does meanwhile for others: as long as not everything that was queued to a
connected client has been written, the source of its writable callback is there; and once the socket
has had room for as many bytes as there were, and nothing more has been queued, everything has been
written, in order, the queue is empty and the source is gone. -/
theorem queue_drained {is : List Input} (h : Reachable W s) (hk : s.heap c = some k)
    (hrun : Machine.run (Server.step W) s is = .ok s') (hk' : s'.heap c = some k')
    (hqueued : queuedFor c s'.log = queuedFor c s.log) :
    (s'.writeSources c = true ↔ writtenTo c s'.log ≠ encodeAll (queuedFor c s'.log)) ∧
      (k.queue.length ≤ (is.map (Input.room c)).sum →
        writtenTo c s'.log = encodeAll (queuedFor c s'.log) ∧ k'.writeBufferLen = 0 ∧
          s'.writeSources c = false) := by
  have h' : Reachable W s' := by
    obtain ⟨is₀, hrun₀⟩ := h
    exact ⟨is₀ ++ is, (Machine.run_append_ok _).mpr ⟨s, hrun₀, hrun⟩⟩
  have hs' := h'.inv
  have hlen := queue_length hs' hk'
  have hstream : writtenTo c s'.log ++ k'.queue = encodeAll (queuedFor c s'.log) :=
    (h'.wired (hs'.live_lt c ⟨k', hk'⟩)).sent.stream k' hk'
  have hsource : s'.writeSources c = true ↔ 0 < k'.writeBufferLen := by
    rw [hs'.write_iff, ← (hs'.wf c k' hk').armed_iff]
    refine ⟨?_, fun harmed => ⟨k', hk', harmed⟩⟩
    rintro ⟨k₁, hk₁, harmed⟩
    rwa [← Option.some.inj (hk₁.symm.trans hk')]
  refine ⟨?_, fun hcount => ?_⟩
  · rw [hsource, ← hlen, List.length_pos_iff, ← hstream]
    simp
  · have hle := run_queue_length h hk hrun hk' hqueued
    have hnil : k'.queue = [] := List.length_eq_zero_iff.mp (by omega)
    refine ⟨by rw [← hstream, hnil, List.append_nil], by rw [← hlen, hnil, List.length_nil], ?_⟩
    rw [← Bool.not_eq_true, hsource, ← hlen, hnil]
    simp

/-- A client has subscribed to ticks. -/
def awaiting : Server :=
  after eventWorld [.connection true, .arrive 0 subscribeTick.frame.encode,
    .readable 0 ⟨false, false⟩ ⟨true, true, true⟩ ⟨fun _ => .null, fun _ => ([], .null)⟩]

/-- The answer and the first event are written in two pieces, with an event in between that is not
sent to the client. -/
def twoPieces : List Input :=
  [.writable 0 ⟨false, false⟩ (.wrote 40), .signal .shutdown [], .writable 0 ⟨false, false⟩ (.wrote 41)]

theorem awaiting_drained :
    writtenTo 0 (Machine.final (step eventWorld) awaiting twoPieces).log = encodeAll
      [⟨2, statusMessage .success⟩, ⟨IpcEventType.tick.code, Json.text (tickMessage true [])⟩] := by
  have hrun : Machine.run (step eventWorld) awaiting twoPieces
      = .ok (Machine.final (step eventWorld) awaiting twoPieces) :=
    Machine.run_final _ (by decide +kernel)
  have hqueued : queuedFor 0 (Machine.final (step eventWorld) awaiting twoPieces).log
      = [⟨2, statusMessage .success⟩,
        ⟨IpcEventType.tick.code, Json.text (tickMessage true [])⟩] := by
    decide +kernel
  obtain ⟨-, hdrained⟩ := queue_drained (c := 0) (reachable_after _ _)
    (record_eq (by decide +kernel)) hrun (record_eq (by decide +kernel)) (by decide +kernel)
  obtain ⟨hwritten, -⟩ := hdrained (by decide +kernel)
  rw [hwritten, hqueued]

end Server

end WayfireIpc
