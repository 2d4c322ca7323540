/-
# A request and what comes back

The two ends of a connection together: `ipc_single_command` writes a request to the socket and takes
the first response that comes back for its answer, and the loop of `wf-msg` takes the responses behind
it for events.  Neither looks at the type of what it gets, so this rests on what the server sends.
-/
import WayfireIpc.Client.Ends
import WayfireIpc.Server.Asked
import WayfireIpc.Server.Reading
import WayfireIpc.Server.Writing

namespace WayfireIpc

namespace Client

/-! ## The client -/

/-- The results of the two `write`s of a request: how many bytes are taken, or `none` for -1. -/
structure Writes where
  header : Option ℕ
  payload : Option ℕ
deriving DecidableEq, Repr

/-- The ways in which `ipc_single_command` can fail to return a response. -/
inductive CallHalt
  /-- A failed `write`, or a call of `ipc_recv_response` that does not return. -/
  | halt (h : Halt)
  /-- The null pointer that `ipc_recv_response` returns is dereferenced. -/
  | nullResponse
deriving DecidableEq, Repr

/-- `ipc_single_command`: the bytes that it writes to the socket, and the payload and the length that
it returns. -/
def ipcSingleCommand (E : Env) (w : Writes) (type : UInt32) (payload : Buf) (len : ℕ) (s : Socket) :
    Buf × Except CallHalt (Buf × ℕ × Socket) :=
  let header := encodeHeader len type
  match w.header, w.payload with
  | none, _ => ([], .error (.halt .aborted))
  | some n, none => (header.take n, .error (.halt .aborted))
  | some n, some m =>
    (header.take n ++ (payload.take len).take m,
      match ipcRecvResponse E s with
      | .ok (resp, s) => .ok (resp.payload, resp.size, s)
      | .error .null => .error .nullResponse
      | .error h => .error (.halt h))

variable {E : Env} {s s' : Socket}

/-- What a loop puts into its block are the bytes that it takes from the stream. -/
lemma recvLoop_sound {fails : ℤ → Bool} (hfails : fails (-1) = true) {size : ℕ} :
    ∀ (fuel : ℕ) (done room : Buf) (s : Socket) (block : Buf), done.length ≤ size →
      recvLoop E fails size fuel done.length (done ++ room) s = .ok (block, s') →
      ∃ bs, s.data = bs ++ s'.data ∧ done.length + bs.length = size ∧
        block = done ++ bs ++ room.drop bs.length ∧ bs.length ≤ room.length := by
  intro fuel
  induction fuel with
  | zero =>
    intro done room s block hle h
    rw [recvLoop] at h
    split_ifs at h with hlt
    cases h
    exact ⟨[], rfl, by simp; omega, by simp, by simp⟩
  | succ fuel ih =>
    intro done room s block hle h
    rw [recvLoop] at h
    split_ifs at h with hlt
    swap
    · cases h
      exact ⟨[], rfl, by simp; omega, by simp, by simp⟩
    -- what one `recv` takes from the stream
    obtain ⟨bs, s₁, hrecv, hdata, hlen⟩ : ∃ bs s₁, recv E (size - done.length) s = (bs, s₁) ∧
        s.data = bs.getD [] ++ s₁.data ∧ (bs.getD []).length ≤ size - done.length := by
      rw [recv]
      split_ifs with hnil
      · exact ⟨_, _, rfl, by simp, by simp⟩
      · cases E.chunk s.recvs with
        | none => exact ⟨_, _, rfl, by simp, by simp⟩
        | some k => exact ⟨_, _, rfl, by simp, by simp⟩
    rw [hrecv] at h
    cases bs with
    | none =>
      simp only [received, hfails, if_true] at h
      cases h
    | some bs =>
      simp only [Option.getD_some] at h hdata hlen
      split_ifs at h with hfail
      obtain ⟨block₁, hwrite, hrest⟩ := Machine.bind_ok_iff.mp h
      rw [write] at hwrite
      split_ifs at hwrite with hroom
      cases hwrite
      rw [List.length_append] at hroom
      have hblock : Bytes.splice (done ++ room) done.length bs
          = (done ++ bs) ++ room.drop bs.length := by
        rw [Bytes.splice, List.take_left, List.drop_append, List.drop_eq_nil_of_le (by omega)]
        simp
      rw [hblock, ← List.length_append] at hrest
      obtain ⟨bs', hdata', hlen', hblock', hroom'⟩ := ih (done ++ bs) (room.drop bs.length) s₁ block
        (by rw [List.length_append]; omega) hrest
      rw [List.length_append] at hlen'
      rw [List.length_drop] at hroom'
      refine ⟨bs ++ bs', by rw [hdata, hdata', List.append_assoc], ?_, ?_, ?_⟩
      · rw [List.length_append]
        omega
      · rw [hblock', List.drop_drop, List.length_append]
        simp
      · rw [List.length_append]
        omega

lemma malloc_cases (E : Env) (n : ℕ) (s : Socket) : ∃ block s', malloc E n s = (block, s') ∧
    s'.data = s.data ∧ ∀ b, block = some b → b = List.replicate n 0 := by
  refine ⟨_, _, rfl, rfl, fun b hb => ?_⟩
  split_ifs at hb
  exact (Option.some.inj hb).symm

/-- A response is what stands at the front of the stream: a header, and the payload that it
announces. -/
lemma ipcRecvResponse_sound {r : IpcResponse} (h : ipcRecvResponse E s = .ok (r, s')) :
    ∃ header payload, header.length = ipcHeaderSize ∧ payload.length = headerLength header ∧
      s.data = header ++ (payload ++ s'.data) ∧
      r = ⟨payload.length, headerType header, payload ++ [0]⟩ := by
  obtain ⟨⟨header, s₁⟩, hheader, h⟩ := Machine.bind_ok_iff.mp h
  obtain ⟨bs, hdata, hlen, hblock, -⟩ :=
    recvLoop_sound (E := E) (by simp) ipcHeaderSize [] (List.replicate ipcHeaderSize 0) s header
      (by simp) hheader
  rw [List.length_nil, Nat.zero_add] at hlen
  obtain rfl : header = bs := by
    rw [hblock, hlen, List.drop_eq_nil_of_le (by simp)]
    simp
  obtain ⟨resp, s₂, hresp, hdata₂, -⟩ := malloc_cases E 1 s₁
  obtain ⟨room, s₃, hroom, hdata₃, hblank⟩ := malloc_cases E ((headerLength header + 1) % 2 ^ 32) s₂
  simp only [hresp, hroom] at h
  split_ifs at h with hnone
  cases room with
  | none => cases h
  | some room =>
    obtain ⟨⟨block, s₄⟩, hloop, h⟩ := Machine.bind_ok_iff.mp h
    obtain ⟨bs', hdata', hlen', hblock', hroom'⟩ :=
      recvLoop_sound (E := E) (by simp) (headerLength header) [] room s₃ block (by simp) hloop
    obtain ⟨block', hwrite, h⟩ := Machine.bind_ok_iff.mp h
    cases h
    -- the block has room for the NUL, so its size has not wrapped to 0
    rw [write] at hwrite
    split_ifs at hwrite with hfits
    cases hwrite
    have hlt := headerLength_lt header
    rw [List.length_nil, Nat.zero_add] at hlen'
    rw [hblank room rfl] at hblock' hroom'
    have hsize : (headerLength header + 1) % 2 ^ 32 = headerLength header + 1 := by
      simp only [hblock', List.nil_append, List.length_append, List.length_drop,
        List.length_replicate, List.length_singleton] at hfits hroom'
      omega
    refine ⟨header, bs', hlen, hlen', by rw [hdata, ← hdata₂, ← hdata₃, hdata'], ?_⟩
    rw [hblock', hsize, ← hlen', List.nil_append, List.drop_replicate, Nat.add_sub_cancel_left,
      Bytes.splice]
    simp

/-- On a part of a stream of messages, a call returns the first of them. -/
lemma ipcRecvResponse_message {r : IpcResponse} {gs : List Frame}
    (hgs : ∀ g ∈ gs, g.payload.length < 2 ^ 32) (hdata : s.data <+: encodeAll gs)
    (h : ipcRecvResponse E s = .ok (r, s')) :
    ∃ g gs', gs = g :: gs' ∧ r = response g ∧ s.data = g.encode ++ s'.data ∧
      s'.data <+: encodeAll gs' := by
  obtain ⟨header, payload, hheader, hpayload, hsplit, rfl⟩ := ipcRecvResponse_sound h
  obtain ⟨rest, hrest⟩ := hdata
  rw [hsplit, List.append_assoc, List.append_assoc] at hrest
  cases gs with
  | nil =>
    obtain ⟨rfl, -⟩ := List.append_eq_nil_iff.mp hrest
    cases hheader
  | cons g gs' =>
    rw [encodeAll_cons, Frame.encode, List.append_assoc] at hrest
    obtain ⟨rfl, htail⟩ := List.append_inj hrest (by rw [hheader]; simp)
    rw [headerLength_encodeHeader (hgs g List.mem_cons_self)] at hpayload
    obtain ⟨rfl, hrest'⟩ := List.append_inj htail hpayload
    refine ⟨g, gs', rfl, ?_, ?_, ⟨rest, hrest'⟩⟩
    · rw [headerType_encodeHeader, response]
    · rw [hsplit, Frame.encode, List.append_assoc]

/-- On a part of a stream of messages, successive calls return the first of them. -/
lemma ipcRecvResponses_messages (n : ℕ) {s : Socket} {rs : List IpcResponse} {gs : List Frame}
    (hgs : ∀ g ∈ gs, g.payload.length < 2 ^ 32) (hdata : s.data <+: encodeAll gs)
    (h : ipcRecvResponses E n s = .ok (rs, s')) : ∀ r ∈ rs, ∃ g ∈ gs, r = response g := by
  induction n generalizing s rs gs with
  | zero =>
    cases h
    simp
  | succ n ih =>
    obtain ⟨⟨r, s₁⟩, hfirst, h⟩ := Machine.bind_ok_iff.mp h
    obtain ⟨⟨rs', s₂⟩, hrest, h⟩ := Machine.bind_ok_iff.mp h
    cases h
    obtain ⟨g, gs', rfl, rfl, -, hdata'⟩ := ipcRecvResponse_message hgs hdata hfirst
    obtain ⟨-, hgs'⟩ := List.forall_mem_cons.mp hgs
    refine List.forall_mem_cons.mpr ⟨⟨g, List.mem_cons_self, rfl⟩, fun r hr => ?_⟩
    obtain ⟨g', hg', hr⟩ := ih hgs' hdata' hrest r hr
    exact ⟨g', List.mem_cons_of_mem _ hg', hr⟩

end Client

/-! ## The connection -/

namespace Server

/-- What has passed on a connection, whether the client is still there or not: the bytes that were
read are the first that have arrived and begin with the requests that were handed over, and the
bytes that were written are the first of the messages that were queued. -/
structure Wired (v : View) : Prop where
  read : v.received <+: v.arrived
  fits : ∀ f ∈ v.dispatched, f.Fits
  framed : encodeAll v.dispatched <+: v.received
  written : v.written <+: encodeAll v.queued
  accounted : ∀ k, v.record = some k → Accounted v
  sent : Sent v

variable {W : World} {s : Server} {c : ℕ}

lemma Wired.fresh : Wired .fresh :=
  ⟨List.prefix_rfl, by simp [View.fresh], List.prefix_rfl, List.prefix_rfl, fun _ _ => .fresh,
    .fresh⟩

lemma Wired.of_accounted {v : View} (h : Accounted v) (hwritten : v.written <+: encodeAll v.queued)
    (hsent : Sent v) : Wired v := by
  refine ⟨⟨v.unread, h.bytes⟩, h.fits, ?_, hwritten, fun _ _ => h, hsent⟩
  obtain ⟨rest, hrest⟩ := h.front
  exact ⟨rest, hrest.symm⟩

lemma Wired.move {v v' : View} {e : Effect} (h : Wired v) (hm : LocalMove W c v e v') : Wired v' := by
  cases hrecord : v.record with
  | none =>
    -- nothing happens to a client that is gone
    cases hm with
    | skip => exact h
    | enqueue hk | refuse hk | drop hk | setMask hk | arrive hk | header hk | badHeader hk
    | payload hk | bare hk | write hk => cases hrecord.symm.trans hk
  | some k =>
    have hacc := h.accounted k hrecord
    have hsent := h.sent.move hm
    have hwritten : v'.written <+: encodeAll v'.queued := by
      cases hrecord' : v'.record with
      | some k' => exact ⟨k'.queue, hsent.stream k' hrecord'⟩
      | none =>
        cases hm with
        | skip => exact h.written
        | refuse | drop | badHeader => exact h.written
        | enqueue | setMask | header | payload | bare | write => cases hrecord'
        | arrive => exact h.written
    by_cases he : e = .drop c
    · subst he
      cases hm with
      | skip => exact h
      | drop => exact ⟨h.read, h.fits, h.framed, hwritten, fun k hk => (by cases hk), hsent⟩
    · exact .of_accounted (hacc.move he hm) hwritten hsent

lemma Reachable.wired (h : Reachable W s) (hlt : c < s.nextClient) : Wired (s.view c) := by
  obtain ⟨es, hmoves⟩ := h.moves
  exact hmoves.view_invariant (Q := fun _ => True) (by simp) Wired.fresh
    (fun _ _ _ _ hv hm => hv.move hm) hlt

/-- To a client that has sent no more than one request, the server sends nothing, or the answer to
it and then events that it asks for. -/
lemma Reachable.queued_of_one (h : Reachable W s) (hlt : c < s.nextClient) {f : Frame} (hf : f.Fits)
    (harrived : arrivedFor c s.log <+: f.encode) :
    queuedFor c s.log = [] ∨ ∃ g gs, queuedFor c s.log = g :: gs ∧
      (protocol W).answers f g = true ∧
      (∀ e ∈ gs, hears ((protocol W).after (protocol W).init f) e = true) ∧
      dispatchedFor c s.log = [f] := by
  have hwired := h.wired hlt
  have hone : dispatchedFor c s.log <+: [f] := by
    have hprefix : encodeAll (dispatchedFor c s.log) <+: encodeAll [f] ++ [] := by
      rw [encodeAll_cons, encodeAll_nil, List.append_nil, List.append_nil]
      exact hwired.framed.trans (hwired.read.trans harrived)
    exact messages_of_encodeAll hwired.fits (by simpa using hf) (by decide) hprefix
  obtain ⟨q, hfollow, -⟩ := h.keepsProtocol c
  rw [← requests_conversation] at hone ⊢
  rw [← messages_conversation]
  rcases SessionRules.messages_of_one (fun g => by simp [protocol, hears]) hfollow hone with
    ⟨hnil, -⟩ | ⟨g, gs, hmsgs, hanswer, hnotices, hreqs, -⟩
  · exact Or.inl hnil
  · exact Or.inr ⟨g, gs, hmsgs, hanswer, hnotices, hreqs⟩

lemma writtenTo_of_unborn (hs : s.Inv) (hc : ¬ c < s.nextClient) : writtenTo c s.log = [] := by
  refine List.flatMap_eq_nil_iff.mpr fun o ho => ?_
  cases o with
  | written c' bs =>
    refine if_neg ?_
    rintro rfl
    exact hc (hs.log_lt _ ho c' rfl)
  | _ => rfl

end Server

namespace Client

open Server

variable {W : World} {s : Server} {c : ℕ} {E : Env} {w : Writes} {type : UInt32} {payload resp : Buf}
  {len : ℕ} {sock sock' : Socket}

/-- What the server does with the request of a call that returns. -/
lemma ipcSingleCommand_queued (h : Reachable W s) (hfits : payload.length < 2 ^ 32)
    (hheader : ∀ n, w.header = some n → n = ipcHeaderSize)
    (hsent : arrivedFor c s.log <+: (ipcSingleCommand E w type payload payload.length sock).1)
    (hback : sock.data <+: writtenTo c s.log)
    (hresp : (ipcSingleCommand E w type payload payload.length sock).2 = .ok (resp, len, sock')) :
    ∃ g gs, resp = g.payload ++ [0] ∧ len = g.payload.length ∧ sock.data = g.encode ++ sock'.data ∧
      (protocol W).answers ⟨type, payload⟩ g = true ∧ dispatchedFor c s.log = [⟨type, payload⟩] ∧
      sock'.data <+: encodeAll gs ∧ ∀ e ∈ gs, e.payload.length < 2 ^ 32 ∧
        hears ((protocol W).after (protocol W).init ⟨type, payload⟩) e = true := by
  -- both writes and the reception have succeeded
  rw [ipcSingleCommand] at hsent hresp
  cases hn : w.header with
  | none =>
    rw [hn] at hresp
    cases hresp
  | some n =>
    obtain rfl := hheader n hn
    cases hm : w.payload with
    | none =>
      rw [hn, hm] at hresp
      cases hresp
    | some m =>
      rw [hn, hm] at hresp hsent
      have hrecv : ∃ r, ipcRecvResponse E sock = .ok (r, sock') ∧ r.payload = resp ∧ r.size = len := by
        revert hresp
        simp only
        rcases ipcRecvResponse E sock with (_ | _ | _ | _) | ⟨r, s₁⟩ <;> intro hresp <;> cases hresp
        exact ⟨r, rfl, rfl, rfl⟩
      obtain ⟨r, hrecv, rfl, rfl⟩ := hrecv
      -- the bytes are the ones of the request
      have harrived : arrivedFor c s.log <+: (⟨type, payload⟩ : Frame).encode := by
        refine hsent.trans ?_
        simp only
        rw [Frame.encode, List.take_of_length_le (by simp), List.take_of_length_le le_rfl]
        exact (List.prefix_append_right_inj _).mpr (List.take_prefix m payload)
      have hlt : c < s.nextClient := by
        by_contra hc
        rw [writtenTo_of_unborn h.inv hc, List.prefix_nil] at hback
        obtain ⟨header, p, hlen, -, hdata, -⟩ := ipcRecvResponse_sound hrecv
        rw [hback] at hdata
        obtain ⟨rfl, -⟩ := List.append_eq_nil_iff.mp hdata.symm
        cases hlen
      have hwired := h.wired hlt
      have hsmall : ∀ g ∈ queuedFor c s.log, g.payload.length < 2 ^ 32 := fun g hg =>
        (hwired.sent.small g hg).trans (by norm_num)
      obtain ⟨g, gs, hqueued, rfl, hdata, hdata'⟩ :=
        ipcRecvResponse_message hsmall (hback.trans hwired.written) hrecv
      rcases h.queued_of_one hlt (f := ⟨type, payload⟩) hfits harrived with hnil | ⟨g', gs', hqueued', hanswer, hevents, hdone⟩
      · rw [hnil] at hqueued
        cases hqueued
      · cases hqueued.symm.trans hqueued'
        refine ⟨g, gs, rfl, rfl, hdata, hanswer, hdone, hdata', fun e he => ⟨?_, hevents e he⟩⟩
        exact hsmall e (hqueued ▸ List.mem_cons_of_mem _ he)

/-- A client subscribes to ticks, and gets the answer and the first event. -/
def subscribed : Server :=
  after eventWorld [.connection true, .arrive 0 subscribeTick.frame.encode,
    .readable 0 ⟨false, false⟩ ⟨true, true, true⟩ ⟨fun _ => .null, fun _ => ([], .null)⟩,
    .writable 0 ⟨false, false⟩ (.wrote 81)]

lemma reachable_subscribed : Reachable eventWorld subscribed := reachable_after _ _

/-- The kernel of the client: three bytes are received at a time. -/
def threes : Env := ⟨fun _ => some 3, fun _ => true⟩

/-- The socket of the client, with all that the server has written to it. -/
def subscribedStream : Socket := ⟨writtenTo 0 subscribed.log, 0, 0⟩

lemma subscribedStream_data : subscribedStream.data <+: writtenTo 0 subscribed.log := by
  rw [subscribedStream]

/-- The call of the client. -/
def subscribeCall : Buf × Except CallHalt (Buf × ℕ × Socket) :=
  ipcSingleCommand threes ⟨some 14, some 8⟩ 2 subscribeTick.frame.payload
    subscribeTick.frame.payload.length subscribedStream

/-- The socket after the call. -/
def subscribedSocket : Socket :=
  ⟨encodeAll [⟨IpcEventType.tick.code, Json.text (tickMessage true [])⟩], 11, 2⟩

lemma subscribeCall_sent : arrivedFor 0 subscribed.log <+: subscribeCall.1 := by decide +kernel

lemma subscribeCall_eq :
    subscribeCall.2 = .ok (statusMessage .success ++ [0], 17, subscribedSocket) := by
  decide +kernel

lemma subscribedSocket_event : ipcRecvResponses threes 1 subscribedSocket
    = .ok ([⟨36, IpcEventType.tick.code, Json.text (tickMessage true []) ++ [0]⟩], ⟨[], 28, 4⟩) := by
  decide +kernel

/-- `ipc_single_command` returns the answer of the server to its own request, if it returns a
response at all: for every run of the server, whatever it does for the other clients and whatever
signals it sends meanwhile, and for every way in which the payload is taken and the bytes are
received.  The header of 14 bytes is taken at once or not at all, since the client does not look how
much of it was.  The server has then handled this request and no other of the connection. -/
theorem ipcSingleCommand_answered (h : Reachable W s) (hfits : payload.length < 2 ^ 32)
    (hheader : ∀ n, w.header = some n → n = ipcHeaderSize)
    (hsent : arrivedFor c s.log <+: (ipcSingleCommand E w type payload payload.length sock).1)
    (hback : sock.data <+: writtenTo c s.log)
    (hresp : (ipcSingleCommand E w type payload payload.length sock).2 = .ok (resp, len, sock')) :
    ∃ g : Frame, resp = g.payload ++ [0] ∧ len = g.payload.length ∧
      sock.data = g.encode ++ sock'.data ∧ g.type = type ∧
      (∀ status, answerStatus W ⟨type, payload⟩ = some status → g.payload = statusMessage status) ∧
      dispatchedFor c s.log = [⟨type, payload⟩] := by
  obtain ⟨g, gs, hpayload, hlen, hdata, hanswer, hdone, -⟩ :=
    ipcSingleCommand_queued h hfits hheader hsent hback hresp
  obtain ⟨htype, hstatus⟩ : g.type = type ∧ (answerStatus W ⟨type, payload⟩).all
      (fun status => decide (g.payload = statusMessage status)) = true := by
    simpa [protocol] using hanswer
  refine ⟨g, hpayload, hlen, hdata, htype, fun status hsome => ?_, hdone⟩
  simpa [hsome] using hstatus

/-- The answer to the subscription. -/
theorem subscribeCall_answered : dispatchedFor 0 subscribed.log = [subscribeTick.frame] ∧
    statusMessage .success ++ [0] = statusMessage (subscribeTick.status eventWorld) ++ [0] := by
  obtain ⟨g, hpayload, -, -, -, hstatus, hdone⟩ :=
    ipcSingleCommand_answered reachable_subscribed (by decide) (by rintro n ⟨⟩; rfl)
      subscribeCall_sent subscribedStream_data subscribeCall_eq
  exact ⟨hdone, by rw [hpayload, hstatus _ rfl]; rfl⟩

/-- Whatever `wf-msg` receives behind the answer are events of the types that its `SUBSCRIBE` names,
and after any other request there is nothing to receive.  The header of the request is taken at once
here, too. -/
theorem ipcRecvResponses_events (h : Reachable W s) (hfits : payload.length < 2 ^ 32)
    (hheader : ∀ n, w.header = some n → n = ipcHeaderSize)
    (hsent : arrivedFor c s.log <+: (ipcSingleCommand E w type payload payload.length sock).1)
    (hback : sock.data <+: writtenTo c s.log)
    (hresp : (ipcSingleCommand E w type payload payload.length sock).2 = .ok (resp, len, sock'))
    {n : ℕ} {rs : List IpcResponse} {sock'' : Socket}
    (hrecv : ipcRecvResponses E n sock' = .ok (rs, sock'')) {r : IpcResponse} (hr : r ∈ rs) :
    type = IpcPayloadType.subscribe.code ∧ (SubscriptionRequest.subscribe payload).Supported W ∧
      ∃ T : IpcEventType, r.type = T.code ∧
        ((SubscriptionRequest.subscribe payload).Names W T = true ∨
          T = .binding ∧ (SubscriptionRequest.subscribe payload).Names W .input = true) := by
  obtain ⟨g, gs, -, -, -, -, -, hdata, hgs⟩ :=
    ipcSingleCommand_queued h hfits hheader hsent hback hresp
  obtain ⟨e, he, rfl⟩ := ipcRecvResponses_messages n (fun e he => (hgs e he).1) hdata hrecv r hr
  obtain ⟨T, -, hT⟩ := List.any_eq_true.mp (hgs e he).2
  rw [Bool.and_eq_true, decide_eq_true_iff] at hT
  have hbit : ([⟨type, payload⟩].foldl (protocol W).after (protocol W).init).getLsbD T.bit = true :=
    hT.2
  obtain ⟨pre, req, post, hsplit, hsub, -, hsupported, hnames, -⟩ := askedFor_of_topic hbit
  -- the one request is a subscription
  obtain ⟨htype, rfl⟩ : type = IpcPayloadType.subscribe.code ∧ req = .subscribe payload := by
    have hreq : subscriptionOf ⟨type, payload⟩ = some req := by
      have hmem : req ∈ [(⟨type, payload⟩ : Frame)].filterMap subscriptionOf := by
        rw [hsplit]
        simp
      simpa using hmem
    rw [subscriptionOf] at hreq
    split at hreq
    · next hcode => exact ⟨(IpcPayloadType.code_of_ofCode hcode).symm, (Option.some.inj hreq).symm⟩
    · obtain rfl := Option.some.inj hreq
      cases hsub
    · cases hreq
  exact ⟨htype, hsupported, T, hT.1.symm, hnames⟩

/-- The event behind the answer is one that the subscription names. -/
theorem subscribeCall_events : ∃ T : IpcEventType, IpcEventType.tick.code = T.code ∧
    (subscribeTick.Names eventWorld T = true ∨
      T = .binding ∧ subscribeTick.Names eventWorld .input = true) := by
  obtain ⟨-, -, hT⟩ :=
    ipcRecvResponses_events reachable_subscribed (by decide) (by rintro n ⟨⟩; rfl)
      subscribeCall_sent subscribedStream_data subscribeCall_eq subscribedSocket_event
      List.mem_cons_self
  exact hT

end Client

end WayfireIpc
