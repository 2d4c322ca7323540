/-
# Replies

The messages that a client is sent are replies and events, and the type of an event has the
highest bit set.  Every branch of `ipc_client_handle_command` sends its client one reply, of the
type of the request, unless the client is taken away; whatever else it sends are events.
-/
import WayfireIpc.Server.Delivery

namespace WayfireIpc

/-- The event bit of a message type. -/
def isEventType (t : UInt32) : Bool := t &&& 0x80000000 ≠ 0

lemma isEventType_code (ev : IpcEventType) : isEventType ev.code = true := by
  cases ev <;> decide

/-- The replies among the messages queued to a client. -/
def repliesFor (c : ℕ) (log : List Obs) : List Frame :=
  (queuedFor c log).filter fun f => !isEventType f.type

lemma repliesFor_append (c : ℕ) (log log' : List Obs) :
    repliesFor c (log ++ log') = repliesFor c log ++ repliesFor c log' := by
  rw [repliesFor, queuedFor_append, List.filter_append]
  rfl

lemma dispatchedFor_append (c : ℕ) (log log' : List Obs) :
    dispatchedFor c (log ++ log') = dispatchedFor c log ++ dispatchedFor c log' :=
  List.flatMap_append

namespace Obs

/-- The entry stands for no reply, no request and nothing that `serve` does. -/
def Plain : Obs → Prop
  | .queued _ f => isEventType f.type = true
  | .dispatched _ _ | .acquired _ => False
  | _ => True

lemma plain_refusal (c : ℕ) (k : I3IpcClient) (n : ℕ) : (Server.refusal c k n).Plain := by
  rcases Server.client_refusal c k n with ho | ho <;> rw [ho] <;> trivial

end Obs

namespace Server

variable {W : World} {s s' s₁ s₂ : Server} {c : ℕ} {k : I3IpcClient} {ts ts' : List UInt32}
  {p p' : Prop}

/-- Between `s` and `s'` the client `c` is sent the replies of the types `ts` and no other client is
sent any, no request is handed over, and `serve` runs at most if `p` holds. -/
def Replied (c : ℕ) (ts : List UInt32) (p : Prop) (s s' : Server) : Prop :=
  ∃ obs, s'.log = s.log ++ obs ∧
    (∀ c', (repliesFor c' obs).map Frame.type = if c' = c then ts else []) ∧
    (∀ c', dispatchedFor c' obs = []) ∧ ∀ r, .acquired r ∈ obs → p

namespace Replied

lemma refl : Replied c [] p s s :=
  ⟨[], (List.append_nil _).symm, fun c' => by simp [repliesFor, queuedFor], fun _ => rfl,
    fun _ h => absurd h List.not_mem_nil⟩

lemma trans (h : Replied c ts p s s₁) (h' : Replied c ts' p s₁ s₂) :
    Replied c (ts ++ ts') p s s₂ := by
  obtain ⟨obs, hlog, hreplies, hdispatched, hserved⟩ := h
  obtain ⟨obs', hlog', hreplies', hdispatched', hserved'⟩ := h'
  refine ⟨obs ++ obs', by rw [hlog', hlog, List.append_assoc], fun c' => ?_, fun c' => ?_,
    fun r hr => ?_⟩
  · rw [repliesFor_append, List.map_append, hreplies, hreplies']
    split <;> simp
  · rw [dispatchedFor_append, hdispatched, hdispatched', List.append_nil]
  · exact (List.mem_append.mp hr).elim (hserved r) (hserved' r)

lemma mono (h : Replied c ts p s s') (himp : p → p') :
    Replied c ts p' s s' := by
  obtain ⟨obs, hlog, hreplies, hdispatched, hserved⟩ := h
  exact ⟨obs, hlog, hreplies, hdispatched, fun r hr => himp (hserved r hr)⟩

/-- Entries that are plain. -/
lemma of_plain {l : List Obs} (hlog : s'.log = s.log ++ l) (h : ∀ o ∈ l, o.Plain) :
    Replied c [] p s s' := by
  refine ⟨l, hlog, fun c' => ?_, fun c' => ?_, fun r hr => (h _ hr).elim⟩
  · have hnil : repliesFor c' l = [] := by
      refine List.filter_eq_nil_iff.mpr fun f hf => ?_
      obtain ⟨o, ho, hmem⟩ := List.mem_flatMap.mp hf
      have hplain := h o ho
      cases o with
      | queued c₁ g =>
        simp only at hmem
        split_ifs at hmem
        · rw [List.mem_singleton.mp hmem]
          simpa using (show isEventType g.type = true from hplain)
        · cases hmem
      | _ => cases hmem
    simp [hnil]
  · refine List.flatMap_eq_nil_iff.mpr fun o ho => ?_
    have hplain := h o ho
    cases o with
    | dispatched => exact hplain.elim
    | _ => rfl

end Replied

/-! ## What is sent -/

lemma plain_eventObs {ev : IpcEventType} {json : Buf} :
    ∀ o ∈ s.eventObs W ev json c, o.Plain := by
  intro o ho
  rw [eventObs] at ho
  split at ho
  · cases ho
  · split_ifs at ho
    · rw [List.mem_singleton.mp ho]
      exact isEventType_code ev
    · rcases List.mem_cons.mp ho with rfl | ho
      · exact Obs.plain_refusal _ _ _
      · rw [List.mem_singleton.mp ho]
        trivial
    · cases ho

/-- Events are no replies. -/
lemma signalEvent_replied (hs : s.Inv) {ev : IpcEventType} {json : Buf}
    (heq : s.signalEvent W ev json = .ok s') : Replied c [] p s s' ∧ s'.Inv := by
  obtain ⟨s₁, heq₁, hvisits⟩ := signalEvent_visits (W := W) hs ev json
  cases heq₁.symm.trans heq
  refine ⟨.of_plain hvisits.log_eq fun o ho => ?_, hvisits.outputs.inv hs⟩
  obtain ⟨a, -, ho⟩ := List.mem_flatMap.mp ho
  exact plain_eventObs o ho

lemma performSignals_replied : ∀ (signals : List Signal) {s s' : Server}, s.Inv →
    performSignals W s signals = .ok s' → Replied c [] (.serve ∈ signals) s s' ∧ s'.Inv := by
  intro signals
  induction signals with
  | nil =>
    rintro s s' hs heq
    cases heq
    exact ⟨.refl, hs⟩
  | cons sig rest ih =>
    intro s s' hs heq
    cases sig with
    | event ev json =>
      obtain ⟨s₁, heq₁, hrest⟩ := Machine.bind_ok_iff.mp heq
      obtain ⟨hreplied₁, hs₁⟩ := signalEvent_replied (c := c) hs heq₁
      obtain ⟨hreplied, hs'⟩ := ih hs₁ hrest
      exact ⟨hreplied₁.trans (hreplied.mono (List.mem_cons_of_mem _)), hs'⟩
    | serve =>
      obtain ⟨hreplied, hs'⟩ := ih hs.serve heq
      have hserve : Replied c [] (.serve ∈ Signal.serve :: rest) s s.serve := by
        refine ⟨_, rfl, fun c' => ?_, fun c' => rfl, fun _ _ => List.mem_cons_self⟩
        simp [repliesFor, queuedFor]
      exact ⟨hserve.trans (hreplied.mono (List.mem_cons_of_mem _)), hs'⟩

/-- A reply is sent, or its client is taken away. -/
lemma sendReply_replied (hs : s.Inv) {t : UInt32} {payload : Buf} {b : Bool}
    (heq : sendReply W s c t payload = .ok (b, s')) :
    s'.Inv ∧ (s'.Live c → Replied c (if isEventType t then [] else [t]) p s s') ∧
      (¬ s'.Live c → Replied c [] p s s') := by
  obtain ⟨k, h⟩ := live_of_sendReply heq
  obtain ⟨b', s₁, heq₁, hout, -, -⟩ := sendReply_outputs (W := W) hs h t payload
  cases heq₁.symm.trans heq
  refine ⟨hout.inv hs, ?_⟩
  by_cases hacc : k.Accepts W c (payload.length % 2 ^ 32)
  · obtain ⟨k₁, -, hsend⟩ := sendReply_accepted (t := t) h (hs.wf c k h) hacc
    cases heq.symm.trans hsend
    refine ⟨fun _ => ⟨_, rfl, fun c' => ?_, fun c' => rfl, by simp⟩,
      fun hdead => absurd ⟨k₁, enqueued_heap⟩ hdead⟩
    by_cases hc : c' = c
    · subst hc
      cases ht : isEventType t <;> simp [repliesFor, queuedFor, replyFrame, ht]
    · simp [repliesFor, queuedFor, hc, Ne.symm hc]
  · cases heq.symm.trans (sendReply_refused h (hs.wf c k h) hacc)
    refine ⟨?_, fun _ => .of_plain
      (l := [refusal c k (payload.length % 2 ^ 32), .disconnected c]) ?_ ?_⟩
    · rintro ⟨k', hk'⟩
      simp [refused, drop, note] at hk'
    · simp [refused, drop, note]
    · rintro o (_ | ⟨_, ho⟩)
      · exact Obs.plain_refusal _ _ _
      · rw [List.mem_singleton.mp ho]
        trivial

/-! ## What a request is answered with -/

/-- The replies of a handler: the types `ts`, if the client is still there at the end. -/
def Answered (c : ℕ) (ts : List UInt32) (p : Prop) (s s' : Server) : Prop :=
  (s'.Live c → Replied c ts p s s') ∧ (¬ s'.Live c → ∃ ts', Replied c ts' p s s')

/-- The replies with a message type: one, or none for the type of an event. -/
def replyTypes (t : UInt32) : List UInt32 := if isEventType t then [] else [t]

lemma Answered.of_replied (h : Replied c [] p s s₁) (h' : Answered c ts p s₁ s') :
    Answered c ts p s s' :=
  ⟨fun hlive => h.trans (h'.1 hlive), fun hdead => (h'.2 hdead).imp fun _ h' => h.trans h'⟩

lemma sendReply_answered (hs : s.Inv) {t : UInt32} {payload : Buf}
    (heq : (do let (_, s) ← sendReply W s c t payload; return s) = .ok s') :
    s'.Inv ∧ Answered c (replyTypes t) p s s' := by
  obtain ⟨⟨b, s₁⟩, hsend, heq⟩ := Machine.bind_ok_iff.mp heq
  cases heq
  obtain ⟨hinv, hlive, hdead⟩ := sendReply_replied hs hsend
  exact ⟨hinv, hlive, fun h => ⟨[], hdead h⟩⟩

lemma sendStatus_answered (hs : s.Inv) {t : UInt32} {status : ReturnStatus}
    (heq : sendStatus W s c t status = .ok s') :
    s'.Inv ∧ Answered c (replyTypes t) p s s' := sendReply_answered hs heq

/-- A new mask is nothing that is sent. -/
lemma put_replied (k' : I3IpcClient) : Replied c [] p s (s.put c k') :=
  .of_plain (List.append_nil _).symm fun _ h => absurd h List.not_mem_nil

lemma handleSubscribe_answered (hs : s.Inv) (h : s.heap c = some k) {t : UInt32} {buf : Buf}
    (heq : handleSubscribe W s c t buf = .ok s') :
    Answered c (replyTypes t) p s s' := by
  rcases handleSubscribe_cases h heq with
    ⟨-, hstatus⟩ | ⟨-, ⟨-, s₁, hstatus, htick⟩ | ⟨-, hstatus⟩⟩
  · exact (sendStatus_answered hs hstatus).2
  · obtain ⟨hs₁, hanswered⟩ := sendStatus_answered (p := p) (hs.setMask h _) hstatus
    refine Answered.of_replied (put_replied { k with
      subscribedEvents := subscribeMask k.subscribedEvents
        (eventNames (W.stringToJson buf).elements) }) ?_
    rcases htick with ⟨-, rfl⟩ | ⟨-, b, hsend⟩
    · exact hanswered
    · -- the tick event is sent to a client that has taken the answer
      have hlive₁ := live_of_sendReply hsend
      obtain ⟨-, hlive, hdead⟩ := sendReply_replied (p := p) hs₁ hsend
      rw [if_pos (isEventType_code .tick)] at hlive
      refine ⟨fun hl => ?_, fun hd => ⟨_, (hanswered.1 hlive₁).trans (hdead hd)⟩⟩
      simpa using (hanswered.1 hlive₁).trans (hlive hl)
  · exact .of_replied (put_replied _) (sendStatus_answered (hs.setMask h _) hstatus).2

lemma handleUnsubscribe_answered (hs : s.Inv) (h : s.heap c = some k) {t : UInt32} {buf : Buf}
    (heq : handleUnsubscribe W s c t buf = .ok s') :
    Answered c (replyTypes t) p s s' := by
  rcases handleUnsubscribe_cases h heq with ⟨-, hstatus⟩ | ⟨-, ⟨-, hstatus⟩ | ⟨-, hstatus⟩⟩
  · exact (sendStatus_answered hs hstatus).2
  · exact .of_replied (put_replied _) (sendStatus_answered (hs.setMask h _) hstatus).2
  · exact .of_replied (put_replied _) (sendStatus_answered (hs.setMask h _) hstatus).2

/-- The request is a command during which the instance of another output is started. -/
def StartsInstance (A : Answers) (f : Frame) : Prop :=
  IpcPayloadType.ofCode f.type = some .command ∧
    .serve ∈ (A.executeCommand (commandString f.payload)).1

/-- Every branch of `ipc_client_handle_command` sends one reply, of the type of the request. -/
theorem handlePayload_answered (hs : s.Inv) (h : s.heap c = some k) {A : Answers} {f : Frame}
    (heq : handlePayload W A s c f.type f.payload = .ok s') :
    Answered c (replyTypes f.type) (StartsInstance A f) s s' := by
  have hstatus : sendStatus W s c f.type .unsupported = .ok s' →
      Answered c (replyTypes f.type) (StartsInstance A f) s s' :=
    fun heq => (sendStatus_answered hs heq).2
  have hquery : ∀ t, handlePayload.query W A s c f.type t = .ok s' →
      Answered c (replyTypes f.type) (StartsInstance A f) s s' :=
    fun t heq => (sendReply_answered hs heq).2
  rw [handlePayload] at heq
  cases htype : IpcPayloadType.ofCode f.type with
  | none =>
    rw [htype] at heq
    exact hstatus heq
  | some t =>
    rw [htype] at heq
    cases t with
    | command =>
      obtain ⟨s₁, hsignals, heq⟩ := Machine.bind_ok_iff.mp heq
      obtain ⟨hreplied, hs₁⟩ := performSignals_replied (c := c) _ hs hsignals
      exact .of_replied (hreplied.mono fun hserve => ⟨htype, hserve⟩)
        (sendReply_answered hs₁ heq).2
    | sendTick =>
      obtain ⟨s₁, htick, heq⟩ := Machine.bind_ok_iff.mp heq
      rw [sendTick_eq] at htick
      obtain ⟨hreplied, hs₁⟩ := signalEvent_replied (c := c) hs htick
      exact .of_replied hreplied (sendStatus_answered hs₁ heq).2
    | subscribe => exact handleSubscribe_answered hs h heq
    | unsubscribe => exact handleUnsubscribe_answered hs h heq
    | getOutputs | getWorkspaces | getInputs | getVersion | getSeats | getConfig | getTree =>
      exact hquery _ heq
    | getMarks | getBarConfig | getBindingModes | sync | getBindingState => exact hstatus heq

lemma Answered.replied (h : Answered c ts p s s') : ∃ ts', Replied c ts' p s s' := by
  by_cases hlive : s'.Live c
  · exact ⟨ts, h.1 hlive⟩
  · exact h.2 hlive

/-! ## Runs -/

/-- The replies that have been queued to the client answer its requests, in their order. -/
def InStep (s : Server) (c : ℕ) : Prop :=
  (repliesFor c s.log).map Frame.type
    = (dispatchedFor c s.log).flatMap fun f => replyTypes f.type

/-- Only reading hands a request over. -/
lemma Moves.dispatched_eq {es : List Effect} (h : Moves W s es s') (hlt : c < s.nextClient)
    (hes : ∀ e ∈ es, e ≠ .read c) : dispatchedFor c s'.log = dispatchedFor c s.log := by
  induction h with
  | nil => rfl
  | @cons s s₁ s₂ e es hm _ ih =>
    rw [ih (hlt.trans_le hm.nextClient_le) fun e he => hes e (List.mem_cons_of_mem _ he)]
    have hview := hm.view hlt
    generalize hv : s.view c = v at hview
    generalize hv' : s₁.view c = v' at hview
    change (s₁.view c).dispatched = (s.view c).dispatched
    rw [hv, hv']
    cases hview with
    | header | badHeader | payload | bare => exact absurd rfl (hes _ List.mem_cons_self)
    | _ => rfl

/-- A client that has connected before is not brought back. -/
lemma Moves.live_of {es : List Effect} (h : Moves W s es s') (hlt : c < s.nextClient)
    (hc : s'.Live c) : s.Live c := by
  induction h with
  | nil => exact hc
  | @cons s s₁ s₂ e es hm _ ih =>
    obtain ⟨k, hk⟩ := ih (hlt.trans_le hm.nextClient_le) hc
    have hview := hm.view hlt
    change (s₁.view c).record = some k at hk
    change ∃ k, (s.view c).record = some k
    generalize s.view c = v at hview
    generalize s₁.view c = v' at hview hk
    cases hview with
    | skip => exact ⟨k, hk⟩
    | refuse | drop | badHeader => cases hk
    | enqueue h | setMask h | arrive h | header h | payload h | bare h | write h => exact ⟨_, h⟩

lemma Moves.nextClient_eq {es : List Effect} (h : Moves W s es s')
    (hes : ∀ e ∈ es, e ≠ .connect) : s'.nextClient = s.nextClient := by
  induction h with
  | nil => rfl
  | @cons s s₁ s₂ e es hm _ ih =>
    rw [ih fun e he => hes e (List.mem_cons_of_mem _ he)]
    cases hm with
    | connect => exact absurd rfl (hes _ List.mem_cons_self)
    | _ => rfl

/-- Requests that have been read are answered. -/
lemma Replied.inStep {l : List Frame} {c₀ : ℕ} (hr : Replied c₀ ts p s₁ s') (h : s.InStep c)
    (hqueued : queuedFor c s₁.log = queuedFor c s.log)
    (hdispatched : dispatchedFor c s₁.log = dispatchedFor c s.log ++ l)
    (hts : (if c = c₀ then ts else []) = l.flatMap fun f => replyTypes f.type) : s'.InStep c := by
  obtain ⟨obs, hlog, hreplies, hnone, -⟩ := hr
  have hsame : repliesFor c s₁.log = repliesFor c s.log := by rw [repliesFor, hqueued, repliesFor]
  rw [InStep, hlog, repliesFor_append, dispatchedFor_append, List.map_append, hsame, h, hreplies,
    hnone, hts, hdispatched, List.append_nil, List.flatMap_append]

/-- A client that has not connected before connects in the step. -/
lemma newcomer {i : Input} (hs : s.Inv) (hstep : step W s i = .ok s') (hlive : s'.Live c)
    (hnew : ¬ c < s.nextClient) : s' = s.handleConnection ∧ c = s.nextClient := by
  obtain ⟨es, hmoves, hes⟩ := step_moves hs hstep
  have hlt := (hmoves.inv hs).live_lt c hlive
  obtain rfl : i = .connection true := by
    by_contra hi
    refine hnew ((hmoves.nextClient_eq fun e he hcon => ?_) ▸ hlt)
    have hallow := hes e he
    rw [hcon] at hallow
    cases i with
    | connection accepted =>
      cases accepted with
      | false =>
        cases hstep
        exact hnew (hs.live_lt c hlive)
      | true => exact hi rfl
    | readable | writable | serve | displayDestroy | arrive | signal =>
      simp [Input.Allows, Effect.Output] at hallow
  cases hstep
  exact ⟨rfl, le_antisymm (Nat.le_of_lt_succ hlt) (not_lt.mp hnew)⟩

/-- A client that connects has neither requests nor replies. -/
lemma inStep_handleConnection (hs : s.Inv) : s.handleConnection.InStep s.nextClient := by
  have hview := view_handleConnection hs
  have hqueued : queuedFor s.nextClient s.handleConnection.log = [] := congrArg View.queued hview
  have hdispatched : dispatchedFor s.nextClient s.handleConnection.log = [] :=
    congrArg View.dispatched hview
  rw [InStep, repliesFor, hqueued, hdispatched]
  rfl

/-- A step keeps the clients in step. -/
lemma step_inStep (hs : s.Inv) (h : ∀ c, s.Live c → s.InStep c) {i : Input}
    (hstep : step W s i = .ok s') : ∀ c, s'.Live c → s'.InStep c := by
  obtain ⟨es, hmoves, hes⟩ := step_moves hs hstep
  intro c hlive
  by_cases hnew : c < s.nextClient
  swap
  · obtain ⟨rfl, rfl⟩ := newcomer hs hstep hlive hnew
    exact inStep_handleConnection hs
  have hbefore := h c (hmoves.live_of hnew hlive)
  have hquiet : (∀ e ∈ es, e ≠ .enqueue c ∧ e ≠ .read c) → s'.InStep c := by
    intro hes
    have hr : Replied c [] True s' s' := .refl
    refine hr.inStep hbefore (hmoves.queued_eq hnew fun e he => (hes e he).1) (l := []) ?_ ?_
    · rw [hmoves.dispatched_eq hnew fun e he => (hes e he).2, List.append_nil]
    · simp
  cases i with
  | serve | displayDestroy | connection | arrive | writable =>
    refine hquiet fun e he => ?_
    have hallow := hes e he
    constructor <;> rintro rfl <;> simp [Input.Allows] at hallow
  | signal ev json =>
    exact (signalEvent_replied (c := c) (p := True) hs hstep).1.inStep hbefore rfl
      (List.append_nil _).symm (by simp)
  | readable c₀ mask calls A =>
    by_cases hsource : s.readSources c₀ = true
    swap
    · rw [step, if_neg hsource] at hstep
      cases hstep
      exact hbefore
    obtain ⟨k, hk⟩ := (hs.read_iff c₀).mp hsource
    rw [step, if_pos hsource] at hstep
    rcases clientHandleReadable_cases (W := W) hk A mask calls with
      ⟨f, es₁, s₁, k₁, -, hmoves₁, hread, h₁, hover, heq⟩ | ⟨-, es₁, s₁, heq, hmoves₁, hsame, hes₁⟩
    · rw [heq] at hstep
      have hanswered := handlePayload_answered (hmoves₁.inv hs) h₁ hstep
      have hqueued : queuedFor c s₁.log = queuedFor c s.log :=
        hmoves₁.queued_eq hnew fun e he => by rw [hread e he]; rintro ⟨⟩
      by_cases hc : c = c₀
      · -- the client that has sent the request gets the reply
        subst hc
        exact (hanswered.1 hlive).inStep hbefore hqueued hover.dispatched_eq (by simp)
      · obtain ⟨ts, hreplied⟩ := hanswered.replied
        refine hreplied.inStep hbefore hqueued (l := []) ?_ (by simp [hc])
        rw [hmoves₁.dispatched_eq hnew fun e he hcon => ?_, List.append_nil]
        rw [hread e he] at hcon
        exact hc (by cases hcon; rfl)
    · cases heq.symm.trans hstep
      have hr : Replied c [] True s' s' := .refl
      refine hr.inStep hbefore (hmoves₁.queued_eq hnew fun e he hcon => ?_) (l := []) ?_ (by simp)
      · rcases hes₁ e he with he | ⟨he, -⟩ <;> rw [he] at hcon <;> cases hcon
      · rw [hsame, List.append_nil]

lemma Reachable.inStep (h : Reachable W s) : ∀ c, s.Live c → s.InStep c := by
  obtain ⟨is, hrun⟩ := h
  refine (Machine.run_invariant (step W) (I := fun s => s.Inv ∧ ∀ c, s.Live c → s.InStep c) ?_
    ⟨inv_init, fun c hc => ?_⟩ hrun).2
  · rintro s i s' ⟨hs, h⟩ hstep
    exact ⟨step_inv hs hstep, step_inStep hs h hstep⟩
  · obtain ⟨k, hk⟩ := hc
    cases hk

/-- The replies to a client that is connected stand for its requests one by one, in their order and
with their types. -/
theorem replies_match_requests (h : Reachable W s) (hlive : s.Live c)
    (hrequests : ∀ f ∈ dispatchedFor c s.log, isEventType f.type = false) :
    (repliesFor c s.log).map Frame.type = (dispatchedFor c s.log).map Frame.type := by
  rw [h.inStep c hlive]
  generalize dispatchedFor c s.log = fs at hrequests
  induction fs with
  | nil => rfl
  | cons f fs ih =>
    rw [List.flatMap_cons, replyTypes, hrequests f List.mem_cons_self, List.map_cons,
      ih fun g hg => hrequests g (List.mem_cons_of_mem f hg)]
    rfl

/-- A client that has subscribed to ticks has got one reply, beside the first tick. -/
theorem subscriber_answered : (repliesFor 0 twoClients.log).map Frame.type = [2] := by
  have hlive : twoClients.Live 0 := by decide +kernel
  rw [replies_match_requests reachable_twoClients hlive (by decide +kernel)]
  decide +kernel

end Server

end WayfireIpc
