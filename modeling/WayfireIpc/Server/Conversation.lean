/-
# The protocol

What passes between the server and one client, against the rules of the protocol: the requests of a
client are answered one by one, and in between it gets the events it has subscribed to.  The record
that the server keeps of a client holds no more than where the session with it stands.
-/
import WayfireIpc.Lib.Session
import WayfireIpc.Server.Subscriptions
import WayfireIpc.Server.Listing

namespace WayfireIpc

lemma IpcPayloadType.code_of_ofCode {n : UInt32} {t : IpcPayloadType} (h : ofCode n = some t) :
    t.code = n := by
  simpa using List.find?_some h

/-! ## The rules -/

/-- The event types, for the types of messages. -/
def IpcEventType.all : List IpcEventType :=
  [.workspace, .output, .mode, .window, .binding, .shutdown, .tick, .input]

/-- The message is one of an event that has its bit in the mask. -/
def hears (m : BitVec 64) (g : Frame) : Bool :=
  IpcEventType.all.any fun ev => ev.code = g.type && m.getLsbD ev.bit

namespace SubscriptionRequest

variable (W : World) (r : SubscriptionRequest)

instance : Decidable (r.Supported W) := inferInstanceAs (Decidable (∀ event ∈ _, _ = true))

/-- The mask behind the answer to the request. -/
def maskBehind (m : BitVec 64) : BitVec 64 :=
  if r.Empty W then m else if r.Supported W then r.apply W m else r.failedMask W m

/-- The status that the request is answered with. -/
def status : ReturnStatus :=
  if r.Empty W then .invalidParameter else if r.Supported W then .success else .unsupported

end SubscriptionRequest

/-- The message as a subscription request. -/
def subscriptionOf (f : Frame) : Option SubscriptionRequest :=
  match IpcPayloadType.ofCode f.type with
  | some .subscribe => some (.subscribe f.payload)
  | some .unsubscribe => some (.unsubscribe f.payload)
  | _ => none

/-- The status in the answer to a request, for the requests that are answered with a status. -/
def answerStatus (W : World) (f : Frame) : Option ReturnStatus :=
  match IpcPayloadType.ofCode f.type with
  | some .command | some .getOutputs | some .getWorkspaces | some .getInputs | some .getVersion
  | some .getSeats | some .getConfig | some .getTree => none
  | some .sendTick => some .success
  | some .subscribe => some ((SubscriptionRequest.subscribe f.payload).status W)
  | some .unsubscribe => some ((SubscriptionRequest.unsubscribe f.payload).status W)
  | _ => some .unsupported

/-- The rules of a session with a client. -/
def protocol (W : World) : SessionRules Frame Frame (BitVec 64) where
  init := 0
  after m f := (subscriptionOf f).elim m fun r => r.maskBehind W m
  answers f g := g.type = f.type &&
    (answerStatus W f).all fun status => g.payload = Server.statusMessage status
  notice := hears

/-- The session with a client, as the log has it. -/
def conversation (c : ℕ) (log : List Obs) : List (Talk Frame Frame) :=
  log.filterMap fun
    | .dispatched c' f => if c' = c then some (.request f) else none
    | .queued c' f => if c' = c then some (.message f) else none
    | _ => none

lemma conversation_append (c : ℕ) (log log' : List Obs) :
    conversation c (log ++ log') = conversation c log ++ conversation c log' :=
  List.filterMap_append

lemma requests_conversation (c : ℕ) (log : List Obs) :
    Talk.requests (conversation c log) = dispatchedFor c log := by
  rw [Talk.requests, conversation, List.filterMap_filterMap, dispatchedFor,
    List.filterMap_eq_flatMap_toList]
  refine List.flatMap_congr fun o _ => ?_
  cases o with
  | dispatched c' f | queued c' f => by_cases hc : c' = c <;> simp [hc]
  | _ => rfl

lemma messages_conversation (c : ℕ) (log : List Obs) :
    Talk.messages (conversation c log) = queuedFor c log := by
  rw [Talk.messages, conversation, List.filterMap_filterMap, queuedFor,
    List.filterMap_eq_flatMap_toList]
  refine List.flatMap_congr fun o _ => ?_
  cases o with
  | dispatched c' f | queued c' f => by_cases hc : c' = c <;> simp [hc]
  | _ => rfl

/-- A part of the log in which no request is handed over. -/
lemma conversation_eq_messages {c : ℕ} {log : List Obs} (h : dispatchedFor c log = []) :
    conversation c log = (queuedFor c log).map .message := by
  rw [← messages_conversation]
  exact Talk.eq_map_message ((requests_conversation c log).trans h)

/-- A part of the log in which nothing is queued. -/
lemma conversation_eq_requests {c : ℕ} {log : List Obs} (h : queuedFor c log = []) :
    conversation c log = (dispatchedFor c log).map .request := by
  rw [← requests_conversation]
  exact Talk.eq_map_request ((messages_conversation c log).trans h)

/-- Entries about other clients. -/
lemma conversation_of_others {c : ℕ} {log : List Obs} (h : ∀ o ∈ log, o.client ≠ some c) :
    conversation c log = [] := by
  refine List.filterMap_eq_nil_iff.mpr fun o ho => ?_
  have hne := h o ho
  cases o with
  | dispatched c' f | queued c' f =>
    have hc : c' ≠ c := fun hc => hne (congrArg some hc)
    simp [hc]
  | _ => rfl

lemma hears_of_subscribed {k : I3IpcClient} {ev : IpcEventType} (h : k.Subscribed ev)
    {g : Frame} (hg : g.type = ev.code) : hears k.subscribedEvents g = true := by
  refine List.any_eq_true.mpr ⟨ev, by cases ev <;> decide, ?_⟩
  simp [hg, Server.subscribed_iff.mp h]

/-- A request whose type is no event type is not answered by an event. -/
lemma not_answers_of_hears {W : World} {f g : Frame} {m : BitVec 64}
    (hf : isEventType f.type = false) (hg : hears m g = true) :
    (protocol W).answers f g = false := by
  obtain ⟨ev, -, hev⟩ := List.any_eq_true.mp hg
  have hcode : ev.code = g.type := by simp_all
  have hne : g.type ≠ f.type := by
    rintro heq
    rw [← heq, ← hcode, isEventType_code] at hf
    cases hf
  simp [protocol, hne]

namespace Server

variable {W : World} {s s' s₁ s₂ : Server} {c c₀ : ℕ} {k : I3IpcClient}

/-! ## Events -/

lemma conversation_entriesFor (c : ℕ) (log : List Obs) :
    conversation c (entriesFor c log) = conversation c log := by
  induction log with
  | nil => rfl
  | cons o log ih =>
    by_cases ho : o.client = some c
    · rw [entriesFor, List.filter_cons_of_pos (by simpa using ho), ← entriesFor,
        ← List.singleton_append, conversation_append, ih, ← conversation_append]
      rfl
    · have hnil : conversation c [o] = [] :=
        conversation_of_others fun o' ho' => by rwa [List.mem_singleton.mp ho']
      rw [entriesFor, List.filter_cons_of_neg (by simpa using ho), ← entriesFor, ih,
        ← List.singleton_append, conversation_append, hnil, List.nil_append]

/-- The messages `l` are queued to the client, and no request of it is handed over. -/
def Says (c : ℕ) (l : List Frame) (s s' : Server) : Prop :=
  conversation c s'.log = conversation c s.log ++ l.map .message

lemma Says.refl : Says c [] s s := by simp [Says]

lemma Says.trans {l l' : List Frame} (h : Says c l s s₁) (h' : Says c l' s₁ s₂) :
    Says c (l ++ l') s s₂ := by
  rw [Says, h', h, List.map_append, List.append_assoc]

lemma Says.of_log {obs : List Obs} (hlog : s'.log = s.log ++ obs)
    (hobs : dispatchedFor c obs = []) : Says c (queuedFor c obs) s s' := by
  rw [Says, hlog, conversation_append, conversation_eq_messages hobs]

/-- The client is sent nothing but events that it has subscribed to, and its mask is left. -/
structure Informs (c : ℕ) (s s' : Server) : Prop where
  messages : ∃ l, Says c l s s' ∧
    ∀ g ∈ l, ∃ k, s.heap c = some k ∧ hears k.subscribedEvents g = true
  mask : ∀ k', s'.heap c = some k' →
    ∃ k, s.heap c = some k ∧ k'.subscribedEvents = k.subscribedEvents

lemma Informs.refl : Informs c s s := ⟨⟨[], .refl, by simp⟩, fun k hk => ⟨k, hk, rfl⟩⟩

lemma Informs.trans (h : Informs c s s₁) (h' : Informs c s₁ s₂) : Informs c s s₂ := by
  obtain ⟨l, hl, hheard⟩ := h.messages
  obtain ⟨l', hl', hheard'⟩ := h'.messages
  refine ⟨⟨l ++ l', hl.trans hl', fun g hg => ?_⟩, fun k₂ hk₂ => ?_⟩
  · rcases List.mem_append.mp hg with hg | hg
    · exact hheard g hg
    · obtain ⟨k₁, hk₁, hg⟩ := hheard' g hg
      obtain ⟨k, hk, hmask⟩ := h.mask k₁ hk₁
      exact ⟨k, hk, hmask ▸ hg⟩
  · obtain ⟨k₁, hk₁, hmask₁⟩ := h'.mask k₂ hk₂
    obtain ⟨k, hk, hmask⟩ := h.mask k₁ hk₁
    exact ⟨k, hk, hmask₁.trans hmask⟩

/-- Nothing is said to a client whose record and whose part of the log stay. -/
lemma Informs.of_others {obs : List Obs} (hheap : s'.heap c = s.heap c)
    (hlog : s'.log = s.log ++ obs) (hobs : ∀ o ∈ obs, o.client ≠ some c) : Informs c s s' := by
  refine ⟨⟨[], ?_, by simp⟩, fun k hk => ⟨k, hheap ▸ hk, rfl⟩⟩
  rw [Says, hlog, conversation_append, conversation_of_others hobs]
  rfl

lemma Informs.live (h : Informs c s s') (hlive : s'.Live c) : s.Live c := by
  obtain ⟨k', hk'⟩ := hlive
  obtain ⟨k, hk, -⟩ := h.mask k' hk'
  exact ⟨k, hk⟩

lemma signalEvent_informs (hs : s.Inv) {ev : IpcEventType} {json : Buf}
    (heq : s.signalEvent W ev json = .ok s') : Informs c s s' ∧ s'.Inv := by
  obtain ⟨s₁, heq₁, hvisits⟩ := signalEvent_visits (W := W) hs ev json
  cases heq₁.symm.trans heq
  refine ⟨?_, hvisits.outputs.inv hs⟩
  by_cases hc : c ∈ s.ipcClientList
  swap
  · refine .of_others (hvisits.others c hc) hvisits.log_eq fun o ho => ?_
    obtain ⟨a, ha, ho⟩ := List.mem_flatMap.mp ho
    rw [client_eventObs ho]
    rintro ⟨⟩
    exact hc ha
  obtain ⟨k, hk⟩ := hs.listed_live c hc
  have hvisited := hvisits.visited c hc
  have htalk : conversation c s'.log
      = conversation c s.log ++ conversation c (s.eventObs W ev json c) := by
    rw [hvisits.log_eq, conversation_append,
      ← conversation_entriesFor c (s.ipcClientList.flatMap _),
      entriesFor_visits hs.list_nodup, if_pos hc]
  simp only [eventObs, hk] at htalk
  by_cases hsub : k.Subscribed ev
  · by_cases hacc : k.Accepts W c (eventLength json)
    · -- the event is delivered
      rw [if_neg (not_not.mpr hsub), if_pos hacc] at htalk
      obtain ⟨k', hk', henq⟩ := hvisited.delivered k hk hsub hacc
      refine ⟨⟨[replyFrame ev.code json.cStr], ?_, ?_⟩, fun k₁ hk₁ => ?_⟩
      · rw [Says, htalk]
        simp [conversation]
      · intro g hg
        rw [List.mem_singleton.mp hg]
        exact ⟨k, hk, hears_of_subscribed hsub rfl⟩
      · cases hk'.symm.trans hk₁
        exact ⟨k, hk, henq.subscribed_eq⟩
    · -- the client is taken away
      rw [if_neg (not_not.mpr hsub), if_neg hacc] at htalk
      have hnone := hvisited.removed k hk hsub hacc
      refine ⟨⟨[], ?_, by simp⟩, fun k₁ hk₁ => ?_⟩
      · rw [Says, htalk]
        rcases client_refusal c k (eventLength json) with ho | ho <;> rw [ho] <;> rfl
      · rw [hnone] at hk₁
        cases hk₁
  · rw [if_pos hsub] at htalk
    refine ⟨⟨[], by rw [Says, htalk]; rfl, by simp⟩, fun k₁ hk₁ => ?_⟩
    cases (hvisited.skipped k hk hsub).symm.trans hk₁
    exact ⟨k, hk, rfl⟩

lemma performSignals_informs : ∀ (signals : List Signal) {s s' : Server}, s.Inv →
    performSignals W s signals = .ok s' → Informs c s s' ∧ s'.Inv := by
  intro signals
  induction signals with
  | nil =>
    rintro s s' hs heq
    cases heq
    exact ⟨.refl, hs⟩
  | cons sig rest ih =>
    intro s s' hs heq
    cases sig with
    | event ev json =>
      obtain ⟨s₁, heq₁, hrest⟩ := Machine.bind_ok_iff.mp heq
      obtain ⟨hinforms₁, hs₁⟩ := signalEvent_informs (c := c) hs heq₁
      obtain ⟨hinforms, hs'⟩ := ih hs₁ hrest
      exact ⟨hinforms₁.trans hinforms, hs'⟩
    | serve =>
      obtain ⟨hinforms, hs'⟩ := ih hs.serve heq
      have hserve : Informs c s s.serve := .of_others rfl rfl (by simp [Obs.client])
      exact ⟨hserve.trans hinforms, hs'⟩

/-! ## Replies -/

/-- A reply says nothing to another client. -/
lemma sendReply_informs (hs : s.Inv) (hne : c ≠ c₀) {t : UInt32} {payload : Buf} {b : Bool}
    (heq : sendReply W s c₀ t payload = .ok (b, s')) : Informs c s s' := by
  obtain ⟨k, hk⟩ := live_of_sendReply heq
  by_cases hacc : k.Accepts W c₀ (payload.length % 2 ^ 32)
  · obtain ⟨k₁, -, hsend⟩ := sendReply_accepted (t := t) hk (hs.wf c₀ k hk) hacc
    cases heq.symm.trans hsend
    exact .of_others (Function.update_of_ne hne _ _) rfl (by simpa [Obs.client] using hne.symm)
  · cases heq.symm.trans (sendReply_refused hk (hs.wf c₀ k hk) hacc)
    have hlog : (s.refused c₀ k (refusal c₀ k (payload.length % 2 ^ 32))).log
        = s.log ++ [refusal c₀ k (payload.length % 2 ^ 32), .disconnected c₀] := by
      simp [refused, drop, note]
    refine .of_others (Function.update_of_ne hne _ _) hlog fun o ho => ?_
    rcases List.mem_cons.mp ho with rfl | ho
    · rw [refusal_client]
      simpa using hne.symm
    · rw [List.mem_singleton.mp ho]
      simpa [Obs.client] using hne.symm

/-- The client gets the reply, or it is taken away. -/
lemma sendReply_says (hs : s.Inv) (hk : s.heap c = some k) {t : UInt32} {payload : Buf} {b : Bool}
    (heq : sendReply W s c t payload = .ok (b, s')) :
    (Says c [replyFrame t payload] s s' ∧
        ∃ k', s'.heap c = some k' ∧ k'.subscribedEvents = k.subscribedEvents) ∨
      (Says c [] s s' ∧ s'.heap c = none) := by
  by_cases hacc : k.Accepts W c (payload.length % 2 ^ 32)
  · obtain ⟨k₁, hk₁, hsend⟩ := sendReply_accepted (t := t) hk (hs.wf c k hk) hacc
    cases heq.symm.trans hsend
    refine Or.inl ⟨?_, k₁, enqueued_heap, hk₁.subscribed_eq⟩
    rw [Says, enqueued, conversation_append]
    simp [conversation]
  · cases heq.symm.trans (sendReply_refused hk (hs.wf c k hk) hacc)
    refine Or.inr ⟨?_, by simp [refused, drop, note]⟩
    rw [Says, refused, drop, note, conversation_append, conversation_append]
    rcases client_refusal c k (payload.length % 2 ^ 32) with ho | ho <;> rw [ho] <;>
      simp [conversation]

/-- From `s` to `s'` the session with the client goes on from `q`, and to `q'` if the client is
there at the end. -/
def Settles (W : World) (c : ℕ) (q q' : SessionState Frame (BitVec 64)) (s s' : Server) : Prop :=
  ∃ l q₁, Says c l s s' ∧ (protocol W).follow q (l.map .message) = .ok q₁ ∧
    ∀ k', s'.heap c = some k' → q₁ = q' ∧ k'.subscribedEvents = q'.topic

variable {q q' q₁ q₂ : SessionState Frame (BitVec 64)} {f : Frame} {m : BitVec 64}

lemma Settles.trans (h : Settles W c q q₁ s s₁) (hlive : s₁.Live c)
    (h' : Settles W c q₁ q₂ s₁ s₂) : Settles W c q q₂ s s₂ := by
  obtain ⟨l, p, hl, hfollow, hend⟩ := h
  obtain ⟨l', p', hl', hfollow', hend'⟩ := h'
  obtain ⟨k₁, hk₁⟩ := hlive
  obtain ⟨rfl, -⟩ := hend k₁ hk₁
  refine ⟨l ++ l', p', hl.trans hl', ?_, hend'⟩
  rw [List.map_append]
  exact SessionRules.follow_append.mpr ⟨p, hfollow, hfollow'⟩

lemma Settles.mask {k' : I3IpcClient} (h : Settles W c q q' s s') (hk' : s'.heap c = some k') :
    k'.subscribedEvents = q'.topic := by
  obtain ⟨l, p, -, -, hend⟩ := h
  exact (hend k' hk').2

/-- Events leave the session where it stands. -/
lemma Informs.settles (h : Informs c s s') (hk : ∀ k, s.heap c = some k → k.subscribedEvents = q.topic)
    (hq : ∀ f, q.owed = some f → isEventType f.type = false) : Settles W c q q s s' := by
  obtain ⟨l, hl, hheard⟩ := h.messages
  have hnotice : ∀ g ∈ l, hears q.topic g = true := by
    intro g hg
    obtain ⟨k, hk', hg⟩ := hheard g hg
    exact hk k hk' ▸ hg
  refine ⟨l, q, hl, SessionRules.follow_notices ?_ hnotice, fun k' hk' => ⟨rfl, ?_⟩⟩
  · exact fun g hg f hf => not_answers_of_hears (hq f hf) (hnotice g hg)
  · obtain ⟨k, hk₀, hmask⟩ := h.mask k' hk'
    rw [hmask, hk k hk₀]

/-- The answer that is due. -/
lemma sendReply_settles (hs : s.Inv) (hk : s.heap c = some k)
    (hmask : k.subscribedEvents = (protocol W).after m f) {payload : Buf} {b : Bool}
    (hanswer : ∀ status, answerStatus W f = some status → payload = statusMessage status)
    (heq : sendReply W s c f.type payload = .ok (b, s')) :
    Settles W c ⟨m, some f⟩ ⟨(protocol W).after m f, none⟩ s s' := by
  rcases sendReply_says hs hk heq with ⟨hsaid, k', hk', hmask'⟩ | ⟨hsaid, hnone⟩
  · have hframe : (protocol W).answers f (replyFrame f.type payload) = true := by
      simp only [protocol, replyFrame, decide_true, Bool.true_and, Option.all_eq_true,
        decide_eq_true_eq]
      intro status hstatus
      obtain rfl := hanswer status hstatus
      rw [length_statusMessage, List.take_length]
    refine ⟨_, _, hsaid, ?_, fun k₁ hk₁ => ⟨rfl, ?_⟩⟩
    · rw [List.map_singleton, SessionRules.follow_one]
      exact SessionRules.hear_answer rfl hframe
    · cases hk'.symm.trans hk₁
      exact hmask'.trans hmask
  · refine ⟨[], _, hsaid, rfl, fun k₁ hk₁ => ?_⟩
    rw [hnone] at hk₁
    cases hk₁

lemma sendStatus_settles (hs : s.Inv) (hk : s.heap c = some k)
    (hmask : k.subscribedEvents = (protocol W).after m f) {status : ReturnStatus}
    (hanswer : answerStatus W f = some status)
    (heq : sendStatus W s c f.type status = .ok s') :
    Settles W c ⟨m, some f⟩ ⟨(protocol W).after m f, none⟩ s s' := by
  obtain ⟨⟨b, s₁⟩, hsend, heq⟩ := Machine.bind_ok_iff.mp heq
  cases heq
  refine sendReply_settles hs hk hmask (fun status' hstatus' => ?_) hsend
  rw [hanswer] at hstatus'
  cases hstatus'
  rfl

/-- A `SUBSCRIBE` is answered, and a first tick event may follow. -/
lemma handleSubscribe_settles (hs : s.Inv) (hk : s.heap c = some k)
    (hf : IpcPayloadType.ofCode f.type = some .subscribe)
    (heq : handleSubscribe W s c f.type f.payload = .ok s') :
    Settles W c ⟨k.subscribedEvents, some f⟩
      ⟨(protocol W).after k.subscribedEvents f, none⟩ s s' := by
  have hafter : (protocol W).after k.subscribedEvents f
      = (SubscriptionRequest.subscribe f.payload).maskBehind W k.subscribedEvents := by
    simp [protocol, subscriptionOf, hf]
  have hstatus : answerStatus W f = some ((SubscriptionRequest.subscribe f.payload).status W) := by
    simp [answerStatus, hf]
  rcases handleSubscribe_cases hk heq with
    ⟨hempty, hsend⟩ | ⟨hempty, ⟨hnames, s₁, hsend, htick⟩ | ⟨hnames, hsend⟩⟩
  · have hempty : (SubscriptionRequest.subscribe f.payload).Empty W := hempty
    refine sendStatus_settles hs hk ?_ (hstatus.trans ?_) hsend
    · rw [hafter, SubscriptionRequest.maskBehind, if_pos hempty]
    · rw [SubscriptionRequest.status, if_pos hempty]
  · have hempty : ¬ (SubscriptionRequest.subscribe f.payload).Empty W := hempty
    have hnames : (SubscriptionRequest.subscribe f.payload).Supported W := hnames
    rw [SubscriptionRequest.maskBehind, if_neg hempty, if_pos hnames] at hafter
    have hs₁ := hs.setMask hk (subscribeMask k.subscribedEvents
      (eventNames (W.stringToJson f.payload).elements))
    have hanswer : Settles W c ⟨k.subscribedEvents, some f⟩
        ⟨(protocol W).after k.subscribedEvents f, none⟩ s s₁ := by
      refine sendStatus_settles (s := s.put c _) hs₁ put_heap hafter.symm (hstatus.trans ?_) hsend
      rw [SubscriptionRequest.status, if_neg hempty, if_pos hnames]
    rcases htick with ⟨-, rfl⟩ | ⟨hmem, b, htick⟩
    · exact hanswer
    · -- the tick event is one that the mask has by then
      obtain ⟨k₁, hk₁⟩ := live_of_sendReply htick
      have hmask₁ := hanswer.mask hk₁
      have hbit : k₁.Subscribed .tick := by
        rw [subscribed_iff, hmask₁, hafter, SubscriptionRequest.apply, getLsbD_subscribeMask,
          if_pos]
        exact List.any_eq_true.mpr ⟨ipcI3EventTick, hmem, by decide⟩
      refine hanswer.trans ⟨k₁, hk₁⟩ ?_
      have hs₂ := sendStatus_inv hs₁ put_heap hsend
      rcases sendReply_says hs₂ hk₁ htick with ⟨hsaid, k', hk', hmask'⟩ | ⟨hsaid, hnone⟩
      · refine ⟨_, _, hsaid, SessionRules.follow_notices (by simp) ?_, fun k₂ hk₂ => ⟨rfl, ?_⟩⟩
        · intro g hg
          have hheard : hears k₁.subscribedEvents g = true :=
            hears_of_subscribed hbit (by rw [List.mem_singleton.mp hg]; rfl)
          rwa [hmask₁] at hheard
        · cases hk'.symm.trans hk₂
          exact hmask'.trans hmask₁
      · refine ⟨[], _, hsaid, rfl, fun k₂ hk₂ => ?_⟩
        rw [hnone] at hk₂
        cases hk₂
  · have hempty : ¬ (SubscriptionRequest.subscribe f.payload).Empty W := hempty
    have hnames : ¬ (SubscriptionRequest.subscribe f.payload).Supported W := hnames
    rw [SubscriptionRequest.maskBehind, if_neg hempty, if_neg hnames] at hafter
    refine sendStatus_settles (s := s.put c _) (hs.setMask hk 0) put_heap hafter.symm
      (hstatus.trans ?_) hsend
    rw [SubscriptionRequest.status, if_neg hempty, if_neg hnames]

lemma handleUnsubscribe_settles (hs : s.Inv) (hk : s.heap c = some k)
    (hf : IpcPayloadType.ofCode f.type = some .unsubscribe)
    (heq : handleUnsubscribe W s c f.type f.payload = .ok s') :
    Settles W c ⟨k.subscribedEvents, some f⟩
      ⟨(protocol W).after k.subscribedEvents f, none⟩ s s' := by
  have hafter : (protocol W).after k.subscribedEvents f
      = (SubscriptionRequest.unsubscribe f.payload).maskBehind W k.subscribedEvents := by
    simp [protocol, subscriptionOf, hf]
  have hstatus :
      answerStatus W f = some ((SubscriptionRequest.unsubscribe f.payload).status W) := by
    simp [answerStatus, hf]
  rcases handleUnsubscribe_cases hk heq with
    ⟨hempty, hsend⟩ | ⟨hempty, ⟨hnames, hsend⟩ | ⟨hnames, hsend⟩⟩
  · have hempty : (SubscriptionRequest.unsubscribe f.payload).Empty W := hempty
    refine sendStatus_settles hs hk ?_ (hstatus.trans ?_) hsend
    · rw [hafter, SubscriptionRequest.maskBehind, if_pos hempty]
    · rw [SubscriptionRequest.status, if_pos hempty]
  · have hempty : ¬ (SubscriptionRequest.unsubscribe f.payload).Empty W := hempty
    have hnames : (SubscriptionRequest.unsubscribe f.payload).Supported W := hnames
    rw [SubscriptionRequest.maskBehind, if_neg hempty, if_pos hnames] at hafter
    refine sendStatus_settles (s := s.put c _) (hs.setMask hk _) put_heap hafter.symm
      (hstatus.trans ?_) hsend
    rw [SubscriptionRequest.status, if_neg hempty, if_pos hnames]
  · have hempty : ¬ (SubscriptionRequest.unsubscribe f.payload).Empty W := hempty
    have hnames : ¬ (SubscriptionRequest.unsubscribe f.payload).Supported W := hnames
    rw [SubscriptionRequest.maskBehind, if_neg hempty, if_neg hnames] at hafter
    refine sendStatus_settles (s := s.put c _) (hs.setMask hk _) put_heap hafter.symm
      (hstatus.trans ?_) hsend
    rw [SubscriptionRequest.status, if_neg hempty, if_neg hnames]

/-- Every request is settled. -/
theorem handlePayload_settles (hs : s.Inv) (hk : s.heap c = some k) {A : Answers}
    (heq : handlePayload W A s c f.type f.payload = .ok s') :
    Settles W c ⟨k.subscribedEvents, some f⟩
      ⟨(protocol W).after k.subscribedEvents f, none⟩ s s' := by
  have hplain : subscriptionOf f = none →
      k.subscribedEvents = (protocol W).after k.subscribedEvents f := by
    intro hf
    simp [protocol, hf]
  have hquery : ∀ t, subscriptionOf f = none → answerStatus W f = none →
      handlePayload.query W A s c f.type t = .ok s' →
      Settles W c ⟨k.subscribedEvents, some f⟩
        ⟨(protocol W).after k.subscribedEvents f, none⟩ s s' := by
    intro t hf hnone heq
    obtain ⟨⟨b, s₁⟩, hsend, heq⟩ := Machine.bind_ok_iff.mp heq
    cases heq
    exact sendReply_settles hs hk (hplain hf) (by simp [hnone]) hsend
  have hunsupported : subscriptionOf f = none → answerStatus W f = some .unsupported →
      sendStatus W s c f.type .unsupported = .ok s' →
      Settles W c ⟨k.subscribedEvents, some f⟩
        ⟨(protocol W).after k.subscribedEvents f, none⟩ s s' :=
    fun hf hstatus heq => sendStatus_settles hs hk (hplain hf) hstatus heq
  -- the events that come before the answer
  have hinformed : ∀ {s₁ : Server}, subscriptionOf f = none → isEventType f.type = false →
      Informs c s s₁ → s₁.Inv → s₁.Live c →
      (∀ k₁, s₁.heap c = some k₁ → k₁.subscribedEvents = (protocol W).after k.subscribedEvents f →
        Settles W c ⟨k.subscribedEvents, some f⟩
          ⟨(protocol W).after k.subscribedEvents f, none⟩ s₁ s') →
      Settles W c ⟨k.subscribedEvents, some f⟩
        ⟨(protocol W).after k.subscribedEvents f, none⟩ s s' := by
    intro s₁ hf htype hinforms hs₁ hlive hrest
    have hfirst : Settles W c ⟨k.subscribedEvents, some f⟩ ⟨k.subscribedEvents, some f⟩ s s₁ := by
      refine hinforms.settles (fun k₀ hk₀ => ?_) fun g hg => ?_
      · cases hk.symm.trans hk₀
        rfl
      · cases hg
        exact htype
    refine hfirst.trans hlive ?_
    obtain ⟨k₁, hk₁⟩ := hlive
    obtain ⟨k₀, hk₀, hmask⟩ := hinforms.mask k₁ hk₁
    cases hk.symm.trans hk₀
    exact hrest k₁ hk₁ (hmask.trans (hplain hf))
  rw [handlePayload] at heq
  cases htype : IpcPayloadType.ofCode f.type with
  | none =>
    rw [htype] at heq
    exact hunsupported (by simp [subscriptionOf, htype]) (by simp [answerStatus, htype]) heq
  | some t =>
    have hcode : f.type = t.code := (IpcPayloadType.code_of_ofCode htype).symm
    rw [htype] at heq
    cases t with
    | command =>
      obtain ⟨s₁, hsignals, heq⟩ := Machine.bind_ok_iff.mp heq
      obtain ⟨⟨b, s₂⟩, hsend, heq⟩ := Machine.bind_ok_iff.mp heq
      cases heq
      obtain ⟨hinforms, hs₁⟩ := performSignals_informs (c := c) _ hs hsignals
      refine hinformed (by simp [subscriptionOf, htype]) (by rw [hcode]; decide) hinforms hs₁
        (live_of_sendReply hsend) fun k₁ hk₁ hmask => ?_
      exact sendReply_settles hs₁ hk₁ hmask (by simp [answerStatus, htype]) hsend
    | sendTick =>
      obtain ⟨s₁, htick, heq⟩ := Machine.bind_ok_iff.mp heq
      rw [sendTick_eq] at htick
      obtain ⟨hinforms, hs₁⟩ := signalEvent_informs (c := c) hs htick
      obtain ⟨⟨b, s₂⟩, hsend, -⟩ := Machine.bind_ok_iff.mp heq
      refine hinformed (by simp [subscriptionOf, htype]) (by rw [hcode]; decide) hinforms hs₁
        (live_of_sendReply hsend) fun k₁ hk₁ hmask => ?_
      exact sendStatus_settles hs₁ hk₁ hmask (by simp [answerStatus, htype]) heq
    | subscribe => exact handleSubscribe_settles hs hk htype heq
    | unsubscribe => exact handleUnsubscribe_settles hs hk htype heq
    | getOutputs | getWorkspaces | getInputs | getVersion | getSeats | getConfig | getTree =>
      exact hquery _ (by simp [subscriptionOf, htype]) (by simp [answerStatus, htype]) heq
    | getMarks | getBarConfig | getBindingModes | sync | getBindingState =>
      exact hunsupported (by simp [subscriptionOf, htype]) (by simp [answerStatus, htype]) heq

/-- A status says nothing to another client. -/
lemma sendStatus_informs (hs : s.Inv) (hne : c ≠ c₀) {t : UInt32} {status : ReturnStatus}
    (heq : sendStatus W s c₀ t status = .ok s') : Informs c s s' := by
  obtain ⟨⟨b, s₁⟩, hsend, heq⟩ := Machine.bind_ok_iff.mp heq
  cases heq
  exact sendReply_informs hs hne hsend

lemma put_informs (hne : c ≠ c₀) {k' : I3IpcClient} : Informs c s (s.put c₀ k') :=
  .of_others (Function.update_of_ne hne _ _) (List.append_nil _).symm (by simp)

/-- While a request of another client is handled, the client gets events at most. -/
lemma handlePayload_informs (hs : s.Inv) (hne : c ≠ c₀) (hk : s.heap c₀ = some k) {A : Answers}
    (heq : handlePayload W A s c₀ f.type f.payload = .ok s') : Informs c s s' := by
  have hquery : ∀ t, handlePayload.query W A s c₀ f.type t = .ok s' → Informs c s s' := by
    intro t heq
    obtain ⟨⟨b, s₁⟩, hsend, heq⟩ := Machine.bind_ok_iff.mp heq
    cases heq
    exact sendReply_informs hs hne hsend
  have hset : ∀ (m : BitVec 64) {t : UInt32} {status : ReturnStatus} {s₁ : Server},
      sendStatus W (s.put c₀ { k with subscribedEvents := m }) c₀ t status = .ok s₁ →
      Informs c s s₁ :=
    fun m _ _ _ hstatus => (put_informs hne).trans (sendStatus_informs (hs.setMask hk m) hne hstatus)
  rw [handlePayload] at heq
  cases htype : IpcPayloadType.ofCode f.type with
  | none =>
    rw [htype] at heq
    exact sendStatus_informs hs hne heq
  | some t =>
    rw [htype] at heq
    cases t with
    | command =>
      obtain ⟨s₁, hsignals, heq⟩ := Machine.bind_ok_iff.mp heq
      obtain ⟨⟨b, s₂⟩, hsend, heq⟩ := Machine.bind_ok_iff.mp heq
      cases heq
      obtain ⟨hinforms, hs₁⟩ := performSignals_informs (c := c) _ hs hsignals
      exact hinforms.trans (sendReply_informs hs₁ hne hsend)
    | sendTick =>
      obtain ⟨s₁, htick, heq⟩ := Machine.bind_ok_iff.mp heq
      rw [sendTick_eq] at htick
      obtain ⟨hinforms, hs₁⟩ := signalEvent_informs (c := c) hs htick
      exact hinforms.trans (sendStatus_informs hs₁ hne heq)
    | subscribe =>
      rcases handleSubscribe_cases hk heq with
        ⟨-, hstatus⟩ | ⟨-, ⟨-, s₁, hstatus, htick⟩ | ⟨-, hstatus⟩⟩
      · exact sendStatus_informs hs hne hstatus
      · rcases htick with ⟨-, rfl⟩ | ⟨-, b, htick⟩
        · exact hset _ hstatus
        · have hs₁ := sendStatus_inv (hs.setMask hk _) put_heap hstatus
          exact (hset _ hstatus).trans (sendReply_informs hs₁ hne htick)
      · exact hset _ hstatus
    | unsubscribe =>
      rcases handleUnsubscribe_cases hk heq with ⟨-, hstatus⟩ | ⟨-, ⟨-, hstatus⟩ | ⟨-, hstatus⟩⟩
      · exact sendStatus_informs hs hne hstatus
      · exact hset _ hstatus
      · exact hset _ hstatus
    | getOutputs | getWorkspaces | getInputs | getVersion | getSeats | getConfig | getTree =>
      exact hquery _ heq
    | getMarks | getBarConfig | getBindingModes | sync | getBindingState =>
      exact sendStatus_informs hs hne heq

/-! ## Runs -/

/-- The session with the client has kept to the protocol, and a client that is connected has the
mask it has asked for and waits for nothing. -/
def KeepsProtocol (W : World) (s : Server) (c : ℕ) : Prop :=
  ∃ q, (protocol W).follow (protocol W).start (conversation c s.log) = .ok q ∧
    ∀ k, s.heap c = some k → q = ⟨k.subscribedEvents, none⟩

/-- Events keep to the protocol. -/
lemma Informs.keepsProtocol (h : Informs c s s') (hs : KeepsProtocol W s c) :
    KeepsProtocol W s' c := by
  obtain ⟨q, hfollow, hq⟩ := hs
  obtain ⟨l, hl, hheard⟩ := h.messages
  by_cases hlive : s.Live c
  · obtain ⟨k, hk⟩ := hlive
    obtain rfl := hq k hk
    obtain ⟨l', q₁, hl', hfollow₁, hend⟩ := h.settles (W := W)
      (q := ⟨k.subscribedEvents, none⟩) (fun k₀ hk₀ => by cases hk.symm.trans hk₀; rfl) (by simp)
    refine ⟨q₁, ?_, fun k' hk' => ?_⟩
    · rw [hl']
      exact SessionRules.follow_append.mpr ⟨_, hfollow, hfollow₁⟩
    · obtain ⟨rfl, hmask⟩ := hend k' hk'
      rw [hmask]
  · -- a client that is gone hears nothing
    have hnil : l = [] := List.eq_nil_iff_forall_not_mem.mpr fun g hg => by
      obtain ⟨k, hk, -⟩ := hheard g hg
      exact hlive ⟨k, hk⟩
    refine ⟨q, ?_, fun k' hk' => absurd (h.live ⟨k', hk'⟩) hlive⟩
    rw [hl, hnil]
    simpa using hfollow

/-- Moves that queue nothing to the client, hand over no request of it and leave its mask. -/
lemma Moves.informs {es : List Effect} (h : Moves W s es s') (hlt : c < s.nextClient)
    (hes : ∀ e ∈ es, e ≠ .enqueue c ∧ e ≠ .setMask c)
    (hdispatched : dispatchedFor c s'.log = dispatchedFor c s.log) : Informs c s s' := by
  refine ⟨⟨[], ?_, by simp⟩, fun k' hk' => h.mask_eq hlt (fun e he => (hes e he).2) hk'⟩
  obtain ⟨obs, hlog, -⟩ := h.log_grows
  have hqueued := h.queued_eq hlt fun e he => (hes e he).1
  rw [hlog, queuedFor_append] at hqueued
  rw [hlog, dispatchedFor_append] at hdispatched
  have hnil : queuedFor c obs = [] := by simpa using hqueued
  rw [← hnil]
  exact .of_log hlog (by simpa using hdispatched)

/-- A client that connects has not talked yet. -/
lemma keepsProtocol_handleConnection (hs : s.Inv) :
    KeepsProtocol W s.handleConnection s.nextClient := by
  have hview := view_handleConnection hs
  have hdispatched : dispatchedFor s.nextClient s.handleConnection.log = [] :=
    congrArg View.dispatched hview
  have hqueued : queuedFor s.nextClient s.handleConnection.log = [] := congrArg View.queued hview
  have hrecord : s.handleConnection.heap s.nextClient = some I3IpcClient.fresh :=
    congrArg View.record hview
  refine ⟨(protocol W).start, ?_, fun k hk => ?_⟩
  · rw [conversation_eq_messages hdispatched, hqueued]
    rfl
  · cases hrecord.symm.trans hk
    rfl

/-- Of a client that has not connected the log says nothing. -/
lemma keepsProtocol_of_unborn (hs : s.Inv) (hc : ¬ c < s.nextClient) : KeepsProtocol W s c := by
  refine ⟨(protocol W).start, ?_, fun k hk => absurd (hs.live_lt c ⟨k, hk⟩) hc⟩
  rw [conversation_of_others fun o ho hcl => hc (hs.log_lt o ho c hcl)]
  rfl

/-- Only a connection that is accepted makes a client. -/
lemma step_nextClient {i : Input} (hs : s.Inv) (hstep : step W s i = .ok s')
    (hi : i ≠ .connection true) : s'.nextClient = s.nextClient := by
  obtain ⟨es, hmoves, hes⟩ := step_moves hs hstep
  cases i with
  | connection accepted =>
    cases accepted with
    | false =>
      cases hstep
      rfl
    | true => exact absurd rfl hi
  | readable | writable | serve | displayDestroy | arrive | signal =>
    refine hmoves.nextClient_eq fun e he hcon => ?_
    have hallow := hes e he
    rw [hcon] at hallow
    simp [Input.Allows, Effect.Output] at hallow

/-- On the way from `s` to `s'` the request `f` of the client is handed over, and handled with the
answers `A`. -/
def Hands (W : World) (A : Answers) (c : ℕ) (f : Frame) (s s' : Server) : Prop :=
  ∃ k k₁ es s₁, s.heap c = some k ∧ Moves W s es s₁ ∧ (∀ e ∈ es, e = .read c) ∧
    s₁.heap c = some k₁ ∧ HandedOver s c k f s₁ k₁ ∧
    handlePayload W A s₁ c f.type f.payload = .ok s'

/-- The request is the next entry of the session with its client. -/
lemma HandedOver.conversation_eq {k₁ : I3IpcClient} (hover : HandedOver s c k f s₁ k₁)
    (hlt : c < s.nextClient) {es : List Effect} (hmoves : Moves W s es s₁)
    (hread : ∀ e ∈ es, e = .read c) :
    conversation c s₁.log = conversation c s.log ++ [.request f] := by
  obtain ⟨obs, hlog, -⟩ := hmoves.log_grows
  have hqueued := hmoves.queued_eq hlt fun e he => by simp [hread e he]
  have hdispatched := hover.dispatched_eq
  rw [hlog, queuedFor_append] at hqueued
  rw [hlog, dispatchedFor_append] at hdispatched
  have hnil : queuedFor c obs = [] := by simpa using hqueued
  have hone : dispatchedFor c obs = [f] := List.append_cancel_left hdispatched
  rw [hlog, conversation_append, conversation_eq_requests hnil, hone]
  rfl

/-- A request that is handed over says nothing but events to the other clients. -/
lemma Hands.informs {A : Answers} (h : Hands W A c₀ f s s') (hs : s.Inv) (hne : c ≠ c₀)
    (hlt : c < s.nextClient) : Informs c s s' := by
  obtain ⟨k, k₁, es, s₁, -, hmoves, hread, h₁, -, heq⟩ := h
  have hreads : Informs c s s₁ := by
    refine hmoves.informs hlt (fun e he => by simp [hread e he]) ?_
    refine hmoves.dispatched_eq hlt fun e he hcon => ?_
    rw [hread e he] at hcon
    cases hcon
    exact hne rfl
  exact hreads.trans (handlePayload_informs (hmoves.inv hs) hne h₁ heq)

/-- A step hands over one request, or says nothing but events to the clients. -/
lemma step_talks (hs : s.Inv) {i : Input} (hstep : step W s i = .ok s') :
    (∀ c < s.nextClient, Informs c s s') ∨
      ∃ c₀ mask calls A f, i = .readable c₀ mask calls A ∧ Hands W A c₀ f s s' := by
  obtain ⟨es, hmoves, hes⟩ := step_moves hs hstep
  have hquiet : (∀ c, ∀ e ∈ es, e ≠ .enqueue c ∧ e ≠ .setMask c ∧ e ≠ .read c) →
      ∀ c < s.nextClient, Informs c s s' := by
    intro hes c hlt
    refine hmoves.informs hlt (fun e he => ⟨(hes c e he).1, (hes c e he).2.1⟩) ?_
    exact hmoves.dispatched_eq hlt fun e he => (hes c e he).2.2
  cases i with
  | serve | displayDestroy | connection | arrive | writable =>
    refine Or.inl (hquiet fun c e he => ?_)
    have hallow := hes e he
    refine ⟨?_, ?_, ?_⟩ <;> rintro rfl <;> simp [Input.Allows] at hallow
  | signal ev json => exact Or.inl fun c _ => (signalEvent_informs hs hstep).1
  | readable c₀ mask calls A =>
    by_cases hsource : s.readSources c₀ = true
    swap
    · rw [step, if_neg hsource] at hstep
      cases hstep
      exact Or.inl fun c _ => .refl
    obtain ⟨k, hk⟩ := (hs.read_iff c₀).mp hsource
    rw [step, if_pos hsource] at hstep
    rcases clientHandleReadable_cases (W := W) hk A mask calls with
      ⟨f, es₁, s₁, k₁, -, hmoves₁, hread, h₁, hover, heq⟩ | ⟨-, es₁, s₁, heq, hmoves₁, hsame, hes₁⟩
    · rw [heq] at hstep
      exact Or.inr ⟨c₀, mask, calls, A, f, rfl, k, k₁, es₁, s₁, hk, hmoves₁, hread, h₁, hover, hstep⟩
    · cases heq.symm.trans hstep
      refine Or.inl fun c hlt => hmoves₁.informs hlt (fun e he => ?_) (hsame c)
      rcases hes₁ e he with he | ⟨he, -⟩ <;> simp [he]

/-- A request that is handed over is settled with its client. -/
lemma Hands.keepsProtocol {A : Answers} (hands : Hands W A c f s s') (hs : s.Inv)
    (h : KeepsProtocol W s c) : KeepsProtocol W s' c := by
  obtain ⟨k, k₁, es, s₁, hk, hmoves, hread, h₁, hover, heq⟩ := hands
  obtain ⟨q, hfollow, hq⟩ := h
  obtain rfl := hq k hk
  obtain ⟨l, q₁, hl, hfollow₁, hend⟩ := handlePayload_settles (hmoves.inv hs) h₁ heq
  refine ⟨q₁, ?_, fun k' hk' => ?_⟩
  · rw [hl, hover.conversation_eq (hs.live_lt c ⟨k, hk⟩) hmoves hread]
    refine SessionRules.follow_append.mpr ⟨⟨k.subscribedEvents, some f⟩, ?_, ?_⟩
    · refine SessionRules.follow_append.mpr ⟨_, hfollow, ?_⟩
      rw [SessionRules.follow_one]
      rfl
    · rwa [hover.mask_eq] at hfollow₁
  · obtain ⟨rfl, hmask⟩ := hend k' hk'
    rw [hmask]

/-- A step keeps to the protocol with every client. -/
lemma step_keepsProtocol (hs : s.Inv) (h : ∀ c, KeepsProtocol W s c) {i : Input}
    (hstep : step W s i = .ok s') (c : ℕ) : KeepsProtocol W s' c := by
  by_cases hlt : c < s.nextClient
  swap
  · -- a client that has not connected before
    by_cases hi : i = .connection true
    · subst hi
      cases hstep
      by_cases hc : c = s.nextClient
      · exact hc ▸ keepsProtocol_handleConnection hs
      · refine keepsProtocol_of_unborn hs.connect fun hlt' => ?_
        exact hc (le_antisymm (Nat.le_of_lt_succ hlt') (not_lt.mp hlt))
    · exact keepsProtocol_of_unborn (step_inv hs hstep) (step_nextClient hs hstep hi ▸ hlt)
  rcases step_talks hs hstep with hinforms | ⟨c₀, mask, calls, A, f, -, hands⟩
  · exact (hinforms c hlt).keepsProtocol (h c)
  · by_cases hc : c = c₀
    · exact (hc ▸ hands).keepsProtocol hs (h c)
    · exact (hands.informs hs hc hlt).keepsProtocol (h c)

lemma Reachable.keepsProtocol (h : Reachable W s) (c : ℕ) : KeepsProtocol W s c := by
  obtain ⟨is, hrun⟩ := h
  refine (Machine.run_invariant (step W)
    (I := fun s => s.Inv ∧ ∀ c, KeepsProtocol W s c) ?_ ⟨inv_init, fun c => ?_⟩ hrun).2 c
  · rintro s i s' ⟨hs, h⟩ hstep
    exact ⟨step_inv hs hstep, step_keepsProtocol hs h hstep⟩
  · exact keepsProtocol_of_unborn inv_init (by simp [init])

/-- In every run the server keeps to the protocol with every client, whatever the other clients, the
compositor and the kernel do: a request is answered before the next one is taken, with the right
type and, where the answer is a status, with the right status, and everything else that is queued
to the client are events that the answered requests have asked for.  The mask in the record of a
connected client is the one that its answered requests give. -/
theorem server_keeps_protocol (h : Reachable W s) (c : ℕ) :
    ∃ q done, (protocol W).follow (protocol W).start (conversation c s.log) = .ok q ∧
      dispatchedFor c s.log = done ++ q.owed.toList ∧
      q.topic = done.foldl (protocol W).after (protocol W).init ∧
      (∃ replies, replies.Sublist (queuedFor c s.log) ∧
        List.Forall₂ (fun f g => (protocol W).answers f g = true) done replies) ∧
      ∀ k, s.heap c = some k → q = ⟨k.subscribedEvents, none⟩ := by
  obtain ⟨q, hfollow, hlive⟩ := h.keepsProtocol c
  obtain ⟨done, hkept⟩ := SessionRules.kept_of_follow hfollow
  obtain ⟨replies, hsub, hall⟩ := hkept.answered
  refine ⟨q, done, hfollow, ?_, hkept.topic_eq, ⟨replies, ?_, hall⟩, hlive⟩
  · rw [← requests_conversation]
    exact hkept.requests_eq
  · rwa [← messages_conversation]

/-- The session with a client that has subscribed to ticks: the answer, and the first event. -/
theorem twoClients_keep_protocol :
    conversation 1 twoClients.log
      = [.request ⟨2, ascii "[\"tick\"]"⟩, .message ⟨2, statusMessage .success⟩,
        .message ⟨IpcEventType.tick.code, Json.text (tickMessage true [])⟩] ∧
    ∃ q, (protocol refusingWorld).follow (protocol refusingWorld).start
        (conversation 1 twoClients.log) = .ok q ∧
      ∀ k, twoClients.heap 1 = some k → q = ⟨k.subscribedEvents, none⟩ := by
  obtain ⟨q, -, hfollow, -, -, -, hlive⟩ := server_keeps_protocol reachable_twoClients 1
  exact ⟨by decide +kernel, q, hfollow, hlive⟩

end Server

end WayfireIpc
