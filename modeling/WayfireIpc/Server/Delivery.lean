/-
# Which clients an event reaches

An event is queued once to every listed client whose mask has its bit and whose buffer
takes the message.  The bit of an event is the last write that the subscription requests
of the client make to it.  Two events share a bit, `input` and `binding`, and only one of
them can be subscribed to by name: for these the mask is not the set of the events that
the client has asked for.
-/
import WayfireIpc.Server.Steps
import WayfireIpc.Lib.LastWrite

namespace WayfireIpc

open LastWrite

namespace Server

variable {W : World} {s s' s₁ s₂ : Server} {c : ℕ} {k k' : I3IpcClient} {T : IpcEventType}
  {json : Buf}

/-! ## The entries of the log about one client -/

/-- The entries of the log that are about a client. -/
def entriesFor (c : ℕ) (log : List Obs) : List Obs := log.filter fun o => o.client = some c

lemma entriesFor_append (c : ℕ) (log log' : List Obs) :
    entriesFor c (log ++ log') = entriesFor c log ++ entriesFor c log' := List.filter_append ..

lemma client_eventObs {c : ℕ} {o : Obs} (ho : o ∈ s.eventObs W T json c) :
    o.client = some c := by
  rw [eventObs] at ho
  split at ho
  · cases ho
  · next k _ =>
      split_ifs at ho
      · rw [List.mem_singleton.mp ho]
        rfl
      · rcases List.mem_cons.mp ho with rfl | ho
        · exact refusal_client c k _
        · rw [List.mem_singleton.mp ho]
          rfl
      · cases ho

lemma entriesFor_visits {cs : List ℕ} (hnodup : cs.Nodup) (c : ℕ) :
    entriesFor c (cs.flatMap (s.eventObs W T json))
      = if c ∈ cs then s.eventObs W T json c else [] := by
  induction cs with
  | nil => rfl
  | cons a cs ih =>
    obtain ⟨ha, hnodup⟩ := List.nodup_cons.mp hnodup
    rw [List.flatMap_cons, entriesFor_append, ih hnodup]
    by_cases hac : c = a
    · subst hac
      have hall : entriesFor c (s.eventObs W T json c) = s.eventObs W T json c :=
        List.filter_eq_self.mpr fun o ho => by simp [client_eventObs ho]
      simp [hall, ha]
    · have hnone : entriesFor c (s.eventObs W T json a) = [] :=
        List.filter_eq_nil_iff.mpr fun o ho => by
          simpa [client_eventObs ho] using fun hcon : a = c => hac hcon.symm
      simp [hnone, hac]

/-- `send_event` from a reachable state: it ends; the log gains, in the order of the list,
one message for every listed client that is subscribed and takes it, one refusal and the
disconnection for every listed client that is subscribed and fails, and nothing else; the
failing clients leave the list and the heap, and no other record changes otherwise. -/
theorem sendEvent_reaches (h : Reachable W s) (ev : IpcEventType) (json : Buf) :
    ∃ s', s.sendEvent W json ev = .ok s' ∧
      s'.ipcClientList = s.ipcClientList.filter (fun c => !s.fails W ev json c) ∧
      s'.log = s.log ++ s.ipcClientList.flatMap (s.eventObs W ev json) ∧
      (∀ c, entriesFor c s'.log = entriesFor c s.log ++
        if c ∈ s.ipcClientList then s.eventObs W ev json c else []) ∧
      (∀ c ∈ s.ipcClientList, Visited W ev json s s' c) ∧
      (∀ c, c ∉ s.ipcClientList → s'.heap c = s.heap c) := by
  obtain ⟨s', heq, hvisits⟩ := sendEvent_visits (W := W) h.inv ev json
  refine ⟨s', heq, ?_, hvisits.log_eq, fun c => ?_, hvisits.visited, hvisits.others⟩
  · rw [hvisits.list_eq]
    refine List.filter_congr fun c hc => ?_
    simp [hc]
  · rw [hvisits.log_eq, entriesFor_append, entriesFor_visits h.inv.list_nodup]

/-- `realloc` fails for the client 0 once its buffer has been reallocated twice. -/
def refusingWorld : World where
  reallocOk := fun c n => c ≠ 0 ∨ n < 2
  stringToJson := fun _ => .arr [.str "tick"]
  jsonToString := Json.text

/-- Two clients that have subscribed to ticks. -/
def twoClients : Server :=
  after refusingWorld ([.connection true, .connection true] ++ [0, 1].flatMap fun c =>
    [.arrive c (Frame.encode ⟨2, ascii "[\"tick\"]"⟩),
      .readable c ⟨false, false⟩ ⟨true, true, true⟩ ⟨fun _ => .null, fun _ => ([], .null)⟩])

lemma reachable_twoClients : Reachable refusingWorld twoClients := reachable_after _ _

/-- A tick reaches the second client and costs the first one its connection. -/
theorem sendEvent_twoClients :
    ∃ s', twoClients.sendEvent refusingWorld [] .tick = .ok s' ∧ s'.ipcClientList = [1] ∧
      entriesFor 0 s'.log = entriesFor 0 twoClients.log ++ [.reallocFailed 0, .disconnected 0] ∧
      entriesFor 1 s'.log
        = entriesFor 1 twoClients.log ++ [.queued 1 ⟨IpcEventType.tick.code, []⟩] := by
  obtain ⟨s', heq, hlist, -, hentries, -⟩ :=
    sendEvent_reaches reachable_twoClients .tick []
  refine ⟨s', heq, ?_, ?_, ?_⟩
  · rw [hlist]
    decide +kernel
  · rw [hentries 0, List.append_cancel_left_eq]
    decide +kernel
  · rw [hentries 1, List.append_cancel_left_eq]
    decide +kernel

/-! ## Masks as sets of bits -/

lemma subscribed_iff {ev : IpcEventType} :
    k.Subscribed ev ↔ k.subscribedEvents.getLsbD ev.bit = true := by
  have hbit : ev.bit < 64 := by cases ev <;> decide
  have htwo : BitVec.twoPow 64 ev.bit ≠ 0#64 := by cases ev <;> decide
  rw [I3IpcClient.Subscribed, eventMask, ← BitVec.twoPow_eq, BitVec.and_twoPow]
  cases k.subscribedEvents.getLsbD ev.bit <;> simp [htwo]

/-- The name stands for an event with the given bit. -/
def hasBit (b : ℕ) (ev : Option IpcEventType) : Bool := ev.any fun ev => ev.bit = b

lemma getLsbD_subscribeMask (m : BitVec 64) (names : List String) (b : ℕ) :
    (subscribeMask m names).getLsbD b
      = if names.any (fun event => hasBit b (subscribeType event)) then true
        else m.getLsbD b := by
  rw [subscribeMask, get_foldl (g := fun m : BitVec 64 => m.getLsbD b)
    (t := fun event => hasBit b (subscribeType event)) (v := fun _ => true) ?_ m names]
  · exact lastWrite_const true _ names
  · intro m event
    cases hev : subscribeType event with
    | none => simp [hasBit]
    | some ev =>
      have hbit : ev.bit < 64 := by cases ev <;> decide
      by_cases hb : ev.bit = b
      · simp [hasBit, hb, eventMask, ← BitVec.twoPow_eq, hb ▸ hbit]
      · simp [hasBit, hb, eventMask, ← BitVec.twoPow_eq, BitVec.getLsbD_or, BitVec.getLsbD_twoPow]

lemma getLsbD_unsubscribeMask (m : BitVec 64) (names : List String) (b : ℕ) :
    (unsubscribeMask m names).getLsbD b
      = if names.any (fun event => hasBit b (eventToType event)) then false
        else m.getLsbD b := by
  rw [unsubscribeMask, get_foldl (g := fun m : BitVec 64 => m.getLsbD b)
    (t := fun event => hasBit b (eventToType event)) (v := fun _ => false) ?_ m names]
  · exact lastWrite_const false _ names
  · intro m event
    cases hev : eventToType event with
    | none => simp [hasBit]
    | some ev =>
      have hbit : ev.bit < 64 := by cases ev <;> decide
      by_cases hb : ev.bit = b
      · simp [hasBit, hb, eventMask, ← BitVec.twoPow_eq, hb ▸ hbit]
      · simp only [hasBit, hb, eventMask, ← BitVec.twoPow_eq, BitVec.getLsbD_and,
          BitVec.getLsbD_not, BitVec.getLsbD_twoPow, Option.any_some, decide_false,
          Bool.and_false, Bool.not_false, Bool.and_true, Bool.false_eq_true, if_false]
        cases hm : m.getLsbD b with
        | false => rfl
        | true => simpa using BitVec.lt_of_getLsbD hm

end Server

/-! ## Subscription requests -/

/-- A request that changes the mask, by its payload. -/
inductive SubscriptionRequest
  | subscribe (buf : Buf)
  | unsubscribe (buf : Buf)
deriving DecidableEq

namespace SubscriptionRequest

variable (W : World) (r : SubscriptionRequest)

/-- The message that carries the request. -/
def frame : SubscriptionRequest → Frame
  | subscribe buf => ⟨IpcPayloadType.subscribe.code, buf⟩
  | unsubscribe buf => ⟨IpcPayloadType.unsubscribe.code, buf⟩

def isSubscribe : SubscriptionRequest → Bool
  | subscribe _ => true
  | unsubscribe _ => false

/-- The event names in the payload of the request. -/
def names : List String := Server.eventNames (W.stringToJson r.frame.payload).elements

/-- The request names the event type. -/
def Names (T : IpcEventType) : Bool := (r.names W).any fun event => eventToType event = some T

/-- The event type that the handler of the request takes a name for. -/
def typeOf : SubscriptionRequest → String → Option IpcEventType
  | subscribe _ => Server.subscribeType
  | unsubscribe _ => eventToType

/-- The handler knows all names of the request. -/
def Supported : Prop := ∀ event ∈ r.names W, (r.typeOf event).isSome

/-- The mask after the request. -/
def apply (m : BitVec 64) : BitVec 64 :=
  match r with
  | subscribe _ => Server.subscribeMask m (r.names W)
  | unsubscribe _ => Server.unsubscribeMask m (r.names W)

/-- The request writes the bit. -/
def touches (b : ℕ) : Bool := (r.names W).any fun event => Server.hasBit b (r.typeOf event)

lemma getLsbD_apply (m : BitVec 64) (b : ℕ) :
    (r.apply W m).getLsbD b = if r.touches W b then r.isSubscribe else m.getLsbD b := by
  cases r with
  | subscribe buf => exact Server.getLsbD_subscribeMask m _ b
  | unsubscribe buf => exact Server.getLsbD_unsubscribeMask m _ b

end SubscriptionRequest

/-- The last of the requests that name the event type is a `SUBSCRIBE`. -/
def LastSubscribe (W : World) (rs : List SubscriptionRequest) (T : IpcEventType) : Prop :=
  lastWrite (fun r => r.Names W T) SubscriptionRequest.isSubscribe false rs = true

/-- The mask after the requests. -/
def maskAfter (W : World) (rs : List SubscriptionRequest) : BitVec 64 :=
  rs.foldl (fun m r => r.apply W m) 0

lemma getLsbD_maskAfter (W : World) (rs : List SubscriptionRequest) (b : ℕ) :
    (maskAfter W rs).getLsbD b
      = lastWrite (fun r => r.touches W b) SubscriptionRequest.isSubscribe false rs := by
  have h := get_foldl (g := fun m : BitVec 64 => m.getLsbD b)
    (t := fun r : SubscriptionRequest => r.touches W b)
    (v := SubscriptionRequest.isSubscribe) (fun m r => r.getLsbD_apply W m b) 0 rs
  have hzero : (0 : BitVec 64).getLsbD b = false := by simp
  rwa [hzero] at h

/-! ## Names and bits -/

lemma subscribeType_eq {event : String} (h : (Server.subscribeType event).isSome) :
    Server.subscribeType event = eventToType event := by
  unfold Server.subscribeType at h ⊢
  unfold eventToType
  split_ifs at h ⊢ <;> simp_all [ipcI3EventTick, ipcI3EventWorkspace, ipcI3EventShutdown,
    ipcI3EventWindow, ipcSwayEventInput, ipcI3EventOutput, ipcI3EventBinding]

lemma subscribeType_ne_binding (event : String) :
    Server.subscribeType event ≠ some .binding := by
  unfold Server.subscribeType
  split_ifs <;> simp

/-- Only `input` and `binding` share a bit. -/
lemma bit_eq_iff (ev T : IpcEventType) : ev.bit = T.bit ↔
    ev = T ∨ (ev = .input ∧ T = .binding) ∨ (ev = .binding ∧ T = .input) := by
  cases ev <;> cases T <;> decide

namespace SubscriptionRequest

variable {W : World} {r : SubscriptionRequest} {T : IpcEventType}

lemma Supported.typeOf_eq (h : r.Supported W) {event : String} (hmem : event ∈ r.names W) :
    r.typeOf event = eventToType event := by
  cases r with
  | subscribe buf => exact subscribeType_eq (h event hmem)
  | unsubscribe buf => rfl

lemma Supported.touches_iff (h : r.Supported W) (b : ℕ) :
    r.touches W b = true ↔ ∃ ev, ev.bit = b ∧ r.Names W ev = true := by
  simp only [touches, Names, List.any_eq_true, decide_eq_true_eq]
  constructor
  · rintro ⟨event, hmem, hbit⟩
    rw [h.typeOf_eq hmem, Server.hasBit, Option.any_eq_true] at hbit
    obtain ⟨ev, hev, hb⟩ := hbit
    exact ⟨ev, by simpa using hb, event, hmem, hev⟩
  · rintro ⟨ev, hb, event, hmem, hev⟩
    refine ⟨event, hmem, ?_⟩
    rw [h.typeOf_eq hmem, hev]
    simp [Server.hasBit, hb]

lemma Names.touches (h : r.Supported W) (hT : r.Names W T = true) :
    r.touches W T.bit = true := (h.touches_iff _).mpr ⟨T, rfl, hT⟩

/-- A `SUBSCRIBE` that is supported does not name `binding`. -/
lemma Supported.not_names_binding (h : r.Supported W) (hsub : r.isSubscribe = true) :
    r.Names W .binding = false := by
  cases r with
  | unsubscribe buf => cases hsub
  | subscribe buf =>
    simp only [Names, List.any_eq_false, decide_eq_true_eq]
    intro event hmem hcon
    rw [← h.typeOf_eq hmem] at hcon
    exact subscribeType_ne_binding event hcon

end SubscriptionRequest

section Last

variable {W : World} {rs : List SubscriptionRequest} {T : IpcEventType}

lemma not_lastSubscribe_binding (h : ∀ r ∈ rs, r.Supported W) :
    ¬ LastSubscribe W rs .binding := by
  intro hlast
  have := lastWrite_mono (u := fun _ => false) (by simp)
    (fun r hr hnames hsub => by rw [(h r hr).not_names_binding hsub] at hnames; cases hnames) hlast
  have hnone : rs.reverse.find? (fun _ => false) = none := by simp
  rw [lastWrite, hnone] at this
  cases this

/-- An event that shares its bit with no other is in the mask exactly when it should be. -/
lemma getLsbD_maskAfter_iff (h : ∀ r ∈ rs, r.Supported W) (hinput : T ≠ .input)
    (hbinding : T ≠ .binding) :
    (maskAfter W rs).getLsbD T.bit = true ↔ LastSubscribe W rs T := by
  rw [getLsbD_maskAfter, LastSubscribe, lastWrite_congr fun r hr => ?_]
  rw [Bool.eq_iff_iff, (h r hr).touches_iff]
  constructor
  · rintro ⟨ev, hbit, hnames⟩
    rcases (bit_eq_iff ev T).mp hbit with rfl | ⟨-, hT⟩ | ⟨-, hT⟩
    · exact hnames
    · exact absurd hT hbinding
    · exact absurd hT hinput
  · exact fun hnames => ⟨T, rfl, hnames⟩

/-- If the shared bit is set, the last request that names `input` is a `SUBSCRIBE`. -/
lemma lastSubscribe_input (h : ∀ r ∈ rs, r.Supported W) (hT : T = .input ∨ T = .binding)
    (hbit : (maskAfter W rs).getLsbD T.bit = true) : LastSubscribe W rs .input := by
  rw [getLsbD_maskAfter] at hbit
  refine lastWrite_mono (fun r hr hnames => ?_) (fun r hr htouch hsub => ?_) hbit
  · have hshared : T.bit = IpcEventType.input.bit := by rcases hT with rfl | rfl <;> rfl
    rw [hshared]
    exact SubscriptionRequest.Names.touches (h r hr) hnames
  · obtain ⟨ev, hev, hnames⟩ := ((h r hr).touches_iff _).mp htouch
    have hev : ev = .input ∨ ev = .binding := by
      rcases hT with rfl | rfl <;> rcases (bit_eq_iff ev _).mp hev with rfl | ⟨rfl, -⟩ | ⟨rfl, -⟩ <;>
        simp_all
    rcases hev with rfl | rfl
    · exact hnames
    · rw [(h r hr).not_names_binding hsub] at hnames
      cases hnames

end Last

/-! ## Runs of requests -/

namespace Server

/-- The client `c` has connected and since then made the subscription requests `rs` and no
other requests; each of them was answered with success.  Anything else may happen in
between. -/
inductive SubRun (W : World) (c : ℕ) : List SubscriptionRequest → Server → Prop
  | connect {s : Server} (h : Reachable W s) (hc : s.nextClient = c) :
      SubRun W c [] s.handleConnection
  | other {rs : List SubscriptionRequest} {s s' : Server} {i : Input} (h : SubRun W c rs s)
      (hother : ∀ k mask calls A f, i = .readable c mask calls A → s.heap c = some k →
        ¬ HandsOver s c k mask calls f)
      (hstep : step W s i = .ok s') : SubRun W c rs s'
  | request {rs : List SubscriptionRequest} {s s' : Server} {k : I3IpcClient} {mask : EventMask}
      {calls : ReadCalls} {A : Answers} {r : SubscriptionRequest} (h : SubRun W c rs s)
      (hk : s.heap c = some k) (hhands : HandsOver s c k mask calls r.frame)
      (hstep : step W s (.readable c mask calls A) = .ok s')
      (hsuccess : queuedFor c s.log ++ [⟨r.frame.type, statusMessage .success⟩]
        <+: queuedFor c s'.log) :
      SubRun W c (rs ++ [r]) s'

variable {W : World} {s s' : Server} {c : ℕ} {k k' : I3IpcClient}

lemma LocalMove.mask_eq {v v' : View} {e : Effect} (h : LocalMove W c v e v')
    (he : e ≠ .setMask c) (hk' : v'.record = some k') :
    ∃ k, v.record = some k ∧ k'.subscribedEvents = k.subscribedEvents := by
  cases h with
  | skip => exact ⟨k', hk', rfl⟩
  | enqueue h _ hk₁ =>
    cases hk'
    exact ⟨_, h, hk₁.subscribed_eq⟩
  | refuse | drop | badHeader => cases hk'
  | setMask => exact absurd rfl he
  | arrive => exact ⟨k', hk', rfl⟩
  | header h | payload h | bare h =>
    cases hk'
    exact ⟨_, h, rfl⟩
  | write h =>
    cases hk'
    refine ⟨_, h, ?_⟩
    rw [I3IpcClient.wrote]
    split <;> rfl

lemma Moves.mask_eq {es : List Effect} (h : Moves W s es s') (hlt : c < s.nextClient)
    (hes : ∀ e ∈ es, e ≠ .setMask c) (hk' : s'.heap c = some k') :
    ∃ k, s.heap c = some k ∧ k'.subscribedEvents = k.subscribedEvents := by
  induction h with
  | nil => exact ⟨k', hk', rfl⟩
  | @cons s s₁ s₂ e es hm _ ih =>
    obtain ⟨k₁, hk₁, hmask₁⟩ := ih (hlt.trans_le hm.nextClient_le)
      (fun e he => hes e (List.mem_cons_of_mem _ he)) hk'
    obtain ⟨k, hk, hmask⟩ := (hm.view hlt).mask_eq (hes e List.mem_cons_self) hk₁
    exact ⟨k, hk, hmask₁.trans hmask⟩

/-- Only an `enqueue` queues something. -/
lemma Moves.queued_eq {es : List Effect} (h : Moves W s es s') (hlt : c < s.nextClient)
    (hes : ∀ e ∈ es, e ≠ .enqueue c) : queuedFor c s'.log = queuedFor c s.log := by
  induction h with
  | nil => rfl
  | @cons s s₁ s₂ e es hm _ ih =>
    rw [ih (hlt.trans_le hm.nextClient_le) fun e he => hes e (List.mem_cons_of_mem _ he)]
    have hview := hm.view hlt
    generalize hv : s.view c = v at hview
    generalize hv' : s₁.view c = v' at hview
    change (s₁.view c).queued = (s.view c).queued
    rw [hv, hv']
    cases hview with
    | enqueue => exact absurd rfl (hes _ List.mem_cons_self)
    | _ => rfl

/-- Reading queues nothing. -/
lemma Moves.read_queued {es : List Effect} (h : Moves W s es s') (hlt : c < s.nextClient)
    (hes : ∀ e ∈ es, e = .read c) : queuedFor c s'.log = queuedFor c s.log :=
  h.queued_eq hlt fun e he => by rw [hes e he]; exact nofun

/-- `send_reply` queues its message and leaves the mask, or it takes the client away. -/
lemma sendReply_outcome (hs : s.Inv) (h : s.heap c = some k) {t : UInt32} {payload : Buf} {b : Bool}
    (heq : sendReply W s c t payload = .ok (b, s')) :
    (queuedFor c s'.log = queuedFor c s.log ++ [replyFrame t payload] ∧
      ∃ k', s'.heap c = some k' ∧ k'.subscribedEvents = k.subscribedEvents) ∨
    (queuedFor c s'.log = queuedFor c s.log ∧ s'.heap c = none) := by
  by_cases hacc : k.Accepts W c (payload.length % 2 ^ 32)
  · obtain ⟨k₁, hk₁, hsend⟩ := sendReply_accepted (t := t) h (hs.wf c k h) hacc
    rw [hsend] at heq
    cases heq
    exact Or.inl ⟨by simp [enqueued, queuedFor], k₁, enqueued_heap, hk₁.subscribed_eq⟩
  · rw [sendReply_refused h (hs.wf c k h) hacc] at heq
    cases heq
    exact Or.inr ⟨queuedFor_refused s c c k _, by simp [refused, drop, note]⟩

/-- The same for `send_status`. -/
lemma sendStatus_outcome (hs : s.Inv) (h : s.heap c = some k) {t : UInt32} {status : ReturnStatus}
    (heq : sendStatus W s c t status = .ok s') :
    (queuedFor c s'.log = queuedFor c s.log ++ [⟨t, statusMessage status⟩] ∧
      ∃ k', s'.heap c = some k' ∧ k'.subscribedEvents = k.subscribedEvents) ∨
    (queuedFor c s'.log = queuedFor c s.log ∧ s'.heap c = none) := by
  have hframe : replyFrame t (statusMessage status) = ⟨t, statusMessage status⟩ := by
    refine replyFrame_of_lt t ?_
    cases status <;> decide
  rw [sendStatus] at heq
  obtain ⟨⟨b, s₁⟩, hsend, heq⟩ := Machine.bind_ok_iff.mp heq
  cases heq
  rw [← hframe]
  exact sendReply_outcome hs h hsend

lemma sendReply_mask (hs : s.Inv) (h : s.heap c = some k) {t : UInt32} {payload : Buf} {b : Bool}
    (heq : sendReply W s c t payload = .ok (b, s')) {k' : I3IpcClient} (hk' : s'.heap c = some k') :
    k'.subscribedEvents = k.subscribedEvents := by
  rcases sendReply_outcome hs h heq with ⟨-, k₁, hk₁, hmask⟩ | ⟨-, hnone⟩
  · cases hk₁.symm.trans hk'
    exact hmask
  · rw [hnone] at hk'
    cases hk'

lemma sendStatus_mask (hs : s.Inv) (h : s.heap c = some k) {t : UInt32} {status : ReturnStatus}
    (heq : sendStatus W s c t status = .ok s') {k' : I3IpcClient} (hk' : s'.heap c = some k') :
    k'.subscribedEvents = k.subscribedEvents := by
  obtain ⟨⟨b, s₁⟩, hsend, heq⟩ := Machine.bind_ok_iff.mp heq
  cases heq
  exact sendReply_mask hs h hsend hk'

lemma sendStatus_inv (hs : s.Inv) (h : s.heap c = some k) {t : UInt32} {status : ReturnStatus}
    (heq : sendStatus W s c t status = .ok s') : s'.Inv := by
  obtain ⟨s₁, hstatus, hout⟩ := (sendStatus_returns (W := W) hs t status).ok ⟨k, h⟩
  cases hstatus.symm.trans heq
  exact hout.inv hs

/-- A request that fails is not answered with success. -/
lemma sendStatus_not_success (hs : s.Inv) (h : s.heap c = some k) {t : UInt32}
    {status : ReturnStatus} (hne : status ≠ .success) (heq : sendStatus W s c t status = .ok s') :
    ¬ queuedFor c s.log ++ [⟨t, statusMessage .success⟩] <+: queuedFor c s'.log := by
  intro hpre
  rcases sendStatus_outcome hs h heq with ⟨hq, -⟩ | ⟨hq, -⟩
  · rw [hq, List.prefix_append_right_inj] at hpre
    have hmsg : statusMessage .success = statusMessage status := by
      simpa using hpre
    cases status with
    | success => exact hne rfl
    | _ => exact absurd hmsg (by decide)
  · rw [hq] at hpre
    have := hpre.length_le
    simp at this

lemma handleSubscribe_success (hs : s.Inv) (h : s.heap c = some k) {t : UInt32} {buf : Buf}
    (heq : handleSubscribe W s c t buf = .ok s')
    (hsuccess : queuedFor c s.log ++ [⟨t, statusMessage .success⟩] <+: queuedFor c s'.log) :
    (∀ event ∈ eventNames (W.stringToJson buf).elements, (subscribeType event).isSome) ∧
    ∀ k', s'.heap c = some k' → k'.subscribedEvents
      = subscribeMask k.subscribedEvents (eventNames (W.stringToJson buf).elements) := by
  rcases handleSubscribe_cases h heq with
    ⟨-, hstatus⟩ | ⟨-, ⟨hnames, s₁, hstatus, htick⟩ | ⟨-, hstatus⟩⟩
  · exact absurd hsuccess (sendStatus_not_success hs h (by simp) hstatus)
  · refine ⟨hnames, fun k' hk' => ?_⟩
    have hs₁ := hs.setMask h
      (subscribeMask k.subscribedEvents (eventNames (W.stringToJson buf).elements))
    rcases htick with ⟨-, rfl⟩ | ⟨-, b, hsend⟩
    · exact sendStatus_mask hs₁ put_heap hstatus hk'
    · -- the tick event leaves the mask
      obtain ⟨k₁, h₁⟩ := live_of_sendReply hsend
      rw [sendReply_mask (sendStatus_inv hs₁ put_heap hstatus) h₁ hsend hk',
        sendStatus_mask hs₁ put_heap hstatus h₁]
  · exact absurd hsuccess (sendStatus_not_success (hs.setMask h _) put_heap (by simp) hstatus)

lemma handleUnsubscribe_success (hs : s.Inv) (h : s.heap c = some k) {t : UInt32} {buf : Buf}
    (heq : handleUnsubscribe W s c t buf = .ok s')
    (hsuccess : queuedFor c s.log ++ [⟨t, statusMessage .success⟩] <+: queuedFor c s'.log) :
    (∀ event ∈ eventNames (W.stringToJson buf).elements, (eventToType event).isSome) ∧
    ∀ k', s'.heap c = some k' → k'.subscribedEvents
      = unsubscribeMask k.subscribedEvents (eventNames (W.stringToJson buf).elements) := by
  rcases handleUnsubscribe_cases h heq with ⟨-, hstatus⟩ | ⟨-, ⟨hnames, hstatus⟩ | ⟨-, hstatus⟩⟩
  · exact absurd hsuccess (sendStatus_not_success hs h (by simp) hstatus)
  · exact ⟨hnames, fun k' => sendStatus_mask (hs.setMask h _) put_heap hstatus⟩
  · exact absurd hsuccess (sendStatus_not_success (hs.setMask h _) put_heap (by simp) hstatus)

/-- A subscription request that is answered with success has only names that its handler
knows, and leaves the mask that it should. -/
lemma handlePayload_success (hs : s.Inv) (h : s.heap c = some k) {A : Answers}
    {r : SubscriptionRequest}
    (heq : handlePayload W A s c r.frame.type r.frame.payload = .ok s')
    (hsuccess : queuedFor c s.log ++ [⟨r.frame.type, statusMessage .success⟩]
      <+: queuedFor c s'.log) :
    r.Supported W ∧ ∀ k', s'.heap c = some k' →
      k'.subscribedEvents = r.apply W k.subscribedEvents := by
  cases r with
  | subscribe buf => exact handleSubscribe_success hs h heq hsuccess
  | unsubscribe buf => exact handleUnsubscribe_success hs h heq hsuccess

/-- A step that hands over no request of the client leaves its mask. -/
lemma step_keeps_mask (hs : s.Inv) {i : Input}
    (hother : ∀ k mask calls A f, i = .readable c mask calls A → s.heap c = some k →
      ¬ HandsOver s c k mask calls f) (hstep : step W s i = .ok s') :
    ∃ es, Moves W s es s' ∧ ∀ e ∈ es, e ≠ .setMask c := by
  by_cases hown : ∃ mask calls A, i = .readable c mask calls A
  · obtain ⟨mask, calls, A, rfl⟩ := hown
    by_cases hsource : s.readSources c = true
    swap
    · rw [step, if_neg hsource] at hstep
      cases hstep
      exact ⟨[], .nil, by simp⟩
    obtain ⟨k, h⟩ := (hs.read_iff c).mp hsource
    rw [step, if_pos hsource] at hstep
    rcases clientHandleReadable_cases (W := W) h A mask calls with
      ⟨f, -, -, -, hhands, -⟩ | ⟨-, es, s₁, heq, hmoves, -, hes⟩
    · exact absurd hhands (hother k mask calls A f rfl h)
    · cases heq.symm.trans hstep
      refine ⟨es, hmoves, fun e he hcon => ?_⟩
      rcases hes e he with he | ⟨he, -⟩ <;> rw [he] at hcon <;> cases hcon
  · obtain ⟨es, hmoves, hes⟩ := step_moves hs hstep
    refine ⟨es, hmoves, fun e he hcon => ?_⟩
    have hallow := hes e he
    rw [hcon] at hallow
    cases i with
    | readable c' mask calls A =>
      simp [Input.Allows, Effect.Output] at hallow
      exact hown ⟨mask, calls, A, by rw [hallow]⟩
    | serve | displayDestroy | connection | arrive | writable | signal =>
      simp [Input.Allows, Effect.Output] at hallow

/-- In a run of requests the mask is the one the requests leave. -/
theorem SubRun.mask_eq {rs : List SubscriptionRequest} (hrun : SubRun W c rs s) :
    s.Inv ∧ c < s.nextClient ∧ (∀ r ∈ rs, r.Supported W) ∧
      ∀ k, s.heap c = some k → k.subscribedEvents = maskAfter W rs := by
  induction hrun with
  | @connect s h hc =>
    refine ⟨h.inv.connect, ?_, by simp, fun k hk => ?_⟩
    · show c < s.nextClient + 1
      omega
    · have hfresh : s.handleConnection.heap c = some I3IpcClient.fresh := by
        rw [← hc]
        exact Function.update_self _ _ _
      cases hfresh.symm.trans hk
      rfl
  | @other rs s s' i _ hother hstep ih =>
    obtain ⟨hs, hlt, hsupp, hmask⟩ := ih
    obtain ⟨es, hmoves, hes⟩ := step_keeps_mask hs hother hstep
    refine ⟨hmoves.inv hs, hlt.trans_le hmoves.nextClient_le, hsupp, fun k' hk' => ?_⟩
    obtain ⟨k, hk, hsame⟩ := hmoves.mask_eq hlt hes hk'
    rw [hsame, hmask k hk]
  | @request rs s s' k mask calls A r _ hk hhands hstep hsuccess ih =>
    obtain ⟨hs, hlt, hsupp, hmask⟩ := ih
    obtain ⟨es, hmoves, -⟩ := step_moves hs hstep
    rw [step, if_pos ((hs.read_iff c).mpr ⟨k, hk⟩)] at hstep
    rcases clientHandleReadable_cases (W := W) hk A mask calls with
      ⟨f, es₁, s₁, k₁, hhands', hmoves₁, hread, h₁, hover, heq⟩ | ⟨hnone, -⟩
    · obtain rfl : r.frame = f :=
        Option.some.inj (hhands.2.2.2.2.2.symm.trans hhands'.2.2.2.2.2)
      rw [heq] at hstep
      rw [← hmoves₁.read_queued hlt hread] at hsuccess
      obtain ⟨hr, hmask'⟩ := handlePayload_success (hmoves₁.inv hs) h₁ hstep hsuccess
      refine ⟨hmoves.inv hs, hlt.trans_le hmoves.nextClient_le, ?_, fun k' hk' => ?_⟩
      · intro r' hr'
        rcases List.mem_append.mp hr' with hr' | hr'
        · exact hsupp r' hr'
        · exact List.mem_singleton.mp hr' ▸ hr
      · rw [hmask' k' hk', hover.mask_eq, hmask k hk, maskAfter, maskAfter, List.foldl_append]
        rfl
    · exact absurd hhands (hnone _)

/-! ## Delivery -/

/-- A `send_event` of the event type queues a message to the client. -/
def Delivers (W : World) (s : Server) (c : ℕ) (T : IpcEventType) (json : Buf) : Prop :=
  ∃ s', s.sendEvent W json T = .ok s' ∧
    queuedFor c s'.log = queuedFor c s.log ++ [replyFrame T.code json.cStr]

lemma queuedFor_entriesFor (c : ℕ) (log : List Obs) :
    queuedFor c (entriesFor c log) = queuedFor c log := by
  induction log with
  | nil => rfl
  | cons o log ih =>
    by_cases ho : o.client = some c
    · rw [entriesFor, List.filter_cons_of_pos (by simpa using ho), ← entriesFor,
        ← List.singleton_append, queuedFor_append, ih, ← queuedFor_append]
      rfl
    · have hnil : queuedFor c [o] = [] := by
        cases o <;> simp_all [queuedFor, Obs.client]
      rw [entriesFor, List.filter_cons_of_neg (by simpa using ho), ← entriesFor, ih,
        ← List.singleton_append, queuedFor_append, hnil, List.nil_append]

lemma delivers_iff (hs : s.Inv) (T : IpcEventType) (json : Buf) :
    s.Delivers W c T json ↔ c ∈ s.ipcClientList ∧
      ∃ k, s.heap c = some k ∧ k.Subscribed T ∧ k.Accepts W c (eventLength json) := by
  obtain ⟨s', heq, hvisits⟩ := sendEvent_visits (W := W) hs T json
  have hqueued : queuedFor c s'.log = queuedFor c s.log ++
      if c ∈ s.ipcClientList then queuedFor c (s.eventObs W T json c) else [] := by
    rw [hvisits.log_eq, queuedFor_append, ← queuedFor_entriesFor c (List.flatMap _ _),
      entriesFor_visits hs.list_nodup]
    split <;> rfl
  have hdelivers : s.Delivers W c T json ↔
      (if c ∈ s.ipcClientList then queuedFor c (s.eventObs W T json c) else [])
        = [replyFrame T.code json.cStr] := by
    constructor
    · rintro ⟨s₁, heq₁, hq⟩
      cases heq.symm.trans heq₁
      rw [hqueued] at hq
      exact List.append_cancel_left hq
    · intro h
      exact ⟨s', heq, by rw [hqueued, h]⟩
  rw [hdelivers]
  by_cases hc : c ∈ s.ipcClientList
  · obtain ⟨k, h⟩ := hs.listed_live c hc
    rw [if_pos hc, eventObs, h]
    by_cases hsub : k.Subscribed T
    · by_cases hacc : k.Accepts W c (eventLength json)
      · simp [hc, hsub, hacc, queuedFor]
      · have ho := client_refusal c k (eventLength json)
        simp only [hsub, hacc, not_true_eq_false, if_false]
        generalize refusal c k (eventLength json) = o at ho ⊢
        rcases ho with rfl | rfl <;> simp [queuedFor, hacc]
    · simp [hsub, queuedFor]
  · simp [hc]

end Server

/-- After a run of successful requests, the events that reach the client are the ones whose last
request is a `SUBSCRIBE`, if and only if every event of this kind is not `input` and finds
the client in the list with room in its buffer. -/
theorem delivers_lastSubscribe_iff {W : World} {c : ℕ} {rs : List SubscriptionRequest}
    {s : Server} (hrun : Server.SubRun W c rs s) (json : Buf) :
    (∀ T, s.Delivers W c T json ↔ LastSubscribe W rs T) ↔
      ∀ T, LastSubscribe W rs T → T ≠ .input ∧ c ∈ s.ipcClientList ∧
        ∃ k, s.heap c = some k ∧ k.Accepts W c (Server.eventLength json) := by
  obtain ⟨hs, -, hsupp, hmask⟩ := hrun.mask_eq
  have hdelivers : ∀ T, s.Delivers W c T json ↔ c ∈ s.ipcClientList ∧
      ∃ k, s.heap c = some k ∧ (maskAfter W rs).getLsbD T.bit = true ∧
        k.Accepts W c (Server.eventLength json) := by
    intro T
    rw [Server.delivers_iff hs]
    refine and_congr_right fun _ => exists_congr fun k => and_congr_right fun hk => ?_
    rw [Server.subscribed_iff, hmask k hk]
  constructor
  · intro hall T hlast
    obtain ⟨hc, k, hk, hbit, hacc⟩ := (hdelivers T).mp ((hall T).mpr hlast)
    refine ⟨?_, hc, k, hk, hacc⟩
    rintro rfl
    -- the bit of `input` lets `binding` through as well
    exact not_lastSubscribe_binding hsupp
      ((hall .binding).mp ((hdelivers .binding).mpr ⟨hc, k, hk, hbit, hacc⟩))
  · intro hcond T
    rw [hdelivers T]
    by_cases hshared : T = .input ∨ T = .binding
    · have hnot : ¬ LastSubscribe W rs T := by
        rcases hshared with rfl | rfl
        · exact fun hlast => (hcond _ hlast).1 rfl
        · exact not_lastSubscribe_binding hsupp
      refine iff_of_false ?_ hnot
      rintro ⟨-, k, -, hbit, -⟩
      exact (hcond _ (lastSubscribe_input hsupp hshared hbit)).1 rfl
    · obtain ⟨hinput, hbinding⟩ := not_or.mp hshared
      rw [getLsbD_maskAfter_iff hsupp hinput hbinding]
      constructor
      · exact fun ⟨_, _, _, hlast, _⟩ => hlast
      · intro hlast
        obtain ⟨-, hc, k, hk, hacc⟩ := hcond T hlast
        exact ⟨hc, k, hk, hlast, hacc⟩

/-! ## Two requests about one bit -/

namespace Server

instance (s : Server) (c : ℕ) (k : I3IpcClient) (mask : EventMask) (calls : ReadCalls)
    (f : Frame) : Decidable (HandsOver s c k mask calls f) :=
  inferInstanceAs (Decidable (_ ∧ _))

/-- The state after a step that succeeds. -/
def next (W : World) (s : Server) (i : Input) : Server :=
  match step W s i with
  | .ok s' => s'
  | .error _ => s

lemma step_next {W : World} {s : Server} {i : Input} (h : (step W s i).isOk = true) :
    step W s i = .ok (next W s i) := by
  rw [next]
  cases hstep : step W s i with
  | ok s' => rfl
  | error f =>
    rw [hstep] at h
    cases h

/-- A message of a client arrives and the client is readable. -/
def exchange (W : World) (s : Server) (c : ℕ) (f : Frame) : Server :=
  next W (next W s (.arrive c f.encode))
    (.readable c ⟨false, false⟩ ⟨true, true, true⟩ ⟨fun _ => .null, fun _ => ([], .null)⟩)

/-- The record of a client, for clients that are live. -/
def record (s : Server) (c : ℕ) : I3IpcClient := (s.heap c).getD I3IpcClient.fresh

/-- A subscription request that arrives on its own and is answered with success. -/
lemma SubRun.exchange {W : World} {c : ℕ} {rs : List SubscriptionRequest} {s : Server}
    {r : SubscriptionRequest} (h : SubRun W c rs s)
    (hok : (step W s (.arrive c r.frame.encode)).isOk = true ∧
      (step W (next W s (.arrive c r.frame.encode)) (.readable c ⟨false, false⟩
        ⟨true, true, true⟩ ⟨fun _ => .null, fun _ => ([], .null)⟩)).isOk = true)
    (hlive : ((next W s (.arrive c r.frame.encode)).heap c).isSome = true)
    (hhands : HandsOver (next W s (.arrive c r.frame.encode)) c
      ((next W s (.arrive c r.frame.encode)).record c) ⟨false, false⟩ ⟨true, true, true⟩ r.frame)
    (hsuccess : queuedFor c (next W s (.arrive c r.frame.encode)).log
        ++ [⟨r.frame.type, statusMessage .success⟩]
      <+: queuedFor c (s.exchange W c r.frame).log) :
    SubRun W c (rs ++ [r]) (s.exchange W c r.frame) := by
  have harrive : SubRun W c rs (next W s (.arrive c r.frame.encode)) :=
    h.other (by simp) (step_next hok.1)
  obtain ⟨k, hk⟩ := Option.isSome_iff_exists.mp hlive
  have hrecord : (next W s (.arrive c r.frame.encode)).record c = k := by
    rw [record, hk, Option.getD_some]
  rw [hrecord] at hhands
  exact harrive.request hk hhands (step_next hok.2) hsuccess

/-- A JSON library that reads the requests below. -/
def eventWorld : World where
  reallocOk := fun _ _ => true
  stringToJson := fun buf =>
    if buf = ascii "[\"input\"]" then .arr [.str "input"]
    else if buf = ascii "[\"binding\"]" then .arr [.str "binding"]
    else .arr [.str "tick"]
  jsonToString := Json.text

def subscribeTick : SubscriptionRequest := .subscribe (ascii "[\"tick\"]")
def subscribeInput : SubscriptionRequest := .subscribe (ascii "[\"input\"]")
def unsubscribeBinding : SubscriptionRequest := .unsubscribe (ascii "[\"binding\"]")

/-- The state after a new client has made the requests one after the other. -/
def afterRequests (rs : List SubscriptionRequest) : Server :=
  rs.foldl (fun s r => s.exchange eventWorld 0 r.frame) init.handleConnection

lemma subRun_connect : SubRun eventWorld 0 [] init.handleConnection := .connect ⟨[], rfl⟩ rfl

lemma subRun_tick : SubRun eventWorld 0 [subscribeTick] (afterRequests [subscribeTick]) := by
  rw [afterRequests, List.foldl_cons, List.foldl_nil]
  exact subRun_connect.exchange (r := subscribeTick)
    (by decide +kernel) (by decide +kernel) (by decide +kernel) (by decide +kernel)

lemma subRun_input : SubRun eventWorld 0 [subscribeInput, unsubscribeBinding]
    (afterRequests [subscribeInput, unsubscribeBinding]) := by
  rw [afterRequests, List.foldl_cons, List.foldl_cons, List.foldl_nil]
  have hinput := subRun_connect.exchange (r := subscribeInput)
    (by decide +kernel) (by decide +kernel) (by decide +kernel) (by decide +kernel)
  exact hinput.exchange (r := unsubscribeBinding)
    (by decide +kernel) (by decide +kernel) (by decide +kernel) (by decide +kernel)

lemma record_eq {s : Server} {c : ℕ} (h : (s.heap c).isSome = true) :
    s.heap c = some (s.record c) := by
  obtain ⟨k, hk⟩ := Option.isSome_iff_exists.mp h
  rw [record, hk, Option.getD_some]

end Server

open Server in
/-- After `SUBSCRIBE ["tick"]` the client gets tick events. -/
theorem tick_delivered : (afterRequests [subscribeTick]).Delivers eventWorld 0 .tick [] := by
  refine ((delivers_lastSubscribe_iff subRun_tick []).mpr (fun T hlast => ?_) .tick).mpr ?_
  · refine ⟨?_, by decide +kernel, _, record_eq (by decide +kernel), by decide +kernel⟩
    rintro rfl
    exact absurd hlast (by rw [LastSubscribe]; decide +kernel)
  · rw [LastSubscribe]
    decide +kernel

open Server in
/-- After `SUBSCRIBE ["input"]` and `UNSUBSCRIBE ["binding"]` no `input` event reaches the client,
which is listed and has room for it. -/
theorem input_not_delivered :
    SubRun eventWorld 0 [subscribeInput, unsubscribeBinding]
      (afterRequests [subscribeInput, unsubscribeBinding]) ∧
    LastSubscribe eventWorld [subscribeInput, unsubscribeBinding] .input ∧
    0 ∈ (afterRequests [subscribeInput, unsubscribeBinding]).ipcClientList ∧
    ((afterRequests [subscribeInput, unsubscribeBinding]).record 0).Accepts eventWorld 0 0 ∧
    ¬ (afterRequests [subscribeInput, unsubscribeBinding]).Delivers eventWorld 0 .input [] := by
  have hrun := subRun_input
  obtain ⟨hs, -, -, hmask⟩ := hrun.mask_eq
  refine ⟨hrun, ?_, by decide +kernel, by decide +kernel, ?_⟩
  · rw [LastSubscribe]
    decide +kernel
  · rw [delivers_iff hs]
    rintro ⟨-, k, hk, hsub, -⟩
    rw [subscribed_iff, hmask k hk] at hsub
    exact absurd hsub (by decide +kernel)

end WayfireIpc
