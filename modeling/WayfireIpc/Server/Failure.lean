/-
# Subscription requests that fail

What a `SUBSCRIBE` or `UNSUBSCRIBE` that is answered with a failure leaves of the mask of its
client.  Both branches change the mask while they still check the names.
-/
import WayfireIpc.Server.Delivery

namespace WayfireIpc

namespace SubscriptionRequest

variable (W : World) (r : SubscriptionRequest)

/-- The payload is no array, or an empty one. -/
def Empty : Prop :=
  (W.stringToJson r.frame.payload).isArray = false ∨ (W.stringToJson r.frame.payload).elements = []

instance : Decidable (r.Empty W) := inferInstanceAs (Decidable (_ ∨ _))

/-- What a request that fails at an unsupported name makes of the mask. -/
def failedMask (m : BitVec 64) : BitVec 64 :=
  match r with
  | subscribe _ => 0
  | unsubscribe _ => Server.unsubscribeMask m (Server.knownNames (r.names W))

/-- The mask has nothing to lose to the request: for a `SUBSCRIBE` it is empty, and for an
`UNSUBSCRIBE` no event that is named in front of the first unsupported name is in it. -/
def NothingToLose (m : BitVec 64) : Prop :=
  match r with
  | subscribe _ => m = 0
  | unsubscribe _ => ∀ event ∈ Server.knownNames (r.names W), ∀ ev, eventToType event = some ev →
      m &&& eventMask ev = 0

end SubscriptionRequest

namespace Server

variable {W : World} {s s' : Server} {c : ℕ} {k : I3IpcClient}

lemma unsubscribeMask_eq_self_iff {m : BitVec 64} {names : List String} :
    unsubscribeMask m names = m ↔
      ∀ event ∈ names, ∀ ev, eventToType event = some ev → m &&& eventMask ev = 0 := by
  have hbits : ∀ ev : IpcEventType, m &&& eventMask ev = 0 ↔ m.getLsbD ev.bit = false := by
    intro ev
    have hsub : ({ I3IpcClient.fresh with subscribedEvents := m } : I3IpcClient).Subscribed ev ↔
        m.getLsbD ev.bit = true := subscribed_iff
    rw [I3IpcClient.Subscribed, ← not_iff_not, not_not, Bool.not_eq_true] at hsub
    exact hsub
  constructor
  · intro heq event hmem ev hev
    rw [hbits, ← heq, getLsbD_unsubscribeMask, if_pos]
    exact List.any_eq_true.mpr ⟨event, hmem, by simp [hasBit, hev]⟩
  · intro h
    ext i hi
    show (unsubscribeMask m names).getLsbD i = m.getLsbD i
    rw [getLsbD_unsubscribeMask]
    split_ifs with hany
    · obtain ⟨event, hmem, hbit⟩ := List.any_eq_true.mp hany
      obtain ⟨ev, hev, rfl⟩ : ∃ ev, eventToType event = some ev ∧ ev.bit = i := by
        simpa [hasBit, Option.any_eq_true] using hbit
      exact ((hbits ev).mp (h event hmem ev hev)).symm
    · rfl

end Server

lemma SubscriptionRequest.failedMask_eq_self_iff {W : World} {r : SubscriptionRequest}
    {m : BitVec 64} : r.failedMask W m = m ↔ r.NothingToLose W m := by
  cases r with
  | subscribe buf => exact eq_comm
  | unsubscribe buf => exact Server.unsubscribeMask_eq_self_iff

namespace Server

variable {W : World} {s s' : Server} {c : ℕ} {k : I3IpcClient}

/-- A failure that is queued leaves the client with its mask. -/
lemma sendStatus_failed (hs : s.Inv) (h : s.heap c = some k) {t : UInt32} {status : ReturnStatus}
    {f : Frame} (heq : sendStatus W s c t status = .ok s')
    (hfail : queuedFor c s'.log = queuedFor c s.log ++ [f]) :
    ∃ k', s'.heap c = some k' ∧ k'.subscribedEvents = k.subscribedEvents := by
  rcases sendStatus_outcome hs h heq with ⟨-, hmask⟩ | ⟨hq, -⟩
  · exact hmask
  · rw [hq] at hfail
    simpa using congrArg List.length hfail

/-- An answer of success is not a failure. -/
lemma sendStatus_success_ne (hs : s.Inv) (h : s.heap c = some k) {t : UInt32}
    (heq : sendStatus W s c t .success = .ok s') :
    queuedFor c s'.log ≠ queuedFor c s.log ++ [⟨t, statusMessage .unsupported⟩] := by
  have hne : statusMessage .success ≠ statusMessage .unsupported := by decide
  intro hfail
  rcases sendStatus_outcome hs h heq with ⟨hq, -⟩ | ⟨hq, -⟩
  · rw [hq] at hfail
    simp [hne] at hfail
  · rw [hq] at hfail
    simp at hfail

lemma handleSubscribe_failed (hs : s.Inv) (h : s.heap c = some k) {buf : Buf}
    (heq : handleSubscribe W s c IpcPayloadType.subscribe.code buf = .ok s')
    (hfail : queuedFor c s'.log
      = queuedFor c s.log ++ [⟨IpcPayloadType.subscribe.code, statusMessage .unsupported⟩]) :
    ∃ k', s'.heap c = some k' ∧ k'.subscribedEvents
      = if (W.stringToJson buf).isArray = false ∨ (W.stringToJson buf).elements = []
        then k.subscribedEvents else 0 := by
  rcases handleSubscribe_cases h heq with
    ⟨hempty, hstatus⟩ | ⟨hempty, ⟨-, s₁, hstatus, htick⟩ | ⟨-, hstatus⟩⟩
  · rw [if_pos hempty]
    exact sendStatus_failed hs h hstatus hfail
  · have hs₁ := hs.setMask h
      (subscribeMask k.subscribedEvents (eventNames (W.stringToJson buf).elements))
    have hne := sendStatus_success_ne hs₁ put_heap hstatus
    rcases htick with ⟨-, rfl⟩ | ⟨-, b, hsend⟩
    · exact absurd hfail hne
    · -- the tick event follows the answer
      obtain ⟨k₁, h₁⟩ := live_of_sendReply hsend
      have hq₁ : queuedFor c s₁.log
          = queuedFor c s.log ++ [⟨IpcPayloadType.subscribe.code, statusMessage .success⟩] := by
        rcases sendStatus_outcome hs₁ put_heap hstatus with ⟨hq, -⟩ | ⟨-, hnone⟩
        · exact hq
        · rw [hnone] at h₁
          cases h₁
      rcases sendReply_outcome (sendStatus_inv hs₁ put_heap hstatus) h₁ hsend with
        ⟨hq, -⟩ | ⟨hq, -⟩
      · rw [hq, hq₁, List.append_assoc] at hfail
        simp at hfail
      · exact absurd (hq ▸ hfail) hne
  · rw [if_neg hempty]
    exact sendStatus_failed (hs.setMask h _) put_heap hstatus hfail

lemma handleUnsubscribe_failed (hs : s.Inv) (h : s.heap c = some k) {t : UInt32} {buf : Buf}
    (heq : handleUnsubscribe W s c t buf = .ok s')
    (hfail : queuedFor c s'.log = queuedFor c s.log ++ [⟨t, statusMessage .unsupported⟩]) :
    ∃ k', s'.heap c = some k' ∧ k'.subscribedEvents
      = if (W.stringToJson buf).isArray = false ∨ (W.stringToJson buf).elements = []
        then k.subscribedEvents
        else unsubscribeMask k.subscribedEvents
          (knownNames (eventNames (W.stringToJson buf).elements)) := by
  rcases handleUnsubscribe_cases h heq with
    ⟨hempty, hstatus⟩ | ⟨hempty, ⟨-, hstatus⟩ | ⟨-, hstatus⟩⟩
  · rw [if_pos hempty]
    exact sendStatus_failed hs h hstatus hfail
  · exact absurd hfail (sendStatus_success_ne (hs.setMask h _) put_heap hstatus)
  · rw [if_neg hempty]
    exact sendStatus_failed (hs.setMask h _) put_heap hstatus hfail

/-- A failed request leaves the mask of its client as it was exactly when its payload is no list of
names, or the mask has nothing to lose to it. -/
theorem failed_request_mask_iff (hs : Reachable W s) (h : s.heap c = some k) {mask : EventMask}
    {calls : ReadCalls} {A : Answers} {r : SubscriptionRequest}
    (hhands : HandsOver s c k mask calls r.frame)
    (hstep : step W s (.readable c mask calls A) = .ok s')
    (hfail : queuedFor c s'.log
      = queuedFor c s.log ++ [⟨r.frame.type, statusMessage .unsupported⟩]) :
    ∃ k', s'.heap c = some k' ∧
      (k'.subscribedEvents = k.subscribedEvents ↔
        r.Empty W ∨ r.NothingToLose W k.subscribedEvents) := by
  have hinv := hs.inv
  have hlt : c < s.nextClient := hinv.live_lt c ⟨k, h⟩
  rw [step, if_pos ((hinv.read_iff c).mpr ⟨k, h⟩)] at hstep
  rcases clientHandleReadable_cases (W := W) h A mask calls with
    ⟨f, es, s₁, k₁, hhands', hmoves, hread, h₁, hover, heq⟩ | ⟨hnone, -⟩
  · obtain rfl : r.frame = f := Option.some.inj (hhands.2.2.2.2.2.symm.trans hhands'.2.2.2.2.2)
    rw [heq] at hstep
    rw [← hmoves.read_queued hlt hread] at hfail
    obtain ⟨k', hk', hmask⟩ : ∃ k', s'.heap c = some k' ∧ k'.subscribedEvents
        = if r.Empty W then k₁.subscribedEvents else r.failedMask W k₁.subscribedEvents := by
      cases r with
      | subscribe buf => exact handleSubscribe_failed (hmoves.inv hinv) h₁ hstep hfail
      | unsubscribe buf => exact handleUnsubscribe_failed (hmoves.inv hinv) h₁ hstep hfail
    refine ⟨k', hk', ?_⟩
    rw [hmask, hover.mask_eq, ← SubscriptionRequest.failedMask_eq_self_iff]
    split_ifs with hempty
    · exact iff_of_true rfl (Or.inl hempty)
    · exact (or_iff_right hempty).symm
  · exact absurd hhands (hnone _)

/-! ## A name that is not supported -/

/-- A JSON library that reads the requests below. -/
def bogusWorld : World where
  reallocOk := fun _ _ => true
  stringToJson := fun buf =>
    if buf = ascii "[\"tick\", \"bogus\"]" then .arr [.str "tick", .str "bogus"]
    else .arr [.str "tick"]
  jsonToString := Json.text

def subscribeBogus : SubscriptionRequest := .subscribe (ascii "[\"tick\", \"bogus\"]")
def unsubscribeBogus : SubscriptionRequest := .unsubscribe (ascii "[\"tick\", \"bogus\"]")

/-- The client is readable. -/
def readable : Input :=
  .readable 0 ⟨false, false⟩ ⟨true, true, true⟩ ⟨fun _ => .null, fun _ => ([], .null)⟩

/-- The request has arrived from a client that has subscribed to ticks. -/
def arrivedAfterTick (r : SubscriptionRequest) : Server :=
  after bogusWorld [.connection true, .arrive 0 subscribeTick.frame.encode, readable,
    .arrive 0 r.frame.encode]

/-- The request is answered with a failure, and the mask of its client is another one. -/
def FailsAndChanges (r : SubscriptionRequest) : Prop :=
  HandsOver (arrivedAfterTick r) 0 ((arrivedAfterTick r).record 0) ⟨false, false⟩
      ⟨true, true, true⟩ r.frame ∧
    (step bogusWorld (arrivedAfterTick r) readable).isOk = true ∧
    queuedFor 0 (next bogusWorld (arrivedAfterTick r) readable).log
      = queuedFor 0 (arrivedAfterTick r).log ++ [⟨r.frame.type, statusMessage .unsupported⟩] ∧
    ((next bogusWorld (arrivedAfterTick r) readable).record 0).subscribedEvents
      ≠ ((arrivedAfterTick r).record 0).subscribedEvents

instance (r : SubscriptionRequest) : Decidable (FailsAndChanges r) :=
  inferInstanceAs (Decidable (_ ∧ _ ∧ _ ∧ _))

/-- Both requests fail, and the subscription to ticks is lost. -/
theorem bogus_changes_mask : FailsAndChanges subscribeBogus ∧ FailsAndChanges unsubscribeBogus := by
  decide +kernel

/-- A failed request of a client that has subscribed to nothing. -/
theorem bogus_without_subscriptions :
    ∃ k', (next bogusWorld (after bogusWorld [.connection true,
        .arrive 0 subscribeBogus.frame.encode]) readable).heap 0 = some k' ∧
      (k'.subscribedEvents = 0 ↔ subscribeBogus.Empty bogusWorld ∨
        subscribeBogus.NothingToLose bogusWorld 0) := by
  have hmask : ((after bogusWorld [.connection true,
      .arrive 0 subscribeBogus.frame.encode]).record 0).subscribedEvents = 0 := by
    decide +kernel
  rw [← hmask]
  refine failed_request_mask_iff (c := 0) (reachable_after _ _) (record_eq ?_) ?_ (step_next ?_) ?_ <;>
    decide +kernel

end Server

end WayfireIpc
