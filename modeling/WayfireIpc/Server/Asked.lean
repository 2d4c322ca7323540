/-
# What a client has asked for

Everything that is queued to a client goes back to a request of this client: it answers the one
request that is not answered yet, or it is an event, and then the last of the answered requests that
says something about the event is a `SUBSCRIBE` that names it.
-/
import WayfireIpc.Server.Conversation

namespace WayfireIpc

open LastWrite

namespace SubscriptionRequest

variable (W : World) (r : SubscriptionRequest)

/-- The request clears the bit when it fails at a name.  A `SUBSCRIBE` that fails clears the whole
mask, an `UNSUBSCRIBE` has taken away what is named before. -/
def clears (b : ℕ) : Bool :=
  match r with
  | subscribe _ => true
  | unsubscribe _ =>
    (Server.knownNames (r.names W)).any fun event => Server.hasBit b (eventToType event)

/-- The request, once it is answered, has written the bit. -/
def writes (b : ℕ) : Bool :=
  if r.Empty W then false else if r.Supported W then r.touches W b else r.clears W b

/-- The request sets the bits that it writes. -/
def grants : Bool := r.isSubscribe && decide (r.Supported W)

lemma getLsbD_maskBehind (m : BitVec 64) (b : ℕ) :
    (r.maskBehind W m).getLsbD b = if r.writes W b then r.grants W else m.getLsbD b := by
  by_cases hempty : r.Empty W
  · rw [maskBehind, writes, if_pos hempty, if_pos hempty, if_neg Bool.false_ne_true]
  by_cases hsupported : r.Supported W
  · rw [maskBehind, writes, if_neg hempty, if_neg hempty, if_pos hsupported, if_pos hsupported,
      getLsbD_apply, grants, decide_eq_true hsupported, Bool.and_true]
  · rw [maskBehind, writes, if_neg hempty, if_neg hempty, if_neg hsupported, if_neg hsupported,
      grants, decide_eq_false hsupported, Bool.and_false]
    cases r with
    | subscribe buf => simp [failedMask, clears]
    | unsubscribe buf => exact Server.getLsbD_unsubscribeMask m _ b

end SubscriptionRequest

/-- The last of the requests that says something about the event is a `SUBSCRIBE` that names it; a
`SUBSCRIBE` cannot name `binding`, whose bit is the one of `input`. -/
def AskedFor (W : World) (rs : List SubscriptionRequest) (T : IpcEventType) : Prop :=
  ∃ pre r post, rs = pre ++ r :: post ∧ r.isSubscribe = true ∧ ¬ r.Empty W ∧ r.Supported W ∧
    (r.Names W T = true ∨ T = .binding ∧ r.Names W .input = true) ∧
    ∀ r' ∈ post, r'.writes W T.bit = false

/-- The mask of a session, bit by bit. -/
lemma getLsbD_topic (W : World) (done : List Frame) (b : ℕ) :
    (done.foldl (protocol W).after (protocol W).init).getLsbD b
      = lastWrite (fun r : SubscriptionRequest => r.writes W b) (fun r => r.grants W) false
        (done.filterMap subscriptionOf) := by
  have hfold : done.foldl (protocol W).after (protocol W).init
      = (done.filterMap subscriptionOf).foldl (fun m r => r.maskBehind W m) 0 := by
    rw [List.foldl_filterMap]
    refine congrFun (congrFun (congrArg List.foldl ?_) _) _
    funext m f
    simp only [protocol]
    cases subscriptionOf f <;> rfl
  have h := get_foldl (g := fun m : BitVec 64 => m.getLsbD b)
    (t := fun r : SubscriptionRequest => r.writes W b) (v := fun r => r.grants W)
    (fun m r => r.getLsbD_maskBehind W m b) 0 (done.filterMap subscriptionOf)
  have hzero : (0 : BitVec 64).getLsbD b = false := by simp
  rw [hfold, h, hzero]

/-- The mask of a session holds what has been asked for. -/
lemma askedFor_of_topic {W : World} {done : List Frame} {T : IpcEventType}
    (h : (done.foldl (protocol W).after (protocol W).init).getLsbD T.bit = true) :
    AskedFor W (done.filterMap subscriptionOf) T := by
  rw [getLsbD_topic] at h
  obtain ⟨pre, r, post, hsplit, hwrites, hgrants, hpost⟩ := exists_of_lastWrite h
  obtain ⟨hsub, hsupported⟩ : r.isSubscribe = true ∧ r.Supported W := by
    simpa [SubscriptionRequest.grants] using hgrants
  have hempty : ¬ r.Empty W := by
    intro hempty
    rw [SubscriptionRequest.writes, if_pos hempty] at hwrites
    cases hwrites
  refine ⟨pre, r, post, hsplit, hsub, hempty, hsupported, ?_, hpost⟩
  rw [SubscriptionRequest.writes, if_neg hempty, if_pos hsupported, hsupported.touches_iff] at hwrites
  obtain ⟨ev, hbit, hnames⟩ := hwrites
  rcases (bit_eq_iff ev T).mp hbit with rfl | ⟨rfl, rfl⟩ | ⟨rfl, -⟩
  · exact Or.inl hnames
  · exact Or.inr ⟨rfl, hnames⟩
  · rw [hsupported.not_names_binding hsub] at hnames
    cases hnames

namespace Server

variable {W : World} {s : Server} {c : ℕ}

/-- What a message that is queued to a client goes back to. -/
theorem queued_goes_back (h : Reachable W s) {pre post : List Obs} {g : Frame}
    (hlog : s.log = pre ++ .queued c g :: post) :
    ∃ done owed, dispatchedFor c pre = done ++ Option.toList owed ∧
      ((∃ f, owed = some f ∧ (protocol W).answers f g = true) ∨
        ∃ T : IpcEventType, g.type = T.code ∧ AskedFor W (done.filterMap subscriptionOf) T) := by
  obtain ⟨q, hfollow, -⟩ := h.keepsProtocol c
  have hsplit : conversation c s.log
      = conversation c pre ++ .message g :: conversation c post := by
    rw [hlog, conversation_append, ← List.singleton_append, conversation_append]
    simp [conversation]
  rw [hsplit] at hfollow
  obtain ⟨q₁, done, -, hkept, hmessage⟩ := SessionRules.message_of_follow hfollow
  refine ⟨done, q₁.owed, ?_, ?_⟩
  · rw [← requests_conversation]
    exact hkept.requests_eq
  · rcases hmessage with hanswer | hnotice
    · exact Or.inl hanswer
    · obtain ⟨T, -, hT⟩ := List.any_eq_true.mp hnotice
      rw [Bool.and_eq_true, decide_eq_true_iff, hkept.topic_eq] at hT
      exact Or.inr ⟨T, hT.1.symm, askedFor_of_topic hT.2⟩

lemma twoClients_log : twoClients.log = twoClients.log.take 13 ++
    .queued 1 ⟨IpcEventType.tick.code, Json.text (tickMessage true [])⟩ :: [] := by
  decide +kernel

/-- The first tick event of a client goes back to its subscription. -/
theorem twoClients_tick_goes_back :
    AskedFor refusingWorld [.subscribe (ascii "[\"tick\"]")] .tick := by
  have hone : dispatchedFor 1 (twoClients.log.take 13) = [⟨2, ascii "[\"tick\"]"⟩] := by
    decide +kernel
  obtain ⟨done, owed, hreqs, ⟨f, rfl, hf⟩ | ⟨T, hT, hasked⟩⟩ :=
    queued_goes_back reachable_twoClients twoClients_log
  · -- the request has another type than the event
    have hmem : f ∈ dispatchedFor 1 (twoClients.log.take 13) := by
      rw [hreqs]
      simp
    rw [hone, List.mem_singleton] at hmem
    subst hmem
    exact absurd hf (by decide +kernel)
  · obtain rfl : T = .tick := by revert hT; cases T <;> decide
    rw [hone] at hreqs
    cases done with
    | nil =>
      obtain ⟨pre, r, post, hnil, -⟩ := hasked
      simp at hnil
    | cons f done =>
      obtain ⟨rfl, hrest⟩ := List.cons_eq_cons.mp hreqs.symm
      obtain ⟨rfl, -⟩ := List.append_eq_nil_iff.mp hrest
      exact hasked

end Server

end WayfireIpc
