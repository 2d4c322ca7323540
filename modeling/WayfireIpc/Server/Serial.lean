/-
# The requests of all clients

The server with the desktop behind it: commands change the desktop, and queries describe it.
Whatever the clients send, and however their bytes arrive, the desktop takes their requests one
after another, and each client gets the answers to its own requests in the order in which it has
sent them.
-/
import WayfireIpc.Lib.Serial
import WayfireIpc.Client.Queries
import WayfireIpc.Command.Context
import WayfireIpc.Server.Draining

namespace WayfireIpc

/-! ## The desktop -/

namespace Desktop

variable (K : Commands) (d : Desktop)

instance (type : IpcPayloadType) : Decidable (IsQuery type) :=
  inferInstanceAs (Decidable (type ∈ _))

/-- The message has the type of a request that the desktop answers: a command or a query. -/
def Concerned (f : Frame) : Bool :=
  (IpcPayloadType.ofCode f.type).any fun type => type = .command ∨ IsQuery type

/-- A command string on the desktop, with the results as a value. -/
def execute (payload : Buf) : Except Failure (Json × Desktop) :=
  match commandRun K d.compositor payload with
  | (_, .failed e) => .error e
  | (s, _) => .ok (resListJson s.resList, { d with compositor := s.compositor })

/-- A request on the desktop. -/
def request (f : Frame) : Except Failure (Option Json × Desktop) :=
  match IpcPayloadType.ofCode f.type with
  | some .command => (fun r => (some r.1, r.2)) <$> d.execute K f.payload
  | some type =>
    if IsQuery type then (fun v => (some v, d)) <$> d.describe type else .ok (none, d)
  | none => .ok (none, d)

/-- What the desktop answers to the server; what it signals meanwhile is left open. -/
def answers (A : Answers) : Answers where
  describe type := (d.describe type).toOption.getD .null
  executeCommand buf :=
    ((A.executeCommand buf).1, resListJson (executeCommand K buf.text.toList d.compositor).1.resList)

end Desktop

/-! ## The server and the desktop -/

/-- The requests that have been handed over, with their clients. -/
def handedOver (log : List Obs) : List (ℕ × Frame) :=
  log.filterMap fun
    | .dispatched c f => some (c, f)
    | _ => none

/-- The server and the desktop. -/
structure Whole where
  server : Server
  desktop : Desktop

namespace Whole

inductive Input
  /-- Something happens to the server. -/
  | server (i : Server.Input)
  /-- The desktop changes by itself. -/
  | desktop (d : Desktop)

/-- The answers in an input are those of the desktop. -/
def answered (K : Commands) (d : Desktop) : Server.Input → Server.Input
  | .readable c mask calls A => .readable c mask calls (d.answers K A)
  | i => i

/-- The desktop behind the requests. -/
def after (K : Commands) (d : Desktop) (requests : List (ℕ × Frame)) : Except Failure Desktop :=
  requests.foldlM (fun d x => Prod.snd <$> d.request K x.2) d

/-- A step of the server and the desktop.  What the server hands over has been taken by the desktop
when the step ends. -/
def step (W : World) (K : Commands) (w : Whole) : Input → Except (Fault ⊕ Failure) Whole
  | .server i => do
    let s ← (Server.step W w.server (answered K w.desktop i)).mapError .inl
    let d ← (after K w.desktop ((handedOver s.log).drop (handedOver w.server.log).length)).mapError .inr
    return ⟨s, d⟩
  | .desktop d => .ok { w with desktop := d }

end Whole

namespace Desktop

variable {K : Commands} {d d' : Desktop} {f : Frame} {v : Json}

/-- A request with an answer is a command or a query. -/
lemma request_some (h : d.request K f = .ok (some v, d')) :
    (IpcPayloadType.ofCode f.type = some .command ∧
        v = resListJson (commandRun K d.compositor f.payload).1.resList) ∨
      ∃ type, IpcPayloadType.ofCode f.type = some type ∧ IsQuery type ∧ d.describe type = .ok v := by
  rw [request] at h
  split at h
  · next htype =>
    obtain ⟨⟨v', d₁⟩, hrun, heq⟩ := Machine.map_ok_iff.mp h
    cases heq
    refine Or.inl ⟨htype, ?_⟩
    rw [execute] at hrun
    split at hrun
    · cases hrun
    · next hpair =>
      cases hrun
      rw [hpair]
  · next type _ htype =>
    split_ifs at h with hquery
    · obtain ⟨v', hdescribe, heq⟩ := Machine.map_ok_iff.mp h
      cases heq
      exact Or.inr ⟨type, htype, hquery, hdescribe⟩
    · cases h
  · cases h

lemma concerned_of_request_some (h : d.request K f = .ok (some v, d')) : Concerned f = true := by
  rcases request_some h with ⟨htype, -⟩ | ⟨type, htype, hquery, -⟩
  · simp [Concerned, htype]
  · simp [Concerned, htype, hquery]

lemma not_concerned_of_request_none (h : d.request K f = .ok (none, d')) : Concerned f = false := by
  rw [request] at h
  split at h
  · obtain ⟨r, -, heq⟩ := Machine.map_ok_iff.mp h
    cases heq
  · next type hne htype =>
    split_ifs at h with hquery
    · obtain ⟨r, -, heq⟩ := Machine.map_ok_iff.mp h
      cases heq
    · have hcommand : type ≠ .command := hne
      simp [Concerned, htype, hquery, hcommand]
  · next htype => simp [Concerned, htype]

lemma concerned_congr {g : Frame} (h : g.type = f.type) : Concerned g = Concerned f := by
  rw [Concerned, h, Concerned]

/-- Events do not come from the desktop. -/
lemma not_concerned_of_hears {m : BitVec 64} {g : Frame} (h : hears m g = true) :
    Concerned g = false := by
  obtain ⟨ev, -, hev⟩ := List.any_eq_true.mp h
  have hcode : ev.code = g.type := by simp_all
  rw [Concerned, ← hcode]
  cases ev <;> decide

end Desktop

namespace Server

variable {W : World} {K : Commands} {s s' s₁ : Server} {c c₀ : ℕ} {k : I3IpcClient} {f : Frame}
  {l : List Frame}

/-! ## What the server hands over -/

lemma handedOver_append (log log' : List Obs) :
    handedOver (log ++ log') = handedOver log ++ handedOver log' := List.filterMap_append

lemma dispatchedFor_eq (c : ℕ) (log : List Obs) :
    dispatchedFor c log = ((handedOver log).filter (·.1 = c)).map Prod.snd := by
  induction log with
  | nil => rfl
  | cons o log ih =>
    rw [← List.singleton_append, dispatchedFor_append, handedOver_append, List.filter_append,
      List.map_append, ← ih]
    congr 1
    cases o with
    | dispatched c' g => by_cases hc : c' = c <;> simp [dispatchedFor, handedOver, hc]
    | _ => rfl

/-- The messages for a client that answer commands and queries. -/
def desktopReplies (c : ℕ) (log : List Obs) : List Frame := (queuedFor c log).filter Desktop.Concerned

/-- The client was connected, and has been taken away. -/
def Gone (s : Server) (c : ℕ) : Prop := c < s.nextClient ∧ ¬ s.Live c

/-- From `s` to `s'` no request of the client is handed over and it gets no answer from the desktop. -/
structure Unasked (c : ℕ) (s s' : Server) : Prop where
  dispatched : dispatchedFor c s'.log = dispatchedFor c s.log
  replies : desktopReplies c s'.log = desktopReplies c s.log
  gone : s.Gone c → s'.Gone c

lemma Says.dispatched (h : Says c l s s') : dispatchedFor c s'.log = dispatchedFor c s.log := by
  rw [← requests_conversation, h, Talk.requests_append, requests_conversation]
  simp [Talk.requests]

lemma Says.replies (h : Says c l s s') :
    desktopReplies c s'.log = desktopReplies c s.log ++ l.filter Desktop.Concerned := by
  have hmessages : Talk.messages (l.map (Talk.message (ρ := Frame))) = l := by
    simp [Talk.messages, List.filterMap_map]
  rw [desktopReplies, ← messages_conversation, h, Talk.messages_append, messages_conversation,
    List.filter_append, hmessages, desktopReplies]

lemma Informs.unasked (h : Informs c s s') (hle : s.nextClient ≤ s'.nextClient) : Unasked c s s' := by
  obtain ⟨l, hl, hheard⟩ := h.messages
  refine ⟨hl.dispatched, ?_, fun hgone => ⟨hgone.1.trans_le hle, fun hlive => hgone.2 (h.live hlive)⟩⟩
  rw [hl.replies, List.filter_eq_nil_iff.mpr, List.append_nil]
  intro g hg
  obtain ⟨k, -, hg⟩ := hheard g hg
  rw [Desktop.not_concerned_of_hears hg]
  simp

/-- Of a client that has not been connected before the step, the log says nothing behind it. -/
lemma conversation_of_newcomer {i : Input} (hs : s.Inv) (hstep : step W s i = .ok s')
    (hc : ¬ c < s.nextClient) : conversation c s'.log = [] := by
  have hbefore : conversation c s.log = [] :=
    conversation_of_others fun o ho hcl => hc (hs.log_lt o ho c hcl)
  by_cases hi : i = .connection true
  · subst hi
    cases hstep
    show conversation c (s.log ++ [.connected s.nextClient]) = []
    rw [conversation_append, hbefore]
    rfl
  · refine conversation_of_others fun o ho hcl => hc ?_
    rw [← step_nextClient hs hstep hi]
    exact (step_inv hs hstep).log_lt o ho c hcl

lemma unasked_of_newcomer {i : Input} (hs : s.Inv) (hstep : step W s i = .ok s')
    (hc : ¬ c < s.nextClient) : Unasked c s s' := by
  have hbefore : conversation c s.log = [] :=
    conversation_of_others fun o ho hcl => hc (hs.log_lt o ho c hcl)
  have hbehind := conversation_of_newcomer hs hstep hc
  refine ⟨?_, ?_, fun hgone => absurd hgone.1 hc⟩
  · rw [← requests_conversation, ← requests_conversation, hbefore, hbehind]
  · rw [desktopReplies, desktopReplies, ← messages_conversation, ← messages_conversation, hbefore,
      hbehind]

/-- In a step that hands over a request, the others ask for nothing. -/
lemma Hands.unasked {A : Answers} {i : Input} (h : Hands W A c₀ f s s') (hs : s.Inv)
    (hstep : step W s i = .ok s') (hc : c ≠ c₀) : Unasked c s s' := by
  by_cases hlt : c < s.nextClient
  · obtain ⟨es, hmoves, -⟩ := step_moves hs hstep
    exact (h.informs hs hc hlt).unasked hmoves.nextClient_le
  · exact unasked_of_newcomer hs hstep hlt

/-- The messages of the client that are queued while its request is handled. -/
lemma Hands.settled {A : Answers} (h : Hands W A c f s s') (hs : s.Inv) :
    ∃ k₁ s₁, s₁.Inv ∧ s₁.heap c = some k₁ ∧
      conversation c s₁.log = conversation c s.log ++ [.request f] ∧
      handlePayload W A s₁ c f.type f.payload = .ok s' := by
  obtain ⟨k, k₁, es, s₁, hk, hmoves, hread, h₁, hover, heq⟩ := h
  exact ⟨k₁, s₁, hmoves.inv hs, h₁, hover.conversation_eq (hs.live_lt c ⟨k, hk⟩) hmoves hread, heq⟩

lemma Hands.live {A : Answers} (h : Hands W A c f s s') : s.Live c := by
  obtain ⟨k, -, -, -, hk, -⟩ := h
  exact ⟨k, hk⟩

lemma Hands.dispatched {A : Answers} (h : Hands W A c f s s') (hs : s.Inv) :
    dispatchedFor c s'.log = dispatchedFor c s.log ++ [f] := by
  obtain ⟨k₁, s₁, hs₁, hk₁, htalk, heq⟩ := h.settled hs
  obtain ⟨l, q, hl, -⟩ := handlePayload_settles hs₁ hk₁ heq
  rw [hl.dispatched, ← requests_conversation, htalk, Talk.requests_append, requests_conversation]
  rfl

/-- Only in a step that hands over a request the log of the requests grows, by this one. -/
lemma step_handedOver {i : Input} (hs : s.Inv) (hstep : step W s i = .ok s') :
    (handedOver s'.log = handedOver s.log ∧ ∀ c, Unasked c s s') ∨
      ∃ c₀ mask calls A f, i = .readable c₀ mask calls A ∧ Hands W A c₀ f s s' ∧
        handedOver s'.log = handedOver s.log ++ [(c₀, f)] ∧ ∀ c ≠ c₀, Unasked c s s' := by
  obtain ⟨obs, hlog⟩ := step_log_grows hs hstep
  have hobs : ∀ {c l}, dispatchedFor c s'.log = dispatchedFor c s.log ++ l →
      ((handedOver obs).filter (·.1 = c)).map Prod.snd = l := by
    intro c l h
    rw [hlog, dispatchedFor_append] at h
    rw [← dispatchedFor_eq]
    exact List.append_cancel_left h
  have hnone : ∀ {c}, Unasked c s s' → ∀ g, (c, g) ∉ handedOver obs := by
    intro c h g hg
    have hnil := hobs (h.dispatched.trans (List.append_nil _).symm)
    rw [List.map_eq_nil_iff, List.filter_eq_nil_iff] at hnil
    exact hnil _ hg (by simp)
  rw [hlog, handedOver_append]
  rcases step_talks hs hstep with hinforms | ⟨c₀, mask, calls, A, f, hi, hands⟩
  · have hall : ∀ c, Unasked c s s' := by
      intro c
      by_cases hlt : c < s.nextClient
      · obtain ⟨es, hmoves, -⟩ := step_moves hs hstep
        exact (hinforms c hlt).unasked hmoves.nextClient_le
      · exact unasked_of_newcomer hs hstep hlt
    have hnil : handedOver obs = [] :=
      List.eq_nil_iff_forall_not_mem.mpr fun x => hnone (hall x.1) x.2
    refine Or.inl ⟨?_, hall⟩
    rw [hnil, List.append_nil]
  · refine Or.inr ⟨c₀, mask, calls, A, f, hi, hands, ?_, fun c hc => hands.unasked hs hstep hc⟩
    -- all requests of this step are of this client
    have hone := hobs (hands.dispatched hs)
    have hmine : ∀ x ∈ handedOver obs, x.1 = c₀ := by
      intro x hx
      by_contra hc
      exact hnone (hands.unasked hs hstep hc) x.2 hx
    rw [List.filter_eq_self.mpr (by simpa using hmine)] at hone
    obtain ⟨⟨c', g⟩, hx, hg⟩ := List.map_eq_singleton_iff.mp hone
    have hc : c' = c₀ := hmine (c', g) (by simp [hx])
    rw [hx, hc]
    congr

/-! ## What the desktop answers -/

/-- The reply behind some events. -/
lemma sendReply_behind (hinforms : Informs c s s₁) (hs₁ : s₁.Inv) {t : UInt32} {payload : Buf}
    {b : Bool} (hsend : sendReply W s₁ c t payload = .ok (b, s')) :
    ∃ l, l.filter Desktop.Concerned = [] ∧
      (Says c (l ++ [replyFrame t payload]) s s' ∨ Says c l s s' ∧ ¬ s'.Live c) := by
  obtain ⟨l, hl, hheard⟩ := hinforms.messages
  obtain ⟨k₁, hk₁⟩ := live_of_sendReply hsend
  refine ⟨l, List.filter_eq_nil_iff.mpr fun g hg => ?_, ?_⟩
  · obtain ⟨k, -, hg⟩ := hheard g hg
    rw [Desktop.not_concerned_of_hears hg]
    simp
  · rcases sendReply_says hs₁ hk₁ hsend with ⟨hsaid, -⟩ | ⟨hsaid, hnone⟩
    · exact Or.inl (hl.trans hsaid)
    · refine Or.inr ⟨?_, by simp [Live, hnone]⟩
      simpa using hl.trans hsaid

/-- A request that the desktop answers gets this answer. -/
lemma handlePayload_answer (hs : s.Inv) {A : Answers} {d d' : Desktop} {v : Json}
    (hreq : d.request K f = .ok (some v, d'))
    (heq : handlePayload W (d.answers K A) s c f.type f.payload = .ok s') :
    ∃ l, l.filter Desktop.Concerned = [] ∧
      (Says c (l ++ [replyFrame f.type (W.jsonToString v)]) s s' ∨ Says c l s s' ∧ ¬ s'.Live c) := by
  rw [handlePayload] at heq
  rcases Desktop.request_some hreq with ⟨htype, rfl⟩ | ⟨type, htype, hquery, hdescribe⟩
  · rw [htype] at heq
    obtain ⟨s₁, hsignals, heq⟩ := Machine.bind_ok_iff.mp heq
    obtain ⟨⟨b, s₂⟩, hsend, heq⟩ := Machine.bind_ok_iff.mp heq
    cases heq
    obtain ⟨hinforms, hs₁⟩ := performSignals_informs (c := c) _ hs hsignals
    exact sendReply_behind hinforms hs₁ hsend
  · rw [htype] at heq
    have hv : (d.answers K A).describe type = v := by
      show (d.describe type).toOption.getD .null = v
      rw [hdescribe]
      rfl
    have hsend : handlePayload.query W (d.answers K A) s c f.type type = .ok s' := by
      rw [Desktop.IsQuery] at hquery
      fin_cases hquery <;> exact heq
    obtain ⟨⟨b, s₁⟩, hsend, heq⟩ := Machine.bind_ok_iff.mp hsend
    cases heq
    rw [hv] at hsend
    exact sendReply_behind .refl hs hsend

/-- A request that the desktop does not answer gets no answer of its kind. -/
lemma handlePayload_unconcerned (hs : s.Inv) (hk : s.heap c = some k) {A : Answers}
    (hf : Desktop.Concerned f = false)
    (heq : handlePayload W A s c f.type f.payload = .ok s') :
    ∃ l, l.filter Desktop.Concerned = [] ∧ Says c l s s' := by
  obtain ⟨l, q, hl, hfollow, -⟩ := handlePayload_settles hs hk heq
  refine ⟨l, List.filter_eq_nil_iff.mpr fun g hg => ?_, hl⟩
  rcases SessionRules.answer_or_notice hfollow g hg with ⟨r, hr, hanswer⟩ | ⟨m, hnotice⟩
  · cases hr
    have htype : g.type = f.type := by
      simp only [protocol, Bool.and_eq_true, decide_eq_true_eq] at hanswer
      exact hanswer.1
    rw [Desktop.concerned_congr htype, hf]
    simp
  · rw [Desktop.not_concerned_of_hears hnotice]
    simp

/-- When a request is handed over, its client gets what the desktop answers, or it is taken away. -/
lemma Hands.replies {A : Answers} {d d' : Desktop} {answer : Option Json}
    (h : Hands W (d.answers K A) c f s s') (hs : s.Inv) (hreq : d.request K f = .ok (answer, d')) :
    desktopReplies c s'.log = desktopReplies c s.log
        ++ answer.toList.map (fun v => replyFrame f.type (W.jsonToString v)) ∨
      ¬ s'.Live c ∧ desktopReplies c s'.log = desktopReplies c s.log := by
  obtain ⟨k₁, s₁, hs₁, hk₁, htalk, heq⟩ := h.settled hs
  have hbefore : desktopReplies c s₁.log = desktopReplies c s.log := by
    rw [desktopReplies, ← messages_conversation, htalk, Talk.messages_append, messages_conversation,
      Talk.messages_request, List.append_nil, desktopReplies]
  cases answer with
  | none =>
    obtain ⟨l, hl, hsaid⟩ :=
      handlePayload_unconcerned hs₁ hk₁ (Desktop.not_concerned_of_request_none hreq) heq
    refine Or.inl ?_
    rw [hsaid.replies, hl, hbefore]
    rfl
  | some v =>
    obtain ⟨l, hl, hsaid | ⟨hsaid, hdead⟩⟩ := handlePayload_answer hs₁ hreq heq
    · have hf : Desktop.Concerned f = true := Desktop.concerned_of_request_some hreq
      have htype : (replyFrame f.type (W.jsonToString v)).type = f.type := rfl
      have hframe := (Desktop.concerned_congr htype).trans hf
      refine Or.inl ?_
      rw [hsaid.replies, List.filter_append, hl, hbefore, List.nil_append,
        List.filter_singleton, hframe]
      rfl
    · refine Or.inr ⟨hdead, ?_⟩
      rw [hsaid.replies, hl, hbefore, List.append_nil]

end Server

namespace Whole

variable {W : World} {K : Commands} {w w' : Whole} {d₀ : Desktop} {turns : List (Turn Desktop Frame)}
  {given : List (Given Frame Json)} {c c₀ : ℕ} {f : Frame}

/-! ## Runs -/

def Input.changed : Input → Option Desktop
  | .server _ => none
  | .desktop d => some d

/-- The messages that the answers for a client make. -/
def due (W : World) (c : ℕ) (given : List (Given Frame Json)) : List Frame :=
  (given.filter (·.user = c)).map fun g => replyFrame g.request.type (W.jsonToString g.answer)

lemma due_append (given given' : List (Given Frame Json)) :
    due W c (given ++ given') = due W c given ++ due W c given' := by
  rw [due, List.filter_append, List.map_append, due, due]

lemma due_user (answer : Option Json) :
    due W c (answer.toList.map fun a => ⟨c, f, a⟩)
      = answer.toList.map fun v => replyFrame f.type (W.jsonToString v) := by
  cases answer <;> simp [due]

lemma due_other (hc : c ≠ c₀) (answer : Option Json) :
    due W c (answer.toList.map fun a => ⟨c₀, f, a⟩) = [] := by
  cases answer <;> simp [due, hc.symm]

/-- The client has got all answers for it, and if it has been taken away, the first ones. -/
structure Answered (W : World) (w : Whole) (given : List (Given Frame Json)) (c : ℕ) : Prop where
  upTo : Server.desktopReplies c w.server.log <+: due W c given
  all : ¬ w.server.Gone c → Server.desktopReplies c w.server.log = due W c given

lemma Answered.unasked (h : Answered W w given c) {s : Server} (hs : w.server.Unasked c s)
    (d : Desktop) : Answered W ⟨s, d⟩ given c where
  upTo := by
    rw [hs.replies]
    exact h.upTo
  all hgone := by
    rw [hs.replies]
    exact h.all fun hgone' => hgone (hs.gone hgone')

/-- The run so far is one of the desktop alone, in these turns and with these answers. -/
structure Serves (W : World) (K : Commands) (d₀ : Desktop) (w : Whole)
    (turns : List (Turn Desktop Frame)) (given : List (Given Frame Json)) : Prop where
  reachable : Server.Reachable W w.server
  serial : Serial (Desktop.request K) d₀ turns w.desktop given
  asked : turns.filterMap Turn.asked = handedOver w.server.log
  answered : ∀ c, Answered W w given c

lemma Serves.start : Serves W K d₀ ⟨Server.init, d₀⟩ [] [] where
  reachable := ⟨[], rfl⟩
  serial := .start
  asked := rfl
  answered _ := ⟨List.nil_prefix, fun _ => rfl⟩

lemma mapError_ok {ε ε' α : Type} {x : Except ε α} {g : ε → ε'} {a : α} :
    x.mapError g = .ok a ↔ x = .ok a := by
  cases x <;> simp [Except.mapError]

lemma answered_readable {d : Desktop} {i : Server.Input} {mask : Server.EventMask}
    {calls : Server.ReadCalls} {A : Answers} (h : answered K d i = .readable c mask calls A) :
    ∃ A', A = d.answers K A' := by
  cases i with
  | readable c' mask' calls' A' =>
    cases h
    exact ⟨A', rfl⟩
  | _ => cases h

/-- A request that the server hands over is a turn of the desktop. -/
lemma Serves.ask (h : Serves W K d₀ w turns given) {s : Server} {A : Answers}
    (hands : Server.Hands W (w.desktop.answers K A) c₀ f w.server s)
    (hreachable : Server.Reachable W s) (hle : w.server.nextClient ≤ s.nextClient)
    (hlog : handedOver s.log = handedOver w.server.log ++ [(c₀, f)])
    (hothers : ∀ c ≠ c₀, w.server.Unasked c s) {answer : Option Json} {d : Desktop}
    (hreq : w.desktop.request K f = .ok (answer, d)) :
    Serves W K d₀ ⟨s, d⟩ (turns ++ [.ask c₀ f]) (given ++ answer.toList.map fun a => ⟨c₀, f, a⟩) where
  reachable := hreachable
  serial := h.serial.ask c₀ hreq
  asked := by
    rw [List.filterMap_append, h.asked, hlog]
    rfl
  answered c := by
    by_cases hc : c = c₀
    · subst hc
      -- the client was there when its request was handed over
      have hbefore := (h.answered c).all fun hgone => hgone.2 hands.live
      rcases hands.replies h.reachable.inv hreq with hreplies | ⟨hdead, hreplies⟩
      · refine ⟨?_, fun _ => ?_⟩
        · rw [due_append, due_user, hreplies, hbefore]
        · rw [due_append, due_user, hreplies, hbefore]
      · refine ⟨?_, fun hgone => ?_⟩
        · rw [due_append, hreplies, hbefore]
          exact List.prefix_append _ _
        · exact absurd ⟨(h.reachable.inv.live_lt c hands.live).trans_le hle, hdead⟩ hgone
    · have hunasked := (h.answered c).unasked (hothers c hc) d
      refine ⟨?_, fun hgone => ?_⟩
      · rw [due_append, due_other hc, List.append_nil]
        exact hunasked.upTo
      · rw [due_append, due_other hc, List.append_nil]
        exact hunasked.all hgone

/-- Each step is a turn of the desktop, or none. -/
lemma step_serves (h : Serves W K d₀ w turns given) {i : Input} (hstep : step W K w i = .ok w') :
    ∃ turns' given', Serves W K d₀ w' (turns ++ turns') given' ∧
      turns'.filterMap Turn.changed = i.changed.toList := by
  cases i with
  | desktop d =>
    cases hstep
    refine ⟨[.change d], given, ⟨h.reachable, h.serial.change d, ?_, fun c => ?_⟩, rfl⟩
    · rw [List.filterMap_append, h.asked]
      exact List.append_nil _
    · exact ⟨(h.answered c).upTo, (h.answered c).all⟩
  | server i =>
    obtain ⟨s, hs, hstep⟩ := Machine.bind_ok_iff.mp hstep
    obtain ⟨d, hd, hstep⟩ := Machine.bind_ok_iff.mp hstep
    cases hstep
    rw [mapError_ok] at hs hd
    have hreachable := h.reachable.step hs
    rcases Server.step_handedOver h.reachable.inv hs with
      ⟨hlog, hunasked⟩ | ⟨c₀, mask, calls, A, f, hi, hands, hlog, hothers⟩
    · rw [hlog, List.drop_length] at hd
      cases hd
      refine ⟨[], given, ⟨hreachable, ?_, ?_, fun c => (h.answered c).unasked (hunasked c) _⟩, rfl⟩
      · rw [List.append_nil]
        exact h.serial
      · rw [List.append_nil, hlog]
        exact h.asked
    · obtain ⟨A, rfl⟩ := answered_readable hi
      rw [hlog, List.drop_left] at hd
      obtain ⟨d', hafter, hd⟩ := Machine.bind_ok_iff.mp hd
      cases hd
      obtain ⟨⟨answer, d₁⟩, hreq, rfl⟩ := Machine.map_ok_iff.mp hafter
      obtain ⟨es, hmoves, -⟩ := Server.step_moves h.reachable.inv hs
      exact ⟨[.ask c₀ f], _, h.ask hands hreachable hmoves.nextClient_le hlog hothers hreq, rfl⟩

/-- Whatever the clients send at the same time, the desktop takes their requests one after another,
in the order in which the server hands them over, and nothing comes in between but its own changes.
Each client gets the answers to its own commands and queries, each once and in order, and nothing
else that looks like one; only a client that has been taken away misses the last ones. -/
theorem requests_serial {is : List Input}
    (hrun : Machine.run (step W K) ⟨Server.init, d₀⟩ is = .ok w) :
    Server.Reachable W w.server ∧ ∃ turns given,
      Serial (Desktop.request K) d₀ turns w.desktop given ∧
      turns.filterMap Turn.asked = handedOver w.server.log ∧
      turns.filterMap Turn.changed = is.filterMap Input.changed ∧
      ∀ c, Server.desktopReplies c w.server.log <+: due W c given ∧
        (¬ w.server.Gone c → Server.desktopReplies c w.server.log = due W c given) := by
  suffices h : ∃ turns given, Serves W K d₀ w turns given ∧
      turns.filterMap Turn.changed = is.filterMap Input.changed by
    obtain ⟨turns, given, h, hchanged⟩ := h
    exact ⟨h.reachable, turns, given, h.serial, h.asked, hchanged,
      fun c => ⟨(h.answered c).upTo, (h.answered c).all⟩⟩
  induction is using List.reverseRecOn generalizing w with
  | nil =>
    cases hrun
    exact ⟨[], [], .start, rfl⟩
  | append_singleton is i ih =>
    obtain ⟨w₁, hrun₁, hlast⟩ := (Machine.run_append_ok _).mp hrun
    obtain ⟨w₂, hstep, hnil⟩ := Machine.bind_ok_iff.mp hlast
    cases hnil
    obtain ⟨turns, given, h, hchanged⟩ := ih hrun₁
    obtain ⟨turns', given', h', hchanged'⟩ := step_serves h hstep
    refine ⟨turns ++ turns', given', h', ?_⟩
    rw [List.filterMap_append, hchanged, hchanged', List.filterMap_append]
    cases i <;> rfl

/-- The bytes of a client are read; nothing is signalled meanwhile. -/
def reads (c : ℕ) : Server.Input :=
  .readable c ⟨false, false⟩ ⟨true, true, true⟩ ⟨fun _ => .null, fun _ => ([], .null)⟩

/-- Two clients send a request each, and the request of the second one is read first. -/
def twoRequests : List Input :=
  [.connection true, .connection true, .arrive 0 (Frame.encode ⟨0, ascii "kill"⟩),
    .arrive 1 (Frame.encode ⟨1, []⟩), reads 1, reads 0].map .server

/-- Where they lead the server and a desktop with one window. -/
def served : Whole :=
  Machine.final (step Server.refusingWorld killAndSticky) ⟨Server.init, WfMsg.oneWindowDesktop⟩
    twoRequests

lemma served_run : Machine.run (step Server.refusingWorld killAndSticky)
    ⟨Server.init, WfMsg.oneWindowDesktop⟩ twoRequests = .ok served := by
  rw [served]
  exact Machine.run_final _ (by decide +kernel)

lemma served_clients : handedOver served.server.log = [(1, ⟨1, []⟩), (0, ⟨0, ascii "kill"⟩)] ∧
    served.server.Live 0 ∧ served.server.Live 1 := by
  decide +kernel

theorem twoRequests_serial :
    ∃ (turns : List (Turn Desktop Frame)) (given : List (Given Frame Json)),
      Serial (Desktop.request killAndSticky) WfMsg.oneWindowDesktop turns served.desktop given ∧
      turns.filterMap Turn.asked = [(1, ⟨1, []⟩), (0, ⟨0, ascii "kill"⟩)] ∧
      turns.filterMap Turn.changed = [] ∧
      Server.desktopReplies 0 served.server.log = due Server.refusingWorld 0 given ∧
      Server.desktopReplies 1 served.server.log = due Server.refusingWorld 1 given := by
  obtain ⟨hasked, hfirst, hsecond⟩ := served_clients
  obtain ⟨-, turns, given, hserial, hturns, hchanged, hreplies⟩ := requests_serial served_run
  have hdone : ∀ c, served.server.Live c →
      Server.desktopReplies c served.server.log = due Server.refusingWorld c given :=
    fun c hlive => (hreplies c).2 fun hgone => hgone.2 hlive
  exact ⟨turns, given, hserial, hturns.trans hasked, hchanged, hdone 0 hfirst, hdone 1 hsecond⟩

end Whole

end WayfireIpc
