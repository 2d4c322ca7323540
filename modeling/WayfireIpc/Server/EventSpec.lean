/-
# What `send_event` does

The loop of `send_event` visits every client of the list once, although clients that
cannot take the message are removed from the list while it runs.  Each visit is one of
three things, and the effect of the whole loop is put together from them.
-/
import WayfireIpc.Server.ClientView

namespace WayfireIpc

namespace Server

/-- The effects of sending messages, where only the clients in `masks` get a new mask. -/
def Effect.Output (masks : Set ℕ) : Effect → Prop
  | .enqueue _ | .refuse _ | .serve => True
  | .setMask c => c ∈ masks
  | _ => False

/-- `s'` comes from `s` by sending messages. -/
def Outputs (W : World) (masks : Set ℕ) (s s' : Server) : Prop :=
  ∃ es, Moves W s es s' ∧ ∀ e ∈ es, Effect.Output masks e

variable {W : World} {s s' s₁ s₂ : Server} {c : ℕ} {k : I3IpcClient} {masks : Set ℕ}
  {ev : IpcEventType} {json : Buf}

lemma Outputs.refl : Outputs W masks s s := ⟨[], .nil, by simp⟩

lemma Outputs.of_move {e : Effect} (h : Move W s e s') (he : e.Output masks) :
    Outputs W masks s s' := ⟨[e], .one h, by simpa using he⟩

lemma Outputs.trans (h : Outputs W masks s s₁) (h' : Outputs W masks s₁ s₂) :
    Outputs W masks s s₂ := by
  obtain ⟨es, hm, he⟩ := h
  obtain ⟨es', hm', he'⟩ := h'
  refine ⟨es ++ es', hm.append hm', fun e hmem => ?_⟩
  rcases List.mem_append.mp hmem with hmem | hmem
  · exact he e hmem
  · exact he' e hmem

lemma Outputs.mono {masks' : Set ℕ} (hsub : masks ⊆ masks') (h : Outputs W masks s s') :
    Outputs W masks' s s' := by
  obtain ⟨es, hm, he⟩ := h
  refine ⟨es, hm, fun e hmem => ?_⟩
  have := he e hmem
  cases e <;> simp_all [Effect.Output, hsub _]

lemma Outputs.inv (h : Outputs W masks s s') (hs : s.Inv) : s'.Inv := h.choose_spec.1.inv hs

/-! ## One reply -/

/-- `send_reply` on a live client sends or refuses. -/
lemma sendReply_outputs (hs : s.Inv) (h : s.heap c = some k) (t : UInt32) (payload : Buf) :
    ∃ b s', sendReply W s c t payload = .ok (b, s') ∧ Outputs W ∅ s s' ∧
      (b = true ↔ k.Accepts W c (payload.length % 2 ^ 32)) ∧ (s'.Live c ↔ b = true) := by
  by_cases hacc : k.Accepts W c (payload.length % 2 ^ 32)
  · obtain ⟨k', hk', heq⟩ := sendReply_accepted (t := t) h (hs.wf c k h) hacc
    refine ⟨true, _, heq, .of_move (.enqueue h ?_ hk') trivial, iff_of_true rfl hacc, ?_⟩
    · rwa [length_replyFrame]
    · simp [Live, enqueued]
  · refine ⟨false, _, sendReply_refused h (hs.wf c k h) hacc,
      .of_move (.refuse h hacc) trivial, iff_of_false (by simp) hacc, ?_⟩
    simp [Live, refused, drop]

/-! ## One visit -/

/-- The length of the message of an event. -/
def eventLength (json : Buf) : ℕ := json.cStr.length % 2 ^ 32

/-- The client is subscribed to the event and its buffer takes the message. -/
def gets (W : World) (s : Server) (ev : IpcEventType) (json : Buf) (c : ℕ) : Bool :=
  (s.heap c).any fun k => k.Subscribed ev ∧ k.Accepts W c (eventLength json)

/-- The client is subscribed to the event and `send_reply` fails for it. -/
def fails (W : World) (s : Server) (ev : IpcEventType) (json : Buf) (c : ℕ) : Bool :=
  (s.heap c).any fun k => k.Subscribed ev ∧ ¬ k.Accepts W c (eventLength json)

/-- What the log says about a client that is visited. -/
def eventObs (W : World) (s : Server) (ev : IpcEventType) (json : Buf) (c : ℕ) : List Obs :=
  match s.heap c with
  | none => []
  | some k =>
    if ¬ k.Subscribed ev then []
    else if k.Accepts W c (eventLength json) then [.queued c (replyFrame ev.code json.cStr)]
    else [refusal c k (eventLength json), .disconnected c]

/-- What a visit does to the record of a client. -/
structure Visited (W : World) (ev : IpcEventType) (json : Buf) (s s' : Server) (c : ℕ) :
    Prop where
  skipped : ∀ k, s.heap c = some k → ¬ k.Subscribed ev → s'.heap c = some k
  delivered : ∀ k, s.heap c = some k → k.Subscribed ev → k.Accepts W c (eventLength json) →
    ∃ k', s'.heap c = some k' ∧ k.Enqueues (replyFrame ev.code json.cStr) k'
  removed : ∀ k, s.heap c = some k → k.Subscribed ev → ¬ k.Accepts W c (eventLength json) →
    s'.heap c = none

/-- What visits to the clients `cs`, in this order, do to the server. -/
structure Visits (W : World) (ev : IpcEventType) (json : Buf) (cs : List ℕ) (s s' : Server) :
    Prop where
  outputs : Outputs W ∅ s s'
  list_eq : s'.ipcClientList
    = s.ipcClientList.filter fun c => !(decide (c ∈ cs) && s.fails W ev json c)
  log_eq : s'.log = s.log ++ cs.flatMap (s.eventObs W ev json)
  visited : ∀ c ∈ cs, Visited W ev json s s' c
  others : ∀ c, c ∉ cs → s'.heap c = s.heap c

lemma subscribed_ne_zero (h : k.Subscribed ev) : k.subscribedEvents ≠ 0 := by
  rintro h0
  rw [I3IpcClient.Subscribed, h0] at h
  simp at h

/-- The three outcomes of a visit. -/
lemma visitClient_cases (W : World) (ev : IpcEventType) (json : Buf) (hs : s.Inv)
    (h : s.heap c = some k) :
    (¬ k.Subscribed ev ∧ visitClient W ev json s c = .ok (true, s)) ∨
    (k.Subscribed ev ∧ k.Accepts W c (eventLength json) ∧
      ∃ k', k.Enqueues (replyFrame ev.code json.cStr) k' ∧ visitClient W ev json s c
        = .ok (true, s.enqueued c k k' (replyFrame ev.code json.cStr))) ∨
    (k.Subscribed ev ∧ ¬ k.Accepts W c (eventLength json) ∧ visitClient W ev json s c
        = .ok (false, s.refused c k (refusal c k (eventLength json)))) := by
  rw [visitClient, deref_of_some h, Machine.ok_bind]
  by_cases hsub : k.Subscribed ev
  · have hcond : ¬ (k.subscribedEvents = 0 ∨ ¬ k.Subscribed ev) :=
      not_or.mpr ⟨subscribed_ne_zero hsub, not_not.mpr hsub⟩
    rw [if_neg hcond]
    by_cases hacc : k.Accepts W c (eventLength json)
    · obtain ⟨k', hk', heq⟩ := sendReply_accepted (t := ev.code) h (hs.wf c k h) hacc
      exact Or.inr (Or.inl ⟨hsub, hacc, k', hk', heq⟩)
    · exact Or.inr (Or.inr ⟨hsub, hacc, sendReply_refused h (hs.wf c k h) hacc⟩)
  · exact Or.inl ⟨hsub, if_pos (Or.inr hsub)⟩

lemma visitClient_visits (W : World) (ev : IpcEventType) (json : Buf) (hs : s.Inv)
    (hc : c ∈ s.ipcClientList) :
    ∃ b s', visitClient W ev json s c = .ok (b, s') ∧ Visits W ev json [c] s s' ∧
      (b = true → s'.ipcClientList = s.ipcClientList) ∧
      (b = false → s'.ipcClientList = s.ipcClientList.filter (· ≠ c)) := by
  obtain ⟨k, h⟩ := hs.listed_live c hc
  rcases visitClient_cases W ev json hs h with
    ⟨hsub, heq⟩ | ⟨hsub, hacc, k', hk', heq⟩ | ⟨hsub, hacc, heq⟩
  · -- the client has not subscribed to the event
    have hfails : s.fails W ev json c = false := by simp [fails, h, hsub]
    refine ⟨true, s, heq, ⟨.refl, ?_, ?_, ?_, fun _ _ => rfl⟩, fun _ => rfl, by simp⟩
    · refine (List.filter_eq_self.mpr fun a _ => ?_).symm
      by_cases ha : a = c <;> simp [ha, hfails]
    · simp [eventObs, h, hsub]
    · simp only [List.mem_singleton, forall_eq]
      exact ⟨fun k₁ h₁ _ => h₁, fun k₁ h₁ hsub₁ => by simp_all, fun k₁ h₁ hsub₁ => by simp_all⟩
  · -- the event is put into its buffer
    have hfails : s.fails W ev json c = false := by simp [fails, h, hacc]
    refine ⟨true, _, heq, ⟨.of_move (.enqueue h ?_ hk') trivial, ?_, ?_, ?_, ?_⟩,
      fun _ => rfl, by simp⟩
    · rwa [length_replyFrame]
    · refine (List.filter_eq_self.mpr fun a _ => ?_).symm
      by_cases ha : a = c <;> simp [ha, hfails]
    · simp [eventObs, h, hsub, hacc, enqueued]
    · simp only [List.mem_singleton, forall_eq]
      refine ⟨fun k₁ h₁ hsub₁ => ?_, fun k₁ h₁ _ _ => ?_, fun k₁ h₁ _ hacc₁ => ?_⟩ <;>
        obtain rfl : k = k₁ := Option.some.inj (h.symm.trans h₁)
      · exact absurd hsub hsub₁
      · exact ⟨k', Function.update_self _ _ _, hk'⟩
      · exact absurd hacc hacc₁
    · intro c' hc'
      exact Function.update_of_ne (by simpa using hc') _ _
  · -- there is no room for the event, and the client is taken away
    have hfails : s.fails W ev json c = true := by simp [fails, h, hsub, hacc]
    refine ⟨false, _, heq, ⟨.of_move (.refuse h hacc) trivial, ?_, ?_, ?_, ?_⟩, by simp,
      fun _ => rfl⟩
    · refine List.filter_congr fun a _ => ?_
      by_cases ha : a = c <;> simp [ha, hfails]
    · simp [eventObs, h, hsub, hacc, refused, drop, note]
    · simp only [List.mem_singleton, forall_eq]
      refine ⟨fun k₁ h₁ hsub₁ => ?_, fun k₁ h₁ _ hacc₁ => ?_, fun k₁ h₁ _ _ => ?_⟩ <;>
        obtain rfl : k = k₁ := Option.some.inj (h.symm.trans h₁)
      · exact absurd hsub hsub₁
      · exact absurd hacc₁ hacc
      · exact Function.update_self _ _ _
    · intro c' hc'
      exact Function.update_of_ne (by simpa using hc') _ _

/-! ## The loop -/

lemma Visits.nil : Visits W ev json [] s s where
  outputs := .refl
  list_eq := by simp
  log_eq := by simp
  visited := by simp
  others := fun _ _ => rfl

/-- A visit to a client that has not been visited yet sees the client as it was. -/
lemma Visits.cons {cs : List ℕ} (hc : c ∉ cs) (h₁ : Visits W ev json [c] s s₁)
    (h₂ : Visits W ev json cs s₁ s₂) : Visits W ev json (c :: cs) s s₂ := by
  have hsame : ∀ a ∈ cs, s₁.heap a = s.heap a := by
    intro a ha
    exact h₁.others a (by simpa using fun hac : a = c => hc (hac ▸ ha))
  refine ⟨h₁.outputs.trans h₂.outputs, ?_, ?_, ?_, ?_⟩
  · rw [h₂.list_eq, h₁.list_eq, List.filter_filter]
    refine List.filter_congr fun a _ => ?_
    by_cases ha : a ∈ cs
    · have hac : a ≠ c := fun hac => hc (hac ▸ ha)
      simp [ha, hac, fails, hsame a ha]
    · simp [ha]
  · rw [h₂.log_eq, h₁.log_eq, List.append_assoc, List.flatMap_cons]
    have htail : cs.flatMap (s₁.eventObs W ev json) = cs.flatMap (s.eventObs W ev json) := by
      refine List.flatMap_congr fun a ha => ?_
      rw [eventObs, eventObs, hsame a ha]
    rw [htail]
    simp
  · intro a ha
    rcases List.mem_cons.mp ha with rfl | ha
    · have hv := h₁.visited a (List.mem_singleton_self a)
      have hlast : s₂.heap a = s₁.heap a := h₂.others a hc
      refine ⟨?_, ?_, ?_⟩ <;> rw [hlast]
      · exact hv.skipped
      · exact hv.delivered
      · exact hv.removed
    · have hv := h₂.visited a ha
      refine ⟨?_, ?_, ?_⟩ <;> rw [← hsame a ha]
      · exact hv.skipped
      · exact hv.delivered
      · exact hv.removed
  · intro a ha
    have ha : a ≠ c ∧ a ∉ cs := by simpa using ha
    rw [h₂.others a ha.2, h₁.others a (by simpa using ha.1)]

lemma visitAll_visits :
    ∀ (cs : List ℕ) (s : Server), s.Inv → cs.Nodup → (∀ c ∈ cs, c ∈ s.ipcClientList) →
      ∃ s', cs.foldlM (fun s a => Prod.snd <$> visitClient W ev json s a) s = .ok s' ∧
        Visits W ev json cs s s' := by
  intro cs
  induction cs with
  | nil => exact fun s _ _ _ => ⟨s, rfl, .nil⟩
  | cons c cs ih =>
    intro s hs hnodup hmem
    obtain ⟨hc, hnodup⟩ := List.nodup_cons.mp hnodup
    obtain ⟨b, s₁, heq, hvisit, -, -⟩ :=
      visitClient_visits W ev json hs (hmem c List.mem_cons_self)
    have hmem₁ : ∀ a ∈ cs, a ∈ s₁.ipcClientList := by
      intro a ha
      rw [hvisit.list_eq, List.mem_filter]
      have hac : a ≠ c := fun hac => hc (hac ▸ ha)
      exact ⟨hmem a (List.mem_cons_of_mem c ha), by simp [hac]⟩
    obtain ⟨s₂, hfold, hvisits⟩ := ih s₁ (hvisit.outputs.inv hs) hnodup hmem₁
    refine ⟨s₂, ?_, hvisit.cons hc hvisits⟩
    rw [List.foldlM_cons, heq]
    exact hfold

lemma erasing_visitClient :
    EraseLoop.Erasing Inv ipcClientList (visitClient W ev json) where
  nodup := fun _ hs => hs.list_nodup
  inv := by
    intro s c b s' hs hc h
    obtain ⟨b₁, s₁, heq, hvisit, -, -⟩ := visitClient_visits W ev json hs hc
    cases heq.symm.trans h
    exact hvisit.outputs.inv hs
  kept := by
    intro s c s' hs hc h
    obtain ⟨b₁, s₁, heq, -, hkept, -⟩ := visitClient_visits W ev json hs hc
    cases heq.symm.trans h
    exact hkept rfl
  erased := by
    intro s c s' hs hc h pre post hsplit
    obtain ⟨b₁, s₁, heq, -, -, herased⟩ := visitClient_visits W ev json hs hc
    cases heq.symm.trans h
    have hnodup := hs.list_nodup
    rw [hsplit] at hnodup
    rw [herased rfl, hsplit]
    obtain ⟨-, hpost, hdisj⟩ := List.nodup_append.mp hnodup
    have hne_pre : ∀ a ∈ pre, a ≠ c := fun a ha => hdisj a ha c List.mem_cons_self
    have hne_post : ∀ a ∈ post, a ≠ c := by
      rintro a ha rfl
      exact (List.nodup_cons.mp hpost).1 ha
    rw [List.filter_append, List.filter_cons_of_neg (by simp),
      List.filter_eq_self.mpr fun a ha => by simpa using hne_pre a ha,
      List.filter_eq_self.mpr fun a ha => by simpa using hne_post a ha]

/-- `send_event` ends, without a fault, and it visits every client of the list once. -/
theorem sendEvent_visits (hs : s.Inv) (ev : IpcEventType) (json : Buf) :
    ∃ s', s.sendEvent W json ev = .ok s' ∧ Visits W ev json s.ipcClientList s s' := by
  rw [sendEvent, EraseLoop.loop_zero_eq_foldlM erasing_visitClient hs]
  exact visitAll_visits _ s hs hs.list_nodup fun _ h => h

end Server

end WayfireIpc
