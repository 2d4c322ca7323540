/-
# What the request handlers do

Each branch of `ipc_client_handle_command` either returns, and then it has only sent
messages and changed the mask of its own client, or it faults on its own client because a
message it sent before has cost the client its connection.  `SafeRequest` is the
condition under which it returns.
-/
import WayfireIpc.Server.EventSpec

namespace WayfireIpc

namespace Server

variable {W : World} {s s' s₁ s₂ : Server} {c : ℕ} {k : I3IpcClient}

/-! ## Events -/

lemma anyListener_ok (ev : IpcEventType) :
    ∀ cs : List ℕ, (∀ c ∈ cs, s.Live c) →
      ∃ b, s.anyListener ev cs = .ok b ∧
        (b = false → ∀ c ∈ cs, ∀ k, s.heap c = some k → ¬ k.Subscribed ev) := by
  intro cs
  induction cs with
  | nil => exact fun _ => ⟨false, rfl, by simp⟩
  | cons c cs ih =>
    intro hlive
    obtain ⟨k, h⟩ := hlive c List.mem_cons_self
    rw [anyListener, deref_of_some h, Machine.ok_bind]
    by_cases hsub : k.Subscribed ev
    · exact ⟨true, if_pos hsub, by simp⟩
    · obtain ⟨b, heq, hb⟩ := ih fun a ha => hlive a (List.mem_cons_of_mem c ha)
      refine ⟨b, by rw [if_neg hsub, heq], fun hfalse a ha k₁ h₁ => ?_⟩
      rcases List.mem_cons.mp ha with rfl | ha
      · obtain rfl : k = k₁ := Option.some.inj (h.symm.trans h₁)
        exact hsub
      · exact hb hfalse a ha k₁ h₁

/-- Visits to clients that are not subscribed change nothing. -/
lemma Visits.of_not_subscribed {ev : IpcEventType} {json : Buf} {cs : List ℕ}
    (hcs : ∀ c ∈ cs, ∀ k, s.heap c = some k → ¬ k.Subscribed ev) :
    Visits W ev json cs s s where
  outputs := .refl
  list_eq := by
    refine (List.filter_eq_self.mpr fun c _ => ?_).symm
    by_cases hc : c ∈ cs
    · have hfails : s.fails W ev json c = false := by
        cases hk : s.heap c with
        | none => simp [fails, hk]
        | some k => simp [fails, hk, hcs c hc k hk]
      simp [hfails]
    · simp [hc]
  log_eq := by
    have hnil : cs.flatMap (s.eventObs W ev json) = [] := by
      refine List.flatMap_eq_nil_iff.mpr fun c hc => ?_
      cases hk : s.heap c with
      | none => simp [eventObs, hk]
      | some k => simp [eventObs, hk, hcs c hc k hk]
    rw [hnil, List.append_nil]
  visited := fun c hc =>
    ⟨fun _ h _ => h, fun k h hsub _ => absurd hsub (hcs c hc k h),
      fun k h hsub _ => absurd hsub (hcs c hc k h)⟩
  others := fun _ _ => rfl

/-- `signal_event` does what `send_event` does, whether it finds a listener or not. -/
theorem signalEvent_visits (hs : s.Inv) (ev : IpcEventType) (json : Buf) :
    ∃ s', s.signalEvent W ev json = .ok s' ∧ Visits W ev json s.ipcClientList s s' := by
  obtain ⟨b, heq, hb⟩ := anyListener_ok ev s.ipcClientList hs.listed_live
  rw [signalEvent, hasEventListeners, heq, Machine.ok_bind]
  cases b with
  | false => exact ⟨s, rfl, .of_not_subscribed (hb rfl)⟩
  | true => exact sendEvent_visits hs ev json

lemma sendTick_eq (s : Server) (payload : Buf) : s.sendTick W payload
    = s.signalEvent W .tick (W.jsonToString (tickMessage false payload)) := rfl

end Server

/-! ## A client while events are signalled -/

/-- The client `c` with the record `k`, which is in the list of clients if `listed` says so,
takes every message that the signals send to it. -/
def I3IpcClient.Outlasts (W : World) (c : ℕ) : Bool → I3IpcClient → List Signal → Prop
  | _, _, [] => True
  | listed, k, .event ev json :: rest =>
    if listed ∧ k.Subscribed ev then
      k.Accepts W c (Server.eventLength json) ∧
        I3IpcClient.Outlasts W c listed
          { k with
            writeBufferLen := k.writeBufferLen + ipcHeaderSize + Server.eventLength json
            reallocs := k.reallocs + 1 } rest
    else I3IpcClient.Outlasts W c listed k rest
  | _, k, .serve :: rest => I3IpcClient.Outlasts W c false k rest

namespace I3IpcClient

variable {W : World} {c : ℕ}

instance Outlasts.decidable (W : World) (c : ℕ) :
    ∀ (signals : List Signal) (listed : Bool) (k : I3IpcClient),
      Decidable (k.Outlasts W c listed signals)
  | [], _, _ => isTrue trivial
  | .event ev json :: rest, listed, k =>
    have := Outlasts.decidable W c rest listed { k with
      writeBufferLen := k.writeBufferLen + ipcHeaderSize + Server.eventLength json
      reallocs := k.reallocs + 1 }
    have := Outlasts.decidable W c rest listed k
    inferInstanceAs (Decidable (if listed ∧ k.Subscribed ev then
      k.Accepts W c (Server.eventLength json) ∧ I3IpcClient.Outlasts W c listed { k with
        writeBufferLen := k.writeBufferLen + ipcHeaderSize + Server.eventLength json
        reallocs := k.reallocs + 1 } rest
      else I3IpcClient.Outlasts W c listed k rest))
  | .serve :: rest, _, k => Outlasts.decidable W c rest false k

/-- Only the fill, the mask and the reallocations of a client matter. -/
lemma outlasts_congr (signals : List Signal) :
    ∀ {listed : Bool} {k k' : I3IpcClient}, k.writeBufferLen = k'.writeBufferLen →
      k.subscribedEvents = k'.subscribedEvents → k.reallocs = k'.reallocs →
      (k.Outlasts W c listed signals ↔ k'.Outlasts W c listed signals) := by
  induction signals with
  | nil => exact fun _ _ _ => Iff.rfl
  | cons sig rest ih =>
    intro listed k k' hlen hmask hre
    cases sig with
    | event ev json =>
      have hsub : k.Subscribed ev ↔ k'.Subscribed ev := by
        rw [Subscribed, Subscribed, hmask]
      have hacc : k.Accepts W c (Server.eventLength json)
          ↔ k'.Accepts W c (Server.eventLength json) := by
        rw [Accepts, Accepts, hlen, hre]
      rw [Outlasts, Outlasts]
      by_cases hcond : listed ∧ k'.Subscribed ev
      · rw [if_pos hcond, if_pos ⟨hcond.1, hsub.mpr hcond.2⟩, hacc]
        exact and_congr_right fun _ => ih (by simp [hlen]) hmask (by simp [hre])
      · rw [if_neg hcond, if_neg fun hcon => hcond ⟨hcon.1, hsub.mp hcon.2⟩]
        exact ih hlen hmask hre
    | serve => exact ih hlen hmask hre

end I3IpcClient

namespace Server

variable {W : World} {s s' s₁ s₂ : Server} {c : ℕ} {k : I3IpcClient}

lemma Move.live {e : Effect} (h : Move W s e s') (he : e.Output ∅) (hc : s'.Live c) :
    s.Live c := by
  cases h with
  | @enqueue c' k k' f h hacc hk' =>
    by_cases hcc : c = c'
    · exact hcc ▸ ⟨k, h⟩
    · simpa [Live, enqueued, hcc] using hc
  | @refuse c' n k h hacc =>
    by_cases hcc : c = c'
    · exact hcc ▸ ⟨k, h⟩
    · simpa [Live, refused, Server.drop, note, hcc] using hc
  | serve => exact hc
  | drop | setMask | connect | arrive | header | badHeader | payload | bare | write | release =>
    exact absurd he (by simp [Effect.Output])

/-- Sending messages brings no client back. -/
lemma Outputs.live (h : Outputs W ∅ s s') (hc : s'.Live c) : s.Live c := by
  obtain ⟨es, hm, he⟩ := h
  induction hm with
  | nil => exact hc
  | cons hmove _ ih =>
    exact hmove.live (he _ List.mem_cons_self)
      (ih hc fun e hmem => he e (List.mem_cons_of_mem _ hmem))

/-- `performSignals` returns, and a client is live afterwards exactly when it outlasts the
signals. -/
theorem performSignals_spec :
    ∀ (signals : List Signal) (s : Server), s.Inv →
      ∃ s', performSignals W s signals = .ok s' ∧ Outputs W ∅ s s' ∧
        ∀ c k, s.heap c = some k →
          (s'.Live c ↔ k.Outlasts W c (decide (c ∈ s.ipcClientList)) signals) := by
  intro signals
  induction signals with
  | nil =>
    intro s _
    exact ⟨s, rfl, .refl, fun c k h => iff_of_true ⟨k, h⟩ trivial⟩
  | cons sig rest ih =>
    intro s hs
    cases sig with
    | serve =>
      obtain ⟨s', heq, hout, hlive⟩ := ih s.serve hs.serve
      refine ⟨s', heq, (Outputs.of_move .serve trivial).trans hout, fun c k h => ?_⟩
      have hnot : decide (c ∈ s.serve.ipcClientList) = false := by simp [serve]
      rw [hlive c k h, hnot, I3IpcClient.Outlasts]
    | event ev json =>
      obtain ⟨s₁, heq₁, hvisits⟩ := signalEvent_visits (W := W) hs ev json
      obtain ⟨s', heq, hout, hlive⟩ := ih s₁ (hvisits.outputs.inv hs)
      refine ⟨s', by rw [performSignals, heq₁, Machine.ok_bind, heq], hvisits.outputs.trans hout,
        fun c k h => ?_⟩
      rw [I3IpcClient.Outlasts]
      by_cases hc : c ∈ s.ipcClientList
      · have hv := hvisits.visited c hc
        by_cases hsub : k.Subscribed ev
        · rw [if_pos ⟨by simpa using hc, hsub⟩]
          by_cases hacc : k.Accepts W c (eventLength json)
          · -- the event takes room in the buffer
            obtain ⟨k', h', hk'⟩ := hv.delivered k h hsub hacc
            have hlisted : decide (c ∈ s₁.ipcClientList) = decide (c ∈ s.ipcClientList) := by
              have hfails : s.fails W ev json c = false := by simp [fails, h, hacc]
              simp [hvisits.list_eq, hc, hfails]
            rw [hlive c k' h', hlisted]
            refine Iff.trans (I3IpcClient.outlasts_congr rest ?_ ?_ ?_) (and_iff_right hacc).symm
            · rw [hk'.len_eq, length_replyFrame, eventLength]
            · exact hk'.subscribed_eq
            · exact hk'.reallocs_eq
          · -- there is no room, and the client is taken away
            have hdead : s₁.heap c = none := hv.removed k h hsub hacc
            refine iff_of_false (fun hcon => ?_) (fun hcon => hacc hcon.1)
            obtain ⟨k', h'⟩ := hout.live hcon
            rw [hdead] at h'
            cases h'
        · -- the client has not subscribed to the event
          have hcond : ¬ (decide (c ∈ s.ipcClientList) = true ∧ k.Subscribed ev) :=
            fun hcon => hsub hcon.2
          have hlisted : decide (c ∈ s₁.ipcClientList) = decide (c ∈ s.ipcClientList) := by
            have hfails : s.fails W ev json c = false := by simp [fails, h, hsub]
            simp [hvisits.list_eq, hc, hfails]
          rw [if_neg hcond, hlive c k (hv.skipped k h hsub), hlisted]
      · -- the client is not in the list
        have hcond : ¬ (decide (c ∈ s.ipcClientList) = true ∧ k.Subscribed ev) :=
          fun hcon => hc (by simpa using hcon.1)
        have hlisted : decide (c ∈ s₁.ipcClientList) = decide (c ∈ s.ipcClientList) := by
          simp [hvisits.list_eq, hc]
        have hsame : s₁.heap c = some k := (hvisits.others c hc).trans h
        rw [if_neg hcond, hlive c k hsame, hlisted]

/-! ## Replies -/

/-- If `safe` holds, the handler returns and has only sent messages and changed the mask of
its own client; otherwise it faults on its own client. -/
structure Returns (W : World) (c : ℕ) (s : Server) (x : Except Fault Server) (safe : Prop) :
    Prop where
  ok : safe → ∃ s', x = .ok s' ∧ Outputs W {c} s s'
  fault : ¬ safe → x = .error (.useAfterDelete c)

lemma Returns.of_outputs {x : Except Fault Server} {safe : Prop} (h : Outputs W {c} s s₁)
    (hx : Returns W c s₁ x safe) : Returns W c s x safe where
  ok := fun hsafe => by
    obtain ⟨s', heq, hout⟩ := hx.ok hsafe
    exact ⟨s', heq, h.trans hout⟩
  fault := hx.fault

lemma Returns.congr {x : Except Fault Server} {safe safe' : Prop} (hiff : safe ↔ safe')
    (hx : Returns W c s x safe) : Returns W c s x safe' := by
  rwa [propext hiff] at hx

lemma Returns.outputs {x : Except Fault Server} {safe : Prop} (h : Returns W c s x safe)
    (hx : x = .ok s') : Outputs W {c} s s' := by
  by_cases hsafe : safe
  · obtain ⟨s₁, heq, hout⟩ := h.ok hsafe
    cases heq.symm.trans hx
    exact hout
  · cases (h.fault hsafe).symm.trans hx

lemma sendReply_returns (hs : s.Inv) (t : UInt32) (payload : Buf) :
    Returns W c s (do let (_, s) ← sendReply W s c t payload; return s) (s.Live c) where
  ok := by
    rintro ⟨k, h⟩
    obtain ⟨b, s', heq, hout, -, -⟩ := sendReply_outputs (W := W) hs h t payload
    exact ⟨s', by rw [heq]; rfl, hout.mono (Set.empty_subset _)⟩
  fault := by
    intro h
    rw [sendReply_of_not_live h]
    rfl

lemma sendStatus_returns (hs : s.Inv) (t : UInt32) (status : ReturnStatus) :
    Returns W c s (sendStatus W s c t status) (s.Live c) :=
  sendReply_returns hs t (statusMessage status)

lemma length_statusMessage (status : ReturnStatus) :
    (statusMessage status).length % 2 ^ 32 = (statusMessage status).length := by
  cases status <;> decide

/-! ## Subscriptions -/

/-- The event names in the array of a request. -/
def eventNames (elements : List Json) : List String :=
  elements.filterMap fun
    | .str event => some event
    | _ => none

/-- The mask with the bits of the named events set. -/
def subscribeMask (m : BitVec 64) (names : List String) : BitVec 64 :=
  names.foldl (fun m event => match subscribeType event with
    | some ev => m ||| eventMask ev
    | none => m) m

/-- The mask with the bits of the named events cleared. -/
def unsubscribeMask (m : BitVec 64) (names : List String) : BitVec 64 :=
  names.foldl (fun m event => match eventToType event with
    | some ev => m &&& ~~~eventMask ev
    | none => m) m

lemma put_self (h : s.heap c = some k) : s.put c k = s := by
  rw [put, ← h, Function.update_eq_self]

lemma put_put (k' : I3IpcClient) : (s.put c k).put c k' = s.put c k' := by
  simp [put]

lemma put_heap : (s.put c k).heap c = some k := Function.update_self _ _ _

lemma outputs_setMask (h : s.heap c = some k) (m : BitVec 64) :
    Outputs W {c} s (s.put c { k with subscribedEvents := m }) :=
  .of_move (.setMask h m) (Set.mem_singleton c)

lemma subscribeType_tick {event : String} {ev : IpcEventType}
    (h : subscribeType event = some ev) : ev = .tick ↔ ipcI3EventTick = event := by
  unfold subscribeType at h
  split_ifs at h <;> cases h <;> simp_all [ipcI3EventTick, ipcI3EventWorkspace,
    ipcI3EventShutdown, ipcI3EventWindow, ipcSwayEventInput, ipcI3EventOutput]

/-- On supported names the loop sets the bits of all of them. -/
lemma subscribeLoop_supported (t : UInt32) :
    ∀ (elements : List Json) (s : Server) (k : I3IpcClient) (hasTick : Bool),
      s.heap c = some k → (∀ event ∈ eventNames elements, (subscribeType event).isSome) →
      subscribeLoop W c t s elements hasTick
        = .ok (some (hasTick || decide (ipcI3EventTick ∈ eventNames elements)),
            s.put c { k with
              subscribedEvents := subscribeMask k.subscribedEvents (eventNames elements) }) := by
  intro elements
  induction elements with
  | nil =>
    intro s k hasTick h _
    have hput : s.put c k = s := put_self h
    simp [subscribeLoop, eventNames, subscribeMask, hput]
  | cons x rest ih =>
    intro s k hasTick h hnames
    cases x with
    | str event =>
      obtain ⟨ev, hev⟩ := Option.isSome_iff_exists.mp
        (hnames event (by simp [eventNames]))
      have hrest : ∀ event ∈ eventNames rest, (subscribeType event).isSome := fun e he =>
        hnames e (by simp only [eventNames, List.filterMap_cons]; exact List.mem_cons_of_mem _ he)
      have hcons : eventNames (.str event :: rest) = event :: eventNames rest := rfl
      rw [subscribeLoop, deref_of_some h, Machine.ok_bind, hev]
      have := ih (s.put c { k with subscribedEvents := k.subscribedEvents ||| eventMask ev })
        { k with subscribedEvents := k.subscribedEvents ||| eventMask ev }
        (hasTick || ev = .tick) put_heap hrest
      have htick : (hasTick || decide (ev = .tick) || decide (ipcI3EventTick ∈ eventNames rest))
          = (hasTick || decide (ipcI3EventTick ∈ event :: eventNames rest)) := by
        simp [subscribeType_tick hev, Bool.or_assoc]
      rw [htick] at this
      simp only [this, put_put, hcons, subscribeMask, List.foldl_cons, hev]
    | null | bool | int | real | arr | obj => exact ih s k hasTick h hnames

/-- On an unsupported name the loop clears the mask and sends the reply. -/
lemma subscribeLoop_unsupported (t : UInt32) :
    ∀ (elements : List Json) (s : Server) (k : I3IpcClient) (hasTick : Bool),
      s.heap c = some k → (¬ ∀ event ∈ eventNames elements, (subscribeType event).isSome) →
      subscribeLoop W c t s elements hasTick
        = (do let s ← sendStatus W (s.put c { k with subscribedEvents := 0 }) c t .unsupported
              return (none, s)) := by
  intro elements
  induction elements with
  | nil =>
    intro s k hasTick _ hnames
    exact absurd (by simp [eventNames]) hnames
  | cons x rest ih =>
    intro s k hasTick h hnames
    cases x with
    | str event =>
      rw [subscribeLoop, deref_of_some h, Machine.ok_bind]
      cases hev : subscribeType event with
      | none => rfl
      | some ev =>
        have hrest : ¬ ∀ event ∈ eventNames rest, (subscribeType event).isSome := by
          intro hcon
          refine hnames fun e he => ?_
          rcases List.mem_cons.mp (show e ∈ event :: eventNames rest from he) with rfl | he
          · simp [hev]
          · exact hcon e he
        have := ih (s.put c { k with subscribedEvents := k.subscribedEvents ||| eventMask ev })
          { k with subscribedEvents := k.subscribedEvents ||| eventMask ev }
          (hasTick || ev = .tick) put_heap hrest
        simpa only [put_put] using this
    | null | bool | int | real | arr | obj => exact ih s k hasTick h hnames

/-- Clearing a bit that is not set changes nothing. -/
lemma put_clear (h : s.heap c = some k) {ev : IpcEventType} : (if k.Subscribed ev then
      s.put c { k with subscribedEvents := k.subscribedEvents &&& ~~~eventMask ev } else s)
    = s.put c { k with subscribedEvents := k.subscribedEvents &&& ~~~eventMask ev } := by
  split_ifs with hsub
  · rfl
  · have hzero : k.subscribedEvents &&& eventMask ev = 0 := not_not.mp hsub
    have hsame : k.subscribedEvents &&& ~~~eventMask ev = k.subscribedEvents := by
      have hsplit : k.subscribedEvents
          = (k.subscribedEvents &&& eventMask ev)
            ||| (k.subscribedEvents &&& ~~~eventMask ev) := by
        ext i
        simp
        grind
      rw [hzero] at hsplit
      simpa using hsplit.symm
    rw [hsame]
    exact (put_self h).symm

/-- On known names the loop clears the bits of all of them. -/
lemma unsubscribeLoop_supported (t : UInt32) :
    ∀ (elements : List Json) (s : Server) (k : I3IpcClient),
      s.heap c = some k → (∀ event ∈ eventNames elements, (eventToType event).isSome) →
      unsubscribeLoop W c t s elements
        = .ok (true, s.put c { k with
            subscribedEvents := unsubscribeMask k.subscribedEvents (eventNames elements) }) := by
  intro elements
  induction elements with
  | nil =>
    intro s k h _
    have hput : s.put c k = s := put_self h
    simp [unsubscribeLoop, eventNames, unsubscribeMask, hput]
  | cons x rest ih =>
    intro s k h hnames
    cases x with
    | str event =>
      obtain ⟨ev, hev⟩ := Option.isSome_iff_exists.mp
        (hnames event (by simp [eventNames]))
      have hrest : ∀ event ∈ eventNames rest, (eventToType event).isSome := fun e he =>
        hnames e (by simp only [eventNames, List.filterMap_cons]; exact List.mem_cons_of_mem _ he)
      have hcons : eventNames (.str event :: rest) = event :: eventNames rest := rfl
      rw [unsubscribeLoop, hev]
      simp only [deref_of_some h, Machine.ok_bind, put_clear h]
      have := ih (s.put c { k with subscribedEvents := k.subscribedEvents &&& ~~~eventMask ev })
        { k with subscribedEvents := k.subscribedEvents &&& ~~~eventMask ev } put_heap hrest
      simp only [this, put_put, hcons, unsubscribeMask, List.foldl_cons, hev]
    | null | bool | int | real | arr | obj => exact ih s k h hnames

/-- The names in front of the first one that `event_to_type` does not know. -/
def knownNames (names : List String) : List String :=
  names.takeWhile fun event => (eventToType event).isSome

/-- On an unknown name the loop stops with the bits of the names before it cleared, and sends the
reply. -/
lemma unsubscribeLoop_unsupported (t : UInt32) :
    ∀ (elements : List Json) (s : Server) (k : I3IpcClient),
      s.heap c = some k → (¬ ∀ event ∈ eventNames elements, (eventToType event).isSome) →
      unsubscribeLoop W c t s elements
        = (do let s ← sendStatus W
                (s.put c { k with subscribedEvents :=
                  (unsubscribeMask k.subscribedEvents (knownNames (eventNames elements))) })
                c t .unsupported
              return (false, s)) := by
  intro elements
  induction elements with
  | nil =>
    intro s k _ hnames
    exact absurd (by simp [eventNames]) hnames
  | cons x rest ih =>
    intro s k h hnames
    cases x with
    | str event =>
      have hcons : eventNames (.str event :: rest) = event :: eventNames rest := rfl
      rw [hcons, knownNames, unsubscribeLoop]
      cases hev : eventToType event with
      | none =>
        -- the first unknown name ends the loop
        have hput : s.put c k = s := put_self h
        rw [List.takeWhile_cons_of_neg (by simp [hev])]
        simp [unsubscribeMask, hput]
      | some ev =>
        -- a known name takes its bit out of the mask
        have hrest : ¬ ∀ event ∈ eventNames rest, (eventToType event).isSome := by
          intro hcon
          refine hnames fun e he => ?_
          rcases List.mem_cons.mp (show e ∈ event :: eventNames rest from he) with rfl | he
          · simp [hev]
          · exact hcon e he
        have := ih (s.put c { k with subscribedEvents := k.subscribedEvents &&& ~~~eventMask ev })
          { k with subscribedEvents := k.subscribedEvents &&& ~~~eventMask ev } put_heap hrest
        rw [List.takeWhile_cons_of_pos (by simp [hev])]
        simp only [deref_of_some h, Machine.ok_bind, put_clear h]
        simpa only [put_put, unsubscribeMask, List.foldl_cons, hev, knownNames] using this
    | null | bool | int | real | arr | obj => exact ih s k h hnames

/-- The test of `SUBSCRIBE` for an array that is not empty. -/
lemma subscribe_empty_iff {request : Json} :
    (decide (request.size = 0) || !request.isArray) = true ↔
      request.isArray = false ∨ request.elements = [] := by
  cases request <;> simp [Json.size, Json.isArray, Json.elements]

/-- The test of `UNSUBSCRIBE`. -/
lemma unsubscribe_empty_iff {request : Json} : (request.empty || !request.isArray) = true ↔
    request.isArray = false ∨ request.elements = [] := by
  cases request <;> simp [Json.empty, Json.isArray, Json.elements]

/-- What a `SUBSCRIBE` does: it fails at its payload, it sets the mask and succeeds, perhaps with a
tick event after the answer, or it empties the mask and fails at a name. -/
lemma handleSubscribe_cases (h : s.heap c = some k) {t : UInt32} {buf : Buf}
    (heq : handleSubscribe W s c t buf = .ok s') :
    (((W.stringToJson buf).isArray = false ∨ (W.stringToJson buf).elements = []) ∧
      sendStatus W s c t .invalidParameter = .ok s') ∨
    ¬ ((W.stringToJson buf).isArray = false ∨ (W.stringToJson buf).elements = []) ∧
      (((∀ event ∈ eventNames (W.stringToJson buf).elements, (subscribeType event).isSome) ∧
        ∃ s₁, sendStatus W (s.put c { k with
            subscribedEvents := subscribeMask k.subscribedEvents
              (eventNames (W.stringToJson buf).elements) }) c t .success = .ok s₁ ∧
          (ipcI3EventTick ∉ eventNames (W.stringToJson buf).elements ∧ s' = s₁ ∨
            ipcI3EventTick ∈ eventNames (W.stringToJson buf).elements ∧
              ∃ b, sendReply W s₁ c IpcEventType.tick.code
                (W.jsonToString (tickMessage true [])) = .ok (b, s'))) ∨
      (¬ ∀ event ∈ eventNames (W.stringToJson buf).elements, (subscribeType event).isSome) ∧
        sendStatus W (s.put c { k with subscribedEvents := 0 }) c t .unsupported = .ok s') := by
  rw [handleSubscribe] at heq
  generalize W.stringToJson buf = request at heq ⊢
  simp only at heq
  split_ifs at heq with hcond
  · exact Or.inl ⟨subscribe_empty_iff.mp hcond, heq⟩
  refine Or.inr ⟨fun hempty => hcond (subscribe_empty_iff.mpr hempty), ?_⟩
  by_cases hnames : ∀ event ∈ eventNames request.elements, (subscribeType event).isSome
  · refine Or.inl ⟨hnames, ?_⟩
    rw [subscribeLoop_supported t _ s k false h hnames, Machine.ok_bind, Bool.false_or] at heq
    obtain ⟨s₁, hstatus, hrest⟩ := Machine.bind_ok_iff.mp heq
    refine ⟨s₁, hstatus, ?_⟩
    split_ifs at hrest with htick
    · obtain ⟨⟨b, s₂⟩, hsend, hrest⟩ := Machine.bind_ok_iff.mp hrest
      cases hrest
      exact Or.inr ⟨of_decide_eq_true htick, b, hsend⟩
    · cases hrest
      exact Or.inl ⟨fun hmem => htick (decide_eq_true hmem), rfl⟩
  · refine Or.inr ⟨hnames, ?_⟩
    rw [subscribeLoop_unsupported t _ s k false h hnames] at heq
    obtain ⟨r, hr, hrest⟩ := Machine.bind_ok_iff.mp heq
    obtain ⟨s₁, hstatus, hr⟩ := Machine.bind_ok_iff.mp hr
    cases hr
    cases hrest
    exact hstatus

/-- What an `UNSUBSCRIBE` does: it fails at its payload, or it clears bits of the mask for the names
in front of the first unsupported one, and for all of them if it succeeds. -/
lemma handleUnsubscribe_cases (h : s.heap c = some k) {t : UInt32} {buf : Buf}
    (heq : handleUnsubscribe W s c t buf = .ok s') :
    (((W.stringToJson buf).isArray = false ∨ (W.stringToJson buf).elements = []) ∧
      sendStatus W s c t .invalidParameter = .ok s') ∨
    ¬ ((W.stringToJson buf).isArray = false ∨ (W.stringToJson buf).elements = []) ∧
      ((∀ event ∈ eventNames (W.stringToJson buf).elements, (eventToType event).isSome) ∧
        sendStatus W (s.put c { k with
          subscribedEvents := unsubscribeMask k.subscribedEvents
            (eventNames (W.stringToJson buf).elements) }) c t .success = .ok s' ∨
      (¬ ∀ event ∈ eventNames (W.stringToJson buf).elements, (eventToType event).isSome) ∧
        sendStatus W (s.put c { k with
          subscribedEvents := unsubscribeMask k.subscribedEvents
            (knownNames (eventNames (W.stringToJson buf).elements)) }) c t
          .unsupported = .ok s') := by
  rw [handleUnsubscribe] at heq
  generalize W.stringToJson buf = request at heq ⊢
  simp only at heq
  split_ifs at heq with hcond
  · exact Or.inl ⟨unsubscribe_empty_iff.mp hcond, heq⟩
  refine Or.inr ⟨fun hempty => hcond (unsubscribe_empty_iff.mpr hempty), ?_⟩
  by_cases hnames : ∀ event ∈ eventNames request.elements, (eventToType event).isSome
  · rw [unsubscribeLoop_supported t _ s k h hnames, Machine.ok_bind] at heq
    exact Or.inl ⟨hnames, heq⟩
  · rw [unsubscribeLoop_unsupported t _ s k h hnames] at heq
    obtain ⟨r, hr, hrest⟩ := Machine.bind_ok_iff.mp heq
    obtain ⟨s₁, hstatus, hr⟩ := Machine.bind_ok_iff.mp hr
    cases hr
    cases hrest
    exact Or.inr ⟨hnames, hstatus⟩

/-! ## Requests -/

/-- The condition under which a request `f` of the client `c` is handled without touching
the client after it has been deleted. -/
def SafeRequest (W : World) (A : Answers) (s : Server) (c : ℕ) (k : I3IpcClient) (f : Frame) :
    Prop :=
  match IpcPayloadType.ofCode f.type with
  | some .command =>
    k.Outlasts W c (decide (c ∈ s.ipcClientList))
      (A.executeCommand (commandString f.payload)).1
  | some .sendTick =>
    k.Outlasts W c (decide (c ∈ s.ipcClientList))
      [.event .tick (W.jsonToString (tickMessage false f.payload))]
  | some .subscribe =>
    (W.stringToJson f.payload).isArray = true →
    (∀ event ∈ eventNames (W.stringToJson f.payload).elements, (subscribeType event).isSome) →
    ipcI3EventTick ∈ eventNames (W.stringToJson f.payload).elements →
    k.Accepts W c (statusMessage .success).length
  | _ => True

lemma handleSubscribe_returns (hs : s.Inv) (h : s.heap c = some k) (t : UInt32) (buf : Buf) :
    Returns W c s (handleSubscribe W s c t buf)
      ((W.stringToJson buf).isArray = true →
        (∀ event ∈ eventNames (W.stringToJson buf).elements, (subscribeType event).isSome) →
        ipcI3EventTick ∈ eventNames (W.stringToJson buf).elements →
        k.Accepts W c (statusMessage .success).length) := by
  rw [handleSubscribe]
  generalize hreq : W.stringToJson buf = request
  by_cases hempty : request.size = 0 ∨ request.isArray = false
  · -- no array, or an empty one
    rw [if_pos (by simpa using hempty)]
    refine (sendStatus_returns hs t .invalidParameter).congr (iff_of_true ⟨k, h⟩ ?_)
    intro harr _ htick
    rcases hempty with hsize | hnot
    · cases request with
      | arr xs =>
        have hxs : xs = [] := List.length_eq_zero_iff.mp hsize
        simp [Json.elements, hxs, eventNames] at htick
      | null | bool | int | real | str | obj => simp [Json.isArray] at harr
    · rw [hnot] at harr
      cases harr
  · rw [if_neg (by simpa using hempty)]
    have harr : request.isArray = true := by
      rw [not_or] at hempty
      simpa using hempty.2
    by_cases hnames : ∀ event ∈ eventNames request.elements, (subscribeType event).isSome
    · -- every name is known: the answer, and the tick event if it is asked for
      rw [subscribeLoop_supported t _ s k false h hnames, Machine.ok_bind, Bool.false_or]
      set k₁ : I3IpcClient := { k with
        subscribedEvents := subscribeMask k.subscribedEvents (eventNames request.elements) }
      have hout : Outputs W {c} s (s.put c k₁) := outputs_setMask h _
      have hs₁ : (s.put c k₁).Inv := hout.inv hs
      obtain ⟨b, s₂, heq, hout₂, hb, hlive⟩ :=
        sendReply_outputs (W := W) hs₁ put_heap t (statusMessage .success)
      have hs₂ : s₂.Inv := hout₂.inv hs₁
      have hstatus : sendStatus W (s.put c k₁) c t .success = .ok s₂ := by
        rw [sendStatus, heq]
        rfl
      have hlive₂ : s₂.Live c ↔ k.Accepts W c (statusMessage .success).length := by
        rw [hlive, hb, length_statusMessage]
        rfl
      refine Returns.of_outputs (hout.trans (hout₂.mono (Set.empty_subset _))) ?_
      simp only [hstatus, Machine.ok_bind]
      by_cases htick : ipcI3EventTick ∈ eventNames request.elements
      · simp only [htick, decide_true, if_true]
        refine (sendReply_returns hs₂ _ _).congr ?_
        rw [hlive₂]
        exact ⟨fun hacc _ _ _ => hacc, fun hacc => hacc harr hnames trivial⟩
      · simp only [htick, decide_false, Bool.false_eq_true, if_false]
        exact ⟨fun _ => ⟨s₂, rfl, .refl⟩, fun hcon => absurd (fun _ _ hmem => hmem.elim) hcon⟩
    · -- an unknown name clears the mask
      rw [subscribeLoop_unsupported t _ s k false h hnames]
      set k₁ : I3IpcClient := { k with subscribedEvents := 0 }
      have hout : Outputs W {c} s (s.put c k₁) := outputs_setMask h _
      obtain ⟨s₂, heq, hout₂⟩ := (sendStatus_returns (W := W) (hout.inv hs) t .unsupported).ok
        ⟨k₁, put_heap⟩
      refine Returns.of_outputs (hout.trans hout₂) ?_
      rw [heq]
      exact ⟨fun _ => ⟨s₂, rfl, .refl⟩, fun hcon => absurd (fun _ hn _ => absurd hn hnames) hcon⟩

lemma handleUnsubscribe_returns (hs : s.Inv) (h : s.heap c = some k) (t : UInt32) (buf : Buf) :
    Returns W c s (handleUnsubscribe W s c t buf) True := by
  have hlive : s.Live c ↔ True := iff_true_intro ⟨k, h⟩
  rw [handleUnsubscribe]
  generalize W.stringToJson buf = request
  by_cases hempty : (request.empty || !request.isArray) = true
  · rw [if_pos hempty]
    exact (sendStatus_returns hs t .invalidParameter).congr hlive
  · rw [if_neg hempty]
    by_cases hnames : ∀ event ∈ eventNames request.elements, (eventToType event).isSome
    · rw [unsubscribeLoop_supported t _ s k h hnames, Machine.ok_bind]
      have hout := outputs_setMask (W := W) h
        (unsubscribeMask k.subscribedEvents (eventNames request.elements))
      exact Returns.of_outputs hout
        ((sendStatus_returns (hout.inv hs) t .success).congr (iff_true_intro ⟨_, put_heap⟩))
    · rw [unsubscribeLoop_unsupported t _ s k h hnames]
      have hout := outputs_setMask (W := W) h
        (unsubscribeMask k.subscribedEvents (knownNames (eventNames request.elements)))
      obtain ⟨s₂, heq, hout₂⟩ := (sendStatus_returns (W := W) (hout.inv hs) t .unsupported).ok
        ⟨_, put_heap⟩
      refine Returns.of_outputs (hout.trans hout₂) ?_
      rw [heq]
      exact ⟨fun _ => ⟨s₂, rfl, .refl⟩, fun hcon => absurd trivial hcon⟩

/-- A reply that follows signals. -/
lemma performSignals_returns (hs : s.Inv) (h : s.heap c = some k) (signals : List Signal)
    {f : Server → Except Fault Server}
    (hf : ∀ s', s'.Inv → Returns W c s' (f s') (s'.Live c)) :
    Returns W c s (performSignals W s signals >>= f)
      (k.Outlasts W c (decide (c ∈ s.ipcClientList)) signals) := by
  obtain ⟨s', heq, hout, hlive⟩ := performSignals_spec (W := W) signals s hs
  rw [heq, Machine.ok_bind]
  exact Returns.of_outputs (hout.mono (Set.empty_subset _))
    ((hf s' (hout.inv hs)).congr (hlive c k h))

/-- Every request is handled without a fault exactly when it is safe. -/
theorem handlePayload_returns (hs : s.Inv) (h : s.heap c = some k) (A : Answers) (f : Frame) :
    Returns W c s (handlePayload W A s c f.type f.payload) (SafeRequest W A s c k f) := by
  have hlive : s.Live c ↔ True := iff_true_intro ⟨k, h⟩
  have hquery : ∀ t, Returns W c s (handlePayload.query W A s c f.type t) True :=
    fun t => (sendReply_returns hs f.type _).congr hlive
  have hstatus : Returns W c s (sendStatus W s c f.type .unsupported) True :=
    (sendStatus_returns hs f.type .unsupported).congr hlive
  rw [handlePayload, SafeRequest]
  cases IpcPayloadType.ofCode f.type with
  | none => exact hstatus
  | some t =>
    cases t with
    | command =>
      exact performSignals_returns hs h _ fun s' hs' => sendReply_returns hs' f.type _
    | sendTick =>
      have := performSignals_returns (W := W) hs h
        [.event .tick (W.jsonToString (tickMessage false f.payload))]
        fun s' hs' => sendStatus_returns hs' f.type .success
      simp only [performSignals, bind_assoc, Machine.ok_bind] at this
      exact this
    | subscribe => exact handleSubscribe_returns hs h f.type f.payload
    | unsubscribe => exact handleUnsubscribe_returns hs h f.type f.payload
    | getOutputs | getWorkspaces | getInputs | getVersion | getSeats | getConfig | getTree =>
      exact hquery _
    | getMarks | getBarConfig | getBindingModes | sync | getBindingState => exact hstatus

end Server

end WayfireIpc
