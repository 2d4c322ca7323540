/-
# Which subscription requests succeed

What `SUBSCRIBE` and `UNSUBSCRIBE` answer to a payload, against what the payload is as JSON: a
list of names of events or not.  The loops of both branches pass over what is no string, and
`string_to_json` returns what a reader has built before it failed.
-/
import WayfireIpc.Server.Failure
import WayfireIpc.Client.Status

namespace WayfireIpc

namespace Json

lemma eventNames_map_str (names : List String) : Server.eventNames (names.map str) = names := by
  rw [Server.eventNames, List.filterMap_map]
  exact List.filterMap_some

lemma map_str_eventNames {xs : List Json} (h : ∀ x ∈ xs, x.isString) :
    (Server.eventNames xs).map str = xs := by
  induction xs with
  | nil => rfl
  | cons x xs ih =>
    obtain ⟨hx, hxs⟩ := List.forall_mem_cons.mp h
    cases x with
    | str event => exact congrArg (str event :: ·) (ih hxs)
    | null | bool | int | real | arr | obj => cases hx

end Json

namespace JsonCpp

/-- A server whose JSON library is jsoncpp. -/
def world (J : JsonCpp) (reallocOk : ℕ → ℕ → Bool) : World where
  reallocOk := reallocOk
  stringToJson := J.stringToJson
  jsonToString := J.jsonToString

/-- `value` is the value of a text that is valid JSON.  The empty text is not, and the reader reads
the valid lists of strings; what it leaves of other texts is open. -/
structure ReadsLists (J : JsonCpp) (value : Buf → Option Json) : Prop where
  empty : value [] = none
  list : ∀ buf (names : List String), value buf = some (.arr (names.map .str)) →
    J.parse buf = (true, .arr (names.map .str))

lemma ReadsLists.stringToJson {J : JsonCpp} {value : Buf → Option Json} (h : J.ReadsLists value)
    {buf : Buf} {names : List String} (hvalue : value buf = some (.arr (names.map .str))) :
    J.stringToJson buf = .arr (names.map .str) := by
  have hne : buf ≠ [] := by
    rintro rfl
    rw [h.empty] at hvalue
    cases hvalue
  rw [JsonCpp.stringToJson, if_neg hne, h.list buf names hvalue]

end JsonCpp

namespace SubscriptionRequest

variable (r : SubscriptionRequest)

/-- The payload is a valid JSON array, not empty, whose elements are strings that name events. -/
def IsEventList (value : Buf → Option Json) : Prop :=
  ∃ names : List String, value r.frame.payload = some (.arr (names.map .str)) ∧ names ≠ [] ∧
    ∀ event ∈ names, (eventToType event).isSome

/-- The handler of the request finds nothing wrong with it. -/
def Accepts (W : World) : Prop := ¬ r.Empty W ∧ r.Supported W

/-- The reader leaves an array whose strings the handler knows, but the array has other elements or
is not the value of the payload. -/
def Overlooked (W : World) (value : Buf → Option Json) : Prop :=
  ∃ xs, xs ≠ [] ∧ W.stringToJson r.frame.payload = .arr xs ∧ r.Supported W ∧
    ¬ (value r.frame.payload = some (.arr xs) ∧ ∀ x ∈ xs, x.isString)

/-- A `SUBSCRIBE` with a list of names of events, among which is "binding". -/
def MissesBinding (W : World) (value : Buf → Option Json) : Prop :=
  r.isSubscribe = true ∧ r.IsEventList value ∧ ipcI3EventBinding ∈ r.names W

variable {r} {W : World}

lemma accepts_iff : r.Accepts W ↔
    ∃ xs, xs ≠ [] ∧ W.stringToJson r.frame.payload = .arr xs ∧ r.Supported W := by
  rw [Accepts, Empty, not_or, Bool.not_eq_false]
  constructor
  · rintro ⟨⟨harr, hne⟩, hsupp⟩
    cases hreq : W.stringToJson r.frame.payload with
    | arr xs =>
      rw [hreq] at hne
      exact ⟨xs, hne, rfl, hsupp⟩
    | null | bool | int | real | str | obj => simp [hreq, Json.isArray] at harr
  · rintro ⟨xs, hne, hreq, hsupp⟩
    rw [hreq]
    exact ⟨⟨rfl, hne⟩, hsupp⟩

/-- The two tables differ in one name. -/
lemma typeOf_isSome_iff {event : String} : (r.typeOf event).isSome ↔
    (eventToType event).isSome ∧ ¬ (r.isSubscribe = true ∧ event = ipcI3EventBinding) := by
  cases r with
  | subscribe buf =>
    show (Server.subscribeType event).isSome ↔ _ ∧ ¬ (true = true ∧ _)
    unfold Server.subscribeType eventToType
    split_ifs <;> simp_all [ipcI3EventTick, ipcI3EventWorkspace, ipcI3EventShutdown,
      ipcI3EventWindow, ipcSwayEventInput, ipcI3EventOutput, ipcI3EventBinding]
  | unsubscribe buf =>
    show (eventToType event).isSome ↔ _ ∧ ¬ (false = true ∧ _)
    simp

/-! ## What the handlers find wrong -/

section Reader

variable {J : JsonCpp} {reallocOk : ℕ → ℕ → Bool} {value : Buf → Option Json}

/-- The names of a list of events are read as they are. -/
lemma names_of_value (hJ : J.ReadsLists value) {names : List String}
    (hvalue : value r.frame.payload = some (.arr (names.map .str))) :
    r.names (J.world reallocOk) = names := by
  have hreq : (J.world reallocOk).stringToJson r.frame.payload = .arr (names.map .str) :=
    hJ.stringToJson hvalue
  rw [SubscriptionRequest.names, hreq, Json.elements, Json.eventNames_map_str]

/-- A list of events is accepted unless it is a `SUBSCRIBE` that names "binding". -/
lemma accepts_of_isEventList (hJ : J.ReadsLists value) (hlist : r.IsEventList value) :
    r.Accepts (J.world reallocOk) ↔
      ¬ (r.isSubscribe = true ∧ ipcI3EventBinding ∈ r.names (J.world reallocOk)) := by
  obtain ⟨names, hvalue, hne, hevents⟩ := hlist
  have hnames : r.names (J.world reallocOk) = names := names_of_value hJ hvalue
  rw [accepts_iff, hnames]
  constructor
  · rintro ⟨-, -, -, hsupp⟩ ⟨hsub, hmem⟩
    exact (typeOf_isSome_iff.mp (hsupp _ (hnames ▸ hmem))).2 ⟨hsub, rfl⟩
  · intro hbinding
    refine ⟨names.map .str, by simpa using hne, hJ.stringToJson hvalue, fun event hmem => ?_⟩
    rw [hnames] at hmem
    refine typeOf_isSome_iff.mpr ⟨hevents event hmem, ?_⟩
    rintro ⟨hsub, rfl⟩
    exact hbinding ⟨hsub, hmem⟩

/-- A request is accepted without being a list of events when the handler overlooks something. -/
lemma overlooked_iff (hJ : J.ReadsLists value) : r.Overlooked (J.world reallocOk) value ↔
    r.Accepts (J.world reallocOk) ∧ ¬ r.IsEventList value := by
  constructor
  · rintro ⟨xs, hne, hreq, hsupp, hnot⟩
    refine ⟨accepts_iff.mpr ⟨xs, hne, hreq, hsupp⟩, ?_⟩
    rintro ⟨names, hvalue, -, -⟩
    have hxs : Json.arr xs = .arr (names.map .str) := hreq.symm.trans (hJ.stringToJson hvalue)
    cases hxs
    refine hnot ⟨hvalue, fun x hx => ?_⟩
    obtain ⟨event, -, rfl⟩ := List.mem_map.mp hx
    rfl
  · rintro ⟨haccepts, hnot⟩
    obtain ⟨xs, hne, hreq, hsupp⟩ := accepts_iff.mp haccepts
    refine ⟨xs, hne, hreq, hsupp, ?_⟩
    rintro ⟨hvalue, hstrings⟩
    have hlist := Json.map_str_eventNames hstrings
    have hnames : r.names (J.world reallocOk) = Server.eventNames xs := by
      rw [SubscriptionRequest.names, hreq, Json.elements]
    refine hnot ⟨Server.eventNames xs, by rw [hvalue, hlist], ?_, fun event hmem => ?_⟩
    · intro hnil
      rw [hnil] at hlist
      exact hne hlist.symm
    · exact (typeOf_isSome_iff.mp (hsupp event (hnames ▸ hmem))).1

/-- The handler accepts just the lists of events exactly when it overlooks nothing and misses no
name. -/
lemma accepts_iff_isEventList_iff (hJ : J.ReadsLists value) :
    (r.Accepts (J.world reallocOk) ↔ r.IsEventList value) ↔
      ¬ r.Overlooked (J.world reallocOk) value ∧ ¬ r.MissesBinding (J.world reallocOk) value := by
  rw [overlooked_iff hJ, MissesBinding]
  constructor
  · intro hiff
    refine ⟨fun ⟨haccepts, hnot⟩ => hnot (hiff.mp haccepts), ?_⟩
    rintro ⟨hsub, hlist, hmem⟩
    exact (accepts_of_isEventList hJ hlist).mp (hiff.mpr hlist) ⟨hsub, hmem⟩
  · rintro ⟨hoverlooked, hmisses⟩
    constructor
    · intro haccepts
      by_contra hnot
      exact hoverlooked ⟨haccepts, hnot⟩
    · intro hlist
      exact (accepts_of_isEventList hJ hlist).mpr fun ⟨hsub, hmem⟩ => hmisses ⟨hsub, hlist, hmem⟩

end Reader

end SubscriptionRequest

namespace Server

variable {W : World} {s s' : Server} {c : ℕ} {k : I3IpcClient}

/-! ## The answers -/

/-- From `s` to `s'` an answer with the status is queued for the client. -/
def RepliedWith (c : ℕ) (t : UInt32) (status : ReturnStatus) (s s' : Server) : Prop :=
  queuedFor c s.log ++ [⟨t, statusMessage status⟩] <+: queuedFor c s'.log

/-- The client is taken away and nothing is queued for it. -/
def NotReplied (c : ℕ) (s s' : Server) : Prop :=
  queuedFor c s'.log = queuedFor c s.log ∧ s'.heap c = none

/-- There is one answer. -/
lemma RepliedWith.success_iff {t : UInt32} {status : ReturnStatus}
    (h : RepliedWith c t status s s') :
    RepliedWith c t .success s s' ↔ status = .success := by
  constructor
  · intro hsuccess
    have heq : queuedFor c s.log ++ [⟨t, statusMessage .success⟩]
        = queuedFor c s.log ++ [(⟨t, statusMessage status⟩ : Frame)] :=
      List.IsPrefix.eq_of_length (List.prefix_of_prefix_length_le hsuccess h (by simp)) (by simp)
    have hmsg : statusMessage .success = statusMessage status := by simpa using heq
    cases status with
    | success => rfl
    | _ => exact absurd hmsg (by decide)
  · rintro rfl
    exact h

lemma sendStatus_replied (hs : s.Inv) (h : s.heap c = some k) {t : UInt32} {status : ReturnStatus}
    (heq : sendStatus W s c t status = .ok s') :
    RepliedWith c t status s s' ∨ NotReplied c s s' := by
  rcases sendStatus_outcome hs h heq with ⟨hq, -⟩ | hnone
  · exact Or.inl (by rw [RepliedWith, hq])
  · exact Or.inr hnone

/-- The tick event that follows the answer to a `SUBSCRIBE` leaves the answer. -/
lemma RepliedWith.sendReply {t u : UInt32} {status : ReturnStatus} {s₁ : Server} {payload : Buf}
    {b : Bool} (hs : s₁.Inv) (h : RepliedWith c t status s s₁ ∨ NotReplied c s s₁)
    (heq : sendReply W s₁ c u payload = .ok (b, s')) : RepliedWith c t status s s' := by
  obtain ⟨k₁, h₁⟩ := live_of_sendReply heq
  have hreplied := h.resolve_right fun hnone => by simp [hnone.2] at h₁
  rcases sendReply_outcome hs h₁ heq with ⟨hq, -⟩ | ⟨hq, -⟩
  · exact hreplied.trans (hq ▸ List.prefix_append _ _)
  · exact hreplied.trans (hq ▸ List.prefix_refl _)

/-- A `SUBSCRIBE` is answered with success when its handler accepts it, and else with a failure. -/
lemma handleSubscribe_replied (hs : s.Inv) (h : s.heap c = some k) {t : UInt32} {buf : Buf}
    (heq : handleSubscribe W s c t buf = .ok s') :
    ∃ status, (status = .success ↔ (SubscriptionRequest.subscribe buf).Accepts W) ∧
      (RepliedWith c t status s s' ∨ NotReplied c s s') := by
  rcases handleSubscribe_cases h heq with
    ⟨hempty, hstatus⟩ | ⟨hempty, ⟨hnames, s₁, hstatus, htick⟩ | ⟨hnames, hstatus⟩⟩
  · exact ⟨.invalidParameter, iff_of_false (by decide) fun haccepts => haccepts.1 hempty,
      sendStatus_replied hs h hstatus⟩
  · refine ⟨.success, iff_of_true rfl ⟨hempty, hnames⟩, ?_⟩
    have hs₁ := hs.setMask h
      (subscribeMask k.subscribedEvents (eventNames (W.stringToJson buf).elements))
    have hanswer : RepliedWith c t .success s s₁ ∨ NotReplied c s s₁ :=
      sendStatus_replied hs₁ put_heap hstatus
    rcases htick with ⟨-, rfl⟩ | ⟨-, b, hsend⟩
    · exact hanswer
    · exact Or.inl (RepliedWith.sendReply (sendStatus_inv hs₁ put_heap hstatus) hanswer hsend)
  · exact ⟨.unsupported, iff_of_false (by decide) fun haccepts => hnames haccepts.2,
      sendStatus_replied (hs.setMask h _) put_heap hstatus⟩

/-- The same for an `UNSUBSCRIBE`. -/
lemma handleUnsubscribe_replied (hs : s.Inv) (h : s.heap c = some k) {t : UInt32} {buf : Buf}
    (heq : handleUnsubscribe W s c t buf = .ok s') :
    ∃ status, (status = .success ↔ (SubscriptionRequest.unsubscribe buf).Accepts W) ∧
      (RepliedWith c t status s s' ∨ NotReplied c s s') := by
  rcases handleUnsubscribe_cases h heq with
    ⟨hempty, hstatus⟩ | ⟨hempty, ⟨hnames, hstatus⟩ | ⟨hnames, hstatus⟩⟩
  · exact ⟨.invalidParameter, iff_of_false (by decide) fun haccepts => haccepts.1 hempty,
      sendStatus_replied hs h hstatus⟩
  · exact ⟨.success, iff_of_true rfl ⟨hempty, hnames⟩,
      sendStatus_replied (hs.setMask h _) put_heap hstatus⟩
  · exact ⟨.unsupported, iff_of_false (by decide) fun haccepts => hnames haccepts.2,
      sendStatus_replied (hs.setMask h _) put_heap hstatus⟩

/-- A request that a readable callback hands over is answered with success exactly when its handler
accepts it, unless its client is taken away without an answer. -/
lemma request_replied (hs : Reachable W s) (h : s.heap c = some k) {mask : EventMask}
    {calls : ReadCalls} {A : Answers} {r : SubscriptionRequest}
    (hhands : HandsOver s c k mask calls r.frame)
    (hstep : step W s (.readable c mask calls A) = .ok s') :
    (RepliedWith c r.frame.type .success s s' ↔ r.Accepts W) ∨ NotReplied c s s' := by
  have hinv := hs.inv
  have hlt : c < s.nextClient := hinv.live_lt c ⟨k, h⟩
  rw [step, if_pos ((hinv.read_iff c).mpr ⟨k, h⟩)] at hstep
  rcases clientHandleReadable_cases (W := W) h A mask calls with
    ⟨f, es, s₁, k₁, hhands', hmoves, hread, h₁, hover, heq⟩ | ⟨hnone, -⟩
  · obtain rfl : r.frame = f := Option.some.inj (hhands.2.2.2.2.2.symm.trans hhands'.2.2.2.2.2)
    rw [heq] at hstep
    have hqueued := hmoves.read_queued hlt hread
    obtain ⟨status, hstatus, hanswer⟩ : ∃ status, (status = .success ↔ r.Accepts W) ∧
        (RepliedWith c r.frame.type status s₁ s' ∨ NotReplied c s₁ s') := by
      cases r with
      | subscribe buf => exact handleSubscribe_replied (hmoves.inv hinv) h₁ hstep
      | unsubscribe buf => exact handleUnsubscribe_replied (hmoves.inv hinv) h₁ hstep
    rw [RepliedWith, NotReplied, hqueued, ← RepliedWith, ← NotReplied] at hanswer
    rcases hanswer with hanswer | hnone
    · exact Or.inl (hanswer.success_iff.trans hstatus)
    · exact Or.inr hnone
  · exact absurd hhands (hnone _)

/-- Unless its client is taken away without an answer, a subscription request is answered as it
should be, with success for the lists of names of events and for nothing else, exactly when the
handler overlooks nothing in it and it is no `SUBSCRIBE` that names "binding". -/
theorem request_succeeds_iff {J : JsonCpp} {reallocOk : ℕ → ℕ → Bool} {value : Buf → Option Json}
    (hJ : J.ReadsLists value) (hs : Reachable (J.world reallocOk) s) (h : s.heap c = some k)
    {mask : EventMask} {calls : ReadCalls} {A : Answers} {r : SubscriptionRequest}
    (hhands : HandsOver s c k mask calls r.frame)
    (hstep : step (J.world reallocOk) s (.readable c mask calls A) = .ok s') :
    ((RepliedWith c r.frame.type .success s s' ↔ r.IsEventList value) ↔
        ¬ r.Overlooked (J.world reallocOk) value ∧ ¬ r.MissesBinding (J.world reallocOk) value) ∨
      NotReplied c s s' := by
  rcases request_replied hs h hhands hstep with hiff | hnone
  · rw [hiff]
    exact Or.inl (SubscriptionRequest.accepts_iff_isEventList_iff hJ)
  · exact Or.inr hnone

/-! ## Payloads with other answers -/

/-- A reader of the payloads below, that keeps the strings in front of an error. -/
def listReader : JsonCpp where
  writeString := Json.writeString
  parse buf :=
    if buf = ascii "[1]" then (true, .arr [.int 1])
    else if buf = ascii "[\"tick\"" then (false, .arr [.str "tick"])
    else if buf = ascii "[\"binding\"]" then (true, .arr [.str "binding"])
    else (false, .null)

/-- The values of the texts that it reads without an error. -/
def listValue (buf : Buf) : Option Json :=
  if buf = [] then none
  else if (listReader.parse buf).1 then some (listReader.parse buf).2
  else none

lemma readsLists_listReader : listReader.ReadsLists listValue where
  empty := rfl
  list buf names hvalue := by
    rw [listValue] at hvalue
    split_ifs at hvalue with hempty hread
    exact Prod.ext hread (Option.some.inj hvalue)

/-- A new client has sent the request. -/
def asked (r : SubscriptionRequest) : Server :=
  after (listReader.world fun _ _ => true) [.connection true, .arrive 0 r.frame.encode]

/-- The callback hands the request over, and succeeds. -/
def Handled (r : SubscriptionRequest) : Prop :=
  HandsOver (asked r) 0 ((asked r).record 0) ⟨false, false⟩ ⟨true, true, true⟩ r.frame ∧
    (step (listReader.world fun _ _ => true) (asked r) readable).isOk = true

instance (r : SubscriptionRequest) : Decidable (Handled r) := inferInstanceAs (Decidable (_ ∧ _))

/-- The request is answered with success. -/
def Succeeds (r : SubscriptionRequest) : Prop :=
  RepliedWith 0 r.frame.type .success (asked r)
    (next (listReader.world fun _ _ => true) (asked r) readable)

instance (r : SubscriptionRequest) : Decidable (Succeeds r) :=
  inferInstanceAs (Decidable (_ <+: _))

def subscribeNumber : SubscriptionRequest := .subscribe (ascii "[1]")
def subscribeCut : SubscriptionRequest := .subscribe (ascii "[\"tick\"")
def subscribeBinding : SubscriptionRequest := .subscribe (ascii "[\"binding\"]")

lemma handled_subscribeNumber : Handled subscribeNumber := by decide +kernel

theorem request_succeeds_iff_subscribeNumber :
    ((RepliedWith 0 subscribeNumber.frame.type .success (asked subscribeNumber)
          (next (listReader.world fun _ _ => true) (asked subscribeNumber) readable) ↔
        subscribeNumber.IsEventList listValue) ↔
      ¬ subscribeNumber.Overlooked (listReader.world fun _ _ => true) listValue ∧
        ¬ subscribeNumber.MissesBinding (listReader.world fun _ _ => true) listValue) ∨
      NotReplied 0 (asked subscribeNumber)
        (next (listReader.world fun _ _ => true) (asked subscribeNumber) readable) :=
  request_succeeds_iff readsLists_listReader (reachable_after _ _) (record_eq (by decide +kernel))
    handled_subscribeNumber.1 (step_next handled_subscribeNumber.2)

/-- A number and an array without its end are answered with success, and of the list with "binding"
only the `SUBSCRIBE` fails. -/
theorem lists_misjudged :
    (Handled subscribeNumber ∧ Succeeds subscribeNumber ∧
      ¬ subscribeNumber.IsEventList listValue) ∧
    (Handled subscribeCut ∧ Succeeds subscribeCut ∧ ¬ subscribeCut.IsEventList listValue) ∧
    (Handled subscribeBinding ∧ ¬ Succeeds subscribeBinding ∧
      subscribeBinding.IsEventList listValue) ∧
    Handled unsubscribeBinding ∧ Succeeds unsubscribeBinding ∧
      unsubscribeBinding.IsEventList listValue := by
  refine ⟨⟨handled_subscribeNumber, by decide +kernel, ?_⟩,
    ⟨by decide +kernel, by decide +kernel, ?_⟩, ⟨by decide +kernel, by decide +kernel, ?_⟩,
    by decide +kernel, by decide +kernel, ?_⟩
  · rintro ⟨names, hvalue, -, -⟩
    have hnumber : listValue subscribeNumber.frame.payload = some (.arr [.int 1]) := rfl
    rw [hnumber] at hvalue
    cases names <;> simp at hvalue
  · rintro ⟨names, hvalue, -, -⟩
    have hcut : listValue subscribeCut.frame.payload = none := rfl
    rw [hcut] at hvalue
    cases hvalue
  · exact ⟨["binding"], rfl, by simp, by decide⟩
  · exact ⟨["binding"], rfl, by simp, by decide⟩

end Server
end WayfireIpc
