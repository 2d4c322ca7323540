/-
# What a step of the server does

Every step that does not fault is a sequence of moves, with effects that depend on the
input; the only fault is the one of a request that is not safe.
-/
import WayfireIpc.Server.Handlers

namespace WayfireIpc

namespace Server

/-! ## Which request a readable client hands over -/

lemma available_eq_emod (unread : Buf) : available unread =
    if (unread.length : ℤ) % 4294967296 < 2147483648 then (unread.length : ℤ) % 4294967296
    else (unread.length : ℤ) % 4294967296 - 4294967296 := by
  unfold available
  rw [Int.bmod_def]
  norm_num

lemma available_le (unread : Buf) : available unread ≤ unread.length := by
  rw [available_eq_emod]
  split_ifs <;> omega

lemma available_emod_le (unread : Buf) : available unread % 2 ^ 32 ≤ unread.length := by
  rw [available_eq_emod]
  split_ifs <;> omega

lemma bmod_of_lt {n : ℕ} (h : n < 2 ^ 31) : (n : ℤ).bmod (2 ^ 32) = n := by
  rw [Int.bmod_def, if_pos] <;> push_cast <;> omega

lemma available_eq {unread : Buf} (h : unread.length < 2 ^ 31) :
    available unread = unread.length :=
  bmod_of_lt h

end Server

namespace I3IpcClient

open Server (available)

/-- The request that `client_handle_readable` hands to `ipc_client_handle_command`: the one
whose header is pending, or the one at the front of the unread bytes. -/
def nextRequest (k : I3IpcClient) (unread : Buf) : Option Frame :=
  if 0 < k.pendingLength then
    if (k.pendingLength : ℤ) ≤ available unread % 2 ^ 32 then
      some ⟨k.pendingType, unread.take k.pendingLength⟩
    else none
  else
    let header := unread.take ipcHeaderSize
    if available unread < ipcHeaderSize ∨ header.take 6 ≠ ipcMagic ∨
        available unread - ipcHeaderSize < headerLength header then none
    else
      some ⟨headerType header, (unread.drop ipcHeaderSize).take (headerLength header)⟩

end I3IpcClient

namespace Server

variable {W : World} {s s' s₁ s₂ : Server} {c : ℕ} {k : I3IpcClient}

/-- A message at the front of the unread bytes is the next request. -/
lemma nextRequest_encode (hidle : k.pendingLength = 0) {f : Frame} (hf : f.Fits) (rest : Buf)
    (hint : (f.encode ++ rest).length < 2 ^ 31) :
    k.nextRequest (f.encode ++ rest) = some f := by
  have hlen : (f.encode ++ rest).length = ipcHeaderSize + f.payload.length + rest.length := by
    rw [List.length_append, Frame.length_encode]
  have hheader : (f.encode ++ rest).take ipcHeaderSize
      = encodeHeader f.payload.length f.type := by
    rw [Frame.encode, List.append_assoc, List.take_left' (length_encodeHeader _ _)]
  have hpayload : ((f.encode ++ rest).drop ipcHeaderSize).take f.payload.length = f.payload := by
    rw [Frame.encode, List.append_assoc, List.drop_left' (length_encodeHeader _ _),
      List.take_left' rfl]
  have hnot : ¬ (available (f.encode ++ rest) < ipcHeaderSize ∨
      (encodeHeader f.payload.length f.type).take 6 ≠ ipcMagic ∨
      available (f.encode ++ rest) - ipcHeaderSize
        < headerLength (encodeHeader f.payload.length f.type)) := by
    rw [available_eq hint, hlen, take_magic_encodeHeader, headerLength_encodeHeader hf]
    rintro (h | h | h)
    · omega
    · exact h rfl
    · omega
  rw [I3IpcClient.nextRequest, if_neg (by omega), hheader]
  simp only
  rw [if_neg hnot, headerLength_encodeHeader hf, headerType_encodeHeader, hpayload]

/-- The readable callback of the client hands over the request `f`. -/
def HandsOver (s : Server) (c : ℕ) (k : I3IpcClient) (mask : EventMask) (calls : ReadCalls)
    (f : Frame) : Prop :=
  mask.error = false ∧ mask.hangup = false ∧ calls.ioctlOk = true ∧
    (k.pendingLength = 0 → calls.headerOk = true) ∧
    (f.payload ≠ [] → calls.payloadOk = true) ∧ k.nextRequest (s.unread c) = some f

/-- The state `s₁` and the record `k₁` in which the request `f` is handled. -/
structure HandedOver (s : Server) (c : ℕ) (k : I3IpcClient) (f : Frame) (s₁ : Server)
    (k₁ : I3IpcClient) : Prop where
  len_eq : k₁.writeBufferLen = k.writeBufferLen
  mask_eq : k₁.subscribedEvents = k.subscribedEvents
  reallocs_eq : k₁.reallocs = k.reallocs
  idle : k₁.pendingLength = 0
  list_eq : s₁.ipcClientList = s.ipcClientList
  unread_eq : s₁.unread c = (s.unread c).drop
    ((if k.pendingLength = 0 then ipcHeaderSize else 0) + f.payload.length)
  dispatched_eq : dispatchedFor c s₁.log = dispatchedFor c s.log ++ [f]

/-- No system call of the readable callback fails, and no error or hangup is reported. -/
def CleanRead (mask : EventMask) (calls : ReadCalls) : Prop :=
  mask.error = false ∧ mask.hangup = false ∧ calls.ioctlOk = true ∧ calls.headerOk = true ∧
    calls.payloadOk = true

/-- The condition under which a step does not fault. -/
def SafeStep (W : World) (s : Server) : Input → Prop
  | .readable c mask calls A => ∀ k f, s.heap c = some k → HandsOver s c k mask calls f →
      SafeRequest W A s c k f
  | _ => True

/-- The effects that an input can have. -/
def Input.Allows : Input → Effect → Prop
  | .serve, e => e = .serve
  | .displayDestroy, e => e = .release ∨ ∃ c, e = .drop c
  | .connection _, e => e = .connect
  | .arrive c _, e => e = .arrive c
  | .readable c mask calls _, e =>
    e = .read c ∨ (e = .drop c ∧ ¬ CleanRead mask calls) ∨ e.Output {c}
  | .writable c mask res, e =>
    e = .write c ∨
      (e = .drop c ∧ (mask.error = true ∨ mask.hangup = true ∨ res = .failed))
  | .signal _ _, e => e.Output ∅

/-- The records of the client agree on what `SafeRequest` looks at. -/
lemma safeRequest_congr {A : Answers} {f : Frame} {k' : I3IpcClient}
    (hlist : s'.ipcClientList = s.ipcClientList) (hlen : k.writeBufferLen = k'.writeBufferLen)
    (hmask : k.subscribedEvents = k'.subscribedEvents) (hre : k.reallocs = k'.reallocs) :
    SafeRequest W A s c k f ↔ SafeRequest W A s' c k' f := by
  have hacc : ∀ n, k.Accepts W c n ↔ k'.Accepts W c n := fun n => by
    rw [I3IpcClient.Accepts, I3IpcClient.Accepts, hlen, hre]
  rw [SafeRequest, SafeRequest, hlist]
  cases IpcPayloadType.ofCode f.type with
  | none => exact Iff.rfl
  | some t =>
    cases t with
    | command | sendTick => exact I3IpcClient.outlasts_congr _ hlen hmask hre
    | subscribe => exact forall₃_congr fun _ _ _ => hacc _
    | unsubscribe | getOutputs | getWorkspaces | getInputs | getVersion | getSeats | getConfig
    | getTree | getMarks | getBarConfig | getBindingModes | sync | getBindingState =>
      exact Iff.rfl

/-! ## The readable callback -/

lemma clientDisconnect_eq (h : s.heap c = some k) : s.clientDisconnect c = .ok (s.drop c k) := by
  rw [clientDisconnect, deref_of_some h]
  rfl

/-- What is left of the record does not matter when the client is dropped. -/
lemma drop_put (k' : I3IpcClient) (harmed : k'.writableEventSource = k.writableEventSource) :
    (s.put c k').drop c k' = s.drop c k := by
  simp [drop, put, harmed]

/-- Reading the payload of a pending header. -/
lemma dispatchPending_payload (hpos : 0 < k.pendingLength)
    (hlen : k.pendingLength ≤ (s.unread c).length) (A : Answers) (calls : ReadCalls) :
    dispatchPending W A calls s c k
      = if calls.payloadOk then
          handlePayload W A (s.readTo c k.idle k.pendingLength
            [.received c ((s.unread c).take k.pendingLength),
              .dispatched c ⟨k.pendingType, (s.unread c).take k.pendingLength⟩])
            c k.pendingType ((s.unread c).take k.pendingLength)
        else .ok (s.drop c k) := by
  have hput : (s.put c k.idle).deref c = .ok k.idle := deref_of_some put_heap
  have hpad : k.pendingLength - ((s.unread c).take k.pendingLength).length = 0 := by
    rw [List.length_take]
    omega
  change ipcClientHandleCommand W A calls.payloadOk (s.put c k.idle) c k.pendingLength
    k.pendingType = _
  rw [ipcClientHandleCommand, if_pos hpos, hput, Machine.ok_bind]
  cases hpay : calls.payloadOk with
  | false =>
    rw [if_pos (by rfl), clientDisconnect_eq put_heap, drop_put k.idle rfl]
    rfl
  | true =>
    rw [if_neg (by simp), if_pos rfl]
    have hunread : (s.put c k.idle).unread = s.unread := rfl
    simp only [recv, hunread, hpad, List.replicate_zero, List.append_nil]
    congr 1
    simp [note, put, readTo]

lemma dispatchPending_bare (hzero : k.pendingLength = 0) (A : Answers) (calls : ReadCalls) :
    dispatchPending W A calls s c k
      = handlePayload W A (s.readTo c k.idle 0 [.dispatched c ⟨k.pendingType, []⟩])
          c k.pendingType [] := by
  change ipcClientHandleCommand W A calls.payloadOk (s.put c k.idle) c k.pendingLength
    k.pendingType = _
  rw [ipcClientHandleCommand, if_neg (by omega)]
  congr 1
  simp [note, put, readTo]

/-- The callback behind its first tests. -/
lemma clientHandleReadable_eq (h : s.heap c = some k) {mask : EventMask} {calls : ReadCalls}
    (herror : mask.error = false) (hhangup : mask.hangup = false) (hioctl : calls.ioctlOk = true)
    (A : Answers) :
    clientHandleReadable W A s c mask calls
      = if 0 < k.pendingLength then
          if (k.pendingLength : ℤ) ≤ available (s.unread c) % 2 ^ 32 then
            dispatchPending W A calls s c k
          else .ok s
        else if available (s.unread c) < ipcHeaderSize then .ok s
        else if calls.headerOk = false then .ok (s.drop c k)
        else if (s.nextHeader c).take 6 ≠ ipcMagic then
          .ok ((s.readTo c k ipcHeaderSize [.received c (s.nextHeader c)]).drop c k)
        else
          let s₁ := s.readTo c (k.expecting (s.nextHeader c)) ipcHeaderSize
            [.received c (s.nextHeader c)]
          if (headerLength (s.nextHeader c) : ℤ)
              ≤ available (s.unread c) - (s.nextHeader c).length then
            dispatchPending W A calls s₁ c (k.expecting (s.nextHeader c))
          else .ok s₁ := by
  have hdrop := clientDisconnect_eq h
  have hbad : (s.recv c ipcHeaderSize).2.clientDisconnect c
      = .ok ((s.readTo c k ipcHeaderSize [.received c (s.nextHeader c)]).drop c k) := by
    have hread : (s.recv c ipcHeaderSize).2
        = s.readTo c k ipcHeaderSize [.received c (s.nextHeader c)] := by
      rw [readTo, ← h, Function.update_eq_self]
      rfl
    rw [hread]
    exact clientDisconnect_eq (Function.update_self _ _ _)
  have hfst : (s.recv c ipcHeaderSize).1 = s.nextHeader c := rfl
  have hput : (s.recv c ipcHeaderSize).2.put c (k.expecting (s.nextHeader c))
      = s.readTo c (k.expecting (s.nextHeader c)) ipcHeaderSize [.received c (s.nextHeader c)] := rfl
  rw [clientHandleReadable, deref_of_some h]
  simp only [herror, hhangup, hioctl, Bool.false_eq_true, if_false, Machine.ok_bind, Bool.not_true,
    Bool.not_eq_true', hdrop, hfst, hbad, ← hput]
  split_ifs <;> rfl

/-! ## The ends of the readable callback -/

variable (W) in
/-- The callback ends in the handler of a request, in a state that reading has led to. -/
def HandsOverIn (s : Server) (c : ℕ) (k : I3IpcClient) (A : Answers) (mask : EventMask)
    (calls : ReadCalls) (x : Except Fault Server) : Prop :=
  ∃ f es s₁ k₁, HandsOver s c k mask calls f ∧ Moves W s es s₁ ∧ (∀ e ∈ es, e = .read c) ∧
    s₁.heap c = some k₁ ∧ HandedOver s c k f s₁ k₁ ∧ x = handlePayload W A s₁ c f.type f.payload

variable (W) in
/-- The callback takes at most a header, and drops the client only if something has failed. -/
def HandsOverNone (s : Server) (c : ℕ) (k : I3IpcClient) (mask : EventMask) (calls : ReadCalls)
    (x : Except Fault Server) : Prop :=
  (∀ f, ¬ HandsOver s c k mask calls f) ∧
    ∃ es s', x = .ok s' ∧ Moves W s es s' ∧
      (∀ c', dispatchedFor c' s'.log = dispatchedFor c' s.log) ∧
      ∀ e ∈ es, e = .read c ∨ (e = .drop c ∧ ¬ CleanRead mask calls)

section Ends

variable {A : Answers} {mask : EventMask} {calls : ReadCalls}

lemma handsOverNone_waits (hnone : ∀ f, ¬ HandsOver s c k mask calls f) :
    HandsOverNone W s c k mask calls (.ok s) :=
  ⟨hnone, [], s, rfl, .nil, fun _ => rfl, by simp⟩

lemma handsOverNone_dropped (h : s.heap c = some k)
    (hnone : ∀ f, ¬ HandsOver s c k mask calls f) (hclean : ¬ CleanRead mask calls) :
    HandsOverNone W s c k mask calls (.ok (s.drop c k)) :=
  ⟨hnone, _, _, rfl, .one (.drop h), by simp [dispatchedFor, drop], by simp [hclean]⟩

/-- A request whose payload cannot be read is not handed over. -/
lemma not_handsOver_of_payload {f : Frame} (hnext : k.nextRequest (s.unread c) = some f)
    (hne : f.payload ≠ []) (hpay : calls.payloadOk ≠ true) (f' : Frame) :
    ¬ HandsOver s c k mask calls f' := by
  intro hf
  obtain rfl := Option.some.inj (hnext.symm.trans hf.2.2.2.2.2)
  exact hpay (hf.2.2.2.2.1 hne)

/-- The header of the request has been read before. -/
lemma dispatchPending_ends (h : s.heap c = some k) (herror : mask.error = false)
    (hhangup : mask.hangup = false) (hioctl : calls.ioctlOk = true) (hpos : 0 < k.pendingLength)
    (hlen : k.pendingLength ≤ (s.unread c).length)
    (hnext : k.nextRequest (s.unread c)
      = some ⟨k.pendingType, (s.unread c).take k.pendingLength⟩) :
    HandsOverIn W s c k A mask calls (dispatchPending W A calls s c k) ∨
      HandsOverNone W s c k mask calls (dispatchPending W A calls s c k) := by
  rw [dispatchPending_payload hpos hlen]
  by_cases hpay : calls.payloadOk = true
  · rw [if_pos hpay]
    refine Or.inl ⟨_, _, _, _, ⟨herror, hhangup, hioctl, by omega, fun _ => hpay, hnext⟩,
      .one (.payload h hpos hlen), by simp, Function.update_self _ _ _,
      ⟨rfl, rfl, rfl, rfl, rfl, ?_, ?_⟩, rfl⟩
    · rw [readTo_unread, if_neg hpos.ne', Nat.zero_add, List.length_take_of_le hlen]
    · simp [dispatchedFor, readTo]
  · rw [if_neg hpay]
    refine Or.inr (handsOverNone_dropped h (not_handsOver_of_payload hnext ?_ hpay)
      fun hcon => hpay hcon.2.2.2.2)
    rw [← List.length_pos_iff_ne_nil, List.length_take]
    omega

section Header

variable (h : s.heap c = some k) (herror : mask.error = false) (hhangup : mask.hangup = false)
  (hioctl : calls.ioctlOk = true) (hheader : calls.headerOk = true) (hidle : k.pendingLength = 0)
  (hlen : ipcHeaderSize ≤ (s.unread c).length) (hmagic : (s.nextHeader c).take 6 = ipcMagic)
  (hnext : k.nextRequest (s.unread c) = some ⟨headerType (s.nextHeader c),
    ((s.unread c).drop ipcHeaderSize).take (headerLength (s.nextHeader c))⟩)
include h herror hhangup hioctl hheader hidle hlen hmagic hnext

/-- The request has a header and no payload. -/
lemma dispatchPending_ends_bare (hzero : headerLength (s.nextHeader c) = 0) :
    HandsOverIn W s c k A mask calls (dispatchPending W A calls
      (s.readTo c (k.expecting (s.nextHeader c)) ipcHeaderSize [.received c (s.nextHeader c)])
      c (k.expecting (s.nextHeader c))) := by
  rw [dispatchPending_bare (by exact hzero)]
  rw [hzero, List.take_zero] at hnext
  refine ⟨_, _, _, _, ⟨herror, hhangup, hioctl, fun _ => hheader, by simp, hnext⟩,
    .one (.bare h hidle hlen hmagic hzero), by simp, Function.update_self _ _ _,
    ⟨rfl, rfl, rfl, rfl, rfl, ?_, ?_⟩, ?_⟩
  · rw [readTo_unread, if_pos hidle]
    rfl
  · simp [dispatchedFor, readTo]
  · congr 1
    simp [readTo, I3IpcClient.expecting, I3IpcClient.idle]

/-- The header and the payload of the request are read one after the other. -/
lemma dispatchPending_ends_header (hpos : 0 < headerLength (s.nextHeader c))
    (hlen₁ : headerLength (s.nextHeader c) ≤ ((s.unread c).drop ipcHeaderSize).length) :
    HandsOverIn W s c k A mask calls (dispatchPending W A calls
        (s.readTo c (k.expecting (s.nextHeader c)) ipcHeaderSize [.received c (s.nextHeader c)])
        c (k.expecting (s.nextHeader c))) ∨
      HandsOverNone W s c k mask calls (dispatchPending W A calls
        (s.readTo c (k.expecting (s.nextHeader c)) ipcHeaderSize [.received c (s.nextHeader c)])
        c (k.expecting (s.nextHeader c))) := by
  have hpos₁ : 0 < (k.expecting (s.nextHeader c)).pendingLength := hpos
  set s₁ := s.readTo c (k.expecting (s.nextHeader c)) ipcHeaderSize
    [.received c (s.nextHeader c)] with hs₁
  have hunread : s₁.unread c = (s.unread c).drop ipcHeaderSize := Function.update_self _ _ _
  have hlen₂ : (k.expecting (s.nextHeader c)).pendingLength ≤ (s₁.unread c).length := by
    rw [hunread]
    exact hlen₁
  have hheap₁ : s₁.heap c = some (k.expecting (s.nextHeader c)) := Function.update_self _ _ _
  rw [dispatchPending_payload hpos₁ hlen₂]
  by_cases hpay : calls.payloadOk = true
  · rw [if_pos hpay]
    refine Or.inl ⟨_, _, _, _, ⟨herror, hhangup, hioctl, fun _ => hheader, fun _ => hpay, hnext⟩,
      .cons (.header h hidle hlen hmagic hpos) (.one (.payload hheap₁ hpos₁ hlen₂)), by simp,
      Function.update_self _ _ _, ⟨rfl, rfl, rfl, rfl, rfl, ?_, ?_⟩, ?_⟩
    · rw [readTo_unread, hunread, List.drop_drop, if_pos hidle, List.length_take_of_le hlen₁]
      rfl
    · simp [dispatchedFor, readTo, I3IpcClient.expecting]
    · rw [hunread]
      rfl
  · rw [if_neg hpay]
    have hclean : ¬ CleanRead mask calls := fun hcon => hpay hcon.2.2.2.2
    refine Or.inr ⟨not_handsOver_of_payload hnext ?_ hpay, _, _, rfl,
      .cons (.header h hidle hlen hmagic hpos) (.one (.drop hheap₁)),
      by simp [dispatchedFor, drop, hs₁, readTo], by simp [hclean]⟩
    rw [← List.length_pos_iff_ne_nil, List.length_take_of_le hlen₁]
    exact hpos

end Header

/-- Behind a header the callback waits for the whole payload. -/
lemma clientHandleReadable_pending (h : s.heap c = some k) (herror : mask.error = false)
    (hhangup : mask.hangup = false) (hioctl : calls.ioctlOk = true) (hpos : 0 < k.pendingLength) :
    HandsOverIn W s c k A mask calls (clientHandleReadable W A s c mask calls) ∨
      HandsOverNone W s c k mask calls (clientHandleReadable W A s c mask calls) := by
  rw [clientHandleReadable_eq h herror hhangup hioctl, if_pos hpos]
  by_cases harrived : (k.pendingLength : ℤ) ≤ available (s.unread c) % 2 ^ 32
  · have hlen : k.pendingLength ≤ (s.unread c).length := by
      have := available_emod_le (s.unread c)
      omega
    rw [if_pos harrived]
    refine dispatchPending_ends h herror hhangup hioctl hpos hlen ?_
    rw [I3IpcClient.nextRequest, if_pos hpos, if_pos harrived]
  · rw [if_neg harrived]
    refine Or.inr (handsOverNone_waits fun f hf => ?_)
    have hnext := hf.2.2.2.2.2
    rw [I3IpcClient.nextRequest, if_pos hpos, if_neg harrived] at hnext
    cases hnext

/-- Without a header the callback reads one, and the payload if it has arrived with the header. -/
lemma clientHandleReadable_idle (h : s.heap c = some k) (herror : mask.error = false)
    (hhangup : mask.hangup = false) (hioctl : calls.ioctlOk = true) (hidle : k.pendingLength = 0) :
    HandsOverIn W s c k A mask calls (clientHandleReadable W A s c mask calls) ∨
      HandsOverNone W s c k mask calls (clientHandleReadable W A s c mask calls) := by
  have hpos : ¬ 0 < k.pendingLength := by omega
  have hle := available_le (s.unread c)
  have hnone : (available (s.unread c) < ipcHeaderSize ∨ (s.nextHeader c).take 6 ≠ ipcMagic ∨
      available (s.unread c) - ipcHeaderSize < headerLength (s.nextHeader c)) →
      ∀ f, ¬ HandsOver s c k mask calls f := by
    intro hcond f hf
    have hnext : k.nextRequest (s.unread c) = none := by
      rw [I3IpcClient.nextRequest, if_neg hpos]
      exact if_pos hcond
    cases hnext.symm.trans hf.2.2.2.2.2
  rw [clientHandleReadable_eq h herror hhangup hioctl, if_neg hpos]
  by_cases hshort : available (s.unread c) < ipcHeaderSize
  · rw [if_pos hshort]
    exact Or.inr (handsOverNone_waits (hnone (Or.inl hshort)))
  rw [if_neg hshort]
  have hlen : ipcHeaderSize ≤ (s.unread c).length := by omega
  by_cases hheader : calls.headerOk = false
  · rw [if_pos hheader]
    exact Or.inr (handsOverNone_dropped h
      (fun f hf => absurd (hheader.symm.trans (hf.2.2.2.1 hidle)) (by simp))
      fun hcon => absurd (hheader.symm.trans hcon.2.2.2.1) (by simp))
  rw [if_neg hheader]
  by_cases hmagic : (s.nextHeader c).take 6 = ipcMagic
  swap
  · rw [if_pos hmagic]
    exact Or.inr ⟨hnone (Or.inr (Or.inl hmagic)), _, _, rfl,
      .one (.badHeader h hidle hlen hmagic), by simp [dispatchedFor, drop, readTo], by simp⟩
  rw [if_neg (not_not.mpr hmagic)]
  have hhlen : (s.nextHeader c).length = ipcHeaderSize := by
    rw [nextHeader, List.length_take]
    omega
  simp only [hhlen]
  by_cases harrived : (headerLength (s.nextHeader c) : ℤ)
      ≤ available (s.unread c) - ipcHeaderSize
  swap
  · -- the payload is still on its way
    have hwait : headerLength (s.nextHeader c) ≠ 0 := by omega
    rw [if_neg harrived]
    exact Or.inr ⟨hnone (Or.inr (Or.inr (not_le.mp harrived))), _, _, rfl,
      .one (.header h hidle hlen hmagic (Nat.pos_of_ne_zero hwait)),
      by simp [dispatchedFor, readTo], by simp⟩
  rw [if_pos harrived]
  have hnext : k.nextRequest (s.unread c) = some ⟨headerType (s.nextHeader c),
      ((s.unread c).drop ipcHeaderSize).take (headerLength (s.nextHeader c))⟩ := by
    rw [I3IpcClient.nextRequest, if_neg hpos]
    exact if_neg (not_or.mpr ⟨hshort, not_or.mpr ⟨not_not.mpr hmagic, not_lt.mpr harrived⟩⟩)
  rw [Bool.not_eq_false] at hheader
  by_cases hzero : headerLength (s.nextHeader c) = 0
  · exact Or.inl (dispatchPending_ends_bare h herror hhangup hioctl hheader hidle hlen hmagic
      hnext hzero)
  · refine dispatchPending_ends_header h herror hhangup hioctl hheader hidle hlen hmagic hnext
      (Nat.pos_of_ne_zero hzero) ?_
    rw [List.length_drop]
    omega

end Ends

/-- The callback hands a request over, or it takes at most a header. -/
theorem clientHandleReadable_cases (h : s.heap c = some k) (A : Answers) (mask : EventMask)
    (calls : ReadCalls) :
    HandsOverIn W s c k A mask calls (clientHandleReadable W A s c mask calls) ∨
      HandsOverNone W s c k mask calls (clientHandleReadable W A s c mask calls) := by
  by_cases herror : mask.error = true
  · rw [clientHandleReadable, if_pos herror, clientDisconnect_eq h]
    exact Or.inr (handsOverNone_dropped h
      (fun f hf => absurd (hf.1.symm.trans herror) (by simp))
      fun hcon => absurd (hcon.1.symm.trans herror) (by simp))
  by_cases hhangup : mask.hangup = true
  · rw [clientHandleReadable, if_neg herror, if_pos hhangup, deref_of_some h, Machine.ok_bind,
      clientDisconnect_eq h]
    exact Or.inr (handsOverNone_dropped h
      (fun f hf => absurd (hf.2.1.symm.trans hhangup) (by simp))
      fun hcon => absurd (hcon.2.1.symm.trans hhangup) (by simp))
  by_cases hioctl : calls.ioctlOk = true
  swap
  · rw [clientHandleReadable, if_neg herror, if_neg hhangup, deref_of_some h, Machine.ok_bind,
      if_pos (by simpa using hioctl), clientDisconnect_eq h]
    exact Or.inr (handsOverNone_dropped h (fun f hf => hioctl hf.2.2.1)
      fun hcon => hioctl hcon.2.2.1)
  rw [Bool.not_eq_true] at herror hhangup
  rcases Nat.eq_zero_or_pos k.pendingLength with hidle | hpos
  · exact clientHandleReadable_idle h herror hhangup hioctl hidle
  · exact clientHandleReadable_pending h herror hhangup hioctl hpos

/-! ## The other callbacks -/

lemma clientHandleWritable_moves (hs : s.Inv) (h : s.heap c = some k) (mask : EventMask)
    (res : WriteResult) :
    ∃ es s', s.clientHandleWritable c mask res = .ok s' ∧ Moves W s es s' ∧
      ∀ e ∈ es, e = .write c ∨
        (e = .drop c ∧ (mask.error = true ∨ mask.hangup = true ∨ res = .failed)) := by
  have hbmod : (k.writeBufferLen : ℤ).bmod (2 ^ 32) = k.writeBufferLen := by
    have hlt := (hs.wf c k h).len_lt
    have hle := (hs.wf c k h).size_le
    exact bmod_of_lt (by omega)
  have hderef := deref_of_some h
  have hdrop := clientDisconnect_eq h
  rw [clientHandleWritable]
  by_cases herror : mask.error = true
  · rw [if_pos herror, hdrop]
    exact ⟨_, _, rfl, .one (.drop h), by simp [herror]⟩
  rw [if_neg herror]
  by_cases hhangup : mask.hangup = true
  · rw [if_pos hhangup, hderef, Machine.ok_bind, hdrop]
    exact ⟨_, _, rfl, .one (.drop h), by simp [hhangup]⟩
  rw [if_neg hhangup, hderef, Machine.ok_bind, hbmod]
  by_cases hempty : k.writeBufferLen = 0
  · -- nothing waits to be written
    rw [if_pos (by omega)]
    exact ⟨[], s, rfl, .nil, by simp⟩
  rw [if_neg (by omega)]
  have hpos : 0 < k.writeBufferLen := Nat.pos_of_ne_zero hempty
  have harmed : k.writableEventSource = true := (hs.wf c k h).armed_iff.mpr hpos
  cases res with
  | again => exact ⟨[], s, rfl, .nil, by simp⟩
  | failed =>
    simp only [hdrop]
    exact ⟨_, _, rfl, .one (.drop h), by simp⟩
  | wrote n =>
    refine ⟨_, s.wrote c k (min n k.writeBufferLen), ?_,
      .one (.write h hpos (min_le_right _ _)), by simp⟩
    -- what has been written is taken off the front
    have htake : k.writeBuffer.take (min n k.writeBufferLen)
        = k.queue.take (min n k.writeBufferLen) := by
      rw [I3IpcClient.queue, List.take_take, min_eq_left (min_le_right _ _)]
    have harmed' : (k.consume (min n k.writeBufferLen)).writableEventSource = true := harmed
    simp only [htake, harmed', Bool.and_true, decide_eq_true_eq]
    by_cases hdone : (k.consume (min n k.writeBufferLen)).writeBufferLen = 0
    · -- these were the last bytes, and the event source is removed
      rw [if_pos hdone]
      simp [wrote, I3IpcClient.wrote, hdone, put, note, pure, Except.pure]
    · -- the event source stays
      have hsources : s.writeSources = Function.update s.writeSources c true := by
        rw [← harmed]
        exact hs.writeSources_eq h
      rw [if_neg hdone]
      simp only [wrote, I3IpcClient.wrote, hdone, if_false, harmed', ← hsources]
      simp [put, note, pure, Except.pure]

lemma disconnectAll_moves :
    ∀ (n : ℕ) (s : Server), s.Inv → s.ipcClientList.length = n →
      ∃ es s', disconnectAll n s = .ok s' ∧ Moves W s es s' ∧ (∀ e ∈ es, ∃ c, e = .drop c) ∧
        s'.ipcClientList = [] := by
  intro n
  induction n with
  | zero =>
    intro s _ hlen
    have hnil : s.ipcClientList = [] := List.length_eq_zero_iff.mp hlen
    exact ⟨[], s, if_pos hnil, .nil, by simp, hnil⟩
  | succ n ih =>
    intro s hs hlen
    obtain ⟨pre, c, hsplit⟩ : ∃ pre c, s.ipcClientList = pre ++ [c] := by
      rcases List.eq_nil_or_concat s.ipcClientList with hnil | ⟨pre, c, hsplit⟩
      · rw [hnil] at hlen
        simp at hlen
      · exact ⟨pre, c, by simpa using hsplit⟩
    obtain ⟨k, h⟩ := hs.listed_live c (by simp [hsplit])
    have hmove : Move W s (.drop c) (s.drop c k) := .drop h
    have hnodup := hs.list_nodup
    rw [hsplit] at hnodup
    have hpre : ∀ a ∈ pre, a ≠ c := fun a ha =>
      (List.nodup_append.mp hnodup).2.2 a ha c (List.mem_singleton_self c)
    have hdropped : (s.drop c k).ipcClientList = pre := by
      change s.ipcClientList.filter _ = pre
      rw [hsplit, List.filter_append, List.filter_cons_of_neg (by simp), List.filter_nil,
        List.append_nil]
      exact List.filter_eq_self.mpr fun a ha => by simpa using hpre a ha
    have hlen' : (s.drop c k).ipcClientList.length = n := by
      rw [hdropped]
      rw [hsplit] at hlen
      simpa using hlen
    obtain ⟨es, s', heq, hmoves, hes, hnil⟩ := ih (s.drop c k) (hmove.inv hs) hlen'
    refine ⟨.drop c :: es, s', ?_, .cons hmove hmoves, ?_, hnil⟩
    · rw [disconnectAll, hsplit, List.getLast?_append]
      simp only [List.getLast?_singleton, Option.some_or, clientDisconnect_eq h, Machine.ok_bind,
        heq]
    · intro e he
      rcases List.mem_cons.mp he with rfl | he
      · exact ⟨c, rfl⟩
      · exact hes e he

lemma release_moves (s : Server) (r : Option ℕ) (f : ℕ → Resource) : ∃ es s',
    (match r with | some r => s.note (.released (f r)) | none => s) = s' ∧ Moves W s es s' ∧
      ∀ e ∈ es, e = .release := by
  cases r with
  | none => exact ⟨[], s, rfl, .nil, by simp⟩
  | some r => exact ⟨_, _, rfl, .one (.release (f r)), by simp⟩

lemma handleDisplayDestroy_moves (hs : s.Inv) :
    ∃ es s', s.handleDisplayDestroy = .ok s' ∧ Moves W s es s' ∧
      ∀ e ∈ es, e = .release ∨ ∃ c, e = .drop c := by
  obtain ⟨es₁, s₁, heq₁, hm₁, he₁⟩ :=
    release_moves (W := W) s s.ipcEventSource .listenSource
  obtain ⟨es₂, s₂, heq₂, hm₂, he₂⟩ :=
    release_moves (W := W) s₁ s₁.ipcSocket .listenSocket
  obtain ⟨es₃, s₃, heq₃, hm₃, he₃, hnil⟩ :=
    disconnectAll_moves (W := W) _ s₂ (hm₂.inv (hm₁.inv hs)) rfl
  have hbind : s.handleDisplayDestroy = (disconnectAll s₂.ipcClientList.length s₂ >>= fun s =>
      .ok ({ s with ipcClientList := [] }.note (.released .displayDestroyListener))) := by
    rw [← heq₂, ← heq₁]
    rfl
  have hclear : { s₃ with ipcClientList := [] } = s₃ := by rw [← hnil]
  refine ⟨es₁ ++ (es₂ ++ (es₃ ++ [.release])), s₃.note (.released .displayDestroyListener), ?_,
    hm₁.append (hm₂.append (hm₃.append (.one (.release _)))), ?_⟩
  · rw [hbind, heq₃, Machine.ok_bind, hclear]
  · intro e he
    simp only [List.mem_append, List.mem_singleton] at he
    rcases he with he | he | he | rfl
    · exact Or.inl (he₁ e he)
    · exact Or.inl (he₂ e he)
    · exact Or.inr (he₃ e he)
    · exact Or.inl rfl

/-! ## The step -/

/-- A readable callback succeeds if the request that it hands over, if any, is safe. -/
lemma step_readable_spec (hs : s.Inv) (c : ℕ) (mask : EventMask) (calls : ReadCalls) (A : Answers) :
    (SafeStep W s (.readable c mask calls A) → ∃ es s',
      step W s (.readable c mask calls A) = .ok s' ∧ Moves W s es s' ∧
        ∀ e ∈ es, (Input.readable c mask calls A).Allows e) ∧
    (¬ SafeStep W s (.readable c mask calls A) →
      step W s (.readable c mask calls A) = .error (.useAfterDelete c)) := by
  by_cases hsource : s.readSources c = true
  swap
  · -- the client is not live, and no handler is called
    have hdead : ∀ k, s.heap c ≠ some k := fun k h => hsource ((hs.read_iff c).mpr ⟨k, h⟩)
    refine ⟨fun _ => ⟨[], s, ?_, .nil, by simp⟩, fun h => absurd (fun k f hk => ?_) h⟩
    · rw [step, if_neg hsource]
    · exact absurd hk (hdead k)
  obtain ⟨k, h⟩ := (hs.read_iff c).mp hsource
  rw [step, if_pos hsource]
  rcases clientHandleReadable_cases (W := W) h A mask calls with
    ⟨f, es, s₁, k₁, hhands, hmoves, hread, h₁, hover, heq⟩
    | ⟨hnone, es, s', heq, hmoves, -, hread⟩
  · -- a request is handed over in a state where it is as safe as before
    have hsafe : SafeStep W s (.readable c mask calls A) ↔ SafeRequest W A s₁ c k₁ f := by
      rw [← safeRequest_congr hover.list_eq hover.len_eq.symm hover.mask_eq.symm
        hover.reallocs_eq.symm]
      refine ⟨fun hs => hs k f h hhands, fun hs k' f' h' hhands' => ?_⟩
      obtain rfl : k = k' := Option.some.inj (h.symm.trans h')
      obtain rfl := Option.some.inj (hhands.2.2.2.2.2.symm.trans hhands'.2.2.2.2.2)
      exact hs
    have hret := handlePayload_returns (W := W) (hmoves.inv hs) h₁ A f
    rw [heq, hsafe]
    refine ⟨fun hs => ?_, hret.fault⟩
    obtain ⟨s', hok, es', hmoves', hout⟩ := hret.ok hs
    refine ⟨es ++ es', s', hok, hmoves.append hmoves', fun e he => ?_⟩
    rcases List.mem_append.mp he with he | he
    · exact Or.inl (hread e he)
    · exact Or.inr (Or.inr (hout e he))
  · -- nothing is handed over
    refine ⟨fun _ => ⟨es, s', heq, hmoves, fun e he => ?_⟩,
      fun hnot => absurd (fun k' f h' hhands => ?_) hnot⟩
    · exact (hread e he).elim Or.inl fun he => Or.inr (Or.inl he)
    · obtain rfl : k = k' := Option.some.inj (h.symm.trans h')
      exact absurd hhands (hnone f)

/-- A safe step succeeds, with effects that the input allows; any other step is a fault on the
client whose request it hands over. -/
theorem step_spec (hs : s.Inv) (i : Input) :
    (SafeStep W s i → ∃ es s', step W s i = .ok s' ∧ Moves W s es s' ∧ ∀ e ∈ es, i.Allows e) ∧
    (¬ SafeStep W s i → ∃ c mask calls A, i = .readable c mask calls A ∧
      step W s i = .error (.useAfterDelete c)) := by
  cases i with
  | serve =>
    exact ⟨fun _ => ⟨_, _, rfl, .one .serve, by simp [Input.Allows]⟩, fun h => absurd trivial h⟩
  | displayDestroy =>
    refine ⟨fun _ => ?_, fun h => absurd trivial h⟩
    exact handleDisplayDestroy_moves hs
  | connection accepted =>
    refine ⟨fun _ => ?_, fun h => absurd trivial h⟩
    cases accepted with
    | false => exact ⟨[], s, rfl, .nil, by simp⟩
    | true => exact ⟨_, _, rfl, .one .connect, by simp [Input.Allows]⟩
  | arrive c bs =>
    refine ⟨fun _ => ?_, fun h => absurd trivial h⟩
    by_cases hlive : s.Live c
    · refine ⟨_, s.arrived c bs, ?_, .one (.arrive hlive bs), by simp [Input.Allows]⟩
      rw [step, if_pos hlive]
      rfl
    · refine ⟨[], s, ?_, .nil, by simp⟩
      rw [step, if_neg hlive]
  | readable c mask calls A =>
    obtain ⟨hsafe, hfault⟩ := step_readable_spec (W := W) hs c mask calls A
    exact ⟨hsafe, fun h => ⟨c, mask, calls, A, rfl, hfault h⟩⟩
  | writable c mask res =>
    refine ⟨fun _ => ?_, fun h => absurd trivial h⟩
    by_cases hsource : s.writeSources c = true
    · obtain ⟨k, h, -⟩ := (hs.write_iff c).mp hsource
      rw [step, if_pos hsource]
      exact clientHandleWritable_moves hs h mask res
    · refine ⟨[], s, ?_, .nil, by simp⟩
      rw [step, if_neg hsource]
  | signal ev json =>
    refine ⟨fun _ => ?_, fun h => absurd trivial h⟩
    obtain ⟨s', heq, hvisits⟩ := signalEvent_visits (W := W) hs ev json
    obtain ⟨es, hmoves, hes⟩ := hvisits.outputs
    exact ⟨es, s', heq, hmoves, hes⟩

/-- A step that succeeds is a sequence of moves. -/
theorem step_moves (hs : s.Inv) {i : Input} (h : step W s i = .ok s') :
    ∃ es, Moves W s es s' ∧ ∀ e ∈ es, i.Allows e := by
  by_cases hsafe : SafeStep W s i
  · obtain ⟨es, s₁, heq, hmoves, hes⟩ := (step_spec hs i).1 hsafe
    cases heq.symm.trans h
    exact ⟨es, hmoves, hes⟩
  · obtain ⟨c, mask, calls, A, rfl, heq⟩ := (step_spec hs i).2 hsafe
    cases heq.symm.trans h

theorem step_inv (hs : s.Inv) {i : Input} (h : step W s i = .ok s') : s'.Inv := by
  obtain ⟨es, hmoves, -⟩ := step_moves hs h
  exact hmoves.inv hs

/-- A reachable state is reached by moves. -/
theorem Reachable.moves (h : Reachable W s) : ∃ es, Moves W init es s := by
  obtain ⟨is, hrun⟩ := h
  refine (Machine.run_invariant (step W) (I := fun s => s.Inv ∧ ∃ es, Moves W init es s) ?_
    ⟨inv_init, [], .nil⟩ hrun).2
  rintro s i s' ⟨hs, es, hmoves⟩ hstep
  obtain ⟨es', hmoves', -⟩ := step_moves hs hstep
  exact ⟨hmoves'.inv hs, es ++ es', hmoves.append hmoves'⟩

theorem Reachable.inv (h : Reachable W s) : s.Inv := by
  obtain ⟨es, hmoves⟩ := h.moves
  exact hmoves.inv inv_init

/-- What holds of a fresh client and is preserved by every change of the kind `Q` holds of every
client that has connected. -/
theorem Moves.view_invariant {c : ℕ} {P : View → Prop} {Q : Effect → Prop} {es : List Effect}
    (h : Moves W init es s) (hes : ∀ e ∈ es, Q e) (hfresh : P .fresh)
    (hmove : ∀ v e v', Q e → P v → LocalMove W c v e v' → P v') (hlt : c < s.nextClient) :
    P (s.view c) := by
  refine (h.invariant (P := fun s => s.Inv ∧ (c < s.nextClient → P (s.view c))) (Q := Q) ?_ hes
    ⟨inv_init, by simp [init]⟩).2 hlt
  rintro s e s' hQ ⟨hs, hP⟩ hm
  refine ⟨hm.inv hs, fun hlt' => ?_⟩
  by_cases hlt : c < s.nextClient
  · exact hmove _ e _ hQ (hP hlt) (hm.view hlt)
  · cases hm with
    | connect =>
      have hc : c = s.nextClient := Nat.le_antisymm (Nat.le_of_lt_succ hlt') (not_lt.mp hlt)
      rw [hc, view_handleConnection hs]
      exact hfresh
    | enqueue | refuse | drop | setMask | serve | arrive | header | badHeader | payload | bare
    | write | release => exact absurd hlt' hlt

/-- The only fault of a run is the use of a deleted client: no callback writes out of bounds and
none fails to end. -/
theorem run_fault {is : List Input} {f : Fault} (hs : s.Inv)
    (h : Machine.run (step W) s is = .error f) : ∃ c, f = .useAfterDelete c := by
  refine Machine.run_error_of (step W) (I := Inv) (F := fun f => ∃ c, f = .useAfterDelete c)
    (fun s i s' hs h => step_inv hs h) (fun s i f hs h => ?_) hs h
  by_cases hsafe : SafeStep W s i
  · obtain ⟨es, s', hs', -⟩ := (step_spec hs i).1 hsafe
    cases hs'.symm.trans h
  · obtain ⟨c, mask, calls, A, rfl, hc⟩ := (step_spec hs i).2 hsafe
    exact ⟨c, Except.error.inj (h.symm.trans hc)⟩

/-- An environment in which every `realloc` succeeds. -/
def plainWorld : World where
  reallocOk := fun _ _ => true
  stringToJson := fun _ => .null
  jsonToString := Json.text

/-- The state after inputs whose run succeeds. -/
def after (W : World) (es : List Input) : Server := Machine.final (step W) init es

lemma reachable_after (W : World) (es : List Input) : Reachable W (after W es) := by
  rw [after, Machine.final]
  cases h : Machine.run (step W) init es with
  | ok s => exact ⟨es, h⟩
  | error f => exact ⟨[], rfl⟩

end Server

end WayfireIpc
