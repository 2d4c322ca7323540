/-
# The lifetime of clients

When a run of the server is free of reads and writes of deleted clients: exactly when each
request that it hands over is safe.  A client that is subscribed to ticks and whose
buffer is almost full shows that not every run is.
-/
import WayfireIpc.Server.Steps

namespace WayfireIpc

namespace Server

/-- A run of the server touches no deleted client if and only if every step is safe in the
state in which it is taken. -/
theorem never_useAfterDelete_iff (W : World) (es : List Input) :
    (∀ c, Machine.run (step W) init es ≠ .error (.useAfterDelete c)) ↔
      Machine.AllSteps (step W) (SafeStep W) init es := by
  have hok := Machine.run_ok_iff_allSteps (step W) (I := Inv) (P := SafeStep W)
    (fun s i s' hs h => step_inv hs h)
    (fun s i hs => by
      constructor
      · rintro ⟨s', h⟩
        by_contra hsafe
        obtain ⟨c, mask, calls, A, rfl, hc⟩ := (step_spec hs i).2 hsafe
        cases hc.symm.trans h
      · intro hsafe
        obtain ⟨es, s', h, -⟩ := (step_spec hs i).1 hsafe
        exact ⟨s', h⟩)
    inv_init es
  rw [← hok]
  constructor
  · intro hnever
    cases hrun : Machine.run (step W) init es with
    | ok s' => exact ⟨s', rfl⟩
    | error f =>
      obtain ⟨c, rfl⟩ := run_fault inv_init hrun
      exact absurd hrun (hnever c)
  · rintro ⟨s', h⟩ c hc
    cases h.symm.trans hc

/-! ## A tick on a full buffer -/

/-- A JSON library for the run below, in which only `["tick"]` is read. -/
def tickWorld : World where
  reallocOk := fun _ _ => true
  stringToJson := fun _ => .arr [.str "tick"]
  jsonToString := Json.text

/-- A tree with a long name. -/
def longTree (n : ℕ) : Json := .obj [("name", .str (String.ofList (List.replicate n 'a')))]

lemma length_quoted_replicate (n : ℕ) :
    (Json.quoted (String.ofList (List.replicate n 'a'))).length = n + 2 := by
  have hletter : Json.escapeByte 'a'.toUInt8 = ['a'.toUInt8] := by decide
  have hquote : (ascii "\"").length = 1 := by decide
  have hbody : ((ascii (String.ofList (List.replicate n 'a'))).flatMap Json.escapeByte).length = n := by
    rw [ascii, String.toList_ofList, List.map_replicate, List.flatMap_replicate, hletter,
      List.length_flatten, List.map_replicate, List.sum_replicate]
    simp
  rw [Json.quoted, List.length_append, List.length_append, hbody, hquote]
  omega

/-- Sixteen bytes of its text are not the name. -/
lemma length_text_longTree (n : ℕ) : (longTree n).text.length = n + 16 := by
  have hopen : (ascii "\x7b" ++ (Json.newLine 1 ++ (Json.quoted "name" ++ ascii ": "))).length = 12 := by
    decide
  have hclose : (Json.newLine 0 ++ ascii "\x7d").length = 2 := by decide
  have htext : (longTree n).text
      = (ascii "\x7b" ++ (Json.newLine 1 ++ (Json.quoted "name" ++ ascii ": ")))
        ++ Json.quoted (String.ofList (List.replicate n 'a')) ++ (Json.newLine 0 ++ ascii "\x7d") := by
    simp [longTree, Json.text, Json.writeString, Json.styled, Json.styledMembers, Json.styledMember,
      Json.comma]
  rw [htext, List.length_append, List.length_append, hopen, hclose, length_quoted_replicate]
  omega

/-- The compositor answers every query with the same tree. -/
def tickAnswers : Answers where
  describe := fun _ => longTree 2097000
  executeCommand := fun _ => ([], .arr [])

/-- No system call of a callback fails. -/
def readAll (c : ℕ) (A : Answers) : Input := .readable c ⟨false, false⟩ ⟨true, true, true⟩ A

/-- A client subscribes to ticks, asks for the tree, reads none of the replies and sends a
tick. -/
def tickRun : List Input :=
  [.connection true,
    .arrive 0 (Frame.encode ⟨2, ascii "[\"tick\"]"⟩), readAll 0 tickAnswers,
    .arrive 0 (Frame.encode ⟨4, []⟩), readAll 0 tickAnswers,
    .arrive 0 (Frame.encode ⟨10, []⟩), readAll 0 tickAnswers]

/-- The run of the inputs ends in a state in which the client has a record with the given
property. -/
def endsWith (W : World) (es : List Input) (c : ℕ) (p : Server → I3IpcClient → Prop)
    [∀ s k, Decidable (p s k)] : Bool :=
  match Machine.run (step W) init es with
  | .ok s => (s.heap c).any fun k => p s k
  | .error _ => false

lemma endsWith_iff {W : World} {es : List Input} {c : ℕ} {p : Server → I3IpcClient → Prop}
    [∀ s k, Decidable (p s k)] :
    endsWith W es c p = true ↔
      ∃ s k, Machine.run (step W) init es = .ok s ∧ s.heap c = some k ∧ p s k := by
  rw [endsWith]
  cases Machine.run (step W) init es with
  | error f => simp
  | ok s => cases h : s.heap c <;> simp [h]

lemma tickRun_subscribed : endsWith tickWorld (tickRun.take 4) 0 (fun s k =>
    s.ipcClientList = [0] ∧ s.unread 0 = Frame.encode ⟨4, []⟩ ∧ k.writeBufferLen = 81 ∧
      k.subscribedEvents = eventMask .tick ∧ k.pendingLength = 0) = true := by
  decide +kernel

/-- A readable callback of a client that has read everything, when one message has arrived. -/
lemma step_readAll {W : World} {s : Server} {c : ℕ} {k : I3IpcClient} {f : Frame} {A : Answers}
    (hs : s.Inv) (h : s.heap c = some k) (hidle : k.pendingLength = 0)
    (hunread : s.unread c = f.encode) (hf : f.Fits) (hint : f.encode.length < 2 ^ 31) :
    HandsOver s c k ⟨false, false⟩ ⟨true, true, true⟩ f ∧
      ∃ s₁ k₁, s₁.Inv ∧ s₁.heap c = some k₁ ∧ HandedOver s c k f s₁ k₁ ∧
        step W s (readAll c A) = handlePayload W A s₁ c f.type f.payload := by
  have hnext : k.nextRequest (s.unread c) = some f := by
    have := nextRequest_encode hidle hf [] (by simpa using hint)
    rwa [List.append_nil, ← hunread] at this
  have hhands : HandsOver s c k ⟨false, false⟩ ⟨true, true, true⟩ f :=
    ⟨rfl, rfl, rfl, fun _ => rfl, fun _ => rfl, hnext⟩
  refine ⟨hhands, ?_⟩
  rw [readAll, step, if_pos ((hs.read_iff c).mpr ⟨k, h⟩)]
  rcases clientHandleReadable_cases (W := W) h A ⟨false, false⟩ ⟨true, true, true⟩ with
    ⟨f', es, s₁, k₁, hhands', hmoves, -, h₁, hover, heq⟩ | ⟨hnone, -⟩
  · obtain rfl : f = f' := Option.some.inj (hnext.symm.trans hhands'.2.2.2.2.2)
    exact ⟨s₁, k₁, hmoves.inv hs, h₁, hover, heq⟩
  · exact absurd hhands (hnone f)

/-- In this run the reply to the tick is sent to a client that `send_tick` has deleted. -/
theorem tickRun_useAfterDelete :
    Machine.run (step tickWorld) init tickRun = .error (.useAfterDelete 0) := by
  obtain ⟨s, k, hrun, h, hlist, hunread, hlen, hmask, hidle⟩ :=
    endsWith_iff.mp tickRun_subscribed
  have hs : s.Inv := Reachable.inv ⟨_, hrun⟩
  -- the description of the tree fills the buffer
  obtain ⟨-, s₁, k₁, hs₁, h₁, hover, hstep⟩ := step_readAll (W := tickWorld) (A := tickAnswers) hs
    h hidle hunread (by decide) (by decide)
  have hacc : k₁.Accepts tickWorld 0 ((longTree 2097000).text.length % 2 ^ 32) := by
    refine ⟨?_, rfl⟩
    rw [hover.len_eq, hlen, length_text_longTree, ipcHeaderSize]
    norm_num
  obtain ⟨k₂, hk₂, hsend⟩ := sendReply_accepted (t := 4) h₁ (hs₁.wf 0 k₁ h₁) hacc
  have htree : step tickWorld s (readAll 0 tickAnswers)
      = .ok (s₁.enqueued 0 k₁ k₂ (replyFrame 4 (longTree 2097000).text)) := by
    rw [hstep]
    change (sendReply tickWorld s₁ 0 4 (longTree 2097000).text >>= _) = _
    rw [hsend]
    rfl
  set s₂ := s₁.enqueued 0 k₁ k₂ (replyFrame 4 (longTree 2097000).text) with hs₂def
  have hs₂ : s₂.Inv := step_inv hs htree
  have h₂ : s₂.heap 0 = some k₂ := enqueued_heap
  -- then the tick arrives
  have harrive : step tickWorld s₂ (.arrive 0 (Frame.encode ⟨10, []⟩))
      = .ok (s₂.arrived 0 (Frame.encode ⟨10, []⟩)) := by
    rw [step, if_pos ⟨k₂, h₂⟩]
    rfl
  set s₃ := s₂.arrived 0 (Frame.encode ⟨10, []⟩) with hs₃def
  have hs₃ : s₃.Inv := step_inv hs₂ harrive
  have h₃ : s₃.heap 0 = some k₂ := h₂
  have hunread₁ : s₁.unread 0 = [] := by
    rw [hover.unread_eq, hunread, if_pos hidle]
    rfl
  have hunread₃ : s₃.unread 0 = Frame.encode ⟨10, []⟩ := by
    have : s₃.unread 0 = s₂.unread 0 ++ Frame.encode ⟨10, []⟩ := arrived_unread
    rw [this]
    change s₁.unread 0 ++ _ = _
    rw [hunread₁, List.nil_append]
  have hidle₂ : k₂.pendingLength = 0 := hk₂.pendingLength_eq.trans hover.idle
  obtain ⟨hhands, -⟩ := step_readAll (W := tickWorld) (A := tickAnswers) hs₃ h₃ hidle₂ hunread₃
    (by decide) (by decide)
  have hunsafe : ¬ SafeStep tickWorld s₃ (readAll 0 tickAnswers) := by
    intro hsafe
    have houtlasts : k₂.Outlasts tickWorld 0 (decide (0 ∈ s₃.ipcClientList))
        [.event .tick (tickWorld.jsonToString (tickMessage false []))] :=
      hsafe k₂ _ h₃ hhands
    have hlist₃ : s₃.ipcClientList = [0] := hover.list_eq.trans hlist
    have hsub : k₂.Subscribed .tick := by
      rw [I3IpcClient.Subscribed, hk₂.subscribed_eq, hover.mask_eq, hmask]
      decide
    rw [I3IpcClient.Outlasts, if_pos ⟨by simp [hlist₃], hsub⟩] at houtlasts
    have hroom := houtlasts.1.1
    have hevent : eventLength (tickWorld.jsonToString (tickMessage false [])) = 37 := by
      decide +kernel
    rw [hk₂.len_eq, hover.len_eq, hlen, length_replyFrame, length_text_longTree, hevent,
      ipcHeaderSize] at hroom
    norm_num at hroom
  obtain ⟨c, mask, calls, A, heq, hfault⟩ := (step_spec (W := tickWorld) hs₃ _).2 hunsafe
  cases heq
  have hsplit : tickRun = tickRun.take 4 ++ [readAll 0 tickAnswers,
    .arrive 0 (Frame.encode ⟨10, []⟩), readAll 0 tickAnswers] := rfl
  rw [hsplit, Machine.run_append, hrun]
  simp only [Machine.ok_bind, Machine.run_cons, htree, harrive, hfault, Machine.error_bind]

end Server

end WayfireIpc
