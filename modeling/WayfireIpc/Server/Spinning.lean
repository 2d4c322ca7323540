/-
# How often the event loop calls the readable handler

The event loop is level-triggered: it calls the handler of a client again and again while
unread bytes are left.  A call that takes bytes or disconnects the client makes progress; a call
that waits for more bytes leaves everything as it is, and so does the next one.
-/
import WayfireIpc.Server.Reading

namespace WayfireIpc

namespace Server

/-- The event loop has a reason to call the readable handler of the client: its event source is
registered and its socket has unread bytes. -/
def Wanted (s : Server) (c : ℕ) : Prop := s.readSources c = true ∧ s.unread c ≠ []

/-- No bytes arrive for the client, no error or hangup is reported for it, and its readable
handler is called only when the event loop has a reason to. -/
def Quiet (c : ℕ) (s : Server) : Input → Prop
  | .arrive c' _ => c' ≠ c
  | .readable c' mask _ _ => c' = c → mask.error = false ∧ mask.hangup = false ∧ s.Wanted c
  | .writable c' mask _ => c' = c → mask.error = false ∧ mask.hangup = false
  | _ => True

/-- A quiet run, with whatever else happens to the server in between. -/
def QuietRun (W : World) (c : ℕ) (s : Server) (es : List Input) (s' : Server) : Prop :=
  Machine.AllSteps (step W) (Quiet c) s es ∧ Machine.run (step W) s es = .ok s'

/-- Only finitely many calls of the readable handler can happen in a quiet run. -/
def FinitelyCalled (W : World) (s : Server) (c : ℕ) : Prop :=
  ∃ n, ∀ es s', QuietRun W c s es s' → es.countP (Input.isReadOf c) ≤ n

/-- The client has unread bytes, but fewer than its handler waits for: the pending payload, or
else a header. -/
def Waiting (s : Server) (c : ℕ) : Prop :=
  ∃ k, s.heap c = some k ∧ s.unread c ≠ [] ∧
    if 0 < k.pendingLength then available (s.unread c) % 2 ^ 32 < k.pendingLength
    else available (s.unread c) < ipcHeaderSize

/-- What is left to do for a client: its unread bytes, and its disconnection. -/
def View.potential (v : View) : ℕ := v.unread.length + if v.record.isSome then 1 else 0

variable {W : World} {s s' s₁ : Server} {c : ℕ} {k : I3IpcClient}

/-! ## What the moves do to the potential -/

/-- Reading from a client and disconnecting it are progress. -/
lemma LocalMove.potential_lt {v v' : View} {e : Effect} (hm : LocalMove W c v e v')
    (he : e = .read c ∨ e = .drop c) : v'.potential < v.potential := by
  have hsize : ipcHeaderSize = 14 := rfl
  cases hm with
  | skip hskip => rcases he with rfl | rfl <;> simp at hskip
  | enqueue | refuse | setMask | arrive | write => simp at he
  | drop h => simp [View.potential, h]
  | header h _ hunread hlen | badHeader h _ hunread hlen | bare h _ hunread hlen =>
    simp only [View.potential, hunread, List.length_append, hlen, h, Option.isSome_some,
      Option.isSome_none, if_true, Bool.false_eq_true, if_false]
    omega
  | payload h hpos hunread hlen =>
    simp only [View.potential, hunread, List.length_append, hlen, h, Option.isSome_some, if_true]
    omega

lemma LocalMove.potential_le {v v' : View} {e : Effect} (hm : LocalMove W c v e v')
    (he : e ≠ .arrive c) : v'.potential ≤ v.potential := by
  by_cases hprogress : e = .read c ∨ e = .drop c
  · exact (hm.potential_lt hprogress).le
  · cases hm with
    | skip => exact le_rfl
    | arrive => exact absurd rfl he
    | enqueue h | refuse h | setMask h | write h => simp [View.potential, h]
    | drop => exact absurd (Or.inr rfl) hprogress
    | header | badHeader | payload | bare => exact absurd (Or.inl rfl) hprogress

lemma Moves.potential_le {effs : List Effect} (h : Moves W s effs s') (hlt : c < s.nextClient)
    (heffs : ∀ e ∈ effs, e ≠ .arrive c) : (s'.view c).potential ≤ (s.view c).potential := by
  induction h with
  | nil => exact le_rfl
  | @cons s s₁ s₂ e es hm _ ih =>
    exact (ih (hlt.trans_le hm.nextClient_le) fun e he => heffs e (List.mem_cons_of_mem _ he)).trans
      ((hm.view hlt).potential_le (heffs e List.mem_cons_self))

/-- A sequence of moves that begins with progress. -/
lemma Moves.potential_lt {e : Effect} {effs : List Effect} (h : Moves W s (e :: effs) s')
    (hlt : c < s.nextClient) (he : e = .read c ∨ e = .drop c)
    (heffs : ∀ e ∈ effs, e ≠ .arrive c) : (s'.view c).potential < (s.view c).potential := by
  cases h with
  | cons hm hrest =>
    exact (hrest.potential_le (hlt.trans_le hm.nextClient_le) heffs).trans_lt
      ((hm.view hlt).potential_lt he)

/-! ## One call -/

/-- The call ends after moves of which the first is progress. -/
def Progresses (W : World) (s : Server) (c : ℕ) (x : Except Fault Server) : Prop :=
  ∀ s', x = .ok s' → ∃ e effs, Moves W s (e :: effs) s' ∧ (e = .read c ∨ e = .drop c) ∧
    ∀ e ∈ effs, e ≠ .arrive c

lemma progresses_drop (h : s.heap c = some k) : Progresses W s c (.ok (s.drop c k)) := by
  rintro s' ⟨⟩
  exact ⟨_, [], .one (.drop h), Or.inr rfl, by simp⟩

/-- A request is handled after it has been read. -/
lemma progresses_handlePayload {t : UInt32} {payload : Buf} {A : Answers}
    (hs : s.Inv) (hm : Move W s (.read c) s₁) (h : s₁.heap c = some k) :
    Progresses W s c (handlePayload W A s₁ c t payload) := by
  intro s' heq
  obtain ⟨effs, hmoves, hout⟩ :=
    (handlePayload_returns (hm.inv hs) h A ⟨t, payload⟩).outputs heq
  refine ⟨_, effs, .cons hm hmoves, Or.inl rfl, fun e he => ?_⟩
  rintro rfl
  exact hout _ he

/-- The pending request is read, or the client is disconnected. -/
lemma progresses_pending (hs : s.Inv) (h : s.heap c = some k) (hpos : 0 < k.pendingLength)
    (hlen : k.pendingLength ≤ (s.unread c).length) (A : Answers) (calls : ReadCalls) :
    Progresses W s c (dispatchPending W A calls s c k) := by
  rw [dispatchPending_payload hpos hlen]
  by_cases hpay : calls.payloadOk = true
  · rw [if_pos hpay]
    exact progresses_handlePayload hs (.payload h hpos hlen) (Function.update_self _ _ _)
  · rw [if_neg hpay]
    exact progresses_drop h

/-- A call that follows a header that has been read. -/
lemma Progresses.of_read {x : Except Fault Server} (hm : Move W s (.read c) s₁)
    (hx : Progresses W s₁ c x) : Progresses W s c x := by
  intro s' heq
  obtain ⟨e, effs, hmoves, he, heffs⟩ := hx s' heq
  refine ⟨_, e :: effs, .cons hm hmoves, Or.inl rfl, fun e' he' => ?_⟩
  rcases List.mem_cons.mp he' with rfl | he'
  · rcases he with rfl | rfl <;> simp
  · exact heffs e' he'

/-- A call that does not wait makes progress. -/
theorem clientHandleReadable_progresses (hs : s.Inv) (h : s.heap c = some k)
    (hunread : s.unread c ≠ []) (hwait : ¬ s.Waiting c) {mask : EventMask}
    (herror : mask.error = false) (hhangup : mask.hangup = false) (calls : ReadCalls)
    (A : Answers) : Progresses W s c (clientHandleReadable W A s c mask calls) := by
  by_cases hioctl : calls.ioctlOk = true
  swap
  · rw [clientHandleReadable, if_neg (by simp [herror]), if_neg (by simp [hhangup]),
      deref_of_some h, Machine.ok_bind, if_pos (by simpa using hioctl), clientDisconnect_eq h]
    exact progresses_drop h
  rw [clientHandleReadable_eq h herror hhangup hioctl]
  have hle := available_le (s.unread c)
  have hle' := available_emod_le (s.unread c)
  by_cases hpos : 0 < k.pendingLength
  · -- the whole payload has arrived, or the client would wait
    have harrived : ¬ available (s.unread c) % 2 ^ 32 < k.pendingLength := fun hlt =>
      hwait ⟨k, h, hunread, by rwa [if_pos hpos]⟩
    rw [if_pos hpos, if_pos (not_lt.mp harrived)]
    exact progresses_pending hs h hpos (by omega) A calls
  have hidle : k.pendingLength = 0 := by omega
  -- so has the header
  have hlong : ¬ available (s.unread c) < ipcHeaderSize := fun hlt =>
    hwait ⟨k, h, hunread, by rwa [if_neg hpos]⟩
  have hlen : ipcHeaderSize ≤ (s.unread c).length := by omega
  have hheader : (s.nextHeader c).length = ipcHeaderSize := List.length_take_of_le hlen
  rw [if_neg hpos, if_neg hlong]
  split_ifs with hok hmagic hfits
  · exact progresses_drop h
  · rintro s' ⟨⟩
    -- the bad header is read and the client dropped
    exact ⟨_, [], .one (.badHeader h hidle hlen hmagic), Or.inl rfl, by simp⟩
  · have hmagic' : (s.nextHeader c).take 6 = ipcMagic := not_not.mp hmagic
    rcases Nat.eq_zero_or_pos (headerLength (s.nextHeader c)) with hzero | hpayload
    · -- a header without a payload is a whole request
      simp only
      rw [dispatchPending_bare (by exact hzero)]
      have hread : (s.readTo c (k.expecting (s.nextHeader c)) ipcHeaderSize
            [.received c (s.nextHeader c)]).readTo c (k.expecting (s.nextHeader c)).idle 0
            [.dispatched c ⟨(k.expecting (s.nextHeader c)).pendingType, []⟩]
          = s.readTo c (k.expecting (s.nextHeader c)).idle ipcHeaderSize
            [.received c (s.nextHeader c), .dispatched c ⟨headerType (s.nextHeader c), []⟩] := by
        simp [readTo, I3IpcClient.expecting, I3IpcClient.idle]
      rw [hread]
      exact progresses_handlePayload hs (.bare h hidle hlen hmagic' hzero)
        (Function.update_self _ _ _)
    · have hm := Move.header (W := W) h hidle hlen hmagic' hpayload
      refine .of_read hm (progresses_pending (hm.inv hs) (Function.update_self _ _ _) hpayload ?_ A
        calls)
      rw [readTo_unread, List.length_drop]
      rw [hheader] at hfits
      change headerLength (s.nextHeader c) ≤ _
      omega
  · -- the header is kept until its payload has arrived
    have hpayload : 0 < headerLength (s.nextHeader c) := by
      rw [hheader] at hfits
      omega
    rintro s' ⟨⟩
    exact ⟨_, [], .one (.header h hidle hlen (not_not.mp hmagic) hpayload), Or.inl rfl, by simp⟩

/-- A call that waits changes nothing. -/
lemma Waiting.call (h : s.Waiting c) {mask : EventMask} (herror : mask.error = false)
    (hhangup : mask.hangup = false) {calls : ReadCalls} (hioctl : calls.ioctlOk = true)
    (A : Answers) : clientHandleReadable W A s c mask calls = .ok s := by
  obtain ⟨k, hk, -, hshort⟩ := h
  rw [clientHandleReadable_eq hk herror hhangup hioctl]
  by_cases hpos : 0 < k.pendingLength
  · rw [if_pos hpos] at hshort
    rw [if_pos hpos, if_neg (not_le.mpr hshort)]
  · rw [if_neg hpos] at hshort
    rw [if_neg hpos, if_pos hshort]

/-! ## Runs -/

/-- The effects of a quiet input. -/
lemma Quiet.allows {i : Input} (h : Quiet c s i) {e : Effect} (he : i.Allows e) :
    e ≠ .arrive c := by
  rintro rfl
  cases i with
  | arrive c' bs =>
    cases he
    exact h rfl
  | readable =>
    rcases he with he | ⟨he, -⟩ | he
    · cases he
    · cases he
    · exact he
  | writable =>
    rcases he with he | ⟨he, -⟩ <;> cases he
  | displayDestroy => rcases he with he | ⟨c, he⟩ <;> cases he
  | serve | connection => cases he
  | signal => exact he

/-- A step of a quiet run adds nothing to the potential. -/
lemma Quiet.potential_le {i : Input} (h : Quiet c s i) (hs : s.Inv) (hlt : c < s.nextClient)
    (hstep : step W s i = .ok s') :
    c < s'.nextClient ∧ (s'.view c).potential ≤ (s.view c).potential := by
  obtain ⟨effs, hmoves, hallows⟩ := step_moves hs hstep
  exact ⟨hlt.trans_le hmoves.nextClient_le,
    hmoves.potential_le hlt fun e he => h.allows (hallows e he)⟩

/-- A call in a quiet run that does not wait takes from the potential. -/
lemma Quiet.potential_lt {i : Input} (h : Quiet c s i) (hi : i.isReadOf c = true) (hs : s.Inv)
    (hlt : c < s.nextClient) (hwait : ¬ s.Waiting c) (hstep : step W s i = .ok s') :
    (s'.view c).potential < (s.view c).potential := by
  cases i with
  | readable c' mask calls A =>
    obtain rfl : c' = c := by simpa [Input.isReadOf] using hi
    obtain ⟨herror, hhangup, hsource, hunread⟩ := h rfl
    obtain ⟨k, hk⟩ := (hs.read_iff c').mp hsource
    rw [step, if_pos hsource] at hstep
    obtain ⟨e, effs, hmoves, he, heffs⟩ :=
      clientHandleReadable_progresses hs hk hunread hwait herror hhangup calls A s' hstep
    exact hmoves.potential_lt hlt he heffs
  | serve | displayDestroy | connection | arrive | writable | signal => simp [Input.isReadOf] at hi

/-- While the handler is never called on a client that waits, the potential bounds the number of
calls. -/
lemma QuietRun.count_le {es : List Input} (hs : s.Inv) (hlt : c < s.nextClient)
    (hrun : QuietRun W c s es s')
    (hwait : ∀ es' s₁, QuietRun W c s es' s₁ → ¬ s₁.Waiting c) :
    es.countP (Input.isReadOf c) ≤ (s.view c).potential := by
  induction es generalizing s with
  | nil => exact Nat.zero_le _
  | cons i es ih =>
    obtain ⟨⟨hquiet, hrest⟩, hrun⟩ := hrun
    obtain ⟨s₁, hstep, hrun⟩ := Machine.bind_ok_iff.mp hrun
    obtain ⟨hlt₁, hle⟩ := hquiet.potential_le hs hlt hstep
    have hcount := ih (step_inv hs hstep) hlt₁ ⟨hrest s₁ hstep, hrun⟩ fun es' s₂ hrun' =>
      hwait (i :: es') s₂ ⟨⟨hquiet, fun s₃ hs₃ => by
        cases hstep.symm.trans hs₃
        exact hrun'.1⟩, by rw [Machine.run_cons, hstep]; exact hrun'.2⟩
    rw [List.countP_cons]
    split_ifs with hi
    · have := hquiet.potential_lt hi hs hlt (hwait [] s ⟨trivial, rfl⟩) hstep
      omega
    · omega

/-- Any number of calls can follow while the client waits. -/
lemma Waiting.spins (h : s.Waiting c) (hs : s.Inv) (A : Answers) (n : ℕ) :
    QuietRun W c s (List.replicate n (.readable c ⟨false, false⟩ ⟨true, true, true⟩ A)) s := by
  obtain ⟨k, hk, hunread, -⟩ := id h
  have hsource : s.readSources c = true := (hs.read_iff c).mpr ⟨k, hk⟩
  have hstep : step W s (.readable c ⟨false, false⟩ ⟨true, true, true⟩ A) = .ok s := by
    rw [step, if_pos hsource]
    exact h.call rfl rfl rfl A
  induction n with
  | zero => exact ⟨trivial, rfl⟩
  | succ n ih =>
    refine ⟨⟨fun _ => ⟨rfl, rfl, hsource, hunread⟩, fun s₁ hs₁ => ?_⟩, ?_⟩
    · cases hstep.symm.trans hs₁
      exact ih.1
    · rw [List.replicate_succ, Machine.run_cons, hstep]
      exact ih.2

lemma QuietRun.append {es es' : List Input} (h : QuietRun W c s es s₁)
    (h' : QuietRun W c s₁ es' s') : QuietRun W c s (es ++ es') s' := by
  induction es generalizing s with
  | nil =>
    cases h.2
    exact h'
  | cons i es ih =>
    obtain ⟨⟨hquiet, hrest⟩, hrun⟩ := h
    obtain ⟨s₂, hstep, hrun⟩ := Machine.bind_ok_iff.mp hrun
    have hall := ih ⟨hrest s₂ hstep, hrun⟩
    refine ⟨⟨hquiet, fun s₃ hs₃ => ?_⟩, ?_⟩
    · cases hstep.symm.trans hs₃
      exact hall.1
    · rw [List.cons_append, Machine.run_cons, hstep]
      exact hall.2

/-- A run into a state in which the client waits can go on with any number of calls. -/
lemma Waiting.not_finitelyCalled {es : List Input} (h : s₁.Waiting c) (hs : s₁.Inv)
    (hrun : QuietRun W c s es s₁) : ¬ FinitelyCalled W s c := by
  rintro ⟨n, hn⟩
  have hspins := hn _ s₁
    (hrun.append (h.spins hs ⟨fun _ => .null, fun _ => ([], .null)⟩ (n + 1)))
  rw [List.countP_append, List.countP_replicate, if_pos (by simp [Input.isReadOf])] at hspins
  omega

lemma QuietRun.inv {es : List Input} (h : QuietRun W c s es s') (hs : s.Inv) : s'.Inv :=
  Machine.run_invariant (step W) (fun _ _ _ hs hstep => step_inv hs hstep) hs h.2

/-- The event loop comes to an end with a client exactly if no quiet run leads to a state in which
the client waits for bytes that do not arrive. -/
theorem finitelyCalled_iff (hs : Reachable W s) (hc : s.Live c) :
    FinitelyCalled W s c ↔ ∀ es s', QuietRun W c s es s' → ¬ s'.Waiting c := by
  constructor
  · intro hfinite es s' hrun hwait
    exact hwait.not_finitelyCalled (hrun.inv hs.inv) hrun hfinite
  · exact fun hwait => ⟨(s.view c).potential, fun es s' hrun =>
      hrun.count_le hs.inv (hs.inv.live_lt c hc) hwait⟩

/-- A client that has sent the first byte of a header. -/
def firstByte : Server := after plainWorld [.connection true, .arrive 0 (ipcMagic.take 1)]

/-- The event loop spins on the first byte of a header. -/
theorem firstByte_not_finitelyCalled : ¬ FinitelyCalled plainWorld firstByte 0 := by
  have hwait : firstByte.Waiting 0 := ⟨I3IpcClient.fresh, by rfl, by decide, by decide⟩
  have hrun : QuietRun plainWorld 0 firstByte [] firstByte := ⟨trivial, rfl⟩
  exact hwait.not_finitelyCalled (reachable_after _ _).inv hrun

theorem finitelyCalled_iff_firstByte : FinitelyCalled plainWorld firstByte 0 ↔
    ∀ es s', QuietRun plainWorld 0 firstByte es s' → ¬ s'.Waiting 0 :=
  finitelyCalled_iff (reachable_after _ _) ⟨I3IpcClient.fresh, by rfl⟩

end Server

end WayfireIpc
