/-
# The stream from a client

What the server makes of the bytes of a client, over any run in which no system call fails:
the requests it hands to the handler are, at each moment, the first of the messages that
the client has written, and once all of them have arrived, one further readable callback
for each message hands over the rest.
-/
import WayfireIpc.Server.Steps

namespace WayfireIpc

/-- The header of the pending request, as far as it has been taken from the stream. -/
def I3IpcClient.pendingHeader (k : I3IpcClient) : Buf :=
  if k.pendingLength = 0 then [] else encodeHeader k.pendingLength k.pendingType

namespace Server

/-! ## The accounting of the bytes of a client -/

/-- What has been read of a client that no callback has disconnected for an error. -/
structure Accounted (v : View) : Prop where
  bytes : v.received ++ v.unread = v.arrived
  fits : ∀ f ∈ v.dispatched, f.Fits
  pending_lt : ∀ k, v.record = some k → k.pendingLength < 2 ^ 32
  live : ∀ k, v.record = some k → v.received = encodeAll v.dispatched ++ k.pendingHeader
  gone : v.record = none → v.refused = [] →
    ∃ header, header.length = ipcHeaderSize ∧ header.take 6 ≠ ipcMagic ∧
      v.received = encodeAll v.dispatched ++ header
  front : ∃ rest, v.received = encodeAll v.dispatched ++ rest

variable {W : World} {s s' s₁ : Server} {c : ℕ} {k k' : I3IpcClient}

lemma Accounted.fresh : Accounted .fresh where
  bytes := rfl
  fits := by simp [View.fresh]
  pending_lt := fun k hk => by
    cases hk
    norm_num [I3IpcClient.fresh]
  live := fun k hk => by
    cases hk
    rfl
  gone := fun hk => by cases hk
  front := ⟨[], rfl⟩

/-- A change that reads nothing and keeps the client. -/
lemma Accounted.keep {v v' : View} (h : Accounted v) (hk : v.record = some k)
    (hk' : v'.record = some k') (hlen : k'.pendingLength = k.pendingLength)
    (htype : k'.pendingType = k.pendingType) (hbytes : v'.received ++ v'.unread = v'.arrived)
    (hreceived : v'.received = v.received) (hdispatched : v'.dispatched = v.dispatched) :
    Accounted v' where
  bytes := hbytes
  fits := hdispatched ▸ h.fits
  pending_lt := fun k₁ hk₁ => by
    cases hk'.symm.trans hk₁
    rw [hlen]
    exact h.pending_lt k hk
  live := fun k₁ hk₁ => by
    cases hk'.symm.trans hk₁
    rw [hreceived, hdispatched, h.live k hk, I3IpcClient.pendingHeader, I3IpcClient.pendingHeader,
      hlen, htype]
  gone := fun hnone => by cases hk'.symm.trans hnone
  front := by
    rw [hreceived, hdispatched]
    exact h.front

/-- A change that hands over the request `f`. -/
lemma Accounted.dispatch {v v' : View} {f : Frame} {read : Buf} (h : Accounted v)
    (hk : v.record = some k) (hk' : v'.record = some k') (hidle : k'.pendingLength = 0)
    (hf : f.Fits) (hread : k.pendingHeader ++ read = f.encode)
    (hunread : v.unread = read ++ v'.unread) (harrived : v'.arrived = v.arrived)
    (hreceived : v'.received = v.received ++ read)
    (hdispatched : v'.dispatched = v.dispatched ++ [f]) : Accounted v' := by
  have hall : v'.received = encodeAll v'.dispatched := by
    rw [hreceived, hdispatched, h.live k hk, encodeAll_append, encodeAll_cons, encodeAll_nil,
      List.append_nil, List.append_assoc, hread]
  refine ⟨?_, fun g hg => ?_, fun k₁ hk₁ => ?_, fun k₁ hk₁ => ?_, fun hnone => ?_, ⟨[], ?_⟩⟩
  · rw [hreceived, harrived, ← h.bytes, hunread, List.append_assoc]
  · rw [hdispatched] at hg
    rcases List.mem_append.mp hg with hg | hg
    · exact h.fits g hg
    · exact List.mem_singleton.mp hg ▸ hf
  · cases hk'.symm.trans hk₁
    rw [hidle]
    norm_num
  · cases hk'.symm.trans hk₁
    rw [hall, I3IpcClient.pendingHeader, if_pos hidle, List.append_nil]
  · cases hk'.symm.trans hnone
  · rw [hall, List.append_nil]

lemma Accounted.move {v v' : View} {e : Effect} (h : Accounted v) (he : e ≠ .drop c)
    (hm : LocalMove W c v e v') : Accounted v' := by
  cases hm with
  | skip => exact h
  | enqueue hk _ hk' =>
    exact h.keep hk rfl hk'.pendingLength_eq hk'.pendingType_eq h.bytes rfl rfl
  | refuse hk =>
    refine ⟨h.bytes, h.fits, fun k₁ hk₁ => (by cases hk₁), fun k₁ hk₁ => (by cases hk₁),
      fun _ hrefused => ?_, h.front⟩
    simp at hrefused
  | drop => exact absurd rfl he
  | setMask hk m => exact h.keep hk rfl rfl rfl h.bytes rfl rfl
  | arrive hk bs =>
    refine h.keep hk hk rfl rfl ?_ rfl rfl
    simp only
    rw [← List.append_assoc, h.bytes]
  | @header k header rest hk hidle hunread hlen hmagic hpos =>
    -- the header becomes the pending one
    have hlive := h.live k hk
    rw [I3IpcClient.pendingHeader, if_pos hidle, List.append_nil] at hlive
    refine ⟨?_, h.fits, fun k₁ hk₁ => ?_, fun k₁ hk₁ => ?_, fun hnone => (by cases hnone), ?_⟩
    · simp only
      rw [List.append_assoc, ← hunread, h.bytes]
    · cases hk₁
      exact headerLength_lt header
    · cases hk₁
      have hheader : (k.expecting header).pendingHeader = header := by
        rw [I3IpcClient.pendingHeader, if_neg (by exact hpos.ne')]
        exact encodeHeader_of_magic hlen hmagic
      simp only
      rw [hheader, hlive]
    · exact ⟨header, by simp only [hlive]⟩
  | @badHeader k header rest hk hidle hunread hlen hmagic =>
    -- the client is gone, and the bad header is the last thing that was read
    have hlive := h.live k hk
    rw [I3IpcClient.pendingHeader, if_pos hidle, List.append_nil] at hlive
    refine ⟨?_, h.fits, fun k₁ hk₁ => (by cases hk₁), fun k₁ hk₁ => (by cases hk₁),
      fun _ _ => ⟨header, hlen, hmagic, ?_⟩, ⟨header, ?_⟩⟩
    · simp only
      rw [List.append_assoc, ← hunread, h.bytes]
    · simp only [hlive]
    · simp only [hlive]
  | @payload k payload rest hk hpos hunread hlen =>
    -- the pending header and the payload are one message
    refine h.dispatch (f := ⟨k.pendingType, payload⟩) hk rfl rfl ?_ ?_ hunread rfl rfl rfl
    · change payload.length < 2 ^ 32
      rw [hlen]
      exact h.pending_lt k hk
    · rw [I3IpcClient.pendingHeader, if_neg hpos.ne', Frame.encode, hlen]
  | @bare k header rest hk hidle hunread hlen hmagic hzero =>
    -- the header is a whole message
    refine h.dispatch (f := ⟨headerType header, []⟩) hk rfl rfl ?_ ?_ hunread rfl rfl rfl
    · simp [Frame.Fits]
    · have hencode := encodeHeader_of_magic hlen hmagic
      rw [hzero] at hencode
      rw [I3IpcClient.pendingHeader, if_pos hidle, Frame.encode, List.nil_append,
        List.append_nil, List.length_nil, hencode]
  | write hk =>
    refine h.keep hk rfl ?_ ?_ h.bytes rfl rfl <;> rw [I3IpcClient.wrote] <;> split <;> rfl

/-! ## Runs without errors -/

/-- No system call fails for the client `c`, no error or hangup is reported for it, the display
lives on, and the number of unread bytes fits into an `int` when the client is readable. -/
def Calm (c : ℕ) (s : Server) : Input → Prop
  | .readable c' mask calls _ => c' = c → CleanRead mask calls ∧ (s.unread c).length < 2 ^ 31
  | .writable c' mask res => c' = c → mask.error = false ∧ mask.hangup = false ∧ res ≠ .failed
  | .displayDestroy => False
  | _ => True

instance (mask : EventMask) (calls : ReadCalls) : Decidable (CleanRead mask calls) :=
  inferInstanceAs (Decidable (_ ∧ _))

instance (c : ℕ) (s : Server) : ∀ i, Decidable (Calm c s i)
  | .readable _ _ _ _ => inferInstanceAs (Decidable (_ → _))
  | .writable _ _ _ => inferInstanceAs (Decidable (_ → _))
  | .displayDestroy => inferInstanceAs (Decidable False)
  | .serve | .connection _ | .arrive _ _ | .signal _ _ => inferInstanceAs (Decidable True)

lemma Calm.allows {i : Input} (h : Calm c s i) {e : Effect} (he : i.Allows e) : e ≠ .drop c := by
  rintro rfl
  cases i with
  | readable c' mask calls A =>
    rcases he with he | ⟨he, hclean⟩ | he
    · cases he
    · cases he
      exact hclean (h rfl).1
    · exact he
  | writable c' mask res =>
    rcases he with he | ⟨he, hbad⟩
    · cases he
    · cases he
      obtain ⟨herror, hhangup, hfailed⟩ := h rfl
      simp_all
  | displayDestroy => exact h
  | serve | connection | arrive => cases he
  | signal => exact he

/-- A calm run is a sequence of moves that do not disconnect the client for an error. -/
lemma calm_moves {es : List Input} (hs : s.Inv) (hcalm : Machine.AllSteps (step W) (Calm c) s es)
    (hrun : Machine.run (step W) s es = .ok s') :
    ∃ effs, Moves W s effs s' ∧ ∀ e ∈ effs, e ≠ .drop c := by
  induction es generalizing s with
  | nil =>
    cases hrun
    exact ⟨[], .nil, by simp⟩
  | cons i es ih =>
    obtain ⟨s₁, hstep, hrest⟩ := Machine.bind_ok_iff.mp hrun
    obtain ⟨effs, hmoves, hallows⟩ := step_moves hs hstep
    obtain ⟨effs', hmoves', hdrop⟩ := ih (hmoves.inv hs) (hcalm.2 s₁ hstep) hrest
    refine ⟨effs ++ effs', hmoves.append hmoves', fun e he => ?_⟩
    rcases List.mem_append.mp he with he | he
    · exact hcalm.1.allows (hallows e he)
    · exact hdrop e he

/-- The accounting after a calm run. -/
lemma calm_accounted {es : List Input}
    (hcalm : Machine.AllSteps (step W) (Calm c) init es)
    (hrun : Machine.run (step W) init es = .ok s) (hlt : c < s.nextClient) :
    s.Inv ∧ Accounted (s.view c) := by
  obtain ⟨effs, hmoves, hdrop⟩ := calm_moves inv_init hcalm hrun
  exact ⟨hmoves.inv inv_init, hmoves.view_invariant hdrop Accounted.fresh
    (fun _ _ _ he hv hm => hv.move he hm) hlt⟩

/-- What is still to come of the stream of a client whose messages are `fs`. -/
lemma Accounted.rest {v : View} (h : Accounted v) {fs : List Frame} {tail : Buf}
    (hfs : ∀ f ∈ fs, f.Fits) (htail : tail.take 6 ≠ ipcMagic)
    (harrived : v.arrived <+: encodeAll fs ++ tail) :
    ∃ gs, fs = v.dispatched ++ gs := by
  obtain ⟨rest, hrest⟩ := h.front
  have hpre : encodeAll v.dispatched <+: encodeAll fs ++ tail := by
    refine List.IsPrefix.trans ⟨rest ++ v.unread, ?_⟩ harrived
    rw [← h.bytes, hrest, List.append_assoc]
  obtain ⟨gs, hgs⟩ := messages_of_encodeAll h.fits hfs htail hpre
  exact ⟨gs, hgs.symm⟩

/-! ## Progress -/

/-- A client stays as it is for the reader: nothing is read, and it is disconnected only for a
message that has been refused. -/
structure Unread (v v' : View) : Prop where
  dispatched_eq : v'.dispatched = v.dispatched
  alive : ∀ k, v.record = some k → v'.refused = [] → ∃ k', v'.record = some k'
  dead : v.record = none → v'.record = none
  refused_grows : v.refused <+: v'.refused

lemma Unread.refl (v : View) : Unread v v :=
  ⟨rfl, fun k hk _ => ⟨k, hk⟩, id, List.prefix_rfl⟩

lemma Unread.trans {v v₁ v₂ : View} (h : Unread v v₁) (h' : Unread v₁ v₂) : Unread v v₂ where
  dispatched_eq := h'.dispatched_eq.trans h.dispatched_eq
  alive := fun k hk hrefused => by
    have hrefused₁ : v₁.refused = [] :=
      List.prefix_nil.mp (hrefused ▸ h'.refused_grows)
    obtain ⟨k₁, hk₁⟩ := h.alive k hk hrefused₁
    exact h'.alive k₁ hk₁ hrefused
  dead := fun hnone => h'.dead (h.dead hnone)
  refused_grows := h.refused_grows.trans h'.refused_grows

lemma LocalMove.unread {v v' : View} {e : Effect} (hm : LocalMove W c v e v') (hdrop : e ≠ .drop c)
    (hread : e ≠ .read c) : Unread v v' := by
  cases hm with
  | skip => exact .refl v
  | enqueue hk | setMask hk | arrive hk | write hk =>
    refine ⟨rfl, fun k₁ _ _ => ?_, fun hnone => ?_, List.prefix_rfl⟩
    · first | exact ⟨_, rfl⟩ | exact ⟨_, hk⟩
    · cases hk.symm.trans hnone
  | refuse hk =>
    refine ⟨rfl, fun k₁ _ hrefused => ?_, fun _ => rfl, List.prefix_append _ _⟩
    simp at hrefused
  | drop => exact absurd rfl hdrop
  | header | badHeader | payload | bare => exact absurd rfl hread

lemma Moves.unread {effs : List Effect} (h : Moves W s effs s') (hlt : c < s.nextClient)
    (heffs : ∀ e ∈ effs, e ≠ .drop c ∧ e ≠ .read c) : Unread (s.view c) (s'.view c) := by
  induction h with
  | nil => exact .refl _
  | @cons s s₁ s₂ e es hm _ ih =>
    obtain ⟨hdrop, hread⟩ := heffs e List.mem_cons_self
    exact ((hm.view hlt).unread hdrop hread).trans (ih (hlt.trans_le hm.nextClient_le)
      fun e he => heffs e (List.mem_cons_of_mem _ he))

/-- The next message of the stream is the request that the client hands over. -/
lemma Accounted.nextRequest {v : View} (h : Accounted v) (hk : v.record = some k)
    (hint : v.unread.length < 2 ^ 31) {g : Frame} (hg : g.Fits) (rest : Buf)
    (hstream : v.arrived = encodeAll v.dispatched ++ (g.encode ++ rest)) :
    k.nextRequest v.unread = some g := by
  have hpart : k.pendingHeader ++ v.unread = g.encode ++ rest := by
    have hbytes := h.bytes
    rw [h.live k hk, hstream, List.append_assoc] at hbytes
    exact List.append_cancel_left hbytes
  by_cases hidle : k.pendingLength = 0
  · rw [I3IpcClient.pendingHeader, if_pos hidle, List.nil_append] at hpart
    rw [hpart] at hint ⊢
    exact nextRequest_encode hidle hg rest hint
  · rw [I3IpcClient.pendingHeader, if_neg hidle, Frame.encode, List.append_assoc] at hpart
    obtain ⟨hheader, hunread⟩ := List.append_inj hpart (by simp)
    have hlen : k.pendingLength = g.payload.length := by
      rw [← headerLength_encodeHeader (h.pending_lt k hk) k.pendingType, hheader,
        headerLength_encodeHeader hg]
    have htype : k.pendingType = g.type := by
      rw [← headerType_encodeHeader k.pendingLength k.pendingType, hheader,
        headerType_encodeHeader]
    have hfits : (k.pendingLength : ℤ) ≤ available v.unread % 2 ^ 32 := by
      rw [available_eq hint, Int.emod_eq_of_lt (by omega) (by omega), hunread, hlen,
        List.length_append]
      omega
    rw [I3IpcClient.nextRequest, if_pos (Nat.pos_of_ne_zero hidle), if_pos hfits, htype, hlen,
      hunread, List.take_left]

/-- What is left of the stream of a client: the messages that have not been handed over, and the
disconnection that a bad header at its end leads to. -/
def left (fs : List Frame) (tail : Buf) (s : Server) (c : ℕ) : ℕ :=
  (fs.length - (dispatchedFor c s.log).length) + if tail ≠ [] ∧ s.Live c then 1 else 0

lemma left_of_live {fs : List Frame} {tail : Buf} (h : s.Live c) : left fs tail s c
    = (fs.length - (dispatchedFor c s.log).length) + if tail = [] then 0 else 1 := by
  by_cases ht : tail = [] <;> simp [left, h, ht]

lemma left_of_dead {fs : List Frame} {tail : Buf} (h : ¬ s.Live c) :
    left fs tail s c = fs.length - (dispatchedFor c s.log).length := by
  simp [left, h]

lemma left_le (fs : List Frame) (tail : Buf) (s : Server) (c : ℕ) : left fs tail s c
    ≤ (fs.length - (dispatchedFor c s.log).length) + if tail = [] then 0 else 1 := by
  by_cases h : s.Live c
  · rw [left_of_live h]
  · rw [left_of_dead h]
    omega

/-- The stream of a client: messages, and possibly a header with a wrong magic and whatever
follows it. -/
structure Stream (fs : List Frame) (tail : Buf) : Prop where
  fits : ∀ f ∈ fs, f.Fits
  tail : tail = [] ∨ ipcHeaderSize ≤ tail.length ∧ tail.take 6 ≠ ipcMagic

lemma Stream.tail_ne {fs : List Frame} {tail : Buf} (h : Stream fs tail) :
    tail.take 6 ≠ ipcMagic := by
  rcases h.tail with rfl | ⟨-, hmagic⟩
  · decide
  · exact hmagic

/-- What the log says about a client only grows. -/
lemma LocalMove.grows {v v' : View} {e : Effect} (hm : LocalMove W c v e v') :
    v.arrived <+: v'.arrived ∧ v.dispatched <+: v'.dispatched ∧ v.refused <+: v'.refused := by
  cases hm <;> exact ⟨by simp, by simp, by simp⟩

lemma Moves.grows {effs : List Effect} (h : Moves W s effs s') (hlt : c < s.nextClient) :
    (s.view c).arrived <+: (s'.view c).arrived ∧ (s.view c).dispatched <+: (s'.view c).dispatched ∧
      (s.view c).refused <+: (s'.view c).refused := by
  induction h with
  | nil => exact ⟨List.prefix_rfl, List.prefix_rfl, List.prefix_rfl⟩
  | @cons s s₁ s₂ e es hm _ ih =>
    obtain ⟨ha, hd, hr⟩ := (hm.view hlt).grows
    obtain ⟨ha', hd', hr'⟩ := ih (hlt.trans_le hm.nextClient_le)
    exact ⟨ha.trans ha', hd.trans hd', hr.trans hr'⟩

lemma Outputs.unread (h : Outputs W {c} s s') (hlt : c < s.nextClient) :
    Unread (s.view c) (s'.view c) := by
  obtain ⟨effs, hmoves, hout⟩ := h
  refine hmoves.unread hlt fun e he => ⟨?_, ?_⟩ <;> rintro rfl <;> exact hout _ he

/-- A readable callback that hands over a request. -/
lemma readable_dispatches (hs : s.Inv) (hk : s.heap c = some k) {mask : EventMask}
    {calls : ReadCalls} {A : Answers} {g : Frame} (hclean : CleanRead mask calls)
    (hnext : k.nextRequest (s.unread c) = some g)
    (hstep : clientHandleReadable W A s c mask calls = .ok s')
    (hrefused : refusedFor c s'.log = []) :
    dispatchedFor c s'.log = dispatchedFor c s.log ++ [g] ∧ s'.Live c := by
  obtain ⟨herror, hhangup, hioctl, hheader, hpayload⟩ := hclean
  have hhands : HandsOver s c k mask calls g :=
    ⟨herror, hhangup, hioctl, fun _ => hheader, fun _ => hpayload, hnext⟩
  rcases clientHandleReadable_cases (W := W) hk A mask calls with
    ⟨f, effs, s₁, k₁, hhands', hmoves, -, hk₁, hover, heq⟩ | ⟨hnone, -⟩
  · obtain rfl : g = f := Option.some.inj (hnext.symm.trans hhands'.2.2.2.2.2)
    rw [heq] at hstep
    have hs₁ := hmoves.inv hs
    have hunread := ((handlePayload_returns (W := W) hs₁ hk₁ A g).outputs hstep).unread
      (hs₁.live_lt c ⟨k₁, hk₁⟩)
    exact ⟨hunread.dispatched_eq.trans hover.dispatched_eq, hunread.alive k₁ hk₁ hrefused⟩
  · exact absurd hhands (hnone g)

/-- A readable callback that finds a header with a wrong magic. -/
lemma readable_badHeader (hk : s.heap c = some k) {mask : EventMask} {calls : ReadCalls}
    {A : Answers} (hclean : CleanRead mask calls) (hidle : k.pendingLength = 0)
    (hint : (s.unread c).length < 2 ^ 31) (hlen : ipcHeaderSize ≤ (s.unread c).length)
    (hmagic : (s.unread c).take 6 ≠ ipcMagic)
    (hstep : clientHandleReadable W A s c mask calls = .ok s') : ¬ s'.Live c := by
  obtain ⟨herror, hhangup, hioctl, hheader, -⟩ := hclean
  have hsize : ipcHeaderSize = 14 := rfl
  have htake : (s.nextHeader c).take 6 = (s.unread c).take 6 := by
    rw [nextHeader, List.take_take, hsize]
    rfl
  rw [clientHandleReadable_eq hk herror hhangup hioctl, if_neg (by omega),
    if_neg (by rw [available_eq hint]; omega), if_neg (by simp [hheader]),
    if_pos (by rwa [htake])] at hstep
  cases hstep
  simp [Live, drop]

/-- The input is a readable callback of the client. -/
def Input.isReadOf (c : ℕ) : Input → Bool
  | .readable c' _ _ _ => c' = c
  | _ => false

/-- What has arrived behind the messages, once all of them have. -/
lemma Stream.arrived_tail {fs : List Frame} {tail arrived : Buf} (h : Stream fs tail)
    (hfirst : encodeAll fs ++ tail.take ipcHeaderSize <+: arrived)
    (hall : arrived <+: encodeAll fs ++ tail) :
    ∃ t, arrived = encodeAll fs ++ t ∧
      (tail ≠ [] → ipcHeaderSize ≤ t.length ∧ t.take 6 ≠ ipcMagic) ∧ t <+: tail := by
  obtain ⟨x, hx⟩ := hfirst
  rw [List.append_assoc] at hx
  refine ⟨tail.take ipcHeaderSize ++ x, hx.symm, fun hne => ?_, ?_⟩
  · obtain ⟨hlen, hmagic⟩ := h.tail.resolve_left hne
    refine ⟨?_, ?_⟩
    · rw [List.length_append, List.length_take_of_le hlen]
      omega
    · rw [List.take_append_of_le_length (by rw [List.length_take_of_le hlen, ipcHeaderSize]; omega),
        List.take_take, ipcHeaderSize]
      exact hmagic
  · rw [← hx] at hall
    exact (List.prefix_append_right_inj _).mp hall

/-- A client that is gone, although no message was refused, has handed over all its messages. -/
lemma Accounted.gone_done {fs : List Frame} {tail : Buf} (hacc : Accounted (s.view c))
    (hstream : Stream fs tail) (hdead : ¬ s.Live c) (hrefused : refusedFor c s.log = [])
    (hpre : arrivedFor c s.log <+: encodeAll fs ++ tail) : fs = dispatchedFor c s.log := by
  obtain ⟨gs, hgs⟩ := hacc.rest hstream.fits hstream.tail_ne hpre
  obtain ⟨header, hlen, hmagic, hreceived⟩ := hacc.gone (not_live_iff.mp hdead) hrefused
  have hrest : header <+: encodeAll gs ++ tail := by
    have hbytes := hacc.bytes
    rw [hreceived, List.append_assoc] at hbytes
    have hall : (s.view c).arrived <+: encodeAll fs ++ tail := hpre
    rw [← hbytes, hgs, encodeAll_append, List.append_assoc] at hall
    exact (List.prefix_append _ _).trans ((List.prefix_append_right_inj _).mp hall)
  cases gs with
  | nil =>
    rw [List.append_nil] at hgs
    exact hgs
  | cons g gs =>
    refine absurd ?_ hmagic
    rw [encodeAll_cons, Frame.encode, List.append_assoc, List.append_assoc] at hrest
    have hheader : header = encodeHeader g.payload.length g.type := by
      obtain ⟨x, hx⟩ := hrest
      exact (List.append_inj hx (by rw [hlen, length_encodeHeader])).1
    rw [hheader, take_magic_encodeHeader]

lemma Input.eq_readable {i : Input} (h : i.isReadOf c = true) :
    ∃ mask calls A, i = .readable c mask calls A := by
  cases i with
  | readable c' mask calls A =>
    obtain rfl : c' = c := by simpa [Input.isReadOf] using h
    exact ⟨mask, calls, A, rfl⟩
  | serve | displayDestroy | connection | arrive | writable | signal => simp [Input.isReadOf] at h

/-- A step that does not read the client leaves what is left of its stream. -/
lemma left_step_of_not_read {fs : List Frame} {tail : Buf} {i : Input} (hs : s.Inv)
    (hlt : c < s.nextClient) (hcalm : Calm c s i) (hstep : step W s i = .ok s')
    (hread : ¬ i.isReadOf c = true) (hrefused : refusedFor c s'.log = []) :
    left fs tail s' c = left fs tail s c := by
  obtain ⟨effs, hmoves, hallows⟩ := step_moves hs hstep
  have hunread : Unread (s.view c) (s'.view c) := by
    refine hmoves.unread hlt fun e he => ⟨hcalm.allows (hallows e he), ?_⟩
    rintro rfl
    have hallow := hallows _ he
    cases i with
    | readable c' mask calls A =>
      simp [Input.Allows, Effect.Output] at hallow
      exact hread (by simp [Input.isReadOf, hallow])
    | displayDestroy => exact hcalm
    | serve | connection | arrive | writable | signal =>
      simp [Input.Allows, Effect.Output] at hallow
  have hlive : s'.Live c ↔ s.Live c := by
    constructor
    · intro h'
      by_contra hdead
      exact not_live_iff.mpr (hunread.dead (not_live_iff.mp hdead)) h'
    · rintro ⟨k, hk⟩
      exact hunread.alive k hk hrefused
  have hsame : dispatchedFor c s'.log = dispatchedFor c s.log := hunread.dispatched_eq
  rw [left, left, hsame]
  simp only [hlive]

/-- A readable callback hands over the next message of the client, or it disconnects the client for
the bad header behind its messages. -/
lemma left_step_of_live {fs gs : List Frame} {tail : Buf} {mask : EventMask} {calls : ReadCalls}
    {A : Answers} (hstream : Stream fs tail) (hs : s.Inv) (hacc : Accounted (s.view c))
    (hcalm : Calm c s (.readable c mask calls A)) (hk : s.heap c = some k)
    (hstep : clientHandleReadable W A s c mask calls = .ok s')
    (hfirst : encodeAll fs ++ tail.take ipcHeaderSize <+: arrivedFor c s.log)
    (hpre : arrivedFor c s.log <+: encodeAll fs ++ tail) (hrefused : refusedFor c s'.log = [])
    (hgs : fs = (s.view c).dispatched ++ gs)
    (hmono : (dispatchedFor c s.log).length ≤ (dispatchedFor c s'.log).length) :
    left fs tail s' c ≤ left fs tail s c - 1 := by
  obtain ⟨hclean, hint⟩ := hcalm rfl
  obtain ⟨t, ht, htail, htake⟩ := hstream.arrived_tail hfirst hpre
  have hlen : fs.length = (dispatchedFor c s.log).length + gs.length := by
    conv_lhs => rw [hgs]
    exact List.length_append
  rw [left_of_live (s := s) ⟨k, hk⟩]
  cases gs with
  | cons g gs =>
    -- the next message is handed over
    have hnext : k.nextRequest (s.unread c) = some g := by
      refine hacc.nextRequest hk hint (hstream.fits g ?_) (encodeAll gs ++ t) ?_
      · rw [hgs]
        simp
      · change arrivedFor c s.log = _
        rw [ht, hgs, encodeAll_append, encodeAll_cons, List.append_assoc, List.append_assoc]
    obtain ⟨hdisp, hlive'⟩ := readable_dispatches hs hk hclean hnext hstep hrefused
    rw [left_of_live hlive', hdisp]
    simp only [List.length_append, List.length_cons, List.length_nil] at hlen ⊢
    omega
  | nil =>
    rw [List.append_nil] at hgs
    by_cases hnil : tail = []
    · have hle := left_le fs tail s' c
      rw [if_pos hnil] at hle ⊢
      simp only [List.length_nil] at hlen
      omega
    · -- the bad header is read
      obtain ⟨htlen, htmagic⟩ := htail hnil
      have hpart : k.pendingHeader ++ s.unread c = t := by
        have hbytes := hacc.bytes
        rw [hacc.live k hk, ← hgs, List.append_assoc] at hbytes
        exact List.append_cancel_left (hbytes.trans ht)
      have hidle : k.pendingLength = 0 := by
        by_contra hpending
        rw [I3IpcClient.pendingHeader, if_neg hpending] at hpart
        rw [← hpart, encodeHeader] at htmagic
        simp [List.take_append] at htmagic
      rw [I3IpcClient.pendingHeader, if_pos hidle, List.nil_append] at hpart
      have hdead := readable_badHeader hk hclean hidle hint (hpart ▸ htlen) (hpart ▸ htmagic) hstep
      rw [left_of_dead hdead, if_neg hnil]
      simp only [List.length_nil] at hlen
      omega

/-- In a calm run in which the whole stream has arrived, a readable callback of the client leaves
less of it, and nothing leaves more. -/
lemma left_step {fs : List Frame} {tail : Buf} {i : Input} (hstream : Stream fs tail) (hs : s.Inv)
    (hlt : c < s.nextClient) (hacc : Accounted (s.view c)) (hcalm : Calm c s i)
    (hstep : step W s i = .ok s')
    (hfirst : encodeAll fs ++ tail.take ipcHeaderSize <+: arrivedFor c s.log)
    (hall : arrivedFor c s'.log <+: encodeAll fs ++ tail) (hrefused : refusedFor c s'.log = []) :
    left fs tail s' c ≤ left fs tail s c - (if i.isReadOf c then 1 else 0) := by
  by_cases hread : i.isReadOf c = true
  swap
  · rw [left_step_of_not_read hs hlt hcalm hstep hread hrefused, if_neg hread, Nat.sub_zero]
  rw [if_pos hread]
  obtain ⟨mask, calls, A, rfl⟩ := Input.eq_readable hread
  obtain ⟨effs, hmoves, -⟩ := step_moves hs hstep
  obtain ⟨harrived, hdispatched, -⟩ := hmoves.grows hlt
  have hpre : (s.view c).arrived <+: encodeAll fs ++ tail := harrived.trans hall
  by_cases hlive : s.Live c
  · obtain ⟨k, hk⟩ := hlive
    obtain ⟨gs, hgs⟩ := hacc.rest hstream.fits hstream.tail_ne hpre
    rw [step, if_pos ((hs.read_iff c).mpr ⟨k, hk⟩)] at hstep
    exact left_step_of_live hstream hs hacc hcalm hk hstep hfirst hpre hrefused hgs
      hdispatched.length_le
  · -- the client is gone, for the header at the end of its stream
    have hsource : s.readSources c = false := by
      rw [← Bool.not_eq_true]
      exact fun hsource => hlive ((hs.read_iff c).mp hsource)
    rw [step, hsource, if_neg (by simp)] at hstep
    cases hstep
    have hdone := hacc.gone_done hstream hlive hrefused hpre
    rw [left_of_dead hlive, ← hdone]
    omega

/-- The readable callbacks of a calm run work off the stream that has arrived. -/
lemma left_run {fs : List Frame} {tail : Buf} (hstream : Stream fs tail) {es : List Input}
    (hs : s.Inv) (hlt : c < s.nextClient) (hacc : Accounted (s.view c))
    (hcalm : Machine.AllSteps (step W) (Calm c) s es)
    (hrun : Machine.run (step W) s es = .ok s')
    (hfirst : encodeAll fs ++ tail.take ipcHeaderSize <+: arrivedFor c s.log)
    (hall : arrivedFor c s'.log <+: encodeAll fs ++ tail) (hrefused : refusedFor c s'.log = []) :
    left fs tail s' c ≤ left fs tail s c - es.countP (Input.isReadOf c) := by
  induction es generalizing s with
  | nil =>
    cases hrun
    simp
  | cons i es ih =>
    obtain ⟨s₁, hstep, hrest⟩ := Machine.bind_ok_iff.mp hrun
    obtain ⟨effs, hmoves, hallows⟩ := step_moves hs hstep
    have hs₁ := hmoves.inv hs
    have hlt₁ : c < s₁.nextClient := hlt.trans_le hmoves.nextClient_le
    have hcalm₁ := hcalm.2 s₁ hstep
    have hacc₁ : Accounted (s₁.view c) :=
      (hmoves.invariant (P := fun s => c < s.nextClient ∧ Accounted (s.view c))
        (fun s e s' he h hm => ⟨h.1.trans_le hm.nextClient_le, h.2.move he (hm.view h.1)⟩)
        (fun e he => hcalm.1.allows (hallows e he)) ⟨hlt, hacc⟩).2
    obtain ⟨effs', hmoves', -⟩ := calm_moves hs₁ hcalm₁ hrest
    obtain ⟨harrived', -, hrefused'⟩ := hmoves'.grows hlt₁
    have hstep_left := left_step hstream hs hlt hacc hcalm.1 hstep hfirst (harrived'.trans hall)
      (List.prefix_nil.mp (hrefused ▸ hrefused'))
    have hrest_left := ih hs₁ hlt₁ hacc₁ hcalm₁ hrest
      (hfirst.trans (hmoves.grows hlt).1)
    rw [List.countP_cons]
    omega

/-- Over a run in which no system call fails for the client, no error is reported for it, no
message for it is refused and its unread bytes fit into an `int`, for every stream of
messages that the client writes and every way in which it arrives:  at each moment the
requests handed over are the first of its messages, every byte read belongs to one of them
or to the next header, and no byte is lost or read twice;  once the messages have arrived,
and with them the bad header at their end if there is one, more readable callbacks than
there are messages hand over all of them, and the client is then disconnected exactly when
there is a bad header.  A run can only fail by the use of a deleted client. -/
theorem dispatched_of_calm_run {fs : List Frame} {tail : Buf} (hstream : Stream fs tail)
    {es es' : List Input} (hcalm : Machine.AllSteps (step W) (Calm c) init (es ++ es'))
    (hrun : Machine.run (step W) init es = .ok s) (hrun' : Machine.run (step W) s es' = .ok s')
    (hlt : c < s.nextClient) (hall : arrivedFor c s'.log <+: encodeAll fs ++ tail)
    (hrefused : refusedFor c s'.log = []) :
    (dispatchedFor c s'.log <+: fs ∧
      receivedFrom c s'.log ++ s'.unread c = arrivedFor c s'.log ∧
      ∀ k, s'.heap c = some k →
        receivedFrom c s'.log = encodeAll (dispatchedFor c s'.log) ++ k.pendingHeader) ∧
    (encodeAll fs ++ tail.take ipcHeaderSize <+: arrivedFor c s.log →
      fs.length < es'.countP (Input.isReadOf c) →
      dispatchedFor c s'.log = fs ∧ (s'.Live c ↔ tail = [])) ∧
    ∀ is f, Machine.run (step W) s is = .error f → ∃ c', f = .useAfterDelete c' := by
  have hrun_all : Machine.run (step W) init (es ++ es') = .ok s' :=
    (Machine.run_append_ok (step W)).mpr ⟨s, hrun, hrun'⟩
  obtain ⟨hcalm₁, hcalm₂⟩ := hcalm.append (step W) hrun
  obtain ⟨hs, hacc⟩ := calm_accounted hcalm₁ hrun hlt
  obtain ⟨effs, hmoves, -⟩ := calm_moves hs hcalm₂ hrun'
  have hlt' : c < s'.nextClient := hlt.trans_le hmoves.nextClient_le
  obtain ⟨-, hacc'⟩ := calm_accounted hcalm hrun_all hlt'
  obtain ⟨gs, hgs⟩ := hacc'.rest hstream.fits hstream.tail_ne hall
  refine ⟨⟨⟨gs, hgs.symm⟩, hacc'.bytes, hacc'.live⟩, fun hfirst hcount => ?_,
    fun is f h => run_fault hs h⟩
  have hleft := left_run hstream hs hlt hacc hcalm₂ hrun' hfirst hall hrefused
  have hle : left fs tail s c ≤ fs.length + 1 := by
    refine (left_le fs tail s c).trans ?_
    split <;> omega
  have hzero : left fs tail s' c = 0 := by omega
  have hdone : dispatchedFor c s'.log = fs := by
    have hlen : fs.length = (dispatchedFor c s'.log).length + gs.length := by
      conv_lhs => rw [hgs]
      exact List.length_append
    have hnil : gs = [] := List.length_eq_zero_iff.mp (by rw [left] at hzero; omega)
    rw [hnil, List.append_nil] at hgs
    exact hgs.symm
  refine ⟨hdone, fun hlive => ?_, fun htail => ?_⟩
  · rw [left_of_live hlive] at hzero
    by_contra hne
    rw [if_neg hne] at hzero
    omega
  · by_contra hdead
    obtain ⟨header, hlen, -, hreceived⟩ := hacc'.gone (not_live_iff.mp hdead) hrefused
    have hbytes := hacc'.bytes
    have hlength := hall.length_le
    rw [hreceived, List.append_assoc] at hbytes
    change encodeAll (dispatchedFor c s'.log) ++ (header ++ _) = arrivedFor c s'.log at hbytes
    rw [← hbytes, hdone, htail, List.append_nil, List.length_append, List.length_append, hlen,
      ipcHeaderSize] at hlength
    omega

/-- Two messages and a header that begins with NULs. -/
def cutMessages : List Frame := [⟨7, []⟩, ⟨10, ascii "now"⟩]

/-- The client connects and the bytes arrive in two pieces, cut inside the first header. -/
def cutArrivals : List Input :=
  let bytes := encodeAll cutMessages ++ List.replicate 14 0
  [.connection true, .arrive 0 (bytes.take 5), .readable 0 ⟨false, false⟩ ⟨true, true, true⟩
    ⟨fun _ => .null, fun _ => ([], .null)⟩, .arrive 0 (bytes.drop 5)]

/-- Three readable callbacks of the client. -/
def cutReads : List Input :=
  List.replicate 3 (.readable 0 ⟨false, false⟩ ⟨true, true, true⟩
    ⟨fun _ => .null, fun _ => ([], .null)⟩)

theorem cutMessages_dispatched :
    dispatchedFor 0 (after plainWorld (cutArrivals ++ cutReads)).log = cutMessages ∧
      ¬ (after plainWorld (cutArrivals ++ cutReads)).Live 0 := by
  have hrun : Machine.run (step plainWorld) init cutArrivals = .ok (after plainWorld cutArrivals) :=
    Machine.run_final _ (by decide +kernel)
  have hrun_all : Machine.run (step plainWorld) init (cutArrivals ++ cutReads)
      = .ok (after plainWorld (cutArrivals ++ cutReads)) :=
    Machine.run_final _ (by decide +kernel)
  have hrun' : Machine.run (step plainWorld) (after plainWorld cutArrivals) cutReads
      = .ok (after plainWorld (cutArrivals ++ cutReads)) := by
    obtain ⟨s₁, h₁, h₂⟩ := (Machine.run_append_ok (step plainWorld)).mp hrun_all
    cases hrun.symm.trans h₁
    exact h₂
  have hstream : Stream cutMessages (List.replicate 14 0) :=
    ⟨by decide, Or.inr ⟨by decide, by decide⟩⟩
  obtain ⟨-, hdone, -⟩ := dispatched_of_calm_run (c := 0) hstream (by decide +kernel) hrun hrun'
    (by decide +kernel) (by decide +kernel) (by decide +kernel)
  obtain ⟨hdispatched, hlive⟩ := hdone (by decide +kernel) (by decide +kernel)
  exact ⟨hdispatched, fun h => absurd (hlive.mp h) (by decide)⟩

end Server

end WayfireIpc
