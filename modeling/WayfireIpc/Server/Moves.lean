/-
# Moves

The elementary changes that the callbacks make to the state of the server, each with the
effect it has on a client.  Every callback is a sequence of moves (`Server.Handlers`), so
that an invariant of the server is proved by going through the moves once.
-/
import WayfireIpc.Server.Callbacks
import WayfireIpc.Server.QueueSpec

namespace WayfireIpc

/-- The client that an entry of the log is about. -/
def Obs.client : Obs → Option ℕ
  | .connected c | .arrived c _ | .received c _ | .dispatched c _ | .queued c _
  | .written c _ | .tooBig c | .reallocFailed c | .disconnected c => some c
  | .acquired _ | .released _ => none

namespace I3IpcClient

/-- The client when the first `n` bytes that wait have been written. -/
def wrote (k : I3IpcClient) (n : ℕ) : I3IpcClient :=
  if (k.consume n).writeBufferLen = 0 then { k.consume n with writableEventSource := false }
  else k.consume n

/-- The client when the given header has been read. -/
def expecting (k : I3IpcClient) (header : Buf) : I3IpcClient :=
  { k with pendingLength := headerLength header, pendingType := headerType header }

/-- The client when its pending request has been taken. -/
def idle (k : I3IpcClient) : I3IpcClient := { k with pendingLength := 0 }

end I3IpcClient

namespace Server

/-- The state after `n` bytes of the client have been read, with its new record and what has
been logged. -/
def readTo (s : Server) (c : ℕ) (k' : I3IpcClient) (n : ℕ) (obs : List Obs) : Server :=
  { s with
    heap := Function.update s.heap c (some k')
    unread := Function.update s.unread c ((s.unread c).drop n)
    log := s.log ++ obs }

/-- The state after `n` bytes of the client's buffer have been written. -/
def wrote (s : Server) (c : ℕ) (k : I3IpcClient) (n : ℕ) : Server :=
  { s with
    heap := Function.update s.heap c (some (k.wrote n))
    writeSources := Function.update s.writeSources c (k.wrote n).writableEventSource
    log := s.log ++ [.written c (k.queue.take n)] }

/-- The state after bytes have arrived for the client. -/
def arrived (s : Server) (c : ℕ) (bs : Buf) : Server :=
  { s with
    unread := Function.update s.unread c (s.unread c ++ bs)
    log := s.log ++ [.arrived c bs] }

/-- The header at the front of the unread bytes of a client. -/
def nextHeader (s : Server) (c : ℕ) : Buf := (s.unread c).take ipcHeaderSize

/-- What a move does, and to which client. -/
inductive Effect
  | enqueue (c : ℕ)
  | refuse (c : ℕ)
  | drop (c : ℕ)
  | setMask (c : ℕ)
  | serve
  | connect
  | arrive (c : ℕ)
  | read (c : ℕ)
  | write (c : ℕ)
  | release
deriving DecidableEq

/-- The moves. -/
inductive Move (W : World) : Server → Effect → Server → Prop
  | enqueue {s : Server} {c : ℕ} {k k' : I3IpcClient} {f : Frame} (h : s.heap c = some k)
      (hacc : k.Accepts W c f.payload.length) (hk' : k.Enqueues f k') :
      Move W s (.enqueue c) (s.enqueued c k k' f)
  | refuse {s : Server} {c n : ℕ} {k : I3IpcClient} (h : s.heap c = some k)
      (hacc : ¬ k.Accepts W c n) : Move W s (.refuse c) (s.refused c k (refusal c k n))
  | drop {s : Server} {c : ℕ} {k : I3IpcClient} (h : s.heap c = some k) :
      Move W s (.drop c) (s.drop c k)
  | setMask {s : Server} {c : ℕ} {k : I3IpcClient} (h : s.heap c = some k) (m : BitVec 64) :
      Move W s (.setMask c) (s.put c { k with subscribedEvents := m })
  | serve {s : Server} : Move W s .serve s.serve
  | connect {s : Server} : Move W s .connect s.handleConnection
  | arrive {s : Server} {c : ℕ} (h : s.Live c) (bs : Buf) :
      Move W s (.arrive c) (s.arrived c bs)
  /-- A header is read and its payload has not arrived yet. -/
  | header {s : Server} {c : ℕ} {k : I3IpcClient} (h : s.heap c = some k)
      (hidle : k.pendingLength = 0) (hlen : ipcHeaderSize ≤ (s.unread c).length)
      (hmagic : (s.nextHeader c).take 6 = ipcMagic) (hpos : 0 < headerLength (s.nextHeader c)) :
      Move W s (.read c) (s.readTo c (k.expecting (s.nextHeader c)) ipcHeaderSize
        [.received c (s.nextHeader c)])
  /-- A header with a wrong magic is read. -/
  | badHeader {s : Server} {c : ℕ} {k : I3IpcClient} (h : s.heap c = some k)
      (hidle : k.pendingLength = 0) (hlen : ipcHeaderSize ≤ (s.unread c).length)
      (hmagic : (s.nextHeader c).take 6 ≠ ipcMagic) :
      Move W s (.read c)
        ((s.readTo c k ipcHeaderSize [.received c (s.nextHeader c)]).drop c k)
  /-- The payload of a pending header is read. -/
  | payload {s : Server} {c : ℕ} {k : I3IpcClient} (h : s.heap c = some k)
      (hpos : 0 < k.pendingLength) (hlen : k.pendingLength ≤ (s.unread c).length) :
      Move W s (.read c) (s.readTo c k.idle k.pendingLength
        [.received c ((s.unread c).take k.pendingLength),
          .dispatched c ⟨k.pendingType, (s.unread c).take k.pendingLength⟩])
  /-- A header without a payload is read. -/
  | bare {s : Server} {c : ℕ} {k : I3IpcClient} (h : s.heap c = some k)
      (hidle : k.pendingLength = 0) (hlen : ipcHeaderSize ≤ (s.unread c).length)
      (hmagic : (s.nextHeader c).take 6 = ipcMagic) (hzero : headerLength (s.nextHeader c) = 0) :
      Move W s (.read c) (s.readTo c (k.expecting (s.nextHeader c)).idle ipcHeaderSize
        [.received c (s.nextHeader c), .dispatched c ⟨headerType (s.nextHeader c), []⟩])
  | write {s : Server} {c n : ℕ} {k : I3IpcClient} (h : s.heap c = some k)
      (hpos : 0 < k.writeBufferLen) (hn : n ≤ k.writeBufferLen) :
      Move W s (.write c) (s.wrote c k n)
  | release {s : Server} (r : Resource) : Move W s .release (s.note (.released r))

/-- A sequence of moves, with their effects. -/
inductive Moves (W : World) : Server → List Effect → Server → Prop
  | nil {s : Server} : Moves W s [] s
  | cons {s s₁ s₂ : Server} {e : Effect} {es : List Effect} (h : Move W s e s₁)
      (hrest : Moves W s₁ es s₂) : Moves W s (e :: es) s₂

variable {W : World} {s s' s₁ s₂ : Server} {c : ℕ} {k k' : I3IpcClient}

lemma refusal_client (c : ℕ) (k : I3IpcClient) (n : ℕ) : (refusal c k n).client = some c := by
  rcases client_refusal c k n with ho | ho <;> rw [ho] <;> rfl

lemma Moves.one {e : Effect} (h : Move W s e s') : Moves W s [e] s' := .cons h .nil

lemma Moves.append {es es' : List Effect} (h : Moves W s es s₁) (h' : Moves W s₁ es' s₂) :
    Moves W s (es ++ es') s₂ := by
  induction h with
  | nil => exact h'
  | cons hm _ ih => exact .cons hm (ih h')

/-- What every move with an effect of the kind `Q` preserves is preserved by a sequence of such
moves. -/
theorem Moves.invariant {P : Server → Prop} {Q : Effect → Prop}
    (hmove : ∀ s e s', Q e → P s → Move W s e s' → P s') {es : List Effect}
    (h : Moves W s es s') (hes : ∀ e ∈ es, Q e) (hs : P s) : P s' := by
  induction h with
  | nil => exact hs
  | cons hm _ ih =>
    exact ih (fun e he => hes e (List.mem_cons_of_mem _ he))
      (hmove _ _ _ (hes _ List.mem_cons_self) hs hm)

lemma enqueued_heap {f : Frame} : (s.enqueued c k k' f).heap c = some k' :=
  Function.update_self _ _ _

lemma arrived_unread {bs : Buf} : (s.arrived c bs).unread c = s.unread c ++ bs :=
  Function.update_self _ _ _

lemma readTo_unread {n : ℕ} {obs : List Obs} :
    (s.readTo c k' n obs).unread c = (s.unread c).drop n := Function.update_self _ _ _

/-! ## The invariant of the server -/

/-- What holds of the server between two callbacks. -/
structure Inv (s : Server) : Prop where
  listed_live : ∀ c ∈ s.ipcClientList, s.Live c
  list_nodup : s.ipcClientList.Nodup
  live_lt : ∀ c, s.Live c → c < s.nextClient
  log_lt : ∀ o ∈ s.log, ∀ c, o.client = some c → c < s.nextClient
  read_iff : ∀ c, s.readSources c = true ↔ s.Live c
  write_iff : ∀ c, s.writeSources c = true ↔
    ∃ k, s.heap c = some k ∧ k.writableEventSource = true
  wf : ∀ c k, s.heap c = some k → k.WF

lemma inv_init : init.Inv where
  listed_live := by simp [init]
  list_nodup := by simp [init]
  live_lt := by simp [init, Live]
  log_lt := by simp [init]
  read_iff := by simp [init, Live]
  write_iff := by simp [init]
  wf := by simp [init]

lemma live_update {heap : ℕ → Option I3IpcClient} (hs : s.heap = Function.update heap c (some k'))
    (hc : ∃ k, heap c = some k) (c' : ℕ) : s.Live c' ↔ ∃ k, heap c' = some k := by
  by_cases hcc : c' = c
  · subst hcc
    exact ⟨fun _ => hc, fun _ => ⟨k', by rw [hs, Function.update_self]⟩⟩
  · rw [Live, hs, Function.update_of_ne hcc]

/-- The invariant survives a change of the record of one client. -/
lemma Inv.update (hs : s.Inv) (h : s.heap c = some k)
    (hheap : s'.heap = Function.update s.heap c (some k')) (hk' : k'.WF)
    (hlist : s'.ipcClientList = s.ipcClientList) (hnext : s'.nextClient = s.nextClient)
    (hread : s'.readSources = s.readSources)
    (hwrite : s'.writeSources = Function.update s.writeSources c k'.writableEventSource)
    {obs : List Obs} (hlog : s'.log = s.log ++ obs) (hobs : ∀ o ∈ obs, o.client = some c) :
    s'.Inv := by
  have hlive : ∀ c', s'.Live c' ↔ s.Live c' := live_update hheap ⟨k, h⟩
  refine ⟨?_, ?_, ?_, ?_, ?_, ?_, ?_⟩
  · -- the list
    intro c' hc'
    rw [hlist] at hc'
    exact (hlive c').mpr (hs.listed_live c' hc')
  · rw [hlist]
    exact hs.list_nodup
  · -- the numbers of the clients
    intro c' hc'
    rw [hnext]
    exact hs.live_lt c' ((hlive c').mp hc')
  · -- and those in the log
    intro o ho c' hc'
    rw [hnext]
    rw [hlog] at ho
    rcases List.mem_append.mp ho with ho | ho
    · exact hs.log_lt o ho c' hc'
    · have hcc : c = c' := Option.some.inj ((hobs o ho).symm.trans hc')
      exact hcc ▸ hs.live_lt c ⟨k, h⟩
  · -- the event source for reading
    intro c'
    rw [hread, hlive c']
    exact hs.read_iff c'
  · -- the event source for writing
    intro c'
    rw [hwrite, hheap]
    by_cases hcc : c' = c
    · subst hcc
      simp
    · rw [Function.update_of_ne hcc, Function.update_of_ne hcc]
      exact hs.write_iff c'
  · -- the records
    intro c' k₁ hk₁
    rw [hheap] at hk₁
    by_cases hcc : c' = c
    · subst hcc
      rw [Function.update_self] at hk₁
      exact Option.some.inj hk₁ ▸ hk'
    · rw [Function.update_of_ne hcc] at hk₁
      exact hs.wf c' k₁ hk₁

/-- Where the writable source of the client is left as it is, it agrees with its record. -/
lemma Inv.writeSources_eq (hs : s.Inv) (h : s.heap c = some k) :
    s.writeSources = Function.update s.writeSources c k.writableEventSource := by
  refine (Function.update_eq_self_iff.mpr ?_).symm
  have hiff := hs.write_iff c
  rw [h] at hiff
  cases hw : k.writableEventSource with
  | true => exact (hiff.mpr ⟨k, rfl, hw⟩).symm
  | false =>
    cases hws : s.writeSources c with
    | false => rfl
    | true =>
      obtain ⟨k₁, hk₁, hk₁w⟩ := hiff.mp hws
      cases hk₁
      rw [hw] at hk₁w
      cases hk₁w

/-- A change of a record that leaves its writable source alone. -/
lemma Inv.update_same (hs : s.Inv) (h : s.heap c = some k)
    (hheap : s'.heap = Function.update s.heap c (some k')) (hk' : k'.WF)
    (harmed : k'.writableEventSource = k.writableEventSource)
    (hlist : s'.ipcClientList = s.ipcClientList) (hnext : s'.nextClient = s.nextClient)
    (hread : s'.readSources = s.readSources) (hwrite : s'.writeSources = s.writeSources)
    {obs : List Obs} (hlog : s'.log = s.log ++ obs) (hobs : ∀ o ∈ obs, o.client = some c) :
    s'.Inv := by
  refine hs.update h hheap hk' hlist hnext hread ?_ hlog hobs
  rw [hwrite, harmed]
  exact hs.writeSources_eq h

lemma Inv.drop (hs : s.Inv) (h : s.heap c = some k) : (s.drop c k).Inv := by
  have hlive : ∀ c', (s.drop c k).Live c' ↔ c' ≠ c ∧ s.Live c' := by
    intro c'
    by_cases hcc : c' = c
    · subst hcc
      simp [Live, Server.drop]
    · simp [Live, Server.drop, hcc]
  refine ⟨?_, ?_, ?_, ?_, ?_, ?_, ?_⟩
  · -- the list
    intro c' hc'
    have hmem : c' ∈ s.ipcClientList ∧ c' ≠ c := by simpa [Server.drop] using hc'
    exact (hlive c').mpr ⟨hmem.2, hs.listed_live c' hmem.1⟩
  · exact hs.list_nodup.filter _
  · -- the numbers of the clients
    intro c' hc'
    exact hs.live_lt c' ((hlive c').mp hc').2
  · -- and those in the log
    intro o ho c' hc'
    have ho : o ∈ s.log ∨ o = .disconnected c := by simpa [Server.drop] using ho
    rcases ho with ho | rfl
    · exact hs.log_lt o ho c' hc'
    · cases hc'
      exact hs.live_lt c ⟨k, h⟩
  · -- the event source for reading
    intro c'
    rw [hlive c']
    by_cases hcc : c' = c
    · subst hcc
      simp [Server.drop]
    · simp only [Server.drop, Function.update_of_ne hcc, ne_eq, hcc, not_false_eq_true, true_and]
      exact hs.read_iff c'
  · -- the event source for writing, which goes with the client
    intro c'
    by_cases hcc : c' = c
    · subst hcc
      have hfalse : (s.drop c' k).writeSources c' = false := by
        cases hw : k.writableEventSource with
        | true => simp [Server.drop, hw]
        | false =>
          have hsrc := congrFun (hs.writeSources_eq h) c'
          rw [Function.update_self, hw] at hsrc
          simp [Server.drop, hw, hsrc]
      rw [hfalse]
      simp [Server.drop]
    · have hsame : (s.drop c k).writeSources c' = s.writeSources c' := by
        cases hw : k.writableEventSource <;> simp [Server.drop, hw, Function.update_of_ne hcc]
      rw [hsame]
      simp only [Server.drop, Function.update_of_ne hcc]
      exact hs.write_iff c'
  · -- the records
    intro c' k₁ hk₁
    by_cases hcc : c' = c
    · subst hcc
      simp [Server.drop] at hk₁
    · exact hs.wf c' k₁ (by simpa [Server.drop, Function.update_of_ne hcc] using hk₁)

lemma Inv.note (hs : s.Inv) {o : Obs} (ho : ∀ c, o.client = some c → s.Live c) :
    (s.note o).Inv := by
  refine ⟨hs.listed_live, hs.list_nodup, hs.live_lt, ?_, hs.read_iff, hs.write_iff, hs.wf⟩
  intro o' ho' c hc
  have ho' : o' ∈ s.log ∨ o' = o := by simpa [Server.note] using ho'
  rcases ho' with ho' | rfl
  · exact hs.log_lt o' ho' c hc
  · exact hs.live_lt c (ho c hc)

lemma Inv.serve (hs : s.Inv) : s.serve.Inv := by
  refine ⟨by simp [Server.serve], by simp [Server.serve], hs.live_lt, ?_, hs.read_iff,
    hs.write_iff, hs.wf⟩
  intro o ho c hc
  have ho : o ∈ s.log ∨ o.client = none := by
    simp only [Server.serve, List.mem_append, List.mem_cons, List.not_mem_nil, or_false] at ho
    rcases ho with ho | rfl | rfl | rfl
    · exact Or.inl ho
    all_goals exact Or.inr rfl
  rcases ho with ho | ho
  · exact hs.log_lt o ho c hc
  · rw [ho] at hc
    cases hc

lemma Inv.connect (hs : s.Inv) : s.handleConnection.Inv := by
  have hfresh : ¬ s.Live s.nextClient := fun h => lt_irrefl _ (hs.live_lt _ h)
  have hlive : ∀ c, s.handleConnection.Live c ↔ c = s.nextClient ∨ s.Live c := by
    intro c
    by_cases hc : c = s.nextClient
    · subst hc
      simp [Live, handleConnection]
    · simp [Live, handleConnection, hc]
  have hne : ∀ c, s.Live c → c ≠ s.nextClient := fun c h hc => hfresh (hc ▸ h)
  refine ⟨?_, ?_, ?_, ?_, ?_, ?_, ?_⟩
  · -- the list
    intro c hc
    have hc : c ∈ s.ipcClientList ∨ c = s.nextClient := by simpa [handleConnection] using hc
    rw [hlive]
    exact hc.elim (fun h => Or.inr (hs.listed_live c h)) Or.inl
  · -- no client is listed twice
    have hnot : s.nextClient ∉ s.ipcClientList := fun h => hfresh (hs.listed_live _ h)
    simpa [handleConnection] using List.nodup_append.mpr
      ⟨hs.list_nodup, List.nodup_singleton _, by
        intro a ha b hb
        rw [List.mem_singleton.mp hb]
        rintro rfl
        exact hnot ha⟩
  · -- the numbers of the clients
    intro c hc
    show c < s.nextClient + 1
    rcases (hlive c).mp hc with rfl | hc
    · exact Nat.lt_succ_self _
    · exact Nat.lt_succ_of_lt (hs.live_lt c hc)
  · -- and those in the log
    intro o ho c hc
    show c < s.nextClient + 1
    have ho : o ∈ s.log ∨ o = .connected s.nextClient := by simpa [handleConnection] using ho
    rcases ho with ho | rfl
    · exact Nat.lt_succ_of_lt (hs.log_lt o ho c hc)
    · cases hc
      exact Nat.lt_succ_self _
  · -- the event source for reading
    intro c
    rw [hlive]
    by_cases hc : c = s.nextClient
    · subst hc
      simp [handleConnection]
    · simp only [handleConnection, Function.update_of_ne hc, hc, false_or]
      exact hs.read_iff c
  · -- the event source for writing, which a new client does not have
    intro c
    by_cases hc : c = s.nextClient
    · subst hc
      have hfalse : s.writeSources s.nextClient ≠ true := by
        intro h
        obtain ⟨k, hk, -⟩ := (hs.write_iff _).mp h
        exact hfresh ⟨k, hk⟩
      simp [handleConnection, hfalse, I3IpcClient.fresh]
    · simp only [handleConnection, Function.update_of_ne hc]
      exact hs.write_iff c
  · -- the records
    intro c k hk
    by_cases hc : c = s.nextClient
    · subst hc
      have : I3IpcClient.fresh = k := by simpa [handleConnection] using hk
      exact this ▸ I3IpcClient.wf_fresh
    · exact hs.wf c k (by simpa [handleConnection, Function.update_of_ne hc] using hk)

end Server

namespace I3IpcClient

variable {k : I3IpcClient}

lemma WF.expecting (h : k.WF) (header : Buf) : (k.expecting header).WF :=
  ⟨h.size_pow, h.size_le, h.len_lt, h.block_size, h.armed_iff⟩

lemma WF.idle (h : k.WF) : k.idle.WF :=
  ⟨h.size_pow, h.size_le, h.len_lt, h.block_size, h.armed_iff⟩

lemma WF.setMask (h : k.WF) (m : BitVec 64) : WF { k with subscribedEvents := m } :=
  ⟨h.size_pow, h.size_le, h.len_lt, h.block_size, h.armed_iff⟩

lemma wrote_writeBufferLen (k : I3IpcClient) (n : ℕ) :
    (k.wrote n).writeBufferLen = k.writeBufferLen - n := by
  rw [wrote]
  split <;> rfl

lemma wrote_writeBuffer (k : I3IpcClient) (n : ℕ) :
    (k.wrote n).writeBuffer = (k.consume n).writeBuffer := by
  rw [wrote]
  split <;> rfl

lemma length_consume (h : k.WF) (n : ℕ) :
    (k.consume n).writeBuffer.length = k.writeBuffer.length := by
  have hlt := h.len_lt
  have hblock := h.block_size
  refine Bytes.length_splice ?_
  rw [Bytes.slice, List.length_take, List.length_drop]
  omega

lemma WF.wrote (h : k.WF) (hpos : 0 < k.writeBufferLen) (n : ℕ) : (k.wrote n).WF := by
  have harmed : k.writableEventSource = true := h.armed_iff.mpr hpos
  have hsize : (k.wrote n).writeBufferSize = k.writeBufferSize := by
    rw [I3IpcClient.wrote]
    split <;> rfl
  refine ⟨hsize ▸ h.size_pow, hsize ▸ h.size_le, ?_, ?_, ?_⟩
  · rw [hsize, wrote_writeBufferLen]
    exact (Nat.sub_le _ _).trans_lt h.len_lt
  · rw [hsize, wrote_writeBuffer, length_consume h, h.block_size]
  · rw [I3IpcClient.wrote]
    split
    · next hzero => simp [hzero]
    · next hzero =>
        have : 0 < (k.consume n).writeBufferLen := Nat.pos_of_ne_zero hzero
        simp [this]
        exact harmed

end I3IpcClient

namespace Server

variable {W : World} {s s' : Server}

lemma Inv.setMask (hs : s.Inv) {c : ℕ} {k : I3IpcClient} (h : s.heap c = some k) (m : BitVec 64) :
    (s.put c { k with subscribedEvents := m }).Inv :=
  hs.update_same h rfl ((hs.wf c k h).setMask m) rfl rfl rfl rfl rfl (List.append_nil _).symm
    (by simp)

/-- Every move keeps the invariant. -/
theorem Move.inv {e : Effect} (h : Move W s e s') (hs : s.Inv) : s'.Inv := by
  cases h with
  | @enqueue c k k' f h hacc hk' =>
    have harmed : k'.writableEventSource = true := by
      rw [hk'.wf.armed_iff, hk'.len_eq, ipcHeaderSize]
      omega
    refine hs.update h rfl hk'.wf rfl rfl rfl ?_ rfl (by simp [Obs.client])
    show (if k.writableEventSource then s.writeSources else _) = _
    cases hw : k.writableEventSource with
    | true =>
      rw [if_pos rfl, harmed]
      have := hs.writeSources_eq h
      rwa [hw] at this
    | false => rw [if_neg (by simp), harmed]
  | @refuse c n k h hacc =>
    have hnote : (s.note (refusal c k n)).Inv := hs.note fun c' hc' => by
      obtain rfl := Option.some.inj ((refusal_client c k n).symm.trans hc')
      exact ⟨k, h⟩
    exact hnote.drop h
  | drop h => exact hs.drop h
  | setMask h m => exact hs.setMask h m
  | serve => exact hs.serve
  | connect => exact hs.connect
  | @arrive c hlive bs =>
    have hnote := hs.note (o := .arrived c bs) fun c' hc' => Option.some.inj hc' ▸ hlive
    exact ⟨hnote.listed_live, hnote.list_nodup, hnote.live_lt, hnote.log_lt, hnote.read_iff,
      hnote.write_iff, hnote.wf⟩
  | @header c k h =>
    exact hs.update_same h rfl ((hs.wf c k h).expecting _) rfl rfl rfl rfl rfl rfl
      (by simp [Obs.client])
  | @badHeader c k h =>
    have hread : (s.readTo c k ipcHeaderSize [.received c (s.nextHeader c)]).Inv :=
      hs.update_same h rfl (hs.wf c k h) rfl rfl rfl rfl rfl rfl (by simp [Obs.client])
    exact hread.drop (Function.update_self _ _ _)
  | @payload c k h =>
    exact hs.update_same h rfl (hs.wf c k h).idle rfl rfl rfl rfl rfl rfl (by simp [Obs.client])
  | @bare c k h =>
    exact hs.update_same h rfl ((hs.wf c k h).expecting _).idle rfl rfl rfl rfl rfl rfl
      (by simp [Obs.client])
  | @write c n k h hpos hn =>
    exact hs.update h rfl ((hs.wf c k h).wrote hpos n) rfl rfl rfl rfl rfl (by simp [Obs.client])
  | release r => exact hs.note (by simp [Obs.client])

theorem Moves.inv {es : List Effect} (h : Moves W s es s') (hs : s.Inv) : s'.Inv :=
  h.invariant (Q := fun _ => True) (fun _ _ _ _ hs h => h.inv hs) (by simp) hs

end Server

end WayfireIpc
