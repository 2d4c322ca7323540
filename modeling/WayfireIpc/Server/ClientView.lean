/-
# The server as one client sees it

What a move changes for one client: its record, its unread bytes and what the log says
about it.  A property of a single client over all runs is proved by going through these
changes.
-/
import WayfireIpc.Server.Moves

namespace WayfireIpc

/-! ## What the log says about a client -/

/-- The bytes that have arrived for a client. -/
def arrivedFor (c : ℕ) (log : List Obs) : Buf :=
  log.flatMap fun
    | .arrived c' bs => if c' = c then bs else []
    | _ => []

/-- The bytes of a client that have been read. -/
def receivedFrom (c : ℕ) (log : List Obs) : Buf :=
  log.flatMap fun
    | .received c' bs => if c' = c then bs else []
    | _ => []

/-- The requests of a client that have been handed to the handler. -/
def dispatchedFor (c : ℕ) (log : List Obs) : List Frame :=
  log.flatMap fun
    | .dispatched c' f => if c' = c then [f] else []
    | _ => []

/-- The messages put into the buffer of a client. -/
def queuedFor (c : ℕ) (log : List Obs) : List Frame :=
  log.flatMap fun
    | .queued c' f => if c' = c then [f] else []
    | _ => []

/-- The bytes written to the socket of a client. -/
def writtenTo (c : ℕ) (log : List Obs) : Buf :=
  log.flatMap fun
    | .written c' bs => if c' = c then bs else []
    | _ => []

/-- The messages refused for a client, with the reasons. -/
def refusedFor (c : ℕ) (log : List Obs) : List Obs :=
  log.flatMap fun o =>
    match o with
    | .tooBig c' => if c' = c then [o] else []
    | .reallocFailed c' => if c' = c then [o] else []
    | _ => []

lemma queuedFor_append (c : ℕ) (log log' : List Obs) :
    queuedFor c (log ++ log') = queuedFor c log ++ queuedFor c log' := List.flatMap_append

namespace Server

/-- One client and its part of the log. -/
structure View where
  record : Option I3IpcClient
  unread : Buf
  arrived : Buf
  received : Buf
  dispatched : List Frame
  queued : List Frame
  written : Buf
  refused : List Obs

/-- What the client `c` sees of the server. -/
def view (s : Server) (c : ℕ) : View where
  record := s.heap c
  unread := s.unread c
  arrived := arrivedFor c s.log
  received := receivedFrom c s.log
  dispatched := dispatchedFor c s.log
  queued := queuedFor c s.log
  written := writtenTo c s.log
  refused := refusedFor c s.log

lemma queuedFor_refused (s : Server) (c c₁ : ℕ) (k : I3IpcClient) (n : ℕ) :
    queuedFor c (s.refused c₁ k (refusal c₁ k n)).log = queuedFor c s.log := by
  have hnone : queuedFor c [refusal c₁ k n, .disconnected c₁] = [] := by
    rcases client_refusal c₁ k n with ho | ho <;> rw [ho] <;> rfl
  rw [refused, drop, note]
  simp only [List.append_assoc, List.singleton_append]
  rw [queuedFor_append, hnone, List.append_nil]

/-- The view of a client that has just connected. -/
def View.fresh : View where
  record := some I3IpcClient.fresh
  unread := []
  arrived := []
  received := []
  dispatched := []
  queued := []
  written := []
  refused := []

/-- What a move with the effect `e` changes for the client `c`. -/
inductive LocalMove (W : World) (c : ℕ) : View → Effect → View → Prop
  | skip {v : View} {e : Effect} (he : e ≠ .drop c ∧ e ≠ .refuse c ∧ e ≠ .read c) :
      LocalMove W c v e v
  | enqueue {v : View} {k k' : I3IpcClient} {f : Frame} (h : v.record = some k)
      (hacc : k.Accepts W c f.payload.length) (hk' : k.Enqueues f k') :
      LocalMove W c v (.enqueue c) { v with record := some k', queued := v.queued ++ [f] }
  | refuse {v : View} {k : I3IpcClient} {n : ℕ} (h : v.record = some k)
      (hacc : ¬ k.Accepts W c n) :
      LocalMove W c v (.refuse c)
        { v with record := none, refused := v.refused ++ [refusal c k n] }
  | drop {v : View} {k : I3IpcClient} (h : v.record = some k) :
      LocalMove W c v (.drop c) { v with record := none }
  | setMask {v : View} {k : I3IpcClient} (h : v.record = some k) (m : BitVec 64) :
      LocalMove W c v (.setMask c) { v with record := some { k with subscribedEvents := m } }
  | arrive {v : View} {k : I3IpcClient} (h : v.record = some k) (bs : Buf) :
      LocalMove W c v (.arrive c)
        { v with unread := v.unread ++ bs, arrived := v.arrived ++ bs }
  | header {v : View} {k : I3IpcClient} {header rest : Buf} (h : v.record = some k)
      (hidle : k.pendingLength = 0) (hunread : v.unread = header ++ rest)
      (hlen : header.length = ipcHeaderSize) (hmagic : header.take 6 = ipcMagic)
      (hpos : 0 < headerLength header) :
      LocalMove W c v (.read c)
        { v with
          record := some (k.expecting header)
          unread := rest
          received := v.received ++ header }
  | badHeader {v : View} {k : I3IpcClient} {header rest : Buf} (h : v.record = some k)
      (hidle : k.pendingLength = 0) (hunread : v.unread = header ++ rest)
      (hlen : header.length = ipcHeaderSize) (hmagic : header.take 6 ≠ ipcMagic) :
      LocalMove W c v (.read c)
        { v with record := none, unread := rest, received := v.received ++ header }
  | payload {v : View} {k : I3IpcClient} {payload rest : Buf} (h : v.record = some k)
      (hpos : 0 < k.pendingLength) (hunread : v.unread = payload ++ rest)
      (hlen : payload.length = k.pendingLength) :
      LocalMove W c v (.read c)
        { v with
          record := some k.idle
          unread := rest
          received := v.received ++ payload
          dispatched := v.dispatched ++ [⟨k.pendingType, payload⟩] }
  | bare {v : View} {k : I3IpcClient} {header rest : Buf} (h : v.record = some k)
      (hidle : k.pendingLength = 0) (hunread : v.unread = header ++ rest)
      (hlen : header.length = ipcHeaderSize) (hmagic : header.take 6 = ipcMagic)
      (hzero : headerLength header = 0) :
      LocalMove W c v (.read c)
        { v with
          record := some (k.expecting header).idle
          unread := rest
          received := v.received ++ header
          dispatched := v.dispatched ++ [⟨headerType header, []⟩] }
  | write {v : View} {k : I3IpcClient} {n : ℕ} (h : v.record = some k)
      (hpos : 0 < k.writeBufferLen) (hn : n ≤ k.writeBufferLen) :
      LocalMove W c v (.write c)
        { v with record := some (k.wrote n), written := v.written ++ k.queue.take n }

variable {W : World} {s s' : Server} {c : ℕ} {e : Effect}

lemma LocalMove.of_eq {v v' v'' : View} (h : LocalMove W c v e v') (heq : v'' = v') :
    LocalMove W c v e v'' := heq ▸ h

/-- Entries of the log about other clients. -/
lemma view_of_other {obs : List Obs} (hheap : s'.heap c = s.heap c)
    (hunread : s'.unread c = s.unread c) (hlog : s'.log = s.log ++ obs)
    (hobs : ∀ o ∈ obs, o.client ≠ some c) : s'.view c = s.view c := by
  have hnil : ∀ {β : Type} (g : Obs → List β), (∀ o, o.client ≠ some c → g o = []) →
      obs.flatMap g = [] := fun g hg =>
    List.flatMap_eq_nil_iff.mpr fun o ho => hg o (hobs o ho)
  have harrived : arrivedFor c obs = [] := hnil _ fun o ho => by cases o <;> simp_all [Obs.client]
  have hreceived : receivedFrom c obs = [] := hnil _ fun o ho => by
    cases o <;> simp_all [Obs.client]
  have hdispatched : dispatchedFor c obs = [] := hnil _ fun o ho => by
    cases o <;> simp_all [Obs.client]
  have hqueued : queuedFor c obs = [] := hnil _ fun o ho => by cases o <;> simp_all [Obs.client]
  have hwritten : writtenTo c obs = [] := hnil _ fun o ho => by cases o <;> simp_all [Obs.client]
  have hrefused : refusedFor c obs = [] := hnil _ fun o ho => by cases o <;> simp_all [Obs.client]
  simp only [view, hheap, hunread, hlog, View.mk.injEq, true_and]
  refine ⟨?_, ?_, ?_, ?_, ?_, ?_⟩
  · rw [arrivedFor, List.flatMap_append, ← arrivedFor, ← arrivedFor, harrived, List.append_nil]
  · rw [receivedFrom, List.flatMap_append, ← receivedFrom, ← receivedFrom, hreceived,
      List.append_nil]
  · rw [dispatchedFor, List.flatMap_append, ← dispatchedFor, ← dispatchedFor, hdispatched,
      List.append_nil]
  · rw [queuedFor, List.flatMap_append, ← queuedFor, ← queuedFor, hqueued, List.append_nil]
  · rw [writtenTo, List.flatMap_append, ← writtenTo, ← writtenTo, hwritten, List.append_nil]
  · rw [refusedFor, List.flatMap_append, ← refusedFor, ← refusedFor, hrefused, List.append_nil]

lemma unread_eq_header (h : ipcHeaderSize ≤ (s.unread c).length) :
    s.unread c = s.nextHeader c ++ (s.unread c).drop ipcHeaderSize ∧
      (s.nextHeader c).length = ipcHeaderSize :=
  ⟨(List.take_append_drop _ _).symm, List.length_take_of_le h⟩

/-- What a move changes for a client that has connected before. -/
theorem Move.view (hm : Move W s e s') (hlt : c < s.nextClient) :
    LocalMove W c (s.view c) e (s'.view c) := by
  have hother : ∀ {l : List Obs} {c₁ : ℕ}, c ≠ c₁ → (e ≠ .drop c ∧ e ≠ .refuse c ∧ e ≠ .read c) →
      s'.heap c = s.heap c → s'.unread c = s.unread c → s'.log = s.log ++ l →
      (∀ o ∈ l, o.client = some c₁) → LocalMove W c (s.view c) e (s'.view c) := by
    intro l c₁ hne he hheap hunread hlog hobs
    refine (LocalMove.skip he).of_eq (view_of_other hheap hunread hlog fun o ho => ?_)
    rw [hobs o ho]
    simpa using hne.symm
  cases hm with
  | @enqueue c₁ k k' f h hacc hk' =>
    by_cases hc : c = c₁
    · subst hc
      refine (LocalMove.enqueue h hacc hk').of_eq ?_
      simp [Server.view, enqueued, arrivedFor, receivedFrom, dispatchedFor, queuedFor, writtenTo,
        refusedFor]
    · exact hother hc (by simp) (Function.update_of_ne hc _ _) rfl rfl (by simp [Obs.client])
  | @refuse c₁ n k h hacc =>
    by_cases hc : c = c₁
    · subst hc
      refine (LocalMove.refuse h hacc).of_eq ?_
      rcases client_refusal c k n with ho | ho <;>
        simp [Server.view, refused, Server.drop, note, ho, arrivedFor, receivedFrom, dispatchedFor,
          queuedFor, writtenTo, refusedFor]
    · refine hother (l := [refusal c₁ k n, .disconnected c₁]) hc (by simpa using fun h => hc h.symm)
        (Function.update_of_ne hc _ _) rfl (by simp [refused, Server.drop, note]) ?_
      exact List.forall_mem_cons.mpr ⟨refusal_client c₁ k n, by simp [Obs.client]⟩
  | @drop c₁ k h =>
    by_cases hc : c = c₁
    · subst hc
      refine (LocalMove.drop h).of_eq ?_
      simp [Server.view, Server.drop, arrivedFor, receivedFrom, dispatchedFor, queuedFor, writtenTo,
        refusedFor]
    · exact hother hc (by simpa using fun h => hc h.symm) (Function.update_of_ne hc _ _) rfl rfl
        (by simp [Obs.client])
  | @setMask c₁ k h m =>
    by_cases hc : c = c₁
    · subst hc
      refine (LocalMove.setMask h m).of_eq ?_
      simp [Server.view, put]
    · exact hother hc (by simp) (Function.update_of_ne hc _ _) rfl (List.append_nil _).symm
        (by simp)
  | serve =>
    refine (LocalMove.skip (by simp)).of_eq (view_of_other rfl rfl rfl ?_)
    simp [Obs.client]
  | connect =>
    exact hother hlt.ne (by simp) (Function.update_of_ne hlt.ne _ _)
      (Function.update_of_ne hlt.ne _ _) rfl (by simp [Obs.client])
  | @arrive c₁ hlive bs =>
    by_cases hc : c = c₁
    · subst hc
      obtain ⟨k, h⟩ := hlive
      refine (LocalMove.arrive h bs).of_eq ?_
      simp [Server.view, arrived, arrivedFor, receivedFrom, dispatchedFor, queuedFor, writtenTo,
        refusedFor]
    · exact hother hc (by simp) rfl (Function.update_of_ne hc _ _) rfl (by simp [Obs.client])
  | @header c₁ k h hidle hlen hmagic hpos =>
    by_cases hc : c = c₁
    · subst hc
      obtain ⟨hunread, hhlen⟩ := unread_eq_header hlen
      refine (LocalMove.header h hidle hunread hhlen hmagic hpos).of_eq ?_
      simp [Server.view, readTo, arrivedFor, receivedFrom, dispatchedFor, queuedFor, writtenTo,
        refusedFor]
    · exact hother hc (by simpa using fun h => hc h.symm) (Function.update_of_ne hc _ _)
        (Function.update_of_ne hc _ _) rfl (by simp [Obs.client])
  | @badHeader c₁ k h hidle hlen hmagic =>
    by_cases hc : c = c₁
    · subst hc
      obtain ⟨hunread, hhlen⟩ := unread_eq_header hlen
      refine (LocalMove.badHeader h hidle hunread hhlen hmagic).of_eq ?_
      simp [Server.view, readTo, Server.drop, arrivedFor, receivedFrom, dispatchedFor, queuedFor,
        writtenTo, refusedFor]
    · refine hother (l := [.received c₁ (s.nextHeader c₁), .disconnected c₁]) hc
        (by simpa using fun h => hc h.symm) ?_ (Function.update_of_ne hc _ _) ?_
        (by simp [Obs.client])
      · simp [Server.drop, readTo, hc]
      · simp [Server.drop, readTo]
  | @payload c₁ k h hpos hlen =>
    by_cases hc : c = c₁
    · subst hc
      refine (LocalMove.payload h hpos (List.take_append_drop _ _).symm
        (List.length_take_of_le hlen)).of_eq ?_
      simp [Server.view, readTo, arrivedFor, receivedFrom, dispatchedFor, queuedFor, writtenTo,
        refusedFor]
    · exact hother hc (by simpa using fun h => hc h.symm) (Function.update_of_ne hc _ _)
        (Function.update_of_ne hc _ _) rfl (by simp [Obs.client])
  | @bare c₁ k h hidle hlen hmagic hzero =>
    by_cases hc : c = c₁
    · subst hc
      obtain ⟨hunread, hhlen⟩ := unread_eq_header hlen
      refine (LocalMove.bare h hidle hunread hhlen hmagic hzero).of_eq ?_
      simp [Server.view, readTo, arrivedFor, receivedFrom, dispatchedFor, queuedFor, writtenTo,
        refusedFor]
    · exact hother hc (by simpa using fun h => hc h.symm) (Function.update_of_ne hc _ _)
        (Function.update_of_ne hc _ _) rfl (by simp [Obs.client])
  | @write c₁ n k h hpos hn =>
    by_cases hc : c = c₁
    · subst hc
      refine (LocalMove.write h hpos hn).of_eq ?_
      simp [Server.view, wrote, arrivedFor, receivedFrom, dispatchedFor, queuedFor, writtenTo,
        refusedFor]
    · exact hother hc (by simp) (Function.update_of_ne hc _ _) rfl rfl (by simp [Obs.client])
  | release r =>
    exact (LocalMove.skip (by simp)).of_eq (view_of_other rfl rfl rfl (by simp [Obs.client]))

lemma Move.nextClient_le (hm : Move W s e s') : s.nextClient ≤ s'.nextClient := by
  cases hm <;> first | exact le_rfl | exact Nat.le_succ _

lemma Moves.nextClient_le {es : List Effect} (h : Moves W s es s') :
    s.nextClient ≤ s'.nextClient := by
  induction h with
  | nil => exact le_rfl
  | cons hm _ ih => exact hm.nextClient_le.trans ih

/-- A client that connects starts with a fresh view. -/
lemma view_handleConnection (hs : s.Inv) : s.handleConnection.view s.nextClient = .fresh := by
  set c := s.nextClient with hc
  have hlog : ({ s.handleConnection with log := s.log } : Server).view c
      = ({ s.handleConnection with log := [] } : Server).view c :=
    view_of_other rfl rfl (List.nil_append _).symm fun o ho hcl => lt_irrefl _ (hs.log_lt o ho c hcl)
  have hconnected : s.handleConnection.view c
      = ({ s.handleConnection with log := s.log } : Server).view c := by
    simp [view, handleConnection, arrivedFor, receivedFrom, dispatchedFor, queuedFor, writtenTo,
      refusedFor]
  rw [hconnected, hlog]
  simp [view, View.fresh, handleConnection, arrivedFor, receivedFrom, dispatchedFor, queuedFor,
    writtenTo, refusedFor, hc]

end Server

end WayfireIpc
