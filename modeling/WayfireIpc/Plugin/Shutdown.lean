/-
# Unplugging an output

`fini` of one instance announces the shutdown to every client, and its timer tears the server
down, whether or not other instances are left.  The other instances are spared exactly when
no client has asked for the event and the timer does not expire before they are gone.
-/
import WayfireIpc.Plugin.Shared

namespace WayfireIpc

namespace Server

variable {W : World} {s s' : Server}

/-- Between two states no shutdown event is queued, no client is disconnected, and the listening
socket is not closed. -/
def Spared (s s' : Server) : Prop :=
  ∃ obs, s'.log = s.log ++ obs ∧ ∀ o ∈ obs,
    (∀ c payload, o ≠ .queued c ⟨IpcEventType.shutdown.code, payload⟩) ∧
    (∀ c, o ≠ .disconnected c) ∧ ∀ r, o ≠ .released (.listenSocket r)

lemma Spared.of_log_eq (h : s'.log = s.log) : Spared s s' :=
  ⟨[], by rw [h, List.append_nil], fun _ ho => absurd ho List.not_mem_nil⟩

/-- No listed client is subscribed to the shutdown event. -/
def Unheard (s : Server) : Prop :=
  ∀ c ∈ s.ipcClientList, ∀ k, s.heap c = some k → ¬ k.Subscribed .shutdown

/-- The shutdown event spares the clients if and only if nobody has asked for it. -/
lemma spared_shutdown_iff (hs : s.Inv) {json : Buf}
    (h : s.signalEvent W .shutdown json = .ok s') : Spared s s' ↔ s.Unheard := by
  obtain ⟨s₁, heq, hvisits⟩ := signalEvent_visits (W := W) hs .shutdown json
  cases heq.symm.trans h
  constructor
  · rintro ⟨obs, hlog, hobs⟩ c hc k hk hsub
    rw [hvisits.log_eq, List.append_cancel_left_eq] at hlog
    -- the entry of the subscribed client is its frame or its disconnection
    have hentry : ∀ o ∈ s.eventObs W .shutdown json c, o ∈ obs := by
      rintro o ho
      rw [← hlog]
      exact List.mem_flatMap.mpr ⟨c, hc, ho⟩
    rw [eventObs, hk] at hentry
    simp only [hsub, not_true_eq_false, if_false] at hentry
    by_cases hacc : k.Accepts W c (eventLength json)
    · rw [if_pos hacc] at hentry
      exact (hobs _ (hentry _ List.mem_cons_self)).1 c _ rfl
    · rw [if_neg hacc] at hentry
      exact (hobs _ (hentry (.disconnected c) (by simp))).2.1 c rfl
  · intro hnone
    refine .of_log_eq ?_
    have hnil : s.ipcClientList.flatMap (s.eventObs W .shutdown json) = [] := by
      refine List.flatMap_eq_nil_iff.mpr fun c hc => ?_
      obtain ⟨k, hk⟩ := hs.listed_live c hc
      rw [eventObs, hk]
      exact if_pos (hnone c hc k hk)
    rw [hvisits.log_eq, hnil, List.append_nil]

/-- A teardown closes the listening socket. -/
lemma not_spared_teardown {r : ℕ} (hsocket : s.ipcSocket = some r)
    (hledger : s'.ledger = s.ledger ++ s.teardown) : ¬ Spared s s' := by
  rintro ⟨obs, hlog, hobs⟩
  have hteardown : obs.filterMap Obs.entry = s.teardown := by
    rw [ledger, hlog, List.filterMap_append] at hledger
    exact List.append_cancel_left hledger
  have hmem : .released (.listenSocket r) ∈ obs.filterMap Obs.entry := by
    rw [hteardown, teardown, hsocket]
    simp
  obtain ⟨o, ho, hentry⟩ := List.mem_filterMap.mp hmem
  have heq : o = .released (.listenSocket r) := by
    cases o <;> simp_all [Obs.entry]
  exact (hobs o ho).2.2 r heq

end Server

namespace IpcPlugin

open Server

variable {W : World} {p p' : IpcPlugin} {input : Input}

/-- While another instance is left, the end of an instance spares the clients, and so does the expiry
of a timer. -/
def Spares (W : World) (p : IpcPlugin) (input : Input) : Prop :=
  ∀ p', step W p input = .ok p' →
    match input with
    | .fini i => i ∈ p.instances → p.instances.filter (· ≠ i) ≠ [] → Spared p.server p'.server
    | .finiTimeout t => t ∈ p.finiTimers → p.instances ≠ [] → Spared p.server p'.server
    | _ => True

/-- While another instance is left, no instance ends with a client listening for the shutdown, and no
timer expires. -/
def Quiet (p : IpcPlugin) : Input → Prop
  | .fini i => p.destroyed = false → i ∈ p.instances → p.instances.filter (· ≠ i) ≠ [] →
      p.server.Unheard
  | .finiTimeout t => p.destroyed = false → t ∈ p.finiTimers → p.instances = []
  | _ => True

lemma spares_iff (hinv : p.Inv) (hp : p.Accounts) : Spares W p input ↔ p.Quiet input := by
  cases input with
  | fini i =>
    by_cases hlive : p.destroyed = false ∧ i ∈ p.instances
    · obtain ⟨hdestroyed, hi⟩ := hlive
      obtain ⟨p', heq, -, hfini⟩ := fini_finalised (W := W) hinv.server i
      have hstep : step W p (.fini i) = .ok p' := by
        rw [step.eq_def, if_neg (by simp [hdestroyed])]
        simp only [if_pos hi, heq]
      have hshutdown := hfini.shutdown
      rw [performSignals_singleton] at hshutdown
      have hiff := spared_shutdown_iff hinv.server hshutdown
      constructor
      · exact fun h _ _ hne => hiff.mp (h p' hstep hi hne)
      · rintro h p₁ heq₁ - hne
        cases hstep.symm.trans heq₁
        exact hiff.mpr (h hdestroyed hi hne)
    · refine iff_of_true (fun p' hstep hi _ => ?_) fun hdestroyed hi => absurd ⟨hdestroyed, hi⟩ hlive
      -- the plugin is gone with the display
      have hdestroyed : p.destroyed = true := by
        by_contra hcon
        exact hlive ⟨by simpa using hcon, hi⟩
      rw [step.eq_def, if_pos hdestroyed] at hstep
      cases hstep
      exact .of_log_eq rfl
  | finiTimeout t =>
    by_cases hlive : p.destroyed = false ∧ t ∈ p.finiTimers
    · obtain ⟨hdestroyed, ht⟩ := hlive
      obtain ⟨p', heq, hdest⟩ := handleDisplayDestroy_destroyed (p := { p with
        finiTimers := p.finiTimers.filter (· ≠ t) }) hinv.server
      have hstep : step W p (.finiTimeout t) = .ok p' := by
        rw [step.eq_def, if_neg (by simp [hdestroyed])]
        simp only [if_pos ht]
        exact heq
      obtain ⟨r, hsocket, -⟩ := hp.socket (hp.timers (List.ne_nil_of_mem ht)).1
      have hnot : ¬ Spared p.server p'.server := not_spared_teardown hsocket hdest.server.ledger_eq
      constructor
      · intro h _ _
        by_contra hne
        exact hnot (h p' hstep ht hne)
      · exact fun h p₁ _ _ hne => absurd (h hdestroyed ht) hne
    · refine iff_of_true (fun p' hstep ht _ => ?_) fun hdestroyed ht => absurd ⟨hdestroyed, ht⟩ hlive
      have hdestroyed : p.destroyed = true := by
        by_contra hcon
        exact hlive ⟨by simpa using hcon, ht⟩
      rw [step.eq_def, if_pos hdestroyed] at hstep
      cases hstep
      exact .of_log_eq rfl
  | _ => exact iff_of_true (fun _ _ => trivial) trivial

/-- In a run, the instances that are left and the clients are spared at each step if and only if each
step is quiet. -/
theorem allSteps_spares_iff (W : World) (is : List Input) :
    Machine.AllSteps (step W) (Spares W) initial is ↔ Machine.AllSteps (step W) Quiet initial is :=
  Machine.allSteps_congr (step W) (I := fun p => p.Inv ∧ p.Accounts)
    (fun _ _ _ hp hstep => ⟨step_inv hp.1 hstep, step_accounts hp.1 hp.2 hstep⟩)
    (fun _ _ hp => spares_iff hp.1 hp.2) ⟨inv_initial, accounts_initial⟩ is

/-- Of two outputs one is unplugged.  Its timer expires while the other output still has its
instance. -/
theorem unplugging_not_spared :
    ∃ p, Machine.run (step plainWorld) initial [.init, .init, .callback (.connection true), .fini 0]
        = .ok p ∧ p.instances = [1] ∧ p.finiTimers = [0] ∧
      ¬ Spares plainWorld p (.finiTimeout 0) := by
  have hok : (Machine.run (step plainWorld) initial
      [.init, .init, .callback (.connection true), .fini 0]).isOk = true := by decide +kernel
  have hrun := Machine.run_final _ hok
  refine ⟨_, hrun, by decide +kernel, by decide +kernel, ?_⟩
  have hinv := run_accounts hrun
  rw [spares_iff hinv.1 hinv.2]
  intro hquiet
  have hmem : 0 ∈ (Machine.final (step plainWorld) initial
      [.init, .init, .callback (.connection true), .fini 0]).finiTimers := by decide +kernel
  exact absurd (hquiet (by decide +kernel) hmem) (by decide +kernel)

end IpcPlugin

end WayfireIpc
