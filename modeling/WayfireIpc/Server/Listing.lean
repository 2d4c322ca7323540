/-
# The list of clients

`ipc_client_list` has exactly the live clients as long as `serve` runs only while it is empty.
`serve` clears the list, so that a client that is connected at this moment stays connected and
gets no event any more.
-/
import WayfireIpc.Server.Replies

namespace WayfireIpc

namespace Server

variable {W : World} {s s' : Server} {c : ℕ}

/-- Every live client is listed; that it is listed once, and no other client is, belongs to the
invariant of the server. -/
def Complete (s : Server) : Prop := ∀ c, s.Live c → c ∈ s.ipcClientList

/-- The input does not start an instance of the plugin while a client is connected. -/
def StartsAlone (s : Server) : Input → Prop
  | .serve => s.ipcClientList = []
  | .readable c mask calls A => ∀ k f, s.heap c = some k → HandsOver s c k mask calls f →
      ¬ StartsInstance A f
  | _ => True

lemma Move.complete {e : Effect} (h : Move W s e s') (he : e ≠ .serve) (hs : s.Complete) :
    s'.Complete := by
  have hupdate : ∀ {c₁ : ℕ} {k k' : I3IpcClient}, s.heap c₁ = some k →
      s'.heap = Function.update s.heap c₁ (some k') → s'.ipcClientList = s.ipcClientList →
      s'.Complete := by
    intro c₁ k k' hk hheap hlist c hc
    rw [hlist]
    exact hs c ((live_update hheap ⟨k, hk⟩ c).mp hc)
  have hdrop : ∀ {c₁ : ℕ}, s'.heap = Function.update s.heap c₁ none →
      s'.ipcClientList = s.ipcClientList.filter (· ≠ c₁) → s'.Complete := by
    rintro c₁ hheap hlist c ⟨k, hk⟩
    rw [hheap] at hk
    by_cases hc : c = c₁
    · subst hc
      rw [Function.update_self] at hk
      cases hk
    · rw [Function.update_of_ne hc] at hk
      rw [hlist]
      exact List.mem_filter.mpr ⟨hs c ⟨k, hk⟩, by simpa using hc⟩
  cases h with
  | enqueue h | setMask h | header h | payload h | bare h | write h => exact hupdate h rfl rfl
  | refuse | drop => exact hdrop rfl rfl
  | @badHeader c₁ k h =>
    refine hdrop ?_ rfl
    simp [Server.drop, readTo]
  | serve => exact absurd rfl he
  | arrive | release => exact hs
  | connect =>
    rintro c ⟨k, hk⟩
    by_cases hc : c = s.nextClient
    · exact List.mem_append_right _ (List.mem_singleton.mpr hc)
    · have hk : s.heap c = some k := by simpa [handleConnection, hc] using hk
      exact List.mem_append_left _ (hs c ⟨k, hk⟩)

/-- The log only grows, and `serve` leaves its entries in it. -/
lemma Move.log_grows {e : Effect} (h : Move W s e s') : ∃ obs, s'.log = s.log ++ obs ∧
    (e = .serve → .acquired .displayDestroyListener ∈ obs) := by
  cases h with
  | serve => exact ⟨_, rfl, fun _ => by simp⟩
  | refuse | badHeader => exact ⟨_, List.append_assoc _ _ _, nofun⟩
  | setMask => exact ⟨[], (List.append_nil _).symm, nofun⟩
  | _ => exact ⟨_, rfl, nofun⟩

lemma Moves.log_grows {es : List Effect} (h : Moves W s es s') : ∃ obs, s'.log = s.log ++ obs ∧
    (.serve ∈ es → .acquired .displayDestroyListener ∈ obs) := by
  induction h with
  | nil => exact ⟨[], (List.append_nil _).symm, fun h => absurd h List.not_mem_nil⟩
  | cons hm _ ih =>
    obtain ⟨obs, hobs, hmem⟩ := hm.log_grows
    obtain ⟨obs', hobs', hmem'⟩ := ih
    refine ⟨obs ++ obs', by rw [hobs', hobs, List.append_assoc], fun hserve => ?_⟩
    rcases List.mem_cons.mp hserve with heq | hserve
    · exact List.mem_append_left _ (hmem heq.symm)
    · exact List.mem_append_right _ (hmem' hserve)

lemma Moves.complete {es : List Effect} (h : Moves W s es s') (hes : .serve ∉ es)
    (hs : s.Complete) : s'.Complete :=
  h.invariant (Q := fun e => e ≠ .serve) (fun _ _ _ he hs h => h.complete he hs)
    (fun _ he hcon => hes (hcon ▸ he)) hs

/-- A step that is no `serve` and starts no instance contains no `serve`. -/
lemma step_moves_of_startsAlone (hs : s.Inv) {i : Input} (hne : i ≠ .serve) (hi : s.StartsAlone i)
    (hstep : step W s i = .ok s') :
    ∃ es, Moves W s es s' ∧ .serve ∉ es ∧ ∀ e ∈ es, i.Allows e := by
  obtain ⟨es, hmoves, hes⟩ := step_moves hs hstep
  cases i with
  | serve => exact absurd rfl hne
  | displayDestroy | connection | arrive | writable =>
    refine ⟨es, hmoves, fun hserve => ?_, hes⟩
    have hallow := hes _ hserve
    simp [Input.Allows] at hallow
  | signal ev json =>
    refine ⟨es, hmoves, fun hserve => ?_, hes⟩
    obtain ⟨obs, hlog, hmem⟩ := hmoves.log_grows
    obtain ⟨⟨obs', hlog', -, -, hserved⟩, -⟩ :=
      signalEvent_replied (c := 0) (p := False) hs hstep
    obtain rfl := List.append_cancel_left (hlog.symm.trans hlog')
    exact hserved _ (hmem hserve)
  | readable c mask calls A =>
    by_cases hsource : s.readSources c = true
    swap
    · rw [step, if_neg hsource] at hstep
      cases hstep
      exact ⟨[], .nil, List.not_mem_nil, fun e he => absurd he List.not_mem_nil⟩
    obtain ⟨k, hk⟩ := (hs.read_iff c).mp hsource
    rw [step, if_pos hsource] at hstep
    rcases clientHandleReadable_cases (W := W) hk A mask calls with
      ⟨f, es₁, s₁, k₁, hhands, hmoves₁, hread, h₁, -, heq⟩ | ⟨-, es₁, s₁, heq, hmoves₁, -, hes₁⟩
    · have hreads : .serve ∉ es₁ := fun hserve => by cases hread _ hserve
      have hstarts : ¬ StartsInstance A f := hi k f hk hhands
      rw [heq] at hstep
      have hs₁ := hmoves₁.inv hs
      obtain ⟨es₂, hmoves₂, hes₂⟩ := (handlePayload_returns (W := W) hs₁ h₁ A f).outputs hstep
      refine ⟨es₁ ++ es₂, hmoves₁.append hmoves₂, fun hserve => ?_, fun e he => ?_⟩
      · -- a start of an instance behind the request would be in the log
        have hserve := (List.mem_append.mp hserve).resolve_left hreads
        obtain ⟨obs, hlog, hmem⟩ := hmoves₂.log_grows
        obtain ⟨ts, obs', hlog', -, -, hserved⟩ := (handlePayload_answered hs₁ h₁ hstep).replied
        obtain rfl := List.append_cancel_left (hlog.symm.trans hlog')
        exact hstarts (hserved _ (hmem hserve))
      · rcases List.mem_append.mp he with he | he
        · exact Or.inl (hread e he)
        · exact Or.inr (Or.inr (hes₂ e he))
    · cases heq.symm.trans hstep
      refine ⟨es₁, hmoves₁, fun hserve => ?_, fun e he => ?_⟩
      · rcases hes₁ _ hserve with he | ⟨he, -⟩ <;> cases he
      · exact (hes₁ e he).elim Or.inl fun he => Or.inr (Or.inl he)

/-- Where no instance is started, no live client is lost from the list. -/
lemma step_complete (hs : s.Inv) (h : s.Complete) {i : Input} (hi : s.StartsAlone i)
    (hstep : step W s i = .ok s') : s'.Complete := by
  by_cases hserve : i = .serve
  · subst hserve
    cases hstep
    intro c hc
    have hnone : s.ipcClientList = [] := hi
    have := h c hc
    rw [hnone] at this
    cases this
  · obtain ⟨es, hmoves, hes, -⟩ := step_moves_of_startsAlone hs hserve hi hstep
    exact hmoves.complete hes h

/-- In a run in which every instance is started while no client is connected, the list has every
live client once, and no other client. -/
theorem listed_of_starts_alone {is : List Input} (hrun : Machine.run (step W) init is = .ok s)
    (hstarts : Machine.AllSteps (step W) StartsAlone init is) :
    s.ipcClientList.Nodup ∧ ∀ c, c ∈ s.ipcClientList ↔ s.Live c := by
  have hinv : s.Inv := Reachable.inv ⟨is, hrun⟩
  have hinit : init.Complete := by
    rintro c ⟨k, hk⟩
    cases hk
  have hcomplete := Machine.run_invariant_of_allSteps (step W)
    (I := fun s => s.Inv ∧ s.Complete)
    (fun s i s' hs hi hstep => ⟨step_inv hs.1 hstep, step_complete hs.1 hs.2 hi hstep⟩)
    ⟨inv_init, hinit⟩ hstarts hrun
  exact ⟨hinv.list_nodup, fun c => ⟨hinv.listed_live c, hcomplete.2 c⟩⟩

/-- A client connects between the starts of two instances. -/
theorem second_instance_loses_client :
    ∃ s, Machine.run (step plainWorld) init [.serve, .connection true, .serve] = .ok s ∧
      s.Live 0 ∧ 0 ∉ s.ipcClientList := by
  refine ⟨_, rfl, ?_, ?_⟩ <;> decide +kernel

/-- A client that connects behind the starts of both instances is listed. -/
theorem both_instances_first :
    ∃ s, Machine.run (step plainWorld) init [.serve, .serve, .connection true] = .ok s ∧
      (s.ipcClientList.Nodup ∧ ∀ c, c ∈ s.ipcClientList ↔ s.Live c) := by
  have hrun : Machine.run (step plainWorld) init [.serve, .serve, .connection true]
      = .ok init.serve.serve.handleConnection := rfl
  refine ⟨_, hrun, listed_of_starts_alone hrun ?_⟩
  simp [Machine.AllSteps, StartsAlone, step, init, serve]

end Server

end WayfireIpc
