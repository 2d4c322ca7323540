/-
# What the instances share

The pointers of the server, the timers, the listeners for the destruction of the display and
the ledgers.  Four inputs touch them: the start of an instance, its end, the expiry of a
timer and the destruction of the display.
-/
import WayfireIpc.Plugin.Reach

namespace WayfireIpc

namespace Server

variable {W : World} {s s' : Server}

/-- Signalling events leaves the pointers and the ledger of the server alone. -/
lemma performSignals_keeps (ev : IpcEventType) (jsons : List Buf) (hs : s.Inv)
    (h : performSignals W s (jsons.map (.event ev)) = .ok s') : Keeps s s' := by
  induction jsons generalizing s with
  | nil =>
    cases h
    exact .refl
  | cons json jsons ih =>
    rw [List.map_cons, performSignals] at h
    obtain ⟨s₁, heq, h⟩ := Machine.bind_ok_iff.mp h
    have hstep : step W s (.signal ev json) = .ok s₁ := heq
    have hkeeps : Keeps s s₁ := step_keeps (i := .signal ev json) hs (by simp) (by simp) trivial hstep
    exact hkeeps.trans (ih (step_inv hs hstep) h)

/-- A callback starts no instance. -/
lemma callback_keeps (hs : s.Inv) (cb : Callback) (h : step W s cb.input = .ok s') : Keeps s s' := by
  refine step_keeps hs ?_ ?_ ?_ h
  · cases cb <;> exact nofun
  · cases cb <;> exact nofun
  · cases cb with
    | readable c mask calls A =>
      rintro k f - - ⟨-, hserve⟩
      obtain ⟨e, -, he⟩ := List.mem_map.mp hserve
      cases he
    | _ => trivial

/-- What `handle_display_destroy` does. -/
structure TornDown (s s' : Server) : Prop where
  inv : s'.Inv
  socket_eq : s'.ipcSocket = s.ipcSocket
  source_eq : s'.ipcEventSource = s.ipcEventSource
  next_eq : s'.nextResource = s.nextResource
  ledger_eq : s'.ledger = s.ledger ++ s.teardown

lemma handleDisplayDestroy_tornDown (hs : s.Inv) :
    ∃ s', s.handleDisplayDestroy = .ok s' ∧ TornDown s s' := by
  obtain ⟨s', heq, hinv, hsocket, hsource, hnext, hledger, -⟩ := handleDisplayDestroy_spec hs
  exact ⟨s', heq, hinv, hsocket, hsource, hnext, hledger⟩

lemma releases_teardown_source (s : Server) (r : ℕ) :
    s.teardown.releases (.listenSource r) = if s.ipcEventSource = some r then 1 else 0 := by
  rw [teardown]
  cases s.ipcEventSource <;> cases s.ipcSocket <;> simp

lemma releases_teardown_socket (s : Server) (r : ℕ) :
    s.teardown.releases (.listenSocket r) = if s.ipcSocket = some r then 1 else 0 := by
  rw [teardown]
  cases s.ipcEventSource <;> cases s.ipcSocket <;> simp

lemma releases_teardown_listener (s : Server) :
    s.teardown.releases .displayDestroyListener = 1 := by
  rw [teardown]
  cases s.ipcEventSource <;> cases s.ipcSocket <;> simp

@[simp] lemma acquisitions_teardown (s : Server) (r : Resource) : s.teardown.acquisitions r = 0 := by
  rw [teardown]
  cases s.ipcEventSource <;> cases s.ipcSocket <;> simp

lemma TornDown.source_releases (h : TornDown s s') (r : ℕ) :
    s'.ledger.releases (.listenSource r)
      = s.ledger.releases (.listenSource r) + if s.ipcEventSource = some r then 1 else 0 := by
  rw [h.ledger_eq, Ledger.releases_append, releases_teardown_source]

end Server

namespace IpcPlugin

open Server

variable {W : World} {q : PluginQueries} {p p' p₁ : IpcPlugin} {i t : ℕ} {e : Emitter}
  {sig : PluginSignal} {input : Input}

/-- Nothing that the instances share changes. -/
structure Untouched (p p' : IpcPlugin) : Prop where
  server : Keeps p.server p'.server
  instances_eq : p'.instances = p.instances
  nextInstance_eq : p'.nextInstance = p.nextInstance
  destroySignal_eq : p'.destroySignal = p.destroySignal
  finiEventSource_eq : p'.finiEventSource = p.finiEventSource
  finiTimers_eq : p'.finiTimers = p.finiTimers
  nextTimer_eq : p'.nextTimer = p.nextTimer
  ledger_eq : p'.ledger = p.ledger
  destroyed_eq : p'.destroyed = p.destroyed

lemma Untouched.refl : Untouched p p := ⟨.refl, rfl, rfl, rfl, rfl, rfl, rfl, rfl, rfl⟩

lemma emit_untouched (hp : p.server.Inv) (h : p.emit W q e sig = .ok p') : Untouched p p' := by
  obtain ⟨s', hsignals, heq⟩ := emit_spec (W := W) (q := q) hp e sig
  cases heq.symm.trans h
  have hannounce : p.announce e sig = { p with outputs := (p.announce e sig).outputs } := by
    unfold announce
    split <;> rfl
  rw [(rebindAll_onlyAttached sig (p.listeners e sig.connection)).eq, hannounce]
  rw [copies, PluginSignal.events, ← List.map_replicate, ← List.map_flatten] at hsignals
  exact ⟨performSignals_keeps sig.eventType _ hp hsignals, rfl, rfl, rfl, rfl, rfl, rfl, rfl, rfl⟩

/-- What `init` does to what the instances share. -/
structure Initialised (p p' : IpcPlugin) : Prop where
  server_eq : p'.server = p.server.serve
  instances_eq : p'.instances = p.instances ++ [p.nextInstance]
  nextInstance_eq : p'.nextInstance = p.nextInstance + 1
  destroySignal_eq : p'.destroySignal = p.destroySignal.add .ipcDisplayDestroy
  finiEventSource_eq : p'.finiEventSource = p.finiEventSource
  finiTimers_eq : p'.finiTimers = p.finiTimers
  nextTimer_eq : p'.nextTimer = p.nextTimer
  ledger_eq : p'.ledger = p.ledger

lemma initInstance_initialised (p : IpcPlugin) : Initialised p p.initInstance := by
  obtain ⟨attached, heq⟩ := bindEvents_eq { p with server := p.server.serve } p.nextInstance
  rw [initInstance, heq]
  exact ⟨rfl, rfl, rfl, rfl, rfl, rfl, rfl, rfl⟩

lemma Finalised.keeps (h : Finalised W i p p') (hp : p.server.Inv) : Keeps p.server p'.server :=
  performSignals_keeps .shutdown [W.jsonToString shutdownJsonData] hp h.shutdown

/-- What `ipc_t::handle_display_destroy` does. -/
structure Destroyed (p p' : IpcPlugin) : Prop where
  server : TornDown p.server p'.server
  instances_eq : p'.instances = p.instances
  nextInstance_eq : p'.nextInstance = p.nextInstance
  destroySignal_eq : p'.destroySignal
    = (p.destroySignal.remove .displayDestroy).remove .ipcDisplayDestroy
  finiEventSource_eq : p'.finiEventSource = p.finiEventSource
  finiTimers_eq : p'.finiTimers = p.finiTimers.filter (some · ≠ p.finiEventSource)
  nextTimer_eq : p'.nextTimer = p.nextTimer
  ledger_eq : p'.ledger = p.ledger ++
    p.finiEventSource.toList.map (fun t => .released (.timer t)) ++ [.released .displayDestroyListener]

lemma handleDisplayDestroy_destroyed (hp : p.server.Inv) :
    ∃ p', p.handleDisplayDestroy = .ok p' ∧ Destroyed p p' := by
  obtain ⟨s', heq, htorn⟩ := handleDisplayDestroy_tornDown hp
  have hremove : p.removeFiniEventSource = { p with
      finiTimers := p.finiTimers.filter (some · ≠ p.finiEventSource)
      ledger := p.ledger ++ p.finiEventSource.toList.map (fun t => .released (.timer t)) } := by
    obtain ⟨-, -, -, -, -, -, -, source, -, -, -, -⟩ := p
    cases source <;> simp [removeFiniEventSource]
  refine ⟨_, handleDisplayDestroy_eq heq, ?_⟩
  rw [hremove]
  exact ⟨htorn, rfl, rfl, rfl, rfl, rfl, rfl, rfl⟩

/-- The input touches nothing that the instances share: an instance is not finalised twice, and a
timer that has been removed does not expire. -/
def Idle (p : IpcPlugin) : Input → Prop
  | .init | .displayDestroy => False
  | .fini i => i ∉ p.instances
  | .finiTimeout t => t ∉ p.finiTimers
  | _ => True

/-- What a step from `p` to `p'` does to what the instances share. -/
inductive Touches (W : World) (p p' : IpcPlugin) : Input → Prop
  | init (hlive : p.destroyed = false) (h : Initialised p p') : Touches W p p' .init
  | fini {i : ℕ} (hlive : p.destroyed = false) (hi : i ∈ p.instances) (h : Finalised W i p p') :
    Touches W p p' (.fini i)
  | finiTimeout {t : ℕ} (hlive : p.destroyed = false) (ht : t ∈ p.finiTimers)
      (h : Destroyed { p with finiTimers := p.finiTimers.filter (· ≠ t) } p') :
    Touches W p p' (.finiTimeout t)
  | displayDestroy (hlive : p.destroyed = false) (h : p.destroyDisplay = .ok p') :
    Touches W p p' .displayDestroy
  | idle {input : Input} (hidle : p.destroyed = true ∨ p.Idle input) (h : Untouched p p') :
    Touches W p p' input

/-- What the steps of the plugin do to what the instances share. -/
lemma step_touches (hp : p.Inv) (h : step W p input = .ok p') : Touches W p p' input := by
  unfold step at h
  split_ifs at h with hdestroyed
  · cases h
    exact .idle (Or.inl hdestroyed) .refl
  rw [Bool.not_eq_true] at hdestroyed
  cases input with
  | init => exact .init hdestroyed (Except.ok.inj h ▸ initInstance_initialised p)
  | fini i =>
    simp only at h
    split_ifs at h with hi
    · obtain ⟨p₁, heq, -, hfini⟩ := fini_finalised (W := W) hp.server i
      cases heq.symm.trans h
      exact .fini hdestroyed hi hfini
    · cases h
      exact .idle (Or.inr hi) .refl
  | finiTimeout t =>
    simp only at h
    split_ifs at h with ht
    · obtain ⟨p₁, heq, hdest⟩ := handleDisplayDestroy_destroyed (p := { p with
        finiTimers := p.finiTimers.filter (· ≠ t) }) hp.server
      cases heq.symm.trans h
      exact .finiTimeout hdestroyed ht hdest
    · cases h
      exact .idle (Or.inr ht) .refl
  | displayDestroy => exact .displayDestroy hdestroyed h
  | callback cb =>
    obtain ⟨s', heq, h⟩ := Machine.bind_ok_iff.mp h
    cases h
    exact .idle (Or.inr trivial)
      ⟨callback_keeps hp.server cb heq, rfl, rfl, rfl, rfl, rfl, rfl, rfl, rfl⟩
  | emit q e sig => exact .idle (Or.inr trivial) (emit_untouched hp.server h)
  | viewCreated v | viewDestroyed v =>
    cases h
    exact .idle (Or.inr trivial) ⟨.refl, rfl, rfl, rfl, rfl, rfl, rfl, rfl, rfl⟩

/-! ## Teardowns only release -/

/-- Things are released and nothing is acquired; the pointers stay as they are. -/
structure Releases (p p' : IpcPlugin) : Prop where
  server : p'.server.Inv
  socket_eq : p'.server.ipcSocket = p.server.ipcSocket
  source_eq : p'.server.ipcEventSource = p.server.ipcEventSource
  next_eq : p'.server.nextResource = p.server.nextResource
  nextInstance_eq : p'.nextInstance = p.nextInstance
  nextTimer_eq : p'.nextTimer = p.nextTimer
  finiEventSource_eq : p'.finiEventSource = p.finiEventSource
  timers : p'.finiTimers ⊆ p.finiTimers
  server_acquisitions : ∀ r, p'.server.ledger.acquisitions r = p.server.ledger.acquisitions r
  server_releases : ∀ r, p.server.ledger.releases r ≤ p'.server.ledger.releases r
  acquisitions : ∀ r, p'.ledger.acquisitions r = p.ledger.acquisitions r
  releases : ∀ r, p.ledger.releases r ≤ p'.ledger.releases r

namespace Releases

lemma refl (hp : p.server.Inv) : Releases p p :=
  ⟨hp, rfl, rfl, rfl, rfl, rfl, rfl, List.Subset.refl _, fun _ => rfl, fun _ => le_rfl, fun _ => rfl,
    fun _ => le_rfl⟩

lemma trans (h : Releases p p₁) (h' : Releases p₁ p') : Releases p p' where
  server := h'.server
  socket_eq := h'.socket_eq.trans h.socket_eq
  source_eq := h'.source_eq.trans h.source_eq
  next_eq := h'.next_eq.trans h.next_eq
  nextInstance_eq := h'.nextInstance_eq.trans h.nextInstance_eq
  nextTimer_eq := h'.nextTimer_eq.trans h.nextTimer_eq
  finiEventSource_eq := h'.finiEventSource_eq.trans h.finiEventSource_eq
  timers := List.Subset.trans h'.timers h.timers
  server_acquisitions := fun r => (h'.server_acquisitions r).trans (h.server_acquisitions r)
  server_releases := fun r => (h.server_releases r).trans (h'.server_releases r)
  acquisitions := fun r => (h'.acquisitions r).trans (h.acquisitions r)
  releases := fun r => (h.releases r).trans (h'.releases r)

end Releases

lemma serverDisplayDestroy_releases (hp : p.server.Inv) (h : p.serverDisplayDestroy = .ok p') :
    Releases p p' ∧ TornDown p.server p'.server ∧
      p' = { p with
        server := p'.server
        destroySignal := p.destroySignal.remove .ipcDisplayDestroy } := by
  obtain ⟨s', heq, htorn⟩ := handleDisplayDestroy_tornDown hp
  cases (serverDisplayDestroy_eq heq).symm.trans h
  refine ⟨⟨htorn.inv, htorn.socket_eq, htorn.source_eq, htorn.next_eq, rfl, rfl, rfl,
    List.Subset.refl _, fun r => ?_, fun r => ?_, fun _ => rfl, fun _ => le_rfl⟩,
    htorn, rfl⟩
  · show s'.ledger.acquisitions r = _
    rw [htorn.ledger_eq, Ledger.acquisitions_append, acquisitions_teardown, add_zero]
  · show _ ≤ s'.ledger.releases r
    rw [htorn.ledger_eq, Ledger.releases_append]
    exact Nat.le_add_right _ _

lemma Destroyed.releases (h : Destroyed p p') : Releases p p' where
  server := h.server.inv
  socket_eq := h.server.socket_eq
  source_eq := h.server.source_eq
  next_eq := h.server.next_eq
  nextInstance_eq := h.nextInstance_eq
  nextTimer_eq := h.nextTimer_eq
  finiEventSource_eq := h.finiEventSource_eq
  timers := by
    rw [h.finiTimers_eq]
    exact List.filter_sublist.subset
  server_acquisitions := by
    intro r
    rw [h.server.ledger_eq, Ledger.acquisitions_append, acquisitions_teardown, add_zero]
  server_releases := by
    intro r
    rw [h.server.ledger_eq, Ledger.releases_append]
    exact Nat.le_add_right _ _
  acquisitions := by
    intro r
    rw [h.ledger_eq]
    cases p.finiEventSource <;> simp
  releases := by
    intro r
    rw [h.ledger_eq, Ledger.releases_append, Ledger.releases_append, add_assoc]
    exact Nat.le_add_right _ _

lemma notify_releases {l : DestroyListener} (hp : p.server.Inv) (h : p.notify l = .ok p') :
    Releases p p' := by
  unfold notify at h
  split_ifs at h with hl
  · cases l with
    | ipcDisplayDestroy => exact (serverDisplayDestroy_releases hp h).1
    | displayDestroy =>
      obtain ⟨p₁, heq, hdest⟩ := handleDisplayDestroy_destroyed hp
      cases heq.symm.trans h
      exact hdest.releases
  · cases h
    exact .refl hp

lemma notifyAll_releases (ls : List DestroyListener) (hp : p.server.Inv)
    (h : ls.foldlM notify p = .ok p') : Releases p p' := by
  induction ls generalizing p with
  | nil =>
    cases h
    exact .refl hp
  | cons l ls ih =>
    rw [List.foldlM_cons] at h
    obtain ⟨p₁, heq, h⟩ := Machine.bind_ok_iff.mp h
    have hone := notify_releases hp heq
    exact hone.trans (ih hone.server h)

lemma destroyDisplay_releases (hp : p.server.Inv) (h : p.destroyDisplay = .ok p') :
    Releases p p' := by
  obtain ⟨-, p₁, heq, rfl⟩ := destroyDisplay_ok_iff.mp h
  obtain ⟨h₁, h₂, h₃, h₄, h₅, h₆, h₇, h₈, h₉, h₁₀, h₁₁, h₁₂⟩ := notifyAll_releases _ hp heq
  exact ⟨h₁, h₂, h₃, h₄, h₅, h₆, h₇, h₈, h₉, h₁₀, h₁₁, h₁₂⟩

/-! ## The accounts -/

/-- What the pointers point to has been acquired, each listening source and each timer once. -/
structure Accounts (p : IpcPlugin) : Prop where
  socket : p.nextInstance ≠ 0 →
    ∃ r, p.server.ipcSocket = some r ∧ 1 ≤ p.server.ledger.acquisitions (.listenSocket r)
  source : p.nextInstance ≠ 0 →
    ∃ r, p.server.ipcEventSource = some r ∧ 1 ≤ p.server.ledger.acquisitions (.listenSource r)
  source_le : ∀ r, p.server.ledger.acquisitions (.listenSource r) ≤ 1
  source_fresh : ∀ r, p.server.nextResource ≤ r →
    p.server.ledger.acquisitions (.listenSource r) = 0
  socket_fresh : ∀ r, p.server.nextResource ≤ r →
    p.server.ledger.acquisitions (.listenSocket r) = 0
  timer_eq : ∀ t, p.ledger.acquisitions (.timer t) = if t < p.nextTimer then 1 else 0
  pointer_lt : ∀ t, p.finiEventSource = some t → t < p.nextTimer
  timers : p.finiTimers ≠ [] → p.nextInstance ≠ 0 ∧ p.finiEventSource.isSome

lemma accounts_initial : initial.Accounts where
  socket := fun h => absurd rfl h
  source := fun h => absurd rfl h
  source_le := fun _ => Nat.zero_le _
  source_fresh := fun _ _ => rfl
  socket_fresh := fun _ _ => rfl
  timer_eq := fun _ => rfl
  pointer_lt := nofun
  timers := fun h => absurd rfl h

lemma ne_nil_of_subset {α : Type} {l l' : List α} (h : l ⊆ l') (hne : l ≠ []) : l' ≠ [] := by
  rintro rfl
  exact hne (List.subset_nil.mp h)

lemma Releases.accounts (h : Releases p p') (hp : p.Accounts) : p'.Accounts where
  socket := by
    simp only [h.nextInstance_eq, h.socket_eq, h.server_acquisitions]
    exact hp.socket
  source := by
    simp only [h.nextInstance_eq, h.source_eq, h.server_acquisitions]
    exact hp.source
  source_le := by
    simp only [h.server_acquisitions]
    exact hp.source_le
  source_fresh := by
    simp only [h.server_acquisitions, h.next_eq]
    exact hp.source_fresh
  socket_fresh := by
    simp only [h.server_acquisitions, h.next_eq]
    exact hp.socket_fresh
  timer_eq := by
    simp only [h.acquisitions, h.nextTimer_eq]
    exact hp.timer_eq
  pointer_lt := by
    rw [h.finiEventSource_eq, h.nextTimer_eq]
    exact hp.pointer_lt
  timers := by
    rw [h.finiEventSource_eq, h.nextInstance_eq]
    exact fun hne => hp.timers (ne_nil_of_subset h.timers hne)

lemma Untouched.accounts (h : Untouched p p') (hp : p.Accounts) : p'.Accounts where
  socket := by
    rw [h.nextInstance_eq, h.server.socket_eq, h.server.ledger_eq]
    exact hp.socket
  source := by
    rw [h.nextInstance_eq, h.server.source_eq, h.server.ledger_eq]
    exact hp.source
  source_le := by
    rw [h.server.ledger_eq]
    exact hp.source_le
  source_fresh := by
    rw [h.server.ledger_eq, h.server.next_eq]
    exact hp.source_fresh
  socket_fresh := by
    rw [h.server.ledger_eq, h.server.next_eq]
    exact hp.socket_fresh
  timer_eq := by
    rw [h.ledger_eq, h.nextTimer_eq]
    exact hp.timer_eq
  pointer_lt := by
    rw [h.finiEventSource_eq, h.nextTimer_eq]
    exact hp.pointer_lt
  timers := by
    rw [h.finiTimers_eq, h.finiEventSource_eq, h.nextInstance_eq]
    exact hp.timers

lemma Initialised.accounts (h : Initialised p p') (hp : p.Accounts) : p'.Accounts where
  socket := by
    intro _
    rw [h.server_eq]
    exact ⟨p.server.nextResource, rfl, by simp⟩
  source := by
    intro _
    rw [h.server_eq]
    exact ⟨p.server.nextResource + 1, rfl, by simp⟩
  source_le := by
    intro r
    rw [h.server_eq]
    simp only [serve_ledger, Ledger.acquisitions_append, Ledger.acquisitions_cons_acquired,
      Ledger.acquisitions_nil, reduceCtorEq, if_false, add_zero, zero_add,
      Resource.listenSource.injEq]
    split_ifs with hr
    · rw [hp.source_fresh r (by omega)]
    · exact hp.source_le r
  source_fresh := by
    intro r hr
    rw [h.server_eq] at hr ⊢
    have hr : p.server.nextResource + 2 ≤ r := hr
    simp only [serve_ledger, Ledger.acquisitions_append, Ledger.acquisitions_cons_acquired,
      Ledger.acquisitions_nil, reduceCtorEq, if_false, add_zero, zero_add,
      Resource.listenSource.injEq]
    rw [hp.source_fresh r (by omega), if_neg (by omega)]
  socket_fresh := by
    intro r hr
    rw [h.server_eq] at hr ⊢
    have hr : p.server.nextResource + 2 ≤ r := hr
    simp only [serve_ledger, Ledger.acquisitions_append, Ledger.acquisitions_cons_acquired,
      Ledger.acquisitions_nil, reduceCtorEq, if_false, add_zero,
      Resource.listenSocket.injEq]
    rw [hp.socket_fresh r (by omega), if_neg (by omega)]
  timer_eq := by
    rw [h.ledger_eq, h.nextTimer_eq]
    exact hp.timer_eq
  pointer_lt := by
    rw [h.finiEventSource_eq, h.nextTimer_eq]
    exact hp.pointer_lt
  timers := by
    rw [h.finiTimers_eq, h.finiEventSource_eq, h.nextInstance_eq]
    exact fun hne => ⟨Nat.succ_ne_zero _, (hp.timers hne).2⟩

lemma Finalised.accounts (h : Finalised W i p p') (hinv : p.Inv) (hi : i ∈ p.instances)
    (hp : p.Accounts) : p'.Accounts where
  socket := by
    have hkeeps := h.keeps hinv.server
    rw [h.nextInstance_eq, hkeeps.socket_eq, hkeeps.ledger_eq]
    exact hp.socket
  source := by
    have hkeeps := h.keeps hinv.server
    rw [h.nextInstance_eq, hkeeps.source_eq, hkeeps.ledger_eq]
    exact hp.source
  source_le := by
    rw [(h.keeps hinv.server).ledger_eq]
    exact hp.source_le
  source_fresh := by
    have hkeeps := h.keeps hinv.server
    rw [hkeeps.ledger_eq, hkeeps.next_eq]
    exact hp.source_fresh
  socket_fresh := by
    have hkeeps := h.keeps hinv.server
    rw [hkeeps.ledger_eq, hkeeps.next_eq]
    exact hp.socket_fresh
  timer_eq := by
    intro t
    rw [h.ledger_eq, h.nextTimer_eq]
    simp only [Ledger.acquisitions_append, Ledger.acquisitions_cons_acquired,
      Ledger.acquisitions_nil, reduceCtorEq, if_false, add_zero, zero_add, hp.timer_eq,
      FiniResource.timer.injEq]
    split_ifs <;> omega
  pointer_lt := by
    rintro t ht
    rw [h.finiEventSource_eq] at ht
    rw [h.nextTimer_eq, ← Option.some.inj ht]
    exact Nat.lt_succ_self _
  timers := by
    rw [h.finiEventSource_eq, h.nextInstance_eq]
    have := hinv.instances_lt i hi
    exact fun _ => ⟨by omega, rfl⟩

lemma step_accounts (hinv : p.Inv) (hp : p.Accounts) (hstep : step W p input = .ok p') :
    p'.Accounts := by
  cases step_touches hinv hstep with
  | init _ h => exact h.accounts hp
  | fini _ hi h => exact h.accounts hinv hi hp
  | finiTimeout _ _ hdest =>
    refine hdest.releases.accounts ?_
    refine ⟨hp.socket, hp.source, hp.source_le, hp.source_fresh, hp.socket_fresh, hp.timer_eq, hp.pointer_lt,
      fun hne => hp.timers ?_⟩
    exact ne_nil_of_subset List.filter_sublist.subset hne
  | displayDestroy _ h => exact (destroyDisplay_releases hinv.server h).accounts hp
  | idle _ h => exact h.accounts hp

/-- The accounts of every state that a run reaches. -/
theorem run_accounts {is : List Input} (h : Machine.run (step W) initial is = .ok p) :
    p.Inv ∧ p.Accounts :=
  Machine.run_invariant (step W) (I := fun p => p.Inv ∧ p.Accounts)
    (fun _ _ _ hp hstep => ⟨step_inv hp.1 hstep, step_accounts hp.1 hp.2 hstep⟩)
    ⟨inv_initial, accounts_initial⟩ h

end IpcPlugin

end WayfireIpc
