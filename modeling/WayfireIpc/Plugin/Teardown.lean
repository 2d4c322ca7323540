/-
# What is released twice

The timer of `fini` and both listeners for the destruction of the display lead to the same
teardown, and the pointers it follows are never reset.  A listener that is added while it is
linked corrupts the list of the display, so that nothing can be said about its destruction.  In
the other runs one instance follows the other, each with its `serve`, its `fini` and its timer,
and nothing is released more often than it has been acquired if and only if the display is not
destroyed between a `fini` and the expiry of its timer.
-/
import WayfireIpc.Plugin.Shared

namespace WayfireIpc

namespace IpcPlugin

open Server

variable {W : World} {p p' : IpcPlugin} {i t : ℕ} {input : Input}

/-- Nothing has been released more often than it has been acquired, by the server or by `fini`.  A
`serve` acquires one event source, so that `handle_display_destroy` has run at most once for it. -/
def ReleasedOnce (p : IpcPlugin) : Prop := p.server.ledger.Once ∧ p.ledger.Once

/-- No listener is added while it is linked: no instance starts while the listener of the server is,
and none ends while that of `ipc.cpp` is. -/
def Unlinked (p : IpcPlugin) : Input → Prop
  | .init => p.destroyed = false → .ipcDisplayDestroy ∉ p.destroySignal.linked
  | .fini i => p.destroyed = false → i ∈ p.instances → .displayDestroy ∉ p.destroySignal.linked
  | _ => True

/-- The display is destroyed only while `display_destroy` is not linked, that is, not between a `fini`
and the expiry of its timer. -/
def Due (p : IpcPlugin) : Input → Prop
  | .displayDestroy => p.destroyed = false → .displayDestroy ∉ p.destroySignal.linked
  | _ => True

instance (p : IpcPlugin) : DecidablePred p.Unlinked
  | .init | .fini _ => inferInstanceAs (Decidable (_ → _))
  | .finiTimeout _ | .displayDestroy | .callback _ | .emit _ _ _ | .viewCreated _ | .viewDestroyed _ =>
    isTrue trivial

instance (p : IpcPlugin) : DecidablePred p.Due
  | .displayDestroy => inferInstanceAs (Decidable (_ → _))
  | .init | .fini _ | .finiTimeout _ | .callback _ | .emit _ _ _ | .viewCreated _ | .viewDestroyed _ =>
    isTrue trivial

/-! ## The phases of a run -/

/-- What `ipc_event_source` and `ipc_socket` stand for has been acquired and not released. -/
structure Served (s : Server) : Prop where
  source : ∃ r, s.ipcEventSource = some r ∧ s.ledger.releases (.listenSource r) = 0
  socket : ∃ r, s.ipcSocket = some r ∧ s.ledger.releases (.listenSocket r) = 0

/-- Where a run stands in which no listener is added while it is linked. -/
inductive Phase (p : IpcPlugin) : Prop
  /-- Nothing is registered. -/
  | down (linked_eq : p.destroySignal.linked = []) (instances_eq : p.instances = [])
      (timers_eq : p.finiTimers = [])
  /-- The only instance serves. -/
  | serving (linked_eq : p.destroySignal.linked = [.ipcDisplayDestroy])
      (instances_eq : ∃ i, p.instances = [i]) (timers_eq : p.finiTimers = []) (served : Served p.server)
  /-- The instance has ended, and its timer has not expired. -/
  | finishing (t : ℕ) (linked_eq : p.destroySignal.linked = [.ipcDisplayDestroy, .displayDestroy])
      (instances_eq : p.instances = []) (timers_eq : p.finiTimers = [t])
      (pointer_eq : p.finiEventSource = some t) (served : Served p.server)
      (timer : p.ledger.releases (.timer t) = 0)

/-- What holds as long as each teardown has been due. -/
structure Balanced (p : IpcPlugin) : Prop where
  once : p.ReleasedOnce
  server_listeners : p.server.ledger.acquisitions .displayDestroyListener
    = p.server.ledger.releases .displayDestroyListener
      + p.destroySignal.linked.count .ipcDisplayDestroy
  fini_listeners : p.ledger.acquisitions .displayDestroyListener
    = p.ledger.releases .displayDestroyListener + p.destroySignal.linked.count .displayDestroy
  phase : p.destroyed = false → p.Phase

lemma balanced_initial : initial.Balanced where
  once := ⟨Ledger.once_nil, Ledger.once_nil⟩
  server_listeners := rfl
  fini_listeners := rfl
  phase := fun _ => .down rfl rfl rfl

lemma Untouched.served (h : Untouched p p') (hp : Served p.server) : Served p'.server := by
  obtain ⟨hsource, hsocket⟩ := hp
  rw [← h.server.source_eq, ← h.server.ledger_eq] at hsource
  rw [← h.server.socket_eq, ← h.server.ledger_eq] at hsocket
  exact ⟨hsource, hsocket⟩

lemma Untouched.balanced (h : Untouched p p') (hp : p.Balanced) : p'.Balanced where
  once := by
    rw [ReleasedOnce, h.server.ledger_eq, h.ledger_eq]
    exact hp.once
  server_listeners := by
    rw [h.server.ledger_eq, h.destroySignal_eq]
    exact hp.server_listeners
  fini_listeners := by
    rw [h.ledger_eq, h.destroySignal_eq]
    exact hp.fini_listeners
  phase := by
    intro hlive
    rw [h.destroyed_eq] at hlive
    cases hp.phase hlive with
    | down hlinked hinstances htimers =>
      exact .down (by rw [h.destroySignal_eq, hlinked]) (by rw [h.instances_eq, hinstances])
        (by rw [h.finiTimers_eq, htimers])
    | serving hlinked hinstances htimers hserved =>
      exact .serving (by rw [h.destroySignal_eq, hlinked]) (by rw [h.instances_eq]; exact hinstances)
        (by rw [h.finiTimers_eq, htimers]) (h.served hserved)
    | finishing t hlinked hinstances htimers hpointer hserved htimer =>
      exact .finishing t (by rw [h.destroySignal_eq, hlinked]) (by rw [h.instances_eq, hinstances])
        (by rw [h.finiTimers_eq, htimers]) (by rw [h.finiEventSource_eq, hpointer]) (h.served hserved)
        (by rw [h.ledger_eq, htimer])

/-- Without the listener of the server nothing is registered. -/
lemma Phase.down_of_notMem (h : p.Phase) (hnot : .ipcDisplayDestroy ∉ p.destroySignal.linked) :
    p.destroySignal.linked = [] ∧ p.instances = [] ∧ p.finiTimers = [] := by
  cases h with
  | down hlinked hinstances htimers => exact ⟨hlinked, hinstances, htimers⟩
  | serving hlinked | finishing _ hlinked =>
    rw [hlinked] at hnot
    exact absurd List.mem_cons_self hnot

/-- The first instance, or one behind the teardown of the one before. -/
lemma Initialised.balanced (h : Initialised p p') (hlive : p.destroyed = false) (ha : p.Accounts)
    (hunlinked : .ipcDisplayDestroy ∉ p.destroySignal.linked) (hp : p.Balanced) : p'.Balanced := by
  obtain ⟨hnil, hinstances, htimers⟩ := (hp.phase hlive).down_of_notMem hunlinked
  have hsignal := h.destroySignal_eq
  rw [DestroySignal.add_of_notMem hunlinked, hnil, List.nil_append] at hsignal
  -- nothing is released
  have hreleases : ∀ r, p'.server.ledger.releases r = p.server.ledger.releases r := by
    intro r
    rw [h.server_eq, serve_ledger, Ledger.releases_append]
    simp
  have hsocket := hp.once.1 (.listenSocket p.server.nextResource)
  rw [ha.socket_fresh _ le_rfl, Nat.le_zero] at hsocket
  have hsource := hp.once.1 (.listenSource (p.server.nextResource + 1))
  rw [ha.source_fresh _ (Nat.le_succ _), Nat.le_zero] at hsource
  have hserver := hp.server_listeners
  have hfini := hp.fini_listeners
  rw [hnil] at hserver hfini
  constructor
  · refine ⟨fun r => ?_, by rw [h.ledger_eq]; exact hp.once.2⟩
    rw [hreleases, h.server_eq, serve_ledger, Ledger.acquisitions_append]
    exact (hp.once.1 r).trans (Nat.le_add_right _ _)
  · rw [hreleases, h.server_eq, serve_ledger, hsignal]
    simpa using hserver
  · rw [h.ledger_eq, hsignal]
    simpa using hfini
  · intro _
    refine .serving (by rw [hsignal]) ⟨p.nextInstance, ?_⟩ (by rw [h.finiTimers_eq, htimers])
      ⟨⟨p.server.nextResource + 1, ?_, ?_⟩, p.server.nextResource, ?_, ?_⟩
    · rw [h.instances_eq, hinstances, List.nil_append]
    · rw [h.server_eq]
      rfl
    · rw [hreleases, hsource]
    · rw [h.server_eq]
      rfl
    · rw [hreleases, hsocket]

/-- The instance that serves ends. -/
lemma Finalised.balanced (h : Finalised W i p p') (hlive : p.destroyed = false) (hinv : p.Inv)
    (hi : i ∈ p.instances) (ha : p.Accounts) (hp : p.Balanced) : p'.Balanced := by
  have hkeeps := h.keeps hinv.server
  obtain ⟨hlinked, hinstances, htimers, hserved⟩ : p.destroySignal.linked = [.ipcDisplayDestroy] ∧
      p.instances = [i] ∧ p.finiTimers = [] ∧ Served p.server := by
    cases hp.phase hlive with
    | down _ hinstances | finishing _ _ hinstances =>
      rw [hinstances] at hi
      cases hi
    | serving hlinked hinstances htimers hserved =>
      obtain ⟨j, hj⟩ := hinstances
      rw [hj, List.mem_singleton] at hi
      exact ⟨hlinked, hi ▸ hj, htimers, hserved⟩
  have hsignal := h.destroySignal_eq
  rw [DestroySignal.add_of_notMem (by rw [hlinked]; decide), hlinked] at hsignal
  have hserver := hp.server_listeners
  have hfini := hp.fini_listeners
  rw [hlinked] at hserver hfini
  -- the timer is a new one
  have htimer := hp.once.2 (.timer p.nextTimer)
  rw [ha.timer_eq, if_neg (lt_irrefl _), Nat.le_zero] at htimer
  constructor
  · refine ⟨by rw [hkeeps.ledger_eq]; exact hp.once.1, fun r => ?_⟩
    rw [h.ledger_eq, Ledger.releases_append, Ledger.acquisitions_append]
    have := hp.once.2 r
    simp
    omega
  · rw [hkeeps.ledger_eq, hsignal]
    simpa using hserver
  · rw [h.ledger_eq, hsignal]
    simpa using hfini
  · intro _
    refine .finishing p.nextTimer (by rw [hsignal]; rfl) ?_ (by rw [h.finiTimers_eq, htimers]; rfl)
      h.finiEventSource_eq ⟨?_, ?_⟩ ?_
    · rw [h.instances_eq, hinstances]
      simp
    · rw [hkeeps.source_eq, hkeeps.ledger_eq]
      exact hserved.source
    · rw [hkeeps.socket_eq, hkeeps.ledger_eq]
      exact hserved.socket
    · rw [h.ledger_eq, Ledger.releases_append, htimer]
      simp

/-! ## Teardowns -/

/-- A teardown behind a `serve` releases nothing twice. -/
lemma once_tornDown {s s' : Server} (h : TornDown s s') (honce : s.ledger.Once)
    (hsource : ∀ r, s.ipcEventSource = some r → s.ledger.releases (.listenSource r)
      + 1 ≤ s.ledger.acquisitions (.listenSource r))
    (hsocket : ∀ r, s.ipcSocket = some r → s.ledger.releases (.listenSocket r)
      + 1 ≤ s.ledger.acquisitions (.listenSocket r))
    (hlistener : s.ledger.releases .displayDestroyListener + 1
      ≤ s.ledger.acquisitions .displayDestroyListener) : s'.ledger.Once := by
  intro r
  rw [h.ledger_eq, Ledger.releases_append, Ledger.acquisitions_append, acquisitions_teardown]
  cases r with
  | listenSource r =>
    rw [releases_teardown_source]
    split_ifs with hr
    · exact hsource r hr
    · exact honce _
  | listenSocket r =>
    rw [releases_teardown_socket]
    split_ifs with hr
    · exact hsocket r hr
    · exact honce _
  | displayDestroyListener =>
    rw [releases_teardown_listener]
    exact hlistener

/-- The teardown of the server that serves keeps its accounts and takes its listener away. -/
lemma server_balanced {s' : Server} (h : TornDown p.server s') (ha : p.Accounts) (hp : p.Balanced)
    (hstarted : p.nextInstance ≠ 0) (hserved : Served p.server)
    (hlinked : p.destroySignal.linked.count .ipcDisplayDestroy = 1) :
    s'.ledger.Once ∧ s'.ledger.acquisitions .displayDestroyListener
      = s'.ledger.releases .displayDestroyListener := by
  obtain ⟨r, hr, hrel⟩ := hserved.source
  obtain ⟨r₁, hr₁, hacq⟩ := ha.source hstarted
  obtain ⟨r₂, hr₂, hrel₂⟩ := hserved.socket
  obtain ⟨r₃, hr₃, hacq₃⟩ := ha.socket hstarted
  obtain rfl : r = r₁ := Option.some.inj (hr.symm.trans hr₁)
  obtain rfl : r₂ = r₃ := Option.some.inj (hr₂.symm.trans hr₃)
  have hbalance := hp.server_listeners
  rw [hlinked] at hbalance
  refine ⟨once_tornDown h hp.once.1 ?_ ?_ hbalance.ge, ?_⟩
  · rintro r' hr'
    obtain rfl := Option.some.inj (hr.symm.trans hr')
    omega
  · rintro r' hr'
    obtain rfl := Option.some.inj (hr₂.symm.trans hr')
    omega
  · rw [h.ledger_eq, Ledger.releases_append, Ledger.acquisitions_append, acquisitions_teardown,
      releases_teardown_listener, hbalance]

/-- The timer of the instance that has ended takes everything away. -/
lemma Destroyed.balanced
    (h : Destroyed { p with finiTimers := p.finiTimers.filter (· ≠ t) } p')
    (hlive : p.destroyed = false) (ht : t ∈ p.finiTimers) (ha : p.Accounts) (hp : p.Balanced) :
    p'.Balanced := by
  cases hp.phase hlive with
  | down _ _ htimers | serving _ _ htimers =>
    rw [htimers] at ht
    cases ht
  | finishing t' hlinked hinstances htimers hpointer hserved htimer =>
    rw [htimers, List.mem_singleton] at ht
    subst ht
    have hstarted := (ha.timers (by rw [htimers]; simp)).1
    obtain ⟨honce, hlisteners⟩ := server_balanced (p := p) h.server ha hp hstarted hserved
      (by rw [hlinked]; rfl)
    have hnil : p'.destroySignal.linked = [] := by
      rw [h.destroySignal_eq]
      show (p.destroySignal.linked.erase _).erase _ = _
      rw [hlinked]
      decide
    have hledger : p'.ledger
        = p.ledger ++ [.released (.timer t), .released .displayDestroyListener] := by
      rw [h.ledger_eq]
      show p.ledger ++ p.finiEventSource.toList.map _ ++ _ = _
      rw [hpointer, List.append_assoc]
      rfl
    have hacq := ha.timer_eq t
    rw [if_pos (ha.pointer_lt t hpointer)] at hacq
    have hfini := hp.fini_listeners
    rw [hlinked] at hfini
    have hfini : p.ledger.acquisitions .displayDestroyListener
        = p.ledger.releases .displayDestroyListener + 1 := hfini
    constructor
    · refine ⟨honce, fun r => ?_⟩
      rw [hledger, Ledger.releases_append, Ledger.acquisitions_append]
      have honce := hp.once.2 r
      cases r with
      | displayDestroyListener =>
        simp
        omega
      | timer t' =>
        by_cases htt : t = t'
        · subst htt
          simp
          omega
        · simpa [htt] using honce
    · rw [hnil]
      exact hlisteners
    · rw [hnil, hledger]
      simp
      omega
    · intro _
      refine .down hnil (by rw [h.instances_eq]; exact hinstances) ?_
      rw [h.finiTimers_eq]
      show (p.finiTimers.filter _).filter _ = _
      rw [htimers]
      simp

/-- The destruction of the display while nothing is registered, or while the only instance serves. -/
lemma destroyDisplay_balanced (h : p.destroyDisplay = .ok p') (hlive : p.destroyed = false)
    (hinv : p.Inv) (ha : p.Accounts) (hdue : .displayDestroy ∉ p.destroySignal.linked)
    (hp : p.Balanced) : p'.Balanced := by
  obtain ⟨-, p₁, hall, rfl⟩ := destroyDisplay_ok_iff.mp h
  cases hp.phase hlive with
  | down hlinked =>
    rw [hlinked] at hall
    cases hall
    exact ⟨hp.once, hp.server_listeners, hp.fini_listeners, nofun⟩
  | serving hlinked hinstances _ hserved =>
    obtain ⟨i, hi⟩ := hinstances
    have hstarted : p.nextInstance ≠ 0 := by
      have := hinv.instances_lt i (by rw [hi]; simp)
      omega
    obtain ⟨s', heq, htorn⟩ := handleDisplayDestroy_tornDown hinv.server
    rw [hlinked, List.foldlM_cons, notify.eq_def, if_pos (by rw [hlinked]; simp)] at hall
    simp only [serverDisplayDestroy_eq heq, Machine.ok_bind] at hall
    cases hall
    obtain ⟨honce, hlisteners⟩ := server_balanced htorn ha hp hstarted hserved (by rw [hlinked]; rfl)
    have hnil : (p.destroySignal.remove .ipcDisplayDestroy).linked = [] := by
      show p.destroySignal.linked.erase _ = _
      rw [hlinked]
      rfl
    have hfini := hp.fini_listeners
    rw [hlinked] at hfini
    refine ⟨⟨honce, hp.once.2⟩, ?_, ?_, nofun⟩
    · rw [hnil]
      exact hlisteners
    · rw [hnil]
      exact hfini
  | finishing _ hlinked =>
    rw [hlinked] at hdue
    exact absurd (by simp) hdue

/-! ## A teardown that is not due -/

/-- An event source has been released twice. -/
def Spoilt (p : IpcPlugin) : Prop := ∃ r, 2 ≤ p.server.ledger.releases (.listenSource r)

lemma Spoilt.not_once (h : p.Spoilt) (ha : p.Accounts) : ¬ p.ReleasedOnce := by
  rintro ⟨hserver, -⟩
  obtain ⟨r, hr⟩ := h
  have := hserver (.listenSource r)
  have := ha.source_le r
  omega

lemma Spoilt.mono (h : p.Spoilt)
    (hserver : ∀ r, p.server.ledger.releases r ≤ p'.server.ledger.releases r) : p'.Spoilt := by
  obtain ⟨r, hr⟩ := h
  exact ⟨r, hr.trans (hserver _)⟩

/-- What is released twice stays so. -/
lemma step_spoilt (hinv : p.Inv) (h : p.Spoilt) (hstep : step W p input = .ok p') : p'.Spoilt := by
  cases step_touches hinv hstep with
  | init _ hinit =>
    refine h.mono fun r => ?_
    rw [hinit.server_eq, serve_ledger, Ledger.releases_append]
    exact Nat.le_add_right _ _
  | fini _ _ hfini => exact h.mono fun r => by rw [(hfini.keeps hinv.server).ledger_eq]
  | finiTimeout _ _ hdest => exact h.mono hdest.releases.server_releases
  | displayDestroy _ hdest => exact h.mono (destroyDisplay_releases hinv.server hdest).server_releases
  | idle _ hidle => exact h.mono fun r => by rw [hidle.server.ledger_eq]

/-- A listener that is linked tears the server down. -/
lemma notify_tornDown {l : DestroyListener} (hp : p.server.Inv) (hl : l ∈ p.destroySignal.linked)
    (h : p.notify l = .ok p') : TornDown p.server p'.server := by
  rw [notify.eq_def, if_pos hl] at h
  cases l with
  | ipcDisplayDestroy => exact (serverDisplayDestroy_releases hp h).2.1
  | displayDestroy =>
    obtain ⟨p₁, heq, hdest⟩ := handleDisplayDestroy_destroyed hp
    cases heq.symm.trans h
    exact hdest.server

/-- The destruction of the display before the timer has expired: both listeners tear the server down,
and the event source is released twice. -/
lemma destroyDisplay_spoilt (h : p.destroyDisplay = .ok p') (hlive : p.destroyed = false)
    (hinv : p.Inv) (ha : p.Accounts) (hp : p.Balanced)
    (hdue : .displayDestroy ∈ p.destroySignal.linked) : p'.Spoilt := by
  obtain ⟨-, p₁, hall, rfl⟩ := destroyDisplay_ok_iff.mp h
  cases hp.phase hlive with
  | down hlinked | serving hlinked =>
    rw [hlinked] at hdue
    exact absurd hdue (by decide)
  | finishing t hlinked _ htimers =>
    obtain ⟨r, hr, -⟩ := ha.source (ha.timers (by rw [htimers]; simp)).1
    refine ⟨r, ?_⟩
    show 2 ≤ p₁.server.ledger.releases (.listenSource r)
    rw [hlinked, List.foldlM_cons] at hall
    obtain ⟨p₂, hfirst, hall⟩ := Machine.bind_ok_iff.mp hall
    rw [List.foldlM_cons] at hall
    obtain ⟨p₃, hsecond, hall⟩ := Machine.bind_ok_iff.mp hall
    cases hall
    have hmem : DestroyListener.ipcDisplayDestroy ∈ p.destroySignal.linked := by rw [hlinked]; simp
    have htorn := notify_tornDown hinv.server hmem hfirst
    have hmem₂ : DestroyListener.displayDestroy ∈ p₂.destroySignal.linked := by
      rw [notify.eq_def, if_pos hmem] at hfirst
      rw [(serverDisplayDestroy_releases hinv.server hfirst).2.2]
      show _ ∈ p.destroySignal.linked.erase _
      rw [hlinked]
      decide
    have htorn₂ := notify_tornDown htorn.inv hmem₂ hsecond
    have hcount := htorn.source_releases r
    have hcount₂ := htorn₂.source_releases r
    rw [if_pos hr] at hcount
    rw [htorn.source_eq, if_pos hr] at hcount₂
    omega

/-! ## Steps and runs -/

lemma step_balanced (hinv : p.Inv) (ha : p.Accounts) (hp : p.Balanced) (hunlinked : p.Unlinked input)
    (hdue : p.Due input) (hstep : step W p input = .ok p') : p'.Balanced := by
  cases step_touches hinv hstep with
  | init hlive hinit => exact hinit.balanced hlive ha (hunlinked hlive) hp
  | fini hlive hi hfini => exact hfini.balanced hlive hinv hi ha hp
  | finiTimeout hlive ht hdest => exact hdest.balanced hlive ht ha hp
  | displayDestroy hlive hdest => exact destroyDisplay_balanced hdest hlive hinv ha (hdue hlive) hp
  | idle _ hidle => exact hidle.balanced hp

lemma step_not_due (hinv : p.Inv) (ha : p.Accounts) (hp : p.Balanced) (hdue : ¬ p.Due input)
    (hstep : step W p input = .ok p') : p'.Spoilt := by
  cases input with
  | displayDestroy =>
    obtain ⟨hlive, hnot⟩ : p.destroyed = false ∧ .displayDestroy ∈ p.destroySignal.linked := by
      rw [Due, Classical.not_imp, not_not] at hdue
      exact hdue
    cases step_touches hinv hstep with
    | displayDestroy _ hdest => exact destroyDisplay_spoilt hdest hlive hinv ha hp hnot
    | idle hidle =>
      rcases hidle with hdestroyed | hidle
      · rw [hlive] at hdestroyed
        cases hdestroyed
      · exact absurd hidle id
  | _ => exact absurd trivial hdue

/-- In a run in which no listener is added while it is linked, nothing has been released twice at the
end if and only if the display has not been destroyed between a `fini` and the expiry of its timer. -/
theorem releasedOnce_iff {is : List Input} (h : Machine.run (step W) initial is = .ok p)
    (hunlinked : Machine.AllSteps (step W) Unlinked initial is) :
    p.ReleasedOnce ↔ Machine.AllSteps (step W) Due initial is := by
  have hdichotomy := Machine.run_dichotomy (step W) (I := fun p => p.Inv ∧ p.Accounts)
    (G := Balanced) (B := Spoilt) (A := Unlinked) (P := Due)
    (fun _ _ _ hp hstep => ⟨step_inv hp.1 hstep, step_accounts hp.1 hp.2 hstep⟩)
    (fun _ _ _ hp hgood hunlinked hdue hstep =>
      step_balanced hp.1 hp.2 hgood hunlinked hdue hstep)
    (fun _ _ _ hp hgood hdue hstep => step_not_due hp.1 hp.2 hgood hdue hstep)
    (fun _ _ _ hp hbad hstep => step_spoilt hp.1 hbad hstep)
    ⟨inv_initial, accounts_initial⟩ balanced_initial hunlinked h
  rcases hdichotomy with ⟨hall, hgood⟩ | ⟨hnot, hbad⟩
  · exact iff_of_true hgood.once hall
  · exact iff_of_false (hbad.not_once (run_accounts h).2) hnot

/-- One instance ends, its timer expires, and then the display is destroyed. -/
theorem timer_first_releasedOnce :
    ∃ p, Machine.run (step plainWorld) initial [.init, .fini 0, .finiTimeout 0, .displayDestroy]
      = .ok p ∧ p.ReleasedOnce := by
  have hok : (Machine.run (step plainWorld) initial
      [.init, .fini 0, .finiTimeout 0, .displayDestroy]).isOk = true := by decide +kernel
  have hrun := Machine.run_final _ hok
  exact ⟨_, hrun, (releasedOnce_iff hrun (by decide +kernel)).mpr (by decide +kernel)⟩

/-- The display is destroyed before the timer expires: both listeners tear the server down. -/
theorem display_first_releases_twice :
    ∃ p, Machine.run (step plainWorld) initial [.init, .fini 0, .displayDestroy] = .ok p ∧
      p.server.ledger.acquisitions (.listenSource 1) = 1 ∧
      p.server.ledger.releases (.listenSource 1) = 2 ∧ ¬ p.ReleasedOnce := by
  have hok : (Machine.run (step plainWorld) initial [.init, .fini 0, .displayDestroy]).isOk
      = true := by decide +kernel
  have hrun := Machine.run_final _ hok
  refine ⟨_, hrun, by decide +kernel, by decide +kernel, ?_⟩
  exact Spoilt.not_once ⟨1, by decide +kernel⟩ (run_accounts hrun).2

end IpcPlugin

end WayfireIpc
