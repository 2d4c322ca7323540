/-
# The invariant of the plugin

Every step that does not fault keeps the invariant, so that it holds in every state that a
run reaches.
-/
import WayfireIpc.Plugin.Bindings

namespace WayfireIpc

namespace IpcPlugin

open Server

variable {W : World} {q : PluginQueries} {p p' p₁ p₂ : IpcPlugin} {i j : ℕ} {e : Emitter}
  {m : Connection} {a : Emitter × ℕ × Connection} {o : OutputRef} {sig : PluginSignal}

/-- Only the instances, the outputs and the connections matter beside the server. -/
lemma Inv.congr (hp : p.Inv) (hserver : p'.server.Inv) (hinstances : p'.instances = p.instances)
    (hnext : p'.nextInstance = p.nextInstance) (houtputs : p'.outputs = p.outputs)
    (hattached : p'.attached = p.attached) : p'.Inv where
  server := hserver
  instances_nodup := hinstances ▸ hp.instances_nodup
  instances_lt := by rw [hinstances, hnext]; exact hp.instances_lt
  attached_live := by rw [hattached, hinstances]; exact hp.attached_live
  attached_nodup := hattached ▸ hp.attached_nodup
  removed_layout := hattached ▸ hp.removed_layout
  core_bound := by rw [hattached, hinstances]; exact hp.core_bound
  output_bound := by rw [hattached, hinstances, houtputs]; exact hp.output_bound

lemma inv_initial : initial.Inv where
  server := inv_init
  instances_nodup := List.nodup_nil
  instances_lt := fun _ hi => absurd hi List.not_mem_nil
  attached_live := fun _ ha => absurd ha List.not_mem_nil
  attached_nodup := List.nodup_nil
  removed_layout := fun _ ha => absurd ha List.not_mem_nil
  core_bound := fun _ hi => absurd hi List.not_mem_nil
  output_bound := fun _ hi => absurd hi List.not_mem_nil

/-! ## Starting and finishing an instance -/

lemma attached_connectAll {cs : List (Emitter × Connection)} (ha : a ∈ p.attached) :
    a ∈ (p.connectAll i cs).attached := mem_connectAll.mpr (Or.inl ha)

lemma attached_bindOutputs (os : List OutputRef) (p : IpcPlugin)
    (ha : a ∈ p.attached ∨ ∃ o ∈ os, ∃ m ∈ outputConnections, a = (.output o, i, m)) :
    a ∈ (os.foldl (fun p o => p.bindOutputEvents i (some o)) p).attached := by
  induction os generalizing p with
  | nil =>
    rcases ha with ha | ⟨o, ho, -⟩
    · exact ha
    · cases ho
  | cons o os ih =>
    rw [List.foldl_cons]
    refine ih (p.bindOutputEvents i (some o)) ?_
    rw [bindOutputEvents, mem_connectAll]
    rcases ha with ha | ⟨o', ho', m, hm, rfl⟩
    · exact Or.inl (Or.inl ha)
    · rcases List.mem_cons.mp ho' with rfl | ho'
      · exact Or.inl (Or.inr ⟨_, mem_outputBindings.mpr ⟨m, hm, rfl⟩, rfl⟩)
      · exact Or.inr ⟨o', ho', m, hm, rfl⟩

lemma attached_bindViews (vs : List ViewRef) (p : IpcPlugin) (ha : a ∈ p.attached) :
    a ∈ (vs.foldl (fun p v => p.bindViewEvents i (some v)) p).attached := by
  induction vs generalizing p with
  | nil => exact ha
  | cons v vs ih =>
    rw [List.foldl_cons]
    refine ih (p.bindViewEvents i (some v)) ?_
    rw [bindViewEvents]
    exact attached_connectAll ha

lemma attached_bindEvents_core {c : Emitter × Connection} (hc : c ∈ coreConnections) :
    (c.1, i, c.2) ∈ (p.bindEvents i).attached :=
  mem_connectAll.mpr (Or.inr ⟨c, hc, rfl⟩)

lemma attached_bindEvents_output (ho : o ∈ p.outputs) (hm : m ∈ outputConnections) :
    (.output o, i, m) ∈ (p.bindEvents i).attached := by
  rw [bindEvents, bindCoreEvents]
  refine attached_connectAll (attached_bindViews _ _ (attached_bindOutputs _ _ (Or.inr ?_)))
  exact ⟨o, ho, m, hm, rfl⟩

lemma initInstance_inv (hp : p.Inv) : p.initInstance.Inv := by
  have hrebinds := bindEvents_rebinds { p with server := p.server.serve } p.nextInstance
  have hcore : ∀ c ∈ coreConnections, (c.1, p.nextInstance, c.2) ∈
      (bindEvents { p with server := p.server.serve } p.nextInstance).attached :=
    fun c hc => attached_bindEvents_core hc
  have houtput : ∀ o ∈ p.outputs, ∀ m ∈ outputConnections, (.output o, p.nextInstance, m) ∈
      (bindEvents { p with server := p.server.serve } p.nextInstance).attached :=
    fun o ho m hm => attached_bindEvents_output (p := { p with server := p.server.serve }) ho hm
  have hne : ∀ i ∈ p.instances, i ≠ p.nextInstance := fun i hi => (hp.instances_lt i hi).ne
  obtain ⟨attached, heq⟩ := bindEvents_eq { p with server := p.server.serve } p.nextInstance
  rw [heq] at hrebinds hcore houtput
  rw [initInstance, heq]
  refine ⟨hp.server.serve, ?_, fun i hi => ?_, fun a ha => ?_, hrebinds.nodup hp.attached_nodup,
    hrebinds.layout hp.removed_layout, fun i hi c hc => ?_, fun i hi o ho m hm => ?_⟩
  · refine List.nodup_append.mpr ⟨hp.instances_nodup, List.nodup_singleton _, fun i hi j hj => ?_⟩
    exact List.mem_singleton.mp hj ▸ hne i hi
  · show i < p.nextInstance + 1
    rcases List.mem_append.mp hi with hi | hi
    · exact Nat.lt_succ_of_lt (hp.instances_lt i hi)
    · exact List.mem_singleton.mp hi ▸ Nat.lt_succ_self _
  · by_cases hi : a.2.1 = p.nextInstance
    · exact List.mem_append_right _ (List.mem_singleton.mpr hi)
    · exact List.mem_append_left _ (hp.attached_live a ((hrebinds.others a hi).mp ha))
  · rcases List.mem_append.mp hi with hi | hi
    · exact (hrebinds.others (c.1, i, c.2) (hne i hi)).mpr (hp.core_bound i hi c hc)
    · exact List.mem_singleton.mp hi ▸ hcore c hc
  · rcases List.mem_append.mp hi with hi | hi
    · exact (hrebinds.others (.output o, i, m) (hne i hi)).mpr (hp.output_bound i hi o ho m hm)
    · exact List.mem_singleton.mp hi ▸ houtput o ho m hm

/-- The state of the server after `signal_shutdown_event`. -/
lemma signalShutdownEvent_ok {s : Server} (hs : s.Inv) :
    ∃ s', signalShutdownEvent W s = .ok s' ∧
      performSignals W s [.event .shutdown (W.jsonToString shutdownJsonData)] = .ok s' ∧ s'.Inv := by
  obtain ⟨s', heq, hs'⟩ := performSignals_ok (W := W) hs
    [.event .shutdown (W.jsonToString shutdownJsonData)]
  refine ⟨s', ?_, heq, hs'⟩
  rw [signalShutdownEvent, signalJson_eq hs fun _ => rfl]
  exact heq

/-- What `fini` does to the instances and to what they share. -/
structure Finalised (W : World) (i : ℕ) (p p' : IpcPlugin) : Prop where
  shutdown : performSignals W p.server [.event .shutdown (W.jsonToString shutdownJsonData)]
    = .ok p'.server
  instances_eq : p'.instances = p.instances.filter (· ≠ i)
  nextInstance_eq : p'.nextInstance = p.nextInstance
  outputs_eq : p'.outputs = p.outputs
  attached : ∀ a, a ∈ p'.attached ↔ a ∈ p.attached ∧ a.2.1 ≠ i
  attached_nodup : p.attached.Nodup → p'.attached.Nodup
  destroySignal_eq : p'.destroySignal = p.destroySignal.add .displayDestroy
  finiEventSource_eq : p'.finiEventSource = some p.nextTimer
  finiTimers_eq : p'.finiTimers = p.finiTimers ++ [p.nextTimer]
  nextTimer_eq : p'.nextTimer = p.nextTimer + 1
  ledger_eq : p'.ledger
    = p.ledger ++ [.acquired .displayDestroyListener, .acquired (.timer p.nextTimer)]
  destroyed_eq : p'.destroyed = p.destroyed

lemma fini_finalised (hp : p.server.Inv) (i : ℕ) :
    ∃ p', p.fini W i = .ok p' ∧ p'.server.Inv ∧ Finalised W i p p' := by
  obtain ⟨s', heq, hsignals, hs'⟩ := signalShutdownEvent_ok (W := W) hp
  have hrebinds := unbindEvents_rebinds { p with server := s' } i
  obtain ⟨attached, hunbind⟩ := unbindEvents_eq { p with server := s' } i
  rw [hunbind] at hrebinds
  rw [fini, heq, Machine.ok_bind, hunbind]
  refine ⟨_, rfl, hs', hsignals, rfl, rfl, rfl, fun a => ?_, fun hnodup => ?_, rfl, rfl, rfl, rfl, rfl,
    rfl⟩
  · simp only [List.mem_filter, decide_eq_true_eq]
    exact and_congr_left fun hi => hrebinds.others a hi
  · exact (hrebinds.nodup hnodup).filter _

lemma Finalised.inv (h : Finalised W i p p') (hserver : p'.server.Inv) (hp : p.Inv) : p'.Inv where
  server := hserver
  instances_nodup := h.instances_eq ▸ hp.instances_nodup.filter _
  instances_lt := by
    intro j hj
    rw [h.instances_eq] at hj
    rw [h.nextInstance_eq]
    exact hp.instances_lt j (List.mem_filter.mp hj).1
  attached_live := by
    intro a ha
    obtain ⟨ha, hi⟩ := (h.attached a).mp ha
    rw [h.instances_eq]
    exact List.mem_filter.mpr ⟨hp.attached_live a ha, by simpa using hi⟩
  attached_nodup := h.attached_nodup hp.attached_nodup
  removed_layout := fun a ha => hp.removed_layout a ((h.attached a).mp ha).1
  core_bound := by
    intro j hj c hc
    rw [h.instances_eq, List.mem_filter] at hj
    exact (h.attached _).mpr ⟨hp.core_bound j hj.1 c hc, by simpa using hj.2⟩
  output_bound := by
    intro j hj o ho m hm
    rw [h.instances_eq, List.mem_filter] at hj
    rw [h.outputs_eq] at ho
    exact (h.attached _).mpr ⟨hp.output_bound j hj.1 o ho m hm, by simpa using hj.2⟩

/-! ## Emissions -/

/-- The connections to the core are kept, and those to an output that is not removed. -/
lemma rebind_kept (ha : a ∈ p.attached) (hview : ∀ v, a.1 ≠ .view v)
    (houtput : ∀ o, sig = .outputRemoved (some o) → a.1 ≠ .output o) :
    a ∈ (p.rebind i sig).attached := by
  cases sig with
  | viewMapped view =>
    cases view with
    | none => exact ha
    | some v => exact attached_connectAll ha
  | viewUnmapped view =>
    cases view with
    | none => exact ha
    | some v =>
      refine mem_disconnectAll.mpr ⟨ha, fun c hc => ?_⟩
      obtain ⟨m, -, rfl⟩ := mem_viewBindings.mp hc
      rintro rfl
      exact hview v rfl
  | outputAdded output =>
    cases output with
    | none => exact ha
    | some o => exact attached_connectAll ha
  | outputRemoved output =>
    cases output with
    | none => exact ha
    | some o =>
      refine mem_disconnectAll.mpr ⟨ha, fun c hc => ?_⟩
      obtain ⟨m, -, rfl⟩ := mem_outputBindings.mp hc
      rintro rfl
      exact houtput o rfl rfl
  | _ => exact ha

lemma rebindAll_kept (is : List ℕ) (p : IpcPlugin) (ha : a ∈ p.attached)
    (hview : ∀ v, a.1 ≠ .view v) (houtput : ∀ o, sig = .outputRemoved (some o) → a.1 ≠ .output o) :
    a ∈ (p.rebindAll sig is).attached := by
  induction is generalizing p with
  | nil => exact ha
  | cons i is ih =>
    rw [rebindAll, List.foldl_cons]
    exact ih (p.rebind i sig) (rebind_kept ha hview houtput)

/-- An instance that hears of a new output is attached to it. -/
lemma rebindAll_outputAdded {is : List ℕ} (hi : i ∈ is) (hm : m ∈ outputConnections)
    (p : IpcPlugin) : (.output o, i, m) ∈ (p.rebindAll (.outputAdded (some o)) is).attached := by
  induction is generalizing p with
  | nil => cases hi
  | cons j is ih =>
    rw [rebindAll, List.foldl_cons]
    rcases List.mem_cons.mp hi with rfl | hi
    · refine rebindAll_kept is (p.rebind i (.outputAdded (some o))) ?_ (by simp) (by simp)
      exact mem_connectAll.mpr (Or.inr ⟨_, mem_outputBindings.mpr ⟨m, hm, rfl⟩, rfl⟩)
    · exact ih hi (p.rebind j (.outputAdded (some o)))

lemma rebindAll_rebinds (sig : PluginSignal) (is : List ℕ) (hp : p.Inv) (his : ∀ i ∈ is, i ∈ p.instances) :
    (∀ a ∈ (p.rebindAll sig is).attached, a.2.1 ∈ p.instances) ∧
      (p.rebindAll sig is).attached.Nodup ∧
      ∀ a ∈ (p.rebindAll sig is).attached, a.2.2 = .onOutputRemoved → a.1 = .outputLayout := by
  have hgen : ∀ (is : List ℕ) (p₁ : IpcPlugin), (∀ i ∈ is, i ∈ p.instances) →
      (∀ a ∈ p₁.attached, a.2.1 ∈ p.instances) → p₁.attached.Nodup →
      (∀ a ∈ p₁.attached, a.2.2 = .onOutputRemoved → a.1 = .outputLayout) →
      (∀ a ∈ (p₁.rebindAll sig is).attached, a.2.1 ∈ p.instances) ∧
        (p₁.rebindAll sig is).attached.Nodup ∧
        ∀ a ∈ (p₁.rebindAll sig is).attached, a.2.2 = .onOutputRemoved → a.1 = .outputLayout := by
    intro is
    induction is with
    | nil => exact fun p₁ _ hlive hnodup hlayout => ⟨hlive, hnodup, hlayout⟩
    | cons i is ih =>
      intro p₁ his hlive hnodup hlayout
      have hr := rebind_rebinds (i := i) (p := p₁) sig
      refine ih (p₁.rebind i sig) (fun j hj => his j (List.mem_cons_of_mem i hj)) (fun a ha => ?_)
        (hr.nodup hnodup) (hr.layout hlayout)
      by_cases hi : a.2.1 = i
      · exact hi ▸ his i List.mem_cons_self
      · exact hlive a ((hr.others a hi).mp ha)
  exact hgen is p his hp.attached_live hp.attached_nodup hp.removed_layout

/-- Behind an emission every instance is attached to every output. -/
lemma rebindAll_output (hp : p.Inv) (hi : i ∈ p.instances) (ho : o ∈ (p.announce e sig).outputs)
    (hm : m ∈ outputConnections) :
    (.output o, i, m) ∈ (p.rebindAll sig (p.listeners e sig.connection)).attached := by
  have hold : o ∈ p.outputs → (∀ o', sig = .outputRemoved (some o') → o ≠ o') →
      (.output o, i, m) ∈ (p.rebindAll sig (p.listeners e sig.connection)).attached := by
    intro ho hne
    refine rebindAll_kept _ p (hp.output_bound i hi o ho m hm) (by simp) fun o' hsig => ?_
    simpa using hne o' hsig
  by_cases hlayout : e = .outputLayout
  · subst hlayout
    cases sig with
    | outputAdded output =>
      cases output with
      | none => exact hold ho (by simp)
      | some o₁ =>
        rcases List.mem_append.mp ho with ho | ho
        · exact hold ho (by simp)
        · rw [List.mem_singleton.mp ho]
          exact rebindAll_outputAdded (mem_listeners.mpr
            (hp.core_bound i hi (.outputLayout, .onOutputAdded) (by decide))) hm p
    | outputRemoved output =>
      cases output with
      | none => exact hold ho (by simp)
      | some o₁ =>
        obtain ⟨ho, hne⟩ := List.mem_filter.mp ho
        refine hold ho fun o' hsig => ?_
        cases hsig
        simpa using hne
    | _ => exact hold ho (by simp)
  · have hsame : (p.announce e sig).outputs = p.outputs := by
      unfold announce
      split
      · exact absurd rfl hlayout
      · exact absurd rfl hlayout
      · rfl
    rw [hsame] at ho
    by_cases hremoved : ∃ o', sig = .outputRemoved (some o')
    · -- no instance hears of a removal but from the output layout
      obtain ⟨o', rfl⟩ := hremoved
      have hnone : p.listeners e (PluginSignal.outputRemoved (some o')).connection = [] := by
        refine List.eq_nil_iff_forall_not_mem.mpr fun j hj => ?_
        exact hlayout (hp.removed_layout _ (mem_listeners.mp hj) rfl)
      rw [hnone]
      exact hp.output_bound i hi o ho m hm
    · exact hold ho fun o' hsig => absurd ⟨o', hsig⟩ hremoved

lemma emit_inv (hp : p.Inv) (h : p.emit W q e sig = .ok p') : p'.Inv := by
  obtain ⟨s', hsignals, heq⟩ := emit_spec (W := W) (q := q) hp.server e sig
  cases heq.symm.trans h
  set is := p.listeners e sig.connection with his
  have hlive : ∀ i ∈ is, i ∈ p.instances := fun i hi => hp.attached_live _ (mem_listeners.mp hi)
  have hannounce : (p.announce e sig).attached = p.attached ∧
      (p.announce e sig).instances = p.instances ∧
      (p.announce e sig).nextInstance = p.nextInstance ∧ (p.announce e sig).server = p.server := by
    unfold announce
    split <;> exact ⟨rfl, rfl, rfl, rfl⟩
  have hrebind := (rebindAll_onlyAttached sig is).eq (p.announce e sig)
  have hinstances : ((p.announce e sig).rebindAll sig is).instances = p.instances := by
    rw [hrebind, hannounce.2.1]
  have hnext : ((p.announce e sig).rebindAll sig is).nextInstance = p.nextInstance := by
    rw [hrebind, hannounce.2.2.1]
  have houtputs : ((p.announce e sig).rebindAll sig is).outputs = (p.announce e sig).outputs := by
    rw [hrebind]
  -- the outputs do not matter for the connections
  obtain ⟨g, hg⟩ := rebindAll_onlyAttached sig is
  have hattached : ((p.announce e sig).rebindAll sig is).attached = (p.rebindAll sig is).attached := by
    rw [show (p.announce e sig).rebindAll sig is = _ from hg _, show p.rebindAll sig is = _ from hg _,
      hannounce.1]
  obtain ⟨hlive', hnodup', hlayout'⟩ := rebindAll_rebinds sig is hp hlive
  obtain ⟨s₁, heq₁, hs₁⟩ := performSignals_ok (W := W) hp.server
    (copies W q (p.announce e sig).outputs sig is.length)
  cases heq₁.symm.trans hsignals
  refine ⟨hs₁, ?_, ?_, ?_, ?_, ?_, ?_, ?_⟩
  · show ((p.announce e sig).rebindAll sig is).instances.Nodup
    exact hinstances ▸ hp.instances_nodup
  · show ∀ i ∈ ((p.announce e sig).rebindAll sig is).instances, _
    rw [hinstances]
    intro i hi
    exact hnext ▸ hp.instances_lt i hi
  · show ∀ a ∈ ((p.announce e sig).rebindAll sig is).attached, a.2.1 ∈
      ((p.announce e sig).rebindAll sig is).instances
    rw [hattached, hinstances]
    exact hlive'
  · exact hattached ▸ hnodup'
  · show ∀ a ∈ ((p.announce e sig).rebindAll sig is).attached, _
    rw [hattached]
    exact hlayout'
  · show ∀ i ∈ ((p.announce e sig).rebindAll sig is).instances, ∀ c ∈ coreConnections,
      (c.1, i, c.2) ∈ ((p.announce e sig).rebindAll sig is).attached
    rw [hattached, hinstances]
    intro i hi c hc
    have hcore : c.1 = .outputLayout ∨ c.1 = .core := by
      revert c
      decide
    refine rebindAll_kept is p (hp.core_bound i hi c hc) (fun v hv => ?_) fun o _ ho => ?_
    · rcases hcore with hcore | hcore <;> cases hcore.symm.trans hv
    · rcases hcore with hcore | hcore <;> cases hcore.symm.trans ho
  · show ∀ i ∈ ((p.announce e sig).rebindAll sig is).instances,
      ∀ o ∈ ((p.announce e sig).rebindAll sig is).outputs, ∀ m ∈ outputConnections,
      (.output o, i, m) ∈ ((p.announce e sig).rebindAll sig is).attached
    rw [hattached, hinstances, houtputs]
    intro i hi o ho m hm
    exact rebindAll_output hp hi ho hm

/-! ## The destruction of the display -/

/-- Only the server, the listeners for the destruction, the timers and the ledger change. -/
structure TearsDown (p p' : IpcPlugin) : Prop where
  server : p'.server.Inv
  instances_eq : p'.instances = p.instances
  nextInstance_eq : p'.nextInstance = p.nextInstance
  outputs_eq : p'.outputs = p.outputs
  attached_eq : p'.attached = p.attached

namespace TearsDown

lemma refl (hp : p.server.Inv) : TearsDown p p := ⟨hp, rfl, rfl, rfl, rfl⟩

lemma trans (h : TearsDown p p₁) (h' : TearsDown p₁ p₂) : TearsDown p p₂ where
  server := h'.server
  instances_eq := h'.instances_eq.trans h.instances_eq
  nextInstance_eq := h'.nextInstance_eq.trans h.nextInstance_eq
  outputs_eq := h'.outputs_eq.trans h.outputs_eq
  attached_eq := h'.attached_eq.trans h.attached_eq

lemma inv (h : TearsDown p p') (hp : p.Inv) : p'.Inv :=
  hp.congr h.server h.instances_eq h.nextInstance_eq h.outputs_eq h.attached_eq

end TearsDown

/-- `handle_display_destroy` of the server, where it returns. -/
lemma serverDisplayDestroy_eq {s' : Server} (heq : p.server.handleDisplayDestroy = .ok s') :
    p.serverDisplayDestroy = .ok { p with
      server := s'
      destroySignal := p.destroySignal.remove .ipcDisplayDestroy } := by
  rw [serverDisplayDestroy, heq]
  rfl

@[simp] lemma removeFiniEventSource_server : p.removeFiniEventSource.server = p.server := by
  unfold removeFiniEventSource
  cases p.finiEventSource <;> rfl

@[simp] lemma removeFiniEventSource_destroySignal :
    p.removeFiniEventSource.destroySignal = p.destroySignal := by
  unfold removeFiniEventSource
  cases p.finiEventSource <;> rfl

/-- `ipc_t::handle_display_destroy`, where the one of the server returns. -/
lemma handleDisplayDestroy_eq {s' : Server} (heq : p.server.handleDisplayDestroy = .ok s') :
    p.handleDisplayDestroy = .ok { p.removeFiniEventSource with
      server := s'
      destroySignal := (p.destroySignal.remove .displayDestroy).remove .ipcDisplayDestroy
      ledger := p.removeFiniEventSource.ledger ++ [.released .displayDestroyListener] } := by
  rw [handleDisplayDestroy, serverDisplayDestroy_eq (by rw [removeFiniEventSource_server, heq]),
    removeFiniEventSource_destroySignal]

lemma serverDisplayDestroy_tearsDown (hp : p.server.Inv) :
    ∃ p', p.serverDisplayDestroy = .ok p' ∧ TearsDown p p' := by
  obtain ⟨s', heq, hs', -⟩ := handleDisplayDestroy_spec hp
  exact ⟨_, serverDisplayDestroy_eq heq, hs', rfl, rfl, rfl, rfl⟩

lemma removeFiniEventSource_tearsDown (hp : p.server.Inv) :
    TearsDown p p.removeFiniEventSource := by
  unfold removeFiniEventSource
  cases p.finiEventSource with
  | none => exact .refl hp
  | some t => exact ⟨hp, rfl, rfl, rfl, rfl⟩

lemma handleDisplayDestroy_tearsDown (hp : p.server.Inv) :
    ∃ p', p.handleDisplayDestroy = .ok p' ∧ TearsDown p p' := by
  obtain ⟨s', heq, hs', -⟩ := handleDisplayDestroy_spec hp
  have hremove := removeFiniEventSource_tearsDown hp
  exact ⟨_, handleDisplayDestroy_eq heq, hs', hremove.instances_eq, hremove.nextInstance_eq,
    hremove.outputs_eq, hremove.attached_eq⟩

lemma handleFiniTimeout_tearsDown (hp : p.server.Inv) (t : ℕ) :
    ∃ p', p.handleFiniTimeout t = .ok p' ∧ TearsDown p p' := by
  obtain ⟨p', heq, h⟩ := handleDisplayDestroy_tearsDown (p := { p with
    finiTimers := p.finiTimers.filter (· ≠ t) }) hp
  exact ⟨p', heq, h.server, h.instances_eq, h.nextInstance_eq, h.outputs_eq, h.attached_eq⟩

lemma notify_tearsDown (hp : p.server.Inv) (l : DestroyListener) :
    ∃ p', p.notify l = .ok p' ∧ TearsDown p p' := by
  unfold notify
  split_ifs with hl
  · cases l with
    | ipcDisplayDestroy => exact serverDisplayDestroy_tearsDown hp
    | displayDestroy => exact handleDisplayDestroy_tearsDown hp
  · exact ⟨p, rfl, .refl hp⟩

lemma notifyAll_tearsDown (ls : List DestroyListener) (hp : p.server.Inv) :
    ∃ p', ls.foldlM notify p = .ok p' ∧ TearsDown p p' := by
  induction ls generalizing p with
  | nil => exact ⟨p, rfl, .refl hp⟩
  | cons l ls ih =>
    obtain ⟨p₁, heq₁, h₁⟩ := notify_tearsDown hp l
    obtain ⟨p₂, heq₂, h₂⟩ := ih h₁.server
    exact ⟨p₂, by rw [List.foldlM_cons, heq₁, Machine.ok_bind, heq₂], h₁.trans h₂⟩

/-- The display can be destroyed unless the list is corrupt. -/
lemma destroyDisplay_ok_iff :
    p.destroyDisplay = .ok p' ↔ p.destroySignal.tangled = false ∧
      ∃ p₁, p.destroySignal.linked.foldlM notify p = .ok p₁ ∧ p' = { p₁ with destroyed := true } := by
  rw [destroyDisplay]
  split_ifs with htangled
  · simp [htangled]
  · rw [Machine.bind_ok_iff]
    simp only [Bool.not_eq_true] at htangled
    simp only [htangled, true_and]
    refine exists_congr fun p₁ => and_congr_right fun _ => ?_
    exact ⟨fun h => (Except.ok.inj h).symm, fun h => congrArg Except.ok h.symm⟩

lemma destroyDisplay_tearsDown (hp : p.server.Inv) (h : p.destroyDisplay = .ok p') :
    TearsDown p p' := by
  obtain ⟨-, p₁, heq, rfl⟩ := destroyDisplay_ok_iff.mp h
  obtain ⟨p₂, heq₂, htears⟩ := notifyAll_tearsDown p.destroySignal.linked hp
  cases heq₂.symm.trans heq
  exact ⟨htears.server, htears.instances_eq, htears.nextInstance_eq, htears.outputs_eq,
    htears.attached_eq⟩

/-! ## Steps -/

lemma step_inv {input : Input} (hp : p.Inv) (h : step W p input = .ok p') : p'.Inv := by
  unfold step at h
  split_ifs at h with hdestroyed
  · cases h
    exact hp
  cases input with
  | init => exact Except.ok.inj h ▸ initInstance_inv hp
  | fini i =>
    simp only at h
    split_ifs at h
    · obtain ⟨p₁, heq, hserver, hfini⟩ := fini_finalised (W := W) hp.server i
      cases heq.symm.trans h
      exact hfini.inv hserver hp
    · cases h
      exact hp
  | finiTimeout t =>
    simp only at h
    split_ifs at h
    · obtain ⟨p₁, heq, htears⟩ := handleFiniTimeout_tearsDown hp.server t
      cases heq.symm.trans h
      exact htears.inv hp
    · cases h
      exact hp
  | displayDestroy => exact (destroyDisplay_tearsDown hp.server h).inv hp
  | callback cb =>
    obtain ⟨s', heq, h⟩ := Machine.bind_ok_iff.mp h
    cases h
    exact hp.congr (Server.step_inv hp.server heq) rfl rfl rfl rfl
  | emit q e sig => exact emit_inv hp h
  | viewCreated v =>
    cases h
    exact hp.congr hp.server rfl rfl rfl rfl
  | viewDestroyed v =>
    cases h
    refine ⟨hp.server, hp.instances_nodup, hp.instances_lt,
      fun a ha => hp.attached_live a (List.mem_filter.mp ha).1, hp.attached_nodup.filter _,
      fun a ha => hp.removed_layout a (List.mem_filter.mp ha).1, fun i hi c hc => ?_,
      fun i hi o ho m hm => ?_⟩
    · refine List.mem_filter.mpr ⟨hp.core_bound i hi c hc, ?_⟩
      revert c
      simp [coreConnections]
    · exact List.mem_filter.mpr ⟨hp.output_bound i hi o ho m hm, by simp⟩

/-- Every state that a run reaches meets the invariant. -/
theorem run_inv {is : List Input} (h : Machine.run (step W) initial is = .ok p) : p.Inv :=
  Machine.run_invariant (step W) (fun _ _ _ hs hstep => step_inv hs hstep) inv_initial h

end IpcPlugin

end WayfireIpc
