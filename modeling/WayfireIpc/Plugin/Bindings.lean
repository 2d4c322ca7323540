/-
# Which connections are attached

Every instance is attached to every output and to the core, from its `init` until its
`fini`, in whatever order outputs and instances come and go.
-/
import WayfireIpc.Plugin.Events

namespace WayfireIpc

namespace IpcPlugin

open Server

variable {W : World} {q : PluginQueries} {p p' p₁ p₂ : IpcPlugin} {i j : ℕ} {e : Emitter}
  {m : Connection} {cs : List (Emitter × Connection)} {a : Emitter × ℕ × Connection}

/-! ## Attaching and taking away -/

lemma mem_connect : a ∈ (p.connect i e m).attached ↔ a ∈ p.attached ∨ a = (e, i, m) := by
  rw [connect]
  split_ifs with h
  · constructor
    · exact Or.inl
    · rintro (ha | rfl)
      · exact ha
      · exact h
  · simp

lemma mem_connectAll : a ∈ (p.connectAll i cs).attached ↔
    a ∈ p.attached ∨ ∃ c ∈ cs, a = (c.1, i, c.2) := by
  induction cs generalizing p with
  | nil => simp [connectAll]
  | cons c cs ih =>
    show a ∈ ((p.connect i c.1 c.2).connectAll i cs).attached ↔ _
    rw [ih, mem_connect, or_assoc, List.exists_mem_cons_iff]

lemma mem_disconnectAll : a ∈ (p.disconnectAll i cs).attached ↔
    a ∈ p.attached ∧ ∀ c ∈ cs, a ≠ (c.1, i, c.2) := by
  induction cs generalizing p with
  | nil => simp [disconnectAll]
  | cons c cs ih =>
    show a ∈ ((p.disconnect i c.1 c.2).disconnectAll i cs).attached ↔ _
    rw [ih, disconnect, List.mem_filter, and_assoc, List.forall_mem_cons]
    simp

lemma nodup_connectAll (h : p.attached.Nodup) : (p.connectAll i cs).attached.Nodup := by
  induction cs generalizing p with
  | nil => exact h
  | cons c cs ih =>
    refine ih (p := p.connect i c.1 c.2) ?_
    rw [connect]
    split_ifs with hmem
    · exact h
    · exact List.nodup_append.mpr ⟨h, List.nodup_singleton _, fun a ha b hb => by
        rw [List.mem_singleton.mp hb]
        exact fun hab => hmem (hab ▸ ha)⟩

lemma nodup_disconnectAll (h : p.attached.Nodup) : (p.disconnectAll i cs).attached.Nodup := by
  induction cs generalizing p with
  | nil => exact h
  | cons c cs ih => exact ih (p := p.disconnect i c.1 c.2) (h.filter _)

/-- Only connections of the instance `i` are attached or taken away, none of them twice, and
`on_output_removed` is attached to the output layout alone. -/
structure Rebinds (i : ℕ) (p p' : IpcPlugin) : Prop where
  others : ∀ a, a.2.1 ≠ i → (a ∈ p'.attached ↔ a ∈ p.attached)
  nodup : p.attached.Nodup → p'.attached.Nodup
  layout : (∀ a ∈ p.attached, a.2.2 = .onOutputRemoved → a.1 = .outputLayout) →
    ∀ a ∈ p'.attached, a.2.2 = .onOutputRemoved → a.1 = .outputLayout

namespace Rebinds

lemma refl : Rebinds i p p := ⟨fun _ _ => Iff.rfl, fun h => h, fun h => h⟩

lemma trans (h : Rebinds i p p₁) (h' : Rebinds i p₁ p₂) : Rebinds i p p₂ where
  others := fun a ha => (h'.others a ha).trans (h.others a ha)
  nodup := fun hp => h'.nodup (h.nodup hp)
  layout := fun hp => h'.layout (h.layout hp)

lemma foldl {α : Type} {f : IpcPlugin → α → IpcPlugin} (hf : ∀ p a, Rebinds i p (f p a))
    (l : List α) : ∀ p, Rebinds i p (l.foldl f p) := by
  induction l with
  | nil => exact fun _ => .refl
  | cons a l ih => exact fun p => (hf p a).trans (ih (f p a))

lemma connectAll (hcs : ∀ c ∈ cs, c.2 = .onOutputRemoved → c.1 = .outputLayout) :
    Rebinds i p (p.connectAll i cs) where
  others := fun a ha => by
    rw [mem_connectAll]
    refine or_iff_left ?_
    rintro ⟨c, -, rfl⟩
    exact ha rfl
  nodup := nodup_connectAll
  layout := fun hp a ha hm => by
    rcases mem_connectAll.mp ha with ha | ⟨c, hc, rfl⟩
    · exact hp a ha hm
    · exact hcs c hc hm

lemma disconnectAll : Rebinds i p (p.disconnectAll i cs) where
  others := fun a ha => by
    rw [mem_disconnectAll]
    refine and_iff_left ?_
    rintro c - rfl
    exact ha rfl
  nodup := nodup_disconnectAll
  layout := fun hp a ha => hp a (mem_disconnectAll.mp ha).1

end Rebinds

lemma mem_outputBindings {o : OutputRef} {c : Emitter × Connection} :
    c ∈ outputBindings o ↔ ∃ m ∈ outputConnections, (.output o, m) = c := List.mem_map

lemma mem_viewBindings {v : ViewRef} {c : Emitter × Connection} :
    c ∈ viewBindings v ↔ ∃ m ∈ viewConnections, (.view v, m) = c := List.mem_map

lemma bindOutputEvents_rebinds (output : Option OutputRef) :
    Rebinds i p (p.bindOutputEvents i output) := by
  cases output with
  | none => exact .refl
  | some o =>
    refine .connectAll fun c hc hm => ?_
    obtain ⟨m, hmem, rfl⟩ := mem_outputBindings.mp hc
    subst hm
    exact absurd hmem (by decide)

lemma bindViewEvents_rebinds (view : Option ViewRef) :
    Rebinds i p (p.bindViewEvents i view) := by
  cases view with
  | none => exact .refl
  | some v =>
    refine .connectAll fun c hc hm => ?_
    obtain ⟨m, hmem, rfl⟩ := mem_viewBindings.mp hc
    subst hm
    exact absurd hmem (by decide)

lemma unbindOutputEvents_rebinds (output : Option OutputRef) :
    Rebinds i p (p.unbindOutputEvents i output) := by
  cases output with
  | none => exact .refl
  | some o => exact .disconnectAll

lemma unbindViewEvents_rebinds (view : Option ViewRef) :
    Rebinds i p (p.unbindViewEvents i view) := by
  cases view with
  | none => exact .refl
  | some v => exact .disconnectAll

lemma rebind_rebinds (sig : PluginSignal) : Rebinds i p (p.rebind i sig) := by
  cases sig with
  | viewMapped view => exact bindViewEvents_rebinds view
  | viewUnmapped view => exact unbindViewEvents_rebinds view
  | outputAdded output => exact bindOutputEvents_rebinds output
  | outputRemoved output => exact unbindOutputEvents_rebinds output
  | _ => exact .refl

lemma bindEvents_rebinds (p : IpcPlugin) (i : ℕ) : Rebinds i p (p.bindEvents i) := by
  have houtputs : ∀ p, Rebinds i p (p.outputs.foldl (fun p o => p.bindOutputEvents i (some o)) p) :=
    fun p => .foldl (fun p o => bindOutputEvents_rebinds (some o)) p.outputs p
  have hviews : ∀ p, Rebinds i p (p.views.foldl (fun p v => p.bindViewEvents i (some v)) p) :=
    fun p => .foldl (fun p v => bindViewEvents_rebinds (some v)) p.views p
  exact ((houtputs p).trans (hviews _)).trans (.connectAll (by decide))

lemma unbindEvents_rebinds (p : IpcPlugin) (i : ℕ) : Rebinds i p (p.unbindEvents i) := by
  have hviews : ∀ p, Rebinds i p (p.views.foldl (fun p v => p.unbindViewEvents i (some v)) p) :=
    fun p => .foldl (fun p v => unbindViewEvents_rebinds (some v)) p.views p
  have houtputs :
      ∀ p, Rebinds i p (p.outputs.foldl (fun p o => p.unbindOutputEvents i (some o)) p) :=
    fun p => .foldl (fun p o => unbindOutputEvents_rebinds (some o)) p.outputs p
  exact ((hviews p).trans (houtputs _)).trans .disconnectAll

lemma bindEvents_eq (p : IpcPlugin) (i : ℕ) :
    ∃ attached, p.bindEvents i = { p with attached := attached } := by
  obtain ⟨g₁, h₁⟩ := OnlyAttached.foldl (f := fun p o => p.bindOutputEvents i (some o))
    (fun o => bindOutputEvents_onlyAttached i (some o)) p.outputs
  obtain ⟨g₂, h₂⟩ := OnlyAttached.foldl (f := fun p v => p.bindViewEvents i (some v))
    (fun v => bindViewEvents_onlyAttached i (some v)) p.views
  obtain ⟨g₃, h₃⟩ := connectAll_onlyAttached i coreConnections
  simp only at h₁ h₂ h₃
  rw [bindEvents, bindCoreEvents, h₁ p]
  simp only
  rw [h₂, h₃]
  exact ⟨_, rfl⟩

lemma unbindEvents_eq (p : IpcPlugin) (i : ℕ) :
    ∃ attached, p.unbindEvents i = { p with attached := attached } := by
  obtain ⟨g₁, h₁⟩ := OnlyAttached.foldl (f := fun p v => p.unbindViewEvents i (some v))
    (fun v => unbindViewEvents_onlyAttached i (some v)) p.views
  obtain ⟨g₂, h₂⟩ := OnlyAttached.foldl (f := fun p o => p.unbindOutputEvents i (some o))
    (fun o => unbindOutputEvents_onlyAttached i (some o)) p.outputs
  obtain ⟨g₃, h₃⟩ := disconnectAll_onlyAttached i coreConnections
  simp only at h₁ h₂ h₃
  rw [unbindEvents, unbindCoreEvents, h₁ p]
  simp only
  rw [h₂, h₃]
  exact ⟨_, rfl⟩

/-! ## What is attached in every state -/

/-- The invariant of the plugin. -/
structure Inv (p : IpcPlugin) : Prop where
  server : p.server.Inv
  instances_nodup : p.instances.Nodup
  instances_lt : ∀ i ∈ p.instances, i < p.nextInstance
  attached_live : ∀ a ∈ p.attached, a.2.1 ∈ p.instances
  attached_nodup : p.attached.Nodup
  removed_layout : ∀ a ∈ p.attached, a.2.2 = .onOutputRemoved → a.1 = .outputLayout
  core_bound : ∀ i ∈ p.instances, ∀ c ∈ coreConnections, (c.1, i, c.2) ∈ p.attached
  output_bound : ∀ i ∈ p.instances, ∀ o ∈ p.outputs, ∀ m ∈ outputConnections,
    (.output o, i, m) ∈ p.attached

lemma mem_listeners : i ∈ p.listeners e m ↔ (e, i, m) ∈ p.attached := by
  simp only [listeners, List.mem_map, List.mem_filter, decide_eq_true_eq]
  constructor
  · rintro ⟨⟨e', i', m'⟩, ⟨h, rfl, rfl⟩, rfl⟩
    exact h
  · intro h
    exact ⟨(e, i, m), ⟨h, rfl, rfl⟩, rfl⟩

lemma nodup_listeners (h : p.attached.Nodup) : (p.listeners e m).Nodup := by
  refine List.Nodup.map_on ?_ (h.filter _)
  rintro ⟨e₁, i₁, m₁⟩ h₁ ⟨e₂, i₂, m₂⟩ h₂ heq
  have h₁ := of_decide_eq_true (List.mem_filter.mp h₁).2
  have h₂ := of_decide_eq_true (List.mem_filter.mp h₂).2
  ext <;> simp_all

/-- The emitter is an output of the layout, or the layout or the core, with one of the connections
that every instance attaches to it. -/
def Common (p : IpcPlugin) (e : Emitter) (m : Connection) : Prop :=
  (∃ o ∈ p.outputs, e = .output o ∧ m ∈ outputConnections) ∨ (e, m) ∈ coreConnections

/-- All instances are attached to the outputs and to the core, each of them once. -/
theorem listeners_perm_instances (hp : p.Inv) (h : p.Common e m) :
    (p.listeners e m).Perm p.instances := by
  refine (List.perm_ext_iff_of_nodup (nodup_listeners hp.attached_nodup) hp.instances_nodup).mpr
    fun i => ?_
  rw [mem_listeners]
  constructor
  · exact fun ha => hp.attached_live _ ha
  · intro hi
    rcases h with ⟨o, ho, rfl, hm⟩ | hc
    · exact hp.output_bound i hi o ho m hm
    · exact hp.core_bound i hi _ hc

end IpcPlugin

end WayfireIpc
