/-
# How many frames a signal costs a client

Each of the instances sends the events of a signal that it hears of.  A subscribed client
therefore gets one frame for each event when one instance is attached to the emitter, and
as many as there are instances when the emitter is an output or the core.
-/
import WayfireIpc.Plugin.Reach

namespace WayfireIpc

namespace Server

variable {W : World} {s s' : Server} {c : ℕ} {k : I3IpcClient} {ev : IpcEventType} {json : Buf}

/-- The message of an event. -/
def eventFrame (ev : IpcEventType) (c : ℕ) (json : Buf) : Obs :=
  .queued c (replyFrame ev.code json.cStr)

lemma Outputs.entries_prefix {masks : Set ℕ} (h : Outputs W masks s s') (c : ℕ) :
    ∃ obs, entriesFor c s'.log = entriesFor c s.log ++ obs := by
  obtain ⟨es, hmoves, -⟩ := h
  obtain ⟨obs, hlog, -⟩ := hmoves.log_grows
  exact ⟨entriesFor c obs, by rw [hlog, entriesFor_append]⟩

/-- An event gives a subscribed client its frame, or takes the client away. -/
lemma signalEvent_frame (hs : s.Inv) (hc : c ∈ s.ipcClientList) (hk : s.heap c = some k)
    (hsub : k.Subscribed ev) (json : Buf) :
    ∃ s', s.signalEvent W ev json = .ok s' ∧ Outputs W ∅ s s' ∧
      (k.Accepts W c (eventLength json) → c ∈ s'.ipcClientList ∧
        entriesFor c s'.log = entriesFor c s.log ++ [eventFrame ev c json] ∧
        ∃ k', s'.heap c = some k' ∧ k.Enqueues (replyFrame ev.code json.cStr) k') ∧
      (¬ k.Accepts W c (eventLength json) →
        ∃ obs, entriesFor c s'.log = entriesFor c s.log ++ obs ∧ .disconnected c ∈ obs) := by
  obtain ⟨s', heq, hvisits⟩ := signalEvent_visits (W := W) hs ev json
  have hentries : entriesFor c s'.log = entriesFor c s.log ++ s.eventObs W ev json c := by
    rw [hvisits.log_eq, entriesFor_append, entriesFor_visits hs.list_nodup, if_pos hc]
  rw [eventObs, hk] at hentries
  simp only [hsub, not_true_eq_false, if_false] at hentries
  refine ⟨s', heq, hvisits.outputs, fun hacc => ⟨?_, ?_, ?_⟩, fun hacc => ?_⟩
  · have hfails : s.fails W ev json c = false := by simp [fails, hk, hacc]
    rw [hvisits.list_eq]
    exact List.mem_filter.mpr ⟨hc, by simp [hfails]⟩
  · rwa [if_pos hacc] at hentries
  · exact (hvisits.visited c hc).delivered k hk hsub hacc
  · rw [if_neg hacc] at hentries
    exact ⟨_, hentries, by simp⟩

/-- Events of one type give a subscribed client a frame each if it outlasts them, and take it away if
it does not. -/
lemma performSignals_frames (ev : IpcEventType) (jsons : List Buf) :
    ∀ {s : Server} {k : I3IpcClient}, s.Inv → c ∈ s.ipcClientList → s.heap c = some k →
      k.Subscribed ev → ∃ s', performSignals W s (jsons.map (.event ev)) = .ok s' ∧
        (k.Outlasts W c true (jsons.map (.event ev)) →
          entriesFor c s'.log = entriesFor c s.log ++ jsons.map (eventFrame ev c)) ∧
        (¬ k.Outlasts W c true (jsons.map (.event ev)) →
          ∃ obs, entriesFor c s'.log = entriesFor c s.log ++ obs ∧ .disconnected c ∈ obs) := by
  induction jsons with
  | nil =>
    intro s k _ _ _ _
    exact ⟨s, rfl, fun _ => (List.append_nil _).symm, fun h => absurd trivial h⟩
  | cons json jsons ih =>
    intro s k hs hc hk hsub
    obtain ⟨s₁, heq₁, hout, hframe, hgone⟩ := signalEvent_frame (W := W) hs hc hk hsub json
    have hs₁ := hout.inv hs
    have hcond : (true = true ∧ k.Subscribed ev) := ⟨rfl, hsub⟩
    rw [List.map_cons, I3IpcClient.Outlasts, if_pos hcond, performSignals, heq₁, Machine.ok_bind]
    by_cases hacc : k.Accepts W c (eventLength json)
    · obtain ⟨hc₁, hentries, k₁, hk₁, henq⟩ := hframe hacc
      have hsub₁ : k₁.Subscribed ev := by
        rw [I3IpcClient.Subscribed, henq.subscribed_eq]
        exact hsub
      obtain ⟨s', heq, hall, hnot⟩ := ih hs₁ hc₁ hk₁ hsub₁
      -- the rest of the events finds the client with the longer queue
      have hcongr : I3IpcClient.Outlasts W c true
          { k with
            writeBufferLen := k.writeBufferLen + ipcHeaderSize + eventLength json
            reallocs := k.reallocs + 1 } (jsons.map (.event ev))
          ↔ k₁.Outlasts W c true (jsons.map (.event ev)) := by
        refine I3IpcClient.outlasts_congr _ ?_ henq.subscribed_eq.symm henq.reallocs_eq.symm
        rw [henq.len_eq, length_replyFrame, eventLength]
      refine ⟨s', heq, fun h => ?_, fun h => ?_⟩
      · rw [hall (hcongr.mp h.2), hentries, List.append_assoc, List.map_cons]
        rfl
      · obtain ⟨obs, hobs, hmem⟩ := hnot fun hcon => h ⟨hacc, hcongr.mpr hcon⟩
        refine ⟨eventFrame ev c json :: obs, ?_, List.mem_cons_of_mem _ hmem⟩
        rw [hobs, hentries, List.append_assoc, List.singleton_append]
    · obtain ⟨obs, hobs, hmem⟩ := hgone hacc
      obtain ⟨s', heq, hout', -⟩ := performSignals_spec (W := W) (jsons.map (.event ev)) s₁ hs₁
      obtain ⟨obs', hobs'⟩ := hout'.entries_prefix c
      refine ⟨s', heq, fun h => absurd h.1 hacc, fun _ => ⟨obs ++ obs', ?_, ?_⟩⟩
      · rw [hobs', hobs, List.append_assoc]
      · exact List.mem_append_left _ hmem

/-- A client that is not in the list hears of no event. -/
lemma performSignals_unlisted (ev : IpcEventType) (jsons : List Buf) :
    ∀ {s : Server}, s.Inv → c ∉ s.ipcClientList →
      ∃ s', performSignals W s (jsons.map (.event ev)) = .ok s' ∧
        entriesFor c s'.log = entriesFor c s.log := by
  induction jsons with
  | nil => exact fun {s} _ _ => ⟨s, rfl, rfl⟩
  | cons json jsons ih =>
    intro s hs hc
    obtain ⟨s₁, heq₁, hvisits⟩ := signalEvent_visits (W := W) hs ev json
    have hc₁ : c ∉ s₁.ipcClientList := by
      rw [hvisits.list_eq]
      exact fun hmem => hc (List.mem_filter.mp hmem).1
    obtain ⟨s', heq, hentries⟩ := ih (hvisits.outputs.inv hs) hc₁
    refine ⟨s', by rw [List.map_cons, performSignals, heq₁, Machine.ok_bind, heq], ?_⟩
    rw [hentries, hvisits.log_eq, entriesFor_append, entriesFor_visits hs.list_nodup, if_neg hc,
      List.append_nil]

end Server

namespace IpcPlugin

open Server

variable {W : World} {q : PluginQueries} {p : IpcPlugin} {e : Emitter} {sig : PluginSignal} {c : ℕ}
  {k : I3IpcClient}

/-- What is left of a run of the plugin. -/
def Reachable (W : World) (p : IpcPlugin) : Prop :=
  ∃ is, Machine.run (step W) initial is = .ok p

lemma Reachable.inv (h : Reachable W p) : p.Inv := run_inv h.choose_spec

/-- When the signal is emitted, the client gets one frame for every event that the signal stands for,
and nothing else happens to it. -/
def GetsOneFrame (W : World) (q : PluginQueries) (p : IpcPlugin) (e : Emitter) (sig : PluginSignal)
    (c : ℕ) : Prop :=
  ∃ p', p.emit W q e sig = .ok p' ∧
    entriesFor c p'.server.log = entriesFor c p.server.log ++
      (sig.texts W q (p.announce e sig).outputs).map (eventFrame sig.eventType c)

lemma copies_eq (outputs : List OutputRef) (n : ℕ) : copies W q outputs sig n
    = (List.replicate n (sig.texts W q outputs)).flatten.map (.event sig.eventType) := by
  rw [copies, PluginSignal.events, List.map_flatten, List.map_replicate]

/-- A client that is not in the list gets one frame for each event only if there is no event. -/
lemma getsOneFrame_iff_unlisted (hp : p.Inv) (hc : c ∉ p.server.ipcClientList) :
    p.GetsOneFrame W q e sig c ↔ sig.texts W q (p.announce e sig).outputs = [] := by
  obtain ⟨s', hsignals, heq⟩ := emit_spec (W := W) (q := q) hp.server e sig
  rw [copies_eq] at hsignals
  obtain ⟨s₁, heq₁, hentries⟩ := performSignals_unlisted (W := W) sig.eventType
    (List.replicate (p.listeners e sig.connection).length
      (sig.texts W q (p.announce e sig).outputs)).flatten hp.server hc
  cases heq₁.symm.trans hsignals
  constructor
  · rintro ⟨p', heq', hframes⟩
    cases heq.symm.trans heq'
    have hnone := List.self_eq_append_right.mp (hentries.symm.trans hframes)
    exact List.map_eq_nil_iff.mp hnone
  · intro hnil
    exact ⟨_, heq, by rw [hnil, List.map_nil, List.append_nil]; exact hentries⟩

/-- One frame for each event is what `n` instances make exactly if there is one of them, which the
client outlasts, or the signal stands for no event. -/
lemma getsOneFrame_iff_listeners (hp : p.Inv) (hc : c ∈ p.server.ipcClientList)
    (hk : p.server.heap c = some k) (hsub : k.Subscribed sig.eventType) :
    p.GetsOneFrame W q e sig c ↔ sig.texts W q (p.announce e sig).outputs = [] ∨
      ((p.listeners e sig.connection).length = 1 ∧
        k.Outlasts W c true (sig.events W q (p.announce e sig).outputs)) := by
  set texts := sig.texts W q (p.announce e sig).outputs with htexts
  set n := (p.listeners e sig.connection).length with hn
  obtain ⟨s', hsignals, heq⟩ := emit_spec (W := W) (q := q) hp.server e sig
  obtain ⟨s₁, heq₁, hall, hnot⟩ := performSignals_frames (W := W) sig.eventType
    (List.replicate n texts).flatten hp.server hc hk hsub
  rw [copies_eq] at hsignals
  cases heq₁.symm.trans hsignals
  have hiff : p.GetsOneFrame W q e sig c ↔ entriesFor c s'.log
      = entriesFor c p.server.log ++ texts.map (eventFrame sig.eventType c) := by
    constructor
    · rintro ⟨p', heq', hentries⟩
      cases heq.symm.trans heq'
      exact hentries
    · exact fun h => ⟨_, heq, h⟩
  rw [hiff]
  constructor
  · intro hentries
    rw [or_iff_not_imp_left]
    intro hne
    -- a client that is taken away leaves another entry than a frame
    have houtlasts : k.Outlasts W c true
        ((List.replicate n texts).flatten.map (.event sig.eventType)) := by
      by_contra hcon
      obtain ⟨obs, hobs, hmem⟩ := hnot hcon
      rw [List.append_cancel_left (hobs.symm.trans hentries)] at hmem
      obtain ⟨json, -, hjson⟩ := List.mem_map.mp hmem
      cases hjson
    have hframes := congrArg List.length
      (List.append_cancel_left ((hall houtlasts).symm.trans hentries))
    simp only [List.length_map, List.length_flatten, List.map_replicate, List.sum_replicate,
      smul_eq_mul] at hframes
    have hone : n = 1 :=
      Nat.eq_of_mul_eq_mul_right (List.length_pos_iff.mpr hne) (by rw [hframes, one_mul])
    rw [hone, List.replicate_one, List.flatten_singleton] at houtlasts
    exact ⟨hone, houtlasts⟩
  · rintro (hnil | ⟨hone, houtlasts⟩)
    · have hflat : (List.replicate n texts).flatten = [] := by simp [hnil]
      have hframes := hall (by rw [hflat]; exact trivial)
      rw [hflat] at hframes
      rw [hframes, hnil]
    · have hflat : (List.replicate n texts).flatten = texts := by
        rw [hone, List.replicate_one, List.flatten_singleton]
      have hframes := hall (by rw [hflat]; exact houtlasts)
      rwa [hflat] at hframes

/-- A subscribed client gets one frame for each event that a signal stands for if and only if one
instance is attached to the emitter, the client is still in the list of clients, which every `serve`
clears, and it outlasts the frames, or there is no event.  For the outputs and the core the attached
instances are all the instances there are. -/
theorem getsOneFrame_iff (h : Reachable W p) (hk : p.server.heap c = some k)
    (hsub : k.Subscribed sig.eventType) :
    (p.GetsOneFrame W q e sig c ↔ sig.texts W q (p.announce e sig).outputs = [] ∨
      ((p.listeners e sig.connection).length = 1 ∧ c ∈ p.server.ipcClientList ∧
        k.Outlasts W c true (sig.events W q (p.announce e sig).outputs))) ∧
    (p.Common e sig.connection → (p.listeners e sig.connection).length = p.instances.length) := by
  refine ⟨?_, fun hcommon => (listeners_perm_instances h.inv hcommon).length_eq⟩
  by_cases hc : c ∈ p.server.ipcClientList
  · rw [getsOneFrame_iff_listeners h.inv hc hk hsub]
    simp only [hc, true_and]
  · rw [getsOneFrame_iff_unlisted h.inv hc]
    simp only [hc, false_and, and_false, or_false]

/-! ## Two outputs -/

/-- A JSON library for a client that subscribes to the events of the outputs. -/
def outputWorld : World where
  reallocOk := fun _ _ => true
  stringToJson := fun _ => .arr [.str "output"]
  jsonToString := Json.text

def outputQueries : PluginQueries where
  describeView := fun _ => .null
  describeInput := fun _ => .null
  describeWorkspace := fun _ _ => .null
  fullscreen := fun _ => none
  keyboard := 0
  inputDevices := []
  gridSize := fun _ => (1, 1)
  activeOutput := 0
  currentWorkspace := fun _ => ⟨0, 0⟩
  indeterminate := ⟨0, 0⟩

/-- `n` outputs get their instances, and then a client subscribes to the events of the outputs. -/
def subscribedRun (n : ℕ) : List Input :=
  List.replicate n .init ++ [.callback (.connection true),
    .callback (.arrive 0 (Frame.encode ⟨2, ascii "[\"output\"]"⟩)),
    .callback (.readable 0 ⟨false, false⟩ ⟨true, true, true⟩ ⟨fun _ => .null, fun _ => ([], .null)⟩)]

/-- The state behind the run. -/
def subscribed (n : ℕ) : IpcPlugin := Machine.final (step outputWorld) initial (subscribedRun n)

lemma reachable_subscribed {n : ℕ}
    (h : (Machine.run (step outputWorld) initial (subscribedRun n)).isOk = true) :
    Reachable outputWorld (subscribed n) := ⟨_, Machine.run_final _ h⟩

/-- One instance, one frame. -/
theorem getsOneFrame_one :
    (subscribed 1).GetsOneFrame outputWorld outputQueries .outputLayout
      .outputLayoutConfigurationChanged 0 := by
  have hreach := reachable_subscribed (n := 1) (by decide +kernel)
  have hk := record_eq (s := (subscribed 1).server) (c := 0) (by decide +kernel)
  refine ((getsOneFrame_iff hreach hk ?_).1).mpr (Or.inr ⟨?_, ?_, ?_⟩)
  · decide +kernel
  · decide +kernel
  · decide +kernel
  · decide +kernel

/-- With two outputs the client, which has room for all of them, gets the frame of a change of the
output layout twice. -/
theorem getsFrame_twice :
    Reachable outputWorld (subscribed 2) ∧ (subscribed 2).instances.length = 2 ∧
      0 ∈ (subscribed 2).server.ipcClientList ∧
      ((subscribed 2).server.record 0).Subscribed .output ∧
      ¬ (subscribed 2).GetsOneFrame outputWorld outputQueries .outputLayout
        .outputLayoutConfigurationChanged 0 := by
  have hreach := reachable_subscribed (n := 2) (by decide +kernel)
  have hk := record_eq (s := (subscribed 2).server) (c := 0) (by decide +kernel)
  have hc : 0 ∈ (subscribed 2).server.ipcClientList := by decide +kernel
  refine ⟨hreach, by decide +kernel, hc, by decide +kernel, fun hone => ?_⟩
  have hiff : (subscribed 2).GetsOneFrame outputWorld outputQueries .outputLayout
      .outputLayoutConfigurationChanged 0 ↔ _ :=
    getsOneFrame_iff_listeners hreach.inv hc hk (by decide +kernel)
  rcases hiff.mp hone with hnil | ⟨hone, -⟩
  · exact absurd hnil (by decide +kernel)
  · exact absurd hone (by decide +kernel)

end IpcPlugin

end WayfireIpc
