/-
# What the handlers send

The handler of a signal sends a list of events that depends on the signal and on the answers
of the compositor only.  When an object emits a signal, each instance whose connection is
attached to the object sends this list once.
-/
import WayfireIpc.Plugin.Steps
import WayfireIpc.Server.Resources

namespace WayfireIpc

namespace Server

variable {W : World} {s s' : Server} {ev : IpcEventType}

lemma performSignals_append (l l' : List Signal) (s : Server) :
    performSignals W s (l ++ l') = (performSignals W s l >>= fun s => performSignals W s l') := by
  induction l generalizing s with
  | nil => rfl
  | cons sig l ih =>
    cases sig with
    | serve => exact ih s.serve
    | event ev json =>
      rw [List.cons_append, performSignals, performSignals]
      cases s.signalEvent W ev json with
      | error f => rfl
      | ok s₁ => exact ih s₁

lemma performSignals_singleton (ev : IpcEventType) (json : Buf) :
    performSignals W s [.event ev json] = s.signalEvent W ev json := by
  rw [performSignals]
  cases s.signalEvent W ev json <;> rfl

end Server

namespace IpcPlugin

open Server

variable {W : World} {q : PluginQueries} {p p' : IpcPlugin} {s s' : Server}

/-! ## The events of a signal -/

/-- A server with a client; the texts of the events are the same for all of them. -/
def oneClient : Server := { Server.init with ipcClientList := [0] }

/-- The text of an event, if it is signalled at all. -/
def text (W : World) (json : Server → Json) : List Buf :=
  if (json oneClient).isNull then [] else [W.jsonToString (json oneClient)]

/-- The texts of `signal_input_event`. -/
def inputTexts (W : World) (q : PluginQueries) (device : Option InputDevice) (change : String) :
    List Buf :=
  match device with
  | none => []
  | some d => text W fun s => inputJsonData q s (some d) change

/-- The texts of `on_view_fullscreened`. -/
def fullscreenTexts (W : World) (q : PluginQueries) (view : Option ViewRef) (state : Bool) :
    List Buf :=
  match view with
  | none => []
  | some v =>
    match q.fullscreen v with
    | none => []
    | some current =>
      if current ≠ state then text W fun s => windowJsonData q s (some v) "fullscreen_mode" false
      else []

/-- The texts of `on_keyboard_modifiers`. -/
def modifiersTexts (W : World) (q : PluginQueries) (device : WlrInputDevice) : List Buf :=
  if device ≠ q.keyboard then []
  else
    q.inputDevices.flatMap fun dev =>
      if dev.2 = device then
        inputTexts W q (some dev.1) "xkb_layout" ++ inputTexts W q (some dev.1) "xkb_keymap"
      else []

end IpcPlugin

namespace PluginSignal

open IpcPlugin

/-- The type of the events that a signal stands for. -/
def eventType : PluginSignal → IpcEventType
  | outputAdded _ | outputRemoved _ | outputLayoutConfigurationChanged => .output
  | inputDeviceAdded _ | inputDeviceRemoved _ | keyboardModifiers _ => .input
  | workspaceChanged _ | workspaceGridChanged => .workspace
  | _ => .window

/-- The texts of the events that a signal stands for. -/
def texts (W : World) (q : PluginQueries) (outputs : List OutputRef) : PluginSignal → List Buf
  | viewMapped view => text W fun s => windowJsonData q s view "new" false
  | viewUnmapped view => text W fun s => windowJsonData q s view "close" false
  | viewMinimized view => text W fun s => windowJsonData q s view "move" false
  | viewFullscreen view state => fullscreenTexts W q view state
  | viewActivatedState view => text W fun s => windowJsonData q s view "focus" false
  | viewChangeWorkspace view => text W fun s => windowJsonData q s view "move" false
  | wmActionsAboveChanged view => text W fun s => windowJsonData q s view "floating" false
  | viewTitleChanged view => text W fun s => windowJsonData q s view "title" false
  | viewGeometryChanged view => text W fun s => windowJsonData q s view "move" false
  | viewHintsChanged view demandsAttention =>
    text W fun s => windowJsonData q s view "urgent" demandsAttention
  | outputAdded _ | outputRemoved _ | outputLayoutConfigurationChanged =>
    text W fun s => outputJsonData s "unspecified"
  | inputDeviceAdded device => inputTexts W q device "added"
  | inputDeviceRemoved device => inputTexts W q device "removed"
  | keyboardModifiers device => modifiersTexts W q device
  | workspaceChanged data => text W fun s => workspaceJsonData q s outputs data "focus"
  | workspaceGridChanged => text W fun s => workspaceJsonData q s outputs
      ⟨q.activeOutput, q.indeterminate, q.currentWorkspace q.activeOutput⟩ "reload"

/-- The events that a signal stands for. -/
def events (W : World) (q : PluginQueries) (outputs : List OutputRef) (sig : PluginSignal) :
    List Signal :=
  (sig.texts W q outputs).map (.event sig.eventType)

end PluginSignal

namespace IpcPlugin

open Server

variable {W : World} {q : PluginQueries} {p p' : IpcPlugin} {s s' : Server} {ev : IpcEventType}

/-- A text that does not depend on the clients is signalled as it is for a server with a client. -/
lemma signalJson_eq (hs : s.Inv) {json : Server → Json}
    (hjson : s.ipcClientList ≠ [] → json s = json oneClient) :
    signalJson W s ev json = performSignals W s ((text W json).map (.event ev)) := by
  obtain ⟨b, heq, -⟩ := anyListener_ok ev s.ipcClientList hs.listed_live
  have hlisten : s.hasEventListeners ev = .ok b := heq
  rw [signalJson, hlisten, Machine.ok_bind, text]
  cases b with
  | false =>
    -- nobody listens, and `signal_event` finds this out for itself
    have hnone : ∀ json, s.signalEvent W ev json = .ok s := fun json => by
      rw [signalEvent, hlisten]
      rfl
    rw [if_pos (by rfl)]
    by_cases hnull : (json oneClient).isNull = true
    · rw [if_pos hnull]
      rfl
    · rw [if_neg hnull, List.map_singleton, performSignals_singleton, hnone]
      rfl
  | true =>
    have hne : s.ipcClientList ≠ [] := by
      intro hnil
      rw [hnil] at heq
      cases heq
    rw [if_neg (by simp), hjson hne]
    by_cases hnull : (json oneClient).isNull = true
    · rw [if_pos hnull, if_pos hnull]
      rfl
    · rw [if_neg hnull, if_neg hnull, List.map_singleton, performSignals_singleton]

lemma signalWindowEvent_eq (hs : s.Inv) (view : Option ViewRef) (change : String) (da : Bool) :
    signalWindowEvent W q s view change da = performSignals W s
      ((text W fun s => windowJsonData q s view change da).map (.event .window)) := by
  refine signalJson_eq hs fun hne => ?_
  cases view with
  | none => rfl
  | some v => simp [windowJsonData, oneClient, hne]

lemma signalOutputEvent_eq (hs : s.Inv) (change : String) :
    signalOutputEvent W s change = performSignals W s
      ((text W fun s => outputJsonData s change).map (.event .output)) :=
  signalJson_eq hs fun hne => by simp [outputJsonData, oneClient, hne]

lemma signalInputEvent_eq (hs : s.Inv) (device : Option InputDevice) (change : String) :
    signalInputEvent W q s device change
      = performSignals W s ((inputTexts W q device change).map (.event .input)) := by
  cases device with
  | none => rfl
  | some d =>
    show signalJson W s .input (fun s => inputJsonData q s (some d) change) = performSignals W s
      ((text W fun s => inputJsonData q s (some d) change).map (.event .input))
    refine signalJson_eq hs fun hne => ?_
    simp [inputJsonData, oneClient, hne]

lemma signalWorkspaceEvent_eq (hs : s.Inv) (outputs : List OutputRef) (data : WorkspaceChanged)
    (change : String) : signalWorkspaceEvent W q s outputs data change = performSignals W s
      ((text W fun s => workspaceJsonData q s outputs data change).map (.event .workspace)) :=
  signalJson_eq hs fun hne => by simp [workspaceJsonData, oneClient, hne]

lemma performSignals_ok (hs : s.Inv) (l : List Signal) :
    ∃ s', performSignals W s l = .ok s' ∧ s'.Inv := by
  obtain ⟨s', heq, hout, -⟩ := performSignals_spec (W := W) l s hs
  exact ⟨s', heq, hout.inv hs⟩

lemma signalModifiers_eq (hs : s.Inv) (device : WlrInputDevice) :
    signalModifiers W q s device
      = performSignals W s ((modifiersTexts W q device).map (.event .input)) := by
  rw [signalModifiers, modifiersTexts]
  by_cases hdevice : device = q.keyboard
  swap
  · rw [if_pos hdevice, if_pos hdevice]
    rfl
  rw [if_neg (not_not.mpr hdevice), if_neg (not_not.mpr hdevice)]
  generalize q.inputDevices = devices
  induction devices generalizing s with
  | nil => rfl
  | cons dev devices ih =>
    rw [List.foldlM_cons, List.flatMap_cons, List.map_append, performSignals_append]
    by_cases hdev : dev.2 = device
    · rw [if_pos hdev, if_pos hdev, List.map_append, performSignals_append, signalInputEvent_eq hs]
      obtain ⟨s₁, heq₁, hs₁⟩ := performSignals_ok (W := W) hs
        ((inputTexts W q (some dev.1) "xkb_layout").map (.event .input))
      obtain ⟨s₂, heq₂, hs₂⟩ := performSignals_ok (W := W) hs₁
        ((inputTexts W q (some dev.1) "xkb_keymap").map (.event .input))
      rw [heq₁, Machine.ok_bind, Machine.ok_bind, signalInputEvent_eq hs₁, heq₂, Machine.ok_bind,
        Machine.ok_bind]
      exact ih hs₂
    · rw [if_neg hdev, if_neg hdev]
      exact ih hs

/-- The handler of a signal sends the events that the signal stands for. -/
theorem signalHandler_eq (hs : s.Inv) (outputs : List OutputRef) (sig : PluginSignal) :
    signalHandler W q outputs s sig = performSignals W s (sig.events W q outputs) := by
  cases sig with
  | viewFullscreen view state =>
    cases view with
    | none => rfl
    | some v =>
      rw [signalHandler, signalFullscreen, PluginSignal.events, PluginSignal.texts, fullscreenTexts]
      cases hv : q.fullscreen v with
      | none => rfl
      | some current =>
        simp only
        split_ifs
        · exact signalWindowEvent_eq hs _ _ _
        · rfl
  | outputAdded | outputRemoved | outputLayoutConfigurationChanged =>
    exact signalOutputEvent_eq hs _
  | inputDeviceAdded | inputDeviceRemoved => exact signalInputEvent_eq hs _ _
  | keyboardModifiers device => exact signalModifiers_eq hs device
  | workspaceChanged | workspaceGridChanged => exact signalWorkspaceEvent_eq hs _ _ _
  | _ => exact signalWindowEvent_eq hs _ _ _

/-! ## An emission -/

/-- The function changes the connections only, and looks at nothing else. -/
def OnlyAttached (f : IpcPlugin → IpcPlugin) : Prop :=
  ∃ g : List (Emitter × ℕ × Connection) → List (Emitter × ℕ × Connection),
    ∀ p, f p = { p with attached := g p.attached }

namespace OnlyAttached

lemma id : OnlyAttached fun p => p := ⟨fun a => a, fun _ => rfl⟩

lemma foldl {α : Type} {f : IpcPlugin → α → IpcPlugin} (hf : ∀ a, OnlyAttached fun p => f p a)
    (l : List α) : OnlyAttached fun p => l.foldl f p := by
  induction l with
  | nil => exact .id
  | cons a l ih =>
    obtain ⟨g, hg⟩ := hf a
    obtain ⟨g', hg'⟩ := ih
    refine ⟨fun x => g' (g x), fun p => ?_⟩
    show l.foldl f (f p a) = _
    rw [show f p a = _ from hg p, show l.foldl f _ = _ from hg' _]

variable {f : IpcPlugin → IpcPlugin}

lemma eq (hf : OnlyAttached f) (p : IpcPlugin) : f p = { p with attached := (f p).attached } := by
  obtain ⟨g, hg⟩ := hf
  rw [hg]

lemma server (hf : OnlyAttached f) (p : IpcPlugin) (s : Server) :
    f { p with server := s } = { f p with server := s } := by
  obtain ⟨g, hg⟩ := hf
  rw [hg, hg]

end OnlyAttached

lemma connectAll_onlyAttached (i : ℕ) (cs : List (Emitter × Connection)) :
    OnlyAttached fun p => p.connectAll i cs := by
  have hone : ∀ c : Emitter × Connection, OnlyAttached fun p => p.connect i c.1 c.2 := by
    refine fun c => ⟨fun a => if (c.1, i, c.2) ∈ a then a else a ++ [(c.1, i, c.2)], fun p => ?_⟩
    show p.connect i c.1 c.2 = _
    rw [connect]
    by_cases hmem : (c.1, i, c.2) ∈ p.attached
    · simp only [if_pos hmem]
    · simp only [if_neg hmem]
  exact .foldl hone cs

lemma disconnectAll_onlyAttached (i : ℕ) (cs : List (Emitter × Connection)) :
    OnlyAttached fun p => p.disconnectAll i cs := by
  have hone : ∀ c : Emitter × Connection, OnlyAttached fun p => p.disconnect i c.1 c.2 :=
    fun c => ⟨fun a => a.filter (· ≠ (c.1, i, c.2)), fun _ => rfl⟩
  exact .foldl hone cs

lemma bindOutputEvents_onlyAttached (i : ℕ) (output : Option OutputRef) :
    OnlyAttached fun p => p.bindOutputEvents i output := by
  cases output with
  | none => exact .id
  | some o => exact connectAll_onlyAttached i _

lemma unbindOutputEvents_onlyAttached (i : ℕ) (output : Option OutputRef) :
    OnlyAttached fun p => p.unbindOutputEvents i output := by
  cases output with
  | none => exact .id
  | some o => exact disconnectAll_onlyAttached i _

lemma bindViewEvents_onlyAttached (i : ℕ) (view : Option ViewRef) :
    OnlyAttached fun p => p.bindViewEvents i view := by
  cases view with
  | none => exact .id
  | some v => exact connectAll_onlyAttached i _

lemma unbindViewEvents_onlyAttached (i : ℕ) (view : Option ViewRef) :
    OnlyAttached fun p => p.unbindViewEvents i view := by
  cases view with
  | none => exact .id
  | some v => exact disconnectAll_onlyAttached i _

/-- A handler only attaches and takes away connections. -/
lemma rebind_onlyAttached (i : ℕ) (sig : PluginSignal) : OnlyAttached fun p => p.rebind i sig := by
  cases sig with
  | viewMapped view => exact bindViewEvents_onlyAttached i view
  | viewUnmapped view => exact unbindViewEvents_onlyAttached i view
  | outputAdded output => exact bindOutputEvents_onlyAttached i output
  | outputRemoved output => exact unbindOutputEvents_onlyAttached i output
  | _ => exact .id

/-- The connections after the handlers of several instances. -/
def rebindAll (p : IpcPlugin) (sig : PluginSignal) (is : List ℕ) : IpcPlugin :=
  is.foldl (fun p i => p.rebind i sig) p

lemma rebindAll_onlyAttached (sig : PluginSignal) (is : List ℕ) :
    OnlyAttached fun p => p.rebindAll sig is :=
  .foldl (fun i => rebind_onlyAttached i sig) is

/-- The events of a signal, once for each of `n` instances. -/
def copies (W : World) (q : PluginQueries) (outputs : List OutputRef) (sig : PluginSignal) (n : ℕ) :
    List Signal :=
  (List.replicate n (sig.events W q outputs)).flatten

lemma foldlM_handle (sig : PluginSignal) : ∀ (is : List ℕ) (p : IpcPlugin), p.server.Inv →
    ∃ s', performSignals W p.server (copies W q p.outputs sig is.length) = .ok s' ∧
      is.foldlM (handle W q sig) p = .ok { p.rebindAll sig is with server := s' } := by
  intro is
  induction is with
  | nil => exact fun p _ => ⟨p.server, rfl, rfl⟩
  | cons i is ih =>
    intro p hp
    obtain ⟨s₁, heq₁, hs₁⟩ := performSignals_ok (W := W) hp (sig.events W q p.outputs)
    have hrebind := (rebind_onlyAttached i sig).eq p
    have hserver : (p.rebind i sig).server = p.server := by rw [hrebind]
    have houtputs : (p.rebind i sig).outputs = p.outputs := by rw [hrebind]
    have hhandle : handle W q sig p i = .ok { p.rebind i sig with server := s₁ } := by
      rw [handle]
      simp only [hserver, houtputs]
      rw [signalHandler_eq hp, heq₁]
      rfl
    obtain ⟨s', heq', hfold⟩ := ih { p.rebind i sig with server := s₁ } hs₁
    simp only [houtputs] at heq'
    refine ⟨s', ?_, ?_⟩
    · rw [copies, List.length_cons, List.replicate_succ, List.flatten_cons, performSignals_append,
        heq₁, Machine.ok_bind]
      exact heq'
    · rw [List.foldlM_cons, hhandle, Machine.ok_bind, hfold,
        (rebindAll_onlyAttached sig is).server]
      rfl

/-- An emission sends the events of the signal once for each instance that is attached to the
emitter. -/
theorem emit_spec (hp : p.server.Inv) (e : Emitter) (sig : PluginSignal) :
    ∃ s', performSignals W p.server (copies W q (p.announce e sig).outputs sig
        (p.listeners e sig.connection).length) = .ok s' ∧
      p.emit W q e sig = .ok { (p.announce e sig).rebindAll sig (p.listeners e sig.connection) with
        server := s' } := by
  have hannounce : (p.announce e sig).server = p.server ∧
      (p.announce e sig).attached = p.attached := by
    unfold announce
    split <;> exact ⟨rfl, rfl⟩
  have hlisteners : (p.announce e sig).listeners e sig.connection
      = p.listeners e sig.connection := by
    rw [listeners, listeners, hannounce.2]
  obtain ⟨s', heq, hfold⟩ := foldlM_handle (W := W) (q := q) sig (p.listeners e sig.connection)
    (p.announce e sig) (hannounce.1 ▸ hp)
  rw [hannounce.1] at heq
  refine ⟨s', heq, ?_⟩
  rw [emit]
  simp only [hlisteners]
  exact hfold

end IpcPlugin

end WayfireIpc
