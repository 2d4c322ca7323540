/-
# The context that a command sees

One handler context lives through all commands of a string.  A command without criteria
sets it from the active view; when no view is active it keeps what the commands before it
have left.  This file says which calls therefore see a container that is not theirs.
-/
import WayfireIpc.Command.Handlers

namespace WayfireIpc

/-- The call that an event is. -/
def ExecEvent.asCall : ExecEvent → Option HandlerCall
  | .call k => some k
  | _ => none

namespace HandlerCall

/-- The description of the active view at the moment of the call. -/
def activeNode (k : HandlerCall) : Option Node :=
  k.compositor.focused.bind k.compositor.describeView

/-- The context of the call is that of the active view, or empty, and nothing else. -/
structure SeesActiveView (k : HandlerCall) : Prop where
  node : k.context.node = k.activeNode
  container : k.context.container = k.activeNode
  workspace : (match k.activeNode with
    | none => Except.ok none
    | some n => k.compositor.otherViewsWorkspace n.id.toUInt32) = .ok k.context.workspace
  not_overridden : k.context.nodeOverridden = false

/-- The call is made with a context that has just been set. -/
def Sets (k : HandlerCall) : Bool := k.usingCriteria || k.compositor.focused.isSome

end HandlerCall

/-- The calls of a log. -/
def callsOf (log : List ExecEvent) : List HandlerCall := log.filterMap ExecEvent.asCall

lemma callsOf_append (log log' : List ExecEvent) :
    callsOf (log ++ log') = callsOf log ++ callsOf log' := List.filterMap_append

/-- The last call of a log whose context has been set for it. -/
def lastSetter (log : List ExecEvent) : Option HandlerCall :=
  ((callsOf log).filter HandlerCall.Sets).getLast?

/-- Nothing is left in the handler context after these events: the last call that has set it was
made without criteria while the active view was not a toplevel view. -/
def LeavesNothing (log : List ExecEvent) : Prop :=
  ∀ k, lastSetter log = some k → k.usingCriteria = false ∧
    ∀ v, k.compositor.focused = some v → (k.compositor.view v).isToplevel = false

/-- The handler context after these events. -/
def contextAfter (log : List ExecEvent) : CommandHandlerContext :=
  match (callsOf log).getLast? with
  | none => {}
  | some k => k.context

/-- What the loop says about the context of a call that it makes after the events `pre`. -/
structure CallSpec (pre : List ExecEvent) (k : HandlerCall) : Prop where
  criteria : k.usingCriteria = true →
    ∃ node, setConfigNode k.compositor (some node) true = .ok k.context
  active : k.usingCriteria = false → ∀ v, k.compositor.focused = some v →
    setConfigNode k.compositor (k.compositor.describeView v) false = .ok k.context
  inactive : k.usingCriteria = false → k.compositor.focused = none → k.context = contextAfter pre

namespace Exec

/-- Every call has the context that the loop says, and the last one is the present context. -/
structure ContextInv (s : Exec) : Prop where
  context : s.handlerContext = contextAfter s.log
  calls : ∀ pre k post, s.log = pre ++ .call k :: post → CallSpec pre k

variable {W : Commands} {s : Exec}

lemma ContextInv.of_eq {s' : Exec} (h : s.ContextInv) (hlog : s'.log = s.log)
    (hcontext : s'.handlerContext = s.handlerContext) : s'.ContextInv where
  context := by rw [hcontext, h.context, hlog]
  calls := by rw [hlog]; exact h.calls

/-- An event that is not a call. -/
lemma ContextInv.event {s' : Exec} {e : ExecEvent} (h : s.ContextInv) (he : e.asCall = none)
    (hlog : s'.log = s.log ++ [e]) (hcontext : s'.handlerContext = s.handlerContext) :
    s'.ContextInv where
  context := by
    have hcalls : callsOf s'.log = callsOf s.log := by
      rw [hlog, callsOf, List.filterMap_append, List.filterMap_cons_none he, List.filterMap_nil,
        List.append_nil, callsOf]
    rw [hcontext, h.context, contextAfter, contextAfter, hcalls]
  calls := by
    intro pre k post hsplit
    rw [hlog] at hsplit
    rcases List.eq_nil_or_concat post with rfl | ⟨post', x, rfl⟩
    · obtain ⟨-, hlast⟩ := List.append_inj' hsplit rfl
      rw [(List.cons.inj hlast).1] at he
      cases he
    · rw [List.concat_eq_append, ← List.cons_append, ← List.append_assoc] at hsplit
      exact h.calls pre k post' (List.append_inj' hsplit rfl).1

lemma ContextInv.append (h : s.ContextInv) (r : CommandResult) : (s.append r).ContextInv :=
  h.event (e := .result r) rfl rfl rfl

lemma ContextInv.enter (h : s.ContextInv) {k : HandlerCall} (hk : CallSpec s.log k) :
    (s.enter k).ContextInv where
  context := by
    have hcalls : callsOf (s.enter k).log = callsOf s.log ++ [k] := by
      rw [Exec.enter, callsOf, List.filterMap_append]
      rfl
    rw [contextAfter, hcalls, List.getLast?_concat]
    rfl
  calls := by
    intro pre k' post hsplit
    rw [Exec.enter] at hsplit
    rcases List.eq_nil_or_concat post with rfl | ⟨post', x, rfl⟩
    · obtain ⟨hpre, hlast⟩ := List.append_inj' hsplit rfl
      cases hlast
      exact hpre ▸ hk
    · rw [List.concat_eq_append, ← List.cons_append, ← List.append_assoc] at hsplit
      exact h.calls pre k' post' (List.append_inj' hsplit rfl).1

lemma ContextInv.callHandler (h : s.ContextInv) (name : CommandName) (argv : List Str)
    (context : Except Failure CommandHandlerContext)
    (hcontext : ∀ ctx, context = .ok ctx →
      CallSpec s.log ⟨s.usingCriteria, name, argv, ctx, s.compositor⟩) :
    (s.callHandler W name argv context).1.ContextInv := by
  cases context with
  | error f => exact h
  | ok ctx =>
    rw [Exec.callHandler]
    split
    · exact h.enter (hcontext ctx rfl)
    · exact (h.enter (hcontext ctx rfl)).of_eq rfl rfl

lemma ContextInv.runPlain (h : s.ContextInv) (hplain : s.usingCriteria = false)
    (name : CommandName) (argv : List Str) : (s.runPlain W name argv).1.ContextInv := by
  rw [Exec.runPlain]
  cases hout : s.compositor.activeOutput with
  | none => exact h
  | some out =>
    have hfocused : s.compositor.focused = s.compositor.activeView out := by
      rw [Compositor.focused, hout, Option.bind_some]
    have hcall := h.callHandler (W := W) name argv (s.plainContext out) fun ctx hctx => by
      rw [plainContext] at hctx
      refine ⟨fun hc => absurd (hplain.symm.trans hc) (by simp), fun _ v hv => ?_, fun _ hnone => ?_⟩
      · rw [hfocused] at hv
        rwa [hv] at hctx
      · rw [hfocused] at hnone
        rw [hnone] at hctx
        cases hctx
        exact h.context
    simp only
    cases heq : s.callHandler W name argv (s.plainContext out) with
    | mk s' res =>
      rw [heq] at hcall
      cases res with
      | error f => exact hcall
      | ok res => exact hcall.append res

lemma usingCriteria_callHandler (s : Exec) (name : CommandName) (argv : List Str)
    (context : Except Failure CommandHandlerContext) :
    (s.callHandler W name argv context).1.usingCriteria = s.usingCriteria := by
  cases context with
  | error f => rfl
  | ok ctx =>
    rw [Exec.callHandler]
    split <;> rfl

lemma ContextInv.runContainers (name : CommandName) (argv : List Str) :
    ∀ (containers : List Node) {s : Exec}, s.ContextInv → s.usingCriteria = true →
      (Exec.runContainers W name argv containers s).1.ContextInv := by
  intro containers
  induction containers with
  | nil => exact fun h _ => h.append _
  | cons container containers ih =>
    intro s h hcriteria
    have hcall := h.callHandler (W := W) name argv
      (setConfigNode s.compositor container true) fun ctx hctx =>
        ⟨fun _ => ⟨container, hctx⟩, fun hc => absurd (hcriteria.symm.trans hc) (by simp),
          fun hc => absurd (hcriteria.symm.trans hc) (by simp)⟩
    have husing := usingCriteria_callHandler (W := W) s name argv
      (setConfigNode s.compositor container true)
    rw [Exec.runContainers]
    cases heq : s.callHandler W name argv (setConfigNode s.compositor container true) with
    | mk s' res =>
      rw [heq] at hcall husing
      cases res with
      | error f => exact hcall
      | ok res =>
        simp only
        split_ifs
        · exact ih hcall (husing.trans hcriteria)
        · exact hcall.append res

lemma ContextInv.runCommand (h : s.ContextInv) (cmd : Str) : (s.runCommand W cmd).1.ContextInv := by
  rw [Exec.runCommand]
  split
  · exact h
  · exact h
  · next name args _ =>
    dsimp only
    cases coreHandler name with
    | none => exact h.append _
    | some handler =>
      dsimp only
      split_ifs with hcriteria
      · exact h.append _
      · exact ContextInv.runContainers handler _ _ h hcriteria
      · exact h.runPlain (by simpa using hcriteria) handler _

lemma ContextInv.nextCommand (h : s.ContextInv) (head : Str) :
    (s.nextCommand W head).1.ContextInv := by
  rw [Exec.nextCommand]
  split
  · exact h
  · next r _ =>
    dsimp only
    split_ifs
    · exact h.of_eq rfl rfl
    · refine ContextInv.runCommand ?_ _
      have hcut : ({ s with head := r.stringp, matchedDelim := r.matched } : Exec).ContextInv :=
        h.of_eq rfl rfl
      exact hcut.event (e := .handling (skipBlanks r.start)) rfl rfl rfl

lemma ContextInv.round (h : s.ContextInv) (head : Str) : (s.round W head).1.ContextInv := by
  rw [Exec.round]
  dsimp only
  split_ifs
  · split
    · exact h.of_eq rfl rfl
    · next error _ => exact h.event (e := .parseError ⟨.invalidParameter, some error⟩) rfl rfl rfl
    · split
      · exact h.of_eq rfl rfl
      · refine ContextInv.nextCommand ?_ _
        exact h.of_eq rfl rfl
  · refine ContextInv.nextCommand ?_ _
    exact h.of_eq rfl rfl
  · exact h.nextCommand _

lemma ContextInv.loop : ∀ (n : ℕ) {s : Exec}, s.ContextInv → (Exec.loop W n s).1.ContextInv := by
  intro n
  induction n with
  | zero => exact fun h => h
  | succ n ih =>
    intro s h
    rw [Exec.loop]
    cases hhead : s.head with
    | none => exact h
    | some head =>
      have hround := h.round (W := W) head
      dsimp only
      cases hr : s.round W head with
      | mk s' flow =>
        rw [hr] at hround
        cases flow with
        | next => exact ih hround
        | cleanup => exact hround
        | failed f => exact hround

end Exec

lemma executeCommand_contextInv (W : Commands) (exec : Str) (c : Compositor) :
    (executeCommand W exec c).1.ContextInv :=
  Exec.ContextInv.loop _ ⟨rfl, fun pre k post h => by simp [Exec.init] at h⟩

/-! ## What is left in the context -/

lemma type_describeView {c : Compositor} {v : ViewRef} {n : Node} (h : c.describeView v = some n) :
    n.attr.type = .con ∨ n.attr.type = .floatingCon := by
  rw [Compositor.describeView_eq, Compositor.viewNode] at h
  split at h
  · cases h
    change (if c.isFloating v = true then NodeType.floatingCon else .con) = .con ∨
      (if c.isFloating v = true then NodeType.floatingCon else .con) = .floatingCon
    split
    · exact Or.inr rfl
    · exact Or.inl rfl
  · cases h

lemma describeView_eq_none_iff {c : Compositor} {v : ViewRef} :
    c.describeView v = none ↔ (c.view v).isToplevel = false := by
  rw [Compositor.describeView_eq, Compositor.viewNode]
  split <;> simp_all

/-- The context of the description of a view. -/
lemma setConfigNode_describeView {c : Compositor} {v : ViewRef} {n : Node} {b : Bool}
    {ctx : CommandHandlerContext} (h : c.describeView v = some n) :
    setConfigNode c (some n) b = .ok ctx ↔ ∃ workspace,
      c.otherViewsWorkspace n.id.toUInt32 = .ok workspace ∧ ctx = ⟨some n, some n, workspace, b⟩ := by
  have hset : setConfigNode c (some n) b
      = (fun workspace => ⟨some n, some n, workspace, b⟩) <$> c.otherViewsWorkspace n.id.toUInt32 := by
    rw [setConfigNode]
    rcases type_describeView h with ht | ht <;> rw [ht] <;> rfl
  rw [hset, Machine.map_ok_iff]
  constructor
  · rintro ⟨workspace, hw, rfl⟩
    exact ⟨workspace, hw, rfl⟩
  · rintro ⟨workspace, hw, rfl⟩
    exact ⟨workspace, hw, rfl⟩

lemma nodeOverridden_setConfigNode {c : Compositor} {node : Option Node} {b : Bool}
    {ctx : CommandHandlerContext} (h : setConfigNode c node b = .ok ctx) : ctx.nodeOverridden = b := by
  cases node with
  | none =>
    cases h
    rfl
  | some n =>
    rw [setConfigNode] at h
    cases ht : n.attr.type with
    | con | floatingCon =>
      rw [ht] at h
      obtain ⟨workspace, -, rfl⟩ := Machine.map_ok_iff.mp h
      rfl
    | root | output | workspace =>
      rw [ht] at h
      cases h
      rfl

/-- In a log whose calls have the contexts that the loop says, what is in the context has been
put there by the last call that has set it. -/
lemma contextAfter_eq {log : List ExecEvent}
    (h : ∀ pre k post, log = pre ++ .call k :: post → CallSpec pre k) :
    contextAfter log = match lastSetter log with
      | none => {}
      | some k => k.context := by
  induction log using List.reverseRecOn with
  | nil => rfl
  | append_singleton log e ih =>
    have ih := ih fun pre k post hsplit => h pre k (post ++ [e]) (by rw [hsplit]; simp)
    cases he : e.asCall with
    | none =>
      have hcalls : callsOf (log ++ [e]) = callsOf log := by
        rw [callsOf, List.filterMap_append, List.filterMap_cons_none he, List.filterMap_nil,
          List.append_nil, callsOf]
      rw [contextAfter, lastSetter, hcalls]
      exact ih
    | some k =>
      obtain rfl : e = .call k := by
        cases e <;> cases he
        rfl
      have hcalls : callsOf (log ++ [.call k]) = callsOf log ++ [k] := by
        rw [callsOf, List.filterMap_append]
        rfl
      have hk := h log k [] rfl
      rw [contextAfter, lastSetter, hcalls, List.getLast?_concat, List.filter_append]
      by_cases hsets : k.Sets = true
      · rw [List.filter_cons_of_pos hsets, List.filter_nil, List.getLast?_concat]
      · rw [List.filter_cons_of_neg hsets, List.filter_nil, List.append_nil]
        obtain ⟨hplain, hnone⟩ : k.usingCriteria = false ∧ k.compositor.focused = none := by
          simpa [HandlerCall.Sets] using hsets
        exact (hk.inactive hplain hnone).trans ih

/-- A call of a log, with the events before it. -/
lemma exists_split_of_mem_callsOf {log : List ExecEvent} {k : HandlerCall} (h : k ∈ callsOf log) :
    ∃ pre post, log = pre ++ .call k :: post := by
  obtain ⟨e, he, hk⟩ := List.mem_filterMap.mp h
  obtain rfl : e = .call k := by
    cases e <;> cases hk
    rfl
  exact List.append_of_mem he

/-- The context of a view that is active shows this view and nothing else. -/
lemma seesActiveView_of_active {pre : List ExecEvent} {k : HandlerCall} (h : CallSpec pre k)
    (hplain : k.usingCriteria = false) {v : ViewRef} (hv : k.compositor.focused = some v) :
    k.SeesActiveView := by
  have hset := h.active hplain v hv
  have hactive : k.activeNode = k.compositor.describeView v := by
    rw [HandlerCall.activeNode, hv, Option.bind_some]
  cases hn : k.compositor.describeView v with
  | none =>
    rw [hn] at hset hactive
    cases k
    cases hset
    exact ⟨hactive.symm, hactive.symm, by rw [hactive], rfl⟩
  | some n =>
    rw [hn] at hset hactive
    obtain ⟨workspace, hw, hctx⟩ := (setConfigNode_describeView hn).mp hset
    refine ⟨?_, ?_, ?_, ?_⟩ <;> rw [hctx]
    · exact hactive.symm
    · exact hactive.symm
    · rw [hactive]
      exact hw

/-- With no active view the context is right exactly when there is nothing in it. -/
lemma seesActiveView_inactive {k : HandlerCall} (hnone : k.compositor.focused = none) :
    k.SeesActiveView ↔ k.context = {} := by
  have hactive : k.activeNode = none := by
    rw [HandlerCall.activeNode, hnone, Option.bind_none]
  constructor
  · rintro ⟨hnode, hcontainer, hworkspace, hoverridden⟩
    rw [hactive] at hnode hcontainer hworkspace
    obtain ⟨_, _, _, ⟨node, container, workspace, overridden⟩, _⟩ := k
    cases hnode
    cases hcontainer
    cases hworkspace
    cases hoverridden
    rfl
  · intro h
    refine ⟨?_, ?_, ?_, ?_⟩ <;> rw [h]
    · exact hactive.symm
    · exact hactive.symm
    · rw [hactive]

lemma contextAfter_eq_empty_iff {log : List ExecEvent}
    (h : ∀ pre k post, log = pre ++ .call k :: post → CallSpec pre k) :
    contextAfter log = {} ↔ LeavesNothing log := by
  rw [contextAfter_eq h]
  cases hlast : lastSetter log with
  | none => simp [LeavesNothing, hlast]
  | some k =>
    have hmem := List.mem_filter.mp (List.mem_of_getLast? hlast)
    obtain ⟨pre, post, hsplit⟩ := exists_split_of_mem_callsOf hmem.1
    have hk := h pre k post hsplit
    simp only [LeavesNothing, hlast, Option.some.injEq, forall_eq']
    cases hplain : k.usingCriteria with
    | true =>
      -- a call under criteria overrides the node
      obtain ⟨node, hset⟩ := hk.criteria hplain
      refine iff_of_false (fun hctx => ?_) (by simp)
      have := nodeOverridden_setConfigNode hset
      rw [hctx] at this
      cases this
    | false =>
      obtain ⟨v, hv⟩ : ∃ v, k.compositor.focused = some v := by
        have hsets := hmem.2
        rw [HandlerCall.Sets, hplain, Bool.false_or, Option.isSome_iff_exists] at hsets
        exact hsets
      have hset := hk.active hplain v hv
      simp only [hv, Option.some.injEq, forall_eq', true_and, ← describeView_eq_none_iff]
      cases hn : k.compositor.describeView v with
      | none =>
        rw [hn] at hset
        exact iff_of_true (Except.ok.inj hset).symm rfl
      | some n =>
        rw [hn] at hset
        obtain ⟨workspace, -, hctx⟩ := (setConfigNode_describeView hn).mp hset
        rw [hctx]
        exact iff_of_false (by rintro ⟨⟩) (by rintro ⟨⟩)

/-- In a run of a command string every command without criteria sees the active view, or nothing
when no view is active, exactly when nothing is left in the context wherever a command without
criteria is reached while no view is active. -/
theorem seesActiveView_iff (W : Commands) (exec : Str) (c : Compositor) :
    (∀ pre k post, (executeCommand W exec c).1.log = pre ++ .call k :: post →
        k.usingCriteria = false → k.SeesActiveView) ↔
      ∀ pre k post, (executeCommand W exec c).1.log = pre ++ .call k :: post →
        k.usingCriteria = false → k.compositor.focused = none → LeavesNothing pre := by
  have hcalls := (executeCommand_contextInv W exec c).calls
  have hpre : ∀ {pre k post}, (executeCommand W exec c).1.log = pre ++ .call k :: post →
      ∀ pre' k' post', pre = pre' ++ .call k' :: post' → CallSpec pre' k' := by
    intro pre k post hsplit pre' k' post' h
    refine hcalls pre' k' (post' ++ .call k :: post) ?_
    rw [hsplit, h, List.append_assoc, List.cons_append]
  constructor
  · intro h pre k post hsplit hplain hnone
    have hctx := (seesActiveView_inactive hnone).mp (h pre k post hsplit hplain)
    rw [(hcalls pre k post hsplit).inactive hplain hnone] at hctx
    exact (contextAfter_eq_empty_iff (hpre hsplit)).mp hctx
  · intro h pre k post hsplit hplain
    have hk := hcalls pre k post hsplit
    cases hfocused : k.compositor.focused with
    | some v => exact seesActiveView_of_active hk hplain hfocused
    | none =>
      refine (seesActiveView_inactive hfocused).mpr ?_
      rw [hk.inactive hplain hfocused]
      exact (contextAfter_eq_empty_iff (hpre hsplit)).mpr (h pre k post hsplit hplain hfocused)

/-- The handlers of `kill` and `sticky`; the others are not called here. -/
def killAndSticky : Commands where
  library := ⟨fun _ => none, fun _ _ => false, fun _ l => l⟩
  handler
    | .kill => killHandler
    | .sticky => stickyHandler
    | _ => fun _ _ c => .ok (⟨.unsupported, none⟩, c)

/-- With no active view, `kill` behind a command under criteria closes the view that the criteria
have selected. -/
theorem kill_sees_selected :
    ¬ ∀ pre k post, (executeCommand killAndSticky "[con_id=7] sticky enable; kill".toList
        (.flat [⟨1, [], 1, 1, ⟨0, 0⟩⟩] [.toplevelOn 7 0 .workspace] none)).1.log
          = pre ++ .call k :: post → k.usingCriteria = false → k.SeesActiveView := by
  intro h
  have hcall : (callsOf (executeCommand killAndSticky "[con_id=7] sticky enable; kill".toList
      (.flat [⟨1, [], 1, 1, ⟨0, 0⟩⟩] [.toplevelOn 7 0 .workspace] none)).1.log)[1]?.map
        (fun k => (k.usingCriteria, k.name, k.context.nodeOverridden)) = some (false, .kill, true) := by
    decide +kernel
  obtain ⟨k, hk, hfields⟩ := Option.map_eq_some_iff.mp hcall
  obtain ⟨pre, post, hsplit⟩ := exists_split_of_mem_callsOf (List.mem_of_getElem? hk)
  obtain ⟨hplain, -, hoverridden⟩ : k.usingCriteria = false ∧ k.name = .kill ∧
      k.context.nodeOverridden = true := by simpa using hfields
  have hsees := (h pre k post hsplit hplain).not_overridden
  rw [hoverridden] at hsees
  cases hsees

end WayfireIpc
