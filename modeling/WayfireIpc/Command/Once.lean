/-
# One call for a view

The containers that criteria select are nodes of the tree, so a view is selected twice only
if it has two nodes; and a command is run once for each selected container.
-/
import WayfireIpc.Command.Context
import WayfireIpc.Compositor.Once

namespace WayfireIpc

/-! ## The containers of a tree -/

mutual

lemma Node.containers_eq_filter : ∀ n : Node, n.containers
    = n.all.filter fun m => m.attr.type = .workspace ∨ m.attr.shell ≠ none
  | .mk attr nodes floatingNodes => by
    rw [Node.containers, Node.all, containersOfList_eq_filter nodes,
      containersOfList_eq_filter floatingNodes, List.filter_cons, List.filter_append]
    split_ifs with h h' h'
    · simp
    · exact absurd (decide_eq_true h) h'
    · exact absurd (of_decide_eq_true h') h
    · simp

lemma containersOfList_eq_filter : ∀ ns : List Node, containersOfList ns
    = (allOfList ns).filter fun m => m.attr.type = .workspace ∨ m.attr.shell ≠ none
  | [] => rfl
  | n :: ns => by
    rw [containersOfList, allOfList, List.filter_append, Node.containers_eq_filter n,
      containersOfList_eq_filter ns]

end

namespace Compositor

variable {c : Compositor}

/-- The walk over the tree finds every node of a view. -/
lemma views_containers : c.tree.containers.filterMap Node.view? = viewsIn [c.tree] := by
  have hall : viewsIn [c.tree] = c.tree.all.filterMap Node.view? := by
    rw [viewsIn, allOfList, allOfList, List.append_nil]
  rw [hall, Node.containers_eq_filter, List.filterMap_filter]
  refine List.filterMap_congr fun m hm => ?_
  rcases mem_all_tree hm with ⟨v, hv⟩ | ⟨hother, -⟩
  · rw [if_pos (decide_eq_true (Or.inr hv.shell))]
  · have hnone : m.view? = none := by
      rw [Node.view?]
      split
      · rename_i v hv
        exact absurd hv (hother v)
      · rfl
    rw [hnone, ite_self]

end Compositor

/-! ## The calls -/

/-- The view whose node is in the context of a call. -/
def HandlerCall.view? (k : HandlerCall) : Option ViewRef := k.context.node.bind Node.view?

lemma node_setConfigNode {c : Compositor} {n : Node} {b : Bool} {ctx : CommandHandlerContext}
    (h : setConfigNode c (some n) b = .ok ctx) : ctx.node = some n := by
  rw [setConfigNode] at h
  cases ht : n.attr.type with
  | con | floatingCon =>
    rw [ht] at h
    obtain ⟨workspace, -, rfl⟩ := Machine.map_ok_iff.mp h
    rfl
  | root | output | workspace =>
    rw [ht] at h
    cases h
    rfl

namespace Exec

variable {W : Commands}

/-- A call of a handler for a container. -/
lemma callHandler_container (s : Exec) (name : CommandName) (argv : List Str) (container : Node) :
    let called := s.callHandler W name argv (setConfigNode s.compositor container true)
    (callsOf called.1.log = callsOf s.log ∧ ∃ f, called.2 = .error f) ∨
      ∃ k : HandlerCall, k.context.node = some container ∧
        callsOf called.1.log = callsOf s.log ++ [k] := by
  intro called
  cases hctx : setConfigNode s.compositor container true with
  | error f =>
    refine Or.inl ⟨?_, f, ?_⟩ <;> simp only [called, hctx, callHandler]
  | ok ctx =>
    refine Or.inr ⟨⟨s.usingCriteria, name, argv, ctx, s.compositor⟩, node_setConfigNode hctx, ?_⟩
    simp only [called, hctx, callHandler]
    split <;> exact callsOf_append _ _

/-- The loop over the containers calls the handler once for each of the first containers. -/
theorem runContainers_calls (name : CommandName) (argv : List Str) :
    ∀ (containers : List Node) (s : Exec), ∃ calls : List HandlerCall,
      callsOf (s.runContainers W name argv containers).1.log = callsOf s.log ++ calls ∧
        (calls.map fun k => k.context.node) <+: containers.map some := by
  intro containers
  induction containers with
  | nil =>
    intro s
    refine ⟨[], ?_, List.nil_prefix⟩
    rw [runContainers]
    exact callsOf_append _ _
  | cons container containers ih =>
    intro s
    have hcall := callHandler_container (W := W) s name argv container
    rw [runContainers]
    cases heq : s.callHandler W name argv (setConfigNode s.compositor container true) with
    | mk s' res =>
      rw [heq] at hcall
      rcases hcall with ⟨hlog, f, hf⟩ | ⟨k, hk, hlog⟩
      · simp only at hf
        subst hf
        -- the node cannot be made, and no handler is called
        exact ⟨[], by rw [List.append_nil]; exact hlog, List.nil_prefix⟩
      · simp only at hlog
        have hone : [k].map (fun k => k.context.node) <+: (container :: containers).map some := by
          rw [List.map_singleton, hk, List.map_cons]
          exact List.prefix_append [some container] _
        cases res with
        | error f => exact ⟨[k], hlog, hone⟩
        | ok res =>
          simp only
          split_ifs
          · obtain ⟨calls, hcalls, hfirst⟩ := ih s'
            refine ⟨k :: calls, ?_, ?_⟩
            · rw [hcalls, hlog, List.append_assoc]
              rfl
            · rw [List.map_cons, hk, List.map_cons]
              exact (List.prefix_cons_inj _).mpr hfirst
          · refine ⟨[k], ?_, hone⟩
            rw [append, callsOf_append, hlog]
            exact List.append_nil _

end Exec

/-! ## Each view once -/

/-- Among the containers that any criteria select each view occurs at most once, and so a command
under these criteria calls its handler at most once for a view. -/
structure Compositor.HandledOnce (W : Commands) (c : Compositor) : Prop where
  containers : ∀ (ks : Criteria) ms, ks.getContainers W.library c = .ok ms →
    (ms.filterMap Node.view?).Nodup
  calls : ∀ (ks : Criteria) (s : Exec), ks.getContainers W.library c = .ok s.containers →
    ∀ name argv calls, callsOf (s.runContainers W name argv s.containers).1.log
      = callsOf s.log ++ calls → (calls.filterMap HandlerCall.view?).Nodup

namespace Compositor

variable {W : Commands} {c : Compositor}

lemma views_of_calls (calls : List HandlerCall) : calls.filterMap HandlerCall.view?
    = (calls.map fun k => k.context.node).filterMap fun node => node.bind Node.view? := by
  rw [List.filterMap_map]
  rfl

/-- The calls are those of the containers. -/
lemma HandledOnce.of_containers (h : ∀ (ks : Criteria) ms,
    ks.getContainers W.library c = .ok ms → (ms.filterMap Node.view?).Nodup) :
    c.HandledOnce W := by
  refine ⟨h, fun ks s hks name argv calls hcalls => ?_⟩
  obtain ⟨calls', hcalls', hfirst⟩ := Exec.runContainers_calls (W := W) name argv s.containers s
  obtain rfl : calls = calls' := List.append_cancel_left (hcalls.symm.trans hcalls')
  rw [views_of_calls]
  refine (hfirst.sublist.filterMap _).nodup ?_
  rw [List.filterMap_map]
  exact h ks _ hks

end Compositor

namespace Criteria

variable {W : Library} {c : Compositor}

lemma matchesOf_eq_filter {ks : Criteria} {p : Node → Bool} : ∀ {containers : List Node},
    (∀ m ∈ containers, ks.matchesNode W c m = .ok (p m)) →
      ks.matchesOf W c containers = .ok (containers.filter p) := by
  intro containers
  induction containers with
  | nil => exact fun _ => rfl
  | cons m containers ih =>
    intro h
    rw [matchesOf, h m List.mem_cons_self, Machine.ok_bind,
      ih fun n hn => h n (List.mem_cons_of_mem m hn), Machine.ok_bind, List.filter_cons]
    rfl

/-- The criteria `[all]` select the nodes of views. -/
lemma matchesNode_all (raw : Str) (m : Node) : ({ raw := raw, all := true } : Criteria).matchesNode
    W c m = .ok (m.attr.type = .con ∨ m.attr.type = .floatingCon) := by
  rw [matchesNode]
  split
  · rename_i h
    rw [decide_eq_true h]
    rfl
  · rename_i h
    rw [decide_eq_false h]
    rfl

end Criteria

namespace Compositor

variable {W : Commands} {c : Compositor}

/-- The views that the criteria `[all]` select. -/
lemma getContainers_all (hdesc : c.Describable) (raw : Str) : ∃ ms,
    ({ raw := raw, all := true } : Criteria).getContainers W.library c = .ok ms ∧
      ms.filterMap Node.view? = viewsIn [c.tree] := by
  refine ⟨c.tree.containers.filter fun m => m.attr.type = .con ∨ m.attr.type = .floatingCon,
    ?_, ?_⟩
  · rw [Criteria.getContainers, getTree_eq_some_iff.mpr ⟨hdesc, rfl⟩]
    exact Criteria.matchesOf_eq_filter fun m _ => Criteria.matchesNode_all raw m
  · rw [← views_containers, List.filterMap_filter]
    refine List.filterMap_congr fun m hm => ?_
    rw [Node.containers_eq_filter] at hm
    cases hv : m.view? with
    | none => rw [ite_self]
    | some v =>
      have hentity : m.entity = .view v := by
        rw [Node.view?] at hv
        split at hv
        · cases hv
          assumption
        · cases hv
      rw [if_pos (decide_eq_true (ofView_of_mem_tree (List.mem_filter.mp hm).1 hentity).type)]

/-- Commands under criteria call their handler at most once for each view, whatever the criteria
are, exactly when there is no tree or no view has two nodes in it. -/
theorem handledOnce_iff (W : Commands) (hc : c.Lawful) :
    c.HandledOnce W ↔ (c.Describable → c.RootsApart) := by
  rw [← hc.viewsIn_tree_nodup_iff]
  constructor
  · intro h hdesc
    obtain ⟨ms, hms, hviews⟩ := getContainers_all (W := W) hdesc []
    rw [← hviews]
    exact h.containers _ ms hms
  · intro h
    refine .of_containers fun ks ms hms => ?_
    obtain ⟨root, hroot, hms⟩ := Machine.bind_ok_iff.mp hms
    have hsub := (Criteria.matchesOf_spec hms).1
    cases root with
    | none =>
      rw [List.sublist_nil.mp hsub]
      exact List.nodup_nil
    | some t =>
      obtain ⟨hdesc, rfl⟩ := getTree_eq_some_iff.mp hroot
      refine (hsub.filterMap _).nodup ?_
      show (c.tree.containers.filterMap Node.view?).Nodup
      rw [views_containers]
      exact h hdesc

/-- An output with one workspace, on which one view is shown in a layer. -/
def oneViewIn (layer : Layer) : Compositor :=
  .flat [⟨1, "A".toList, 1, 1, ⟨0, 0⟩⟩] [.toplevelOn 7 0 layer] none

/-- A view in the layer TOP is in `nodes` and in `floating_nodes`: `[all]` selects it twice. -/
theorem topView_handledTwice :
    (oneViewIn .top).Lawful ∧ ¬ (oneViewIn .top).HandledOnce killAndSticky := by
  refine ⟨flat_lawful _ _ _, fun h => ?_⟩
  have hviews : (({ raw := "[all]".toList, all := true } : Criteria).getContainers
      killAndSticky.library (oneViewIn .top)).map (List.filterMap Node.view?)
        = .ok [0, 0] := by
    decide +kernel
  obtain ⟨ms, hms, htwice⟩ := Machine.map_ok_iff.mp hviews
  have hnodup := h.containers _ ms hms
  rw [htwice] at hnodup
  exact absurd hnodup (by decide)

/-- A view in the layer WORKSPACE is handled once. -/
theorem workspaceView_handledOnce : (oneViewIn .workspace).HandledOnce killAndSticky := by
  have hroots : ∀ r ∈ (oneViewIn .workspace).rootViews, r = 0 := by decide +kernel
  refine (handledOnce_iff killAndSticky (flat_lawful _ _ _)).mpr fun _ => ?_
  constructor
  case top =>
    intro o ho p hp
    have hpoints : ∀ o ∈ (oneViewIn .workspace).outputs, ∀ p ∈ (oneViewIn .workspace).gridPoints o,
        (oneViewIn .workspace).workspaceViews [.top, .dwidget] p o = [] := by
      decide +kernel
    exact hpoints o ho p (mem_gridPoints.mpr hp)
  case scratchpad => decide +kernel
  case child =>
    intro r _ _ b w hw
    obtain ⟨hself, hne, -⟩ := mem_childViews.mp hw
    exact absurd (List.mem_singleton.mp hself) hne
  case apart =>
    exact fun r hr r' hr' _ _ hne => absurd ((hroots r hr).trans (hroots r' hr').symm) hne

end Compositor
end WayfireIpc
