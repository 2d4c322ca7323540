/-
# What has a node

The views that `describe_view` reaches from a view, the views that have nodes in the tree,
how often each of them has one, and the id of every node.
-/
import WayfireIpc.Compositor.Tree

namespace WayfireIpc
namespace Compositor

/-! ## Below a view -/

/-- `describe_view` of `v` contains a node of `w`: `w` is `v`, or it is reached through
children that float. -/
inductive FloatsBelow (c : Compositor) : ViewRef → ViewRef → Prop
  | self {v : ViewRef} : (c.view v).isToplevel → FloatsBelow c v v
  | child {v w x : ViewRef} : (c.view v).isToplevel → w ∈ c.childViews v true → FloatsBelow c w x →
      FloatsBelow c v x

variable {c : Compositor} {v w x : ViewRef}

variable (c) in
/-- The views of the nodes that `describe_view` makes. -/
def describedViews (v : ViewRef) : List ViewRef := viewsIn (c.describeView v).toList

lemma viewsIn_getViewNodes (htop : (c.view v).isToplevel) (b : Bool) :
    viewsIn (c.getViewNodes v b) = (c.childViews v b).flatMap c.describedViews := by
  rw [getViewNodes, if_pos htop]
  exact gather_filterMap _ _ _

lemma describeView_of_toplevel (htop : (c.view v).isToplevel) : c.describeView v
    = some (.mk { c.viewAttr v with focus := (c.getViewNodes v false).map Node.id } []
        (c.getViewNodes v true)) := by
  rw [describeView_eq, viewNode, if_pos htop]

lemma describeView_of_not_toplevel (htop : ¬ (c.view v).isToplevel) :
    c.describeView v = none := by
  rw [describeView_eq, viewNode, if_neg htop]

lemma describedViews_of_toplevel (htop : (c.view v).isToplevel) :
    c.describedViews v = v :: (c.childViews v true).flatMap c.describedViews := by
  rw [describedViews, describeView_of_toplevel htop, ← viewsIn_getViewNodes htop]
  exact gather_singleton _ _

lemma describedViews_of_not_toplevel (htop : ¬ (c.view v).isToplevel) :
    c.describedViews v = [] := by
  rw [describedViews, describeView_of_not_toplevel htop]
  rfl

/-- The children of a view are described before it. -/
lemma depth_induction {P : ViewRef → Prop}
    (step : ∀ v, (∀ b, ∀ w ∈ c.childViews v b, P w) → P v) (v : ViewRef) : P v := by
  induction h : c.depth v using Nat.strong_induction_on generalizing v with
  | _ n ih =>
    subst h
    exact step v fun b w hw => ih _ (depth_childViews hw) w rfl

lemma mem_describedViews : w ∈ c.describedViews v ↔ c.FloatsBelow v w := by
  constructor
  · intro hw
    induction v using depth_induction (c := c) with
    | step v ih =>
      by_cases htop : (c.view v).isToplevel
      · rw [describedViews_of_toplevel htop, List.mem_cons, List.mem_flatMap] at hw
        rcases hw with rfl | ⟨x, hx, hw⟩
        · exact .self htop
        · exact .child htop hx (ih true x hx hw)
      · rw [describedViews_of_not_toplevel htop] at hw
        exact absurd hw List.not_mem_nil
  · intro h
    induction h with
    | self htop =>
      rw [describedViews_of_toplevel htop]
      exact List.mem_cons_self
    | child htop hchild _ ih =>
      rw [describedViews_of_toplevel htop]
      exact List.mem_cons_of_mem _ (List.mem_flatMap.mpr ⟨_, hchild, ih⟩)

/-! ## The containers -/

variable (c) in
/-- The views of the nodes that stand for a view as a container. -/
def containerViews (v : ViewRef) : List ViewRef :=
  if (c.view v).isToplevel then
    v :: ((c.childViews v false).flatMap c.describedViews
      ++ (c.childViews v true).flatMap c.describedViews)
  else []

lemma containerNode_of_toplevel (htop : (c.view v).isToplevel)
    (focus : Bool → List Node → Bool) : c.containerNode focus v
      = some (.mk { c.viewAttr v with
          focus := (c.getViewNodes v false).map Node.id
          focused := focus (c.viewAttr v).focused (c.getViewNodes v false) }
        (c.getViewNodes v false) (c.getViewNodes v true)) := by
  rw [containerNode, describeView_of_toplevel htop]
  rfl

lemma viewsIn_containerNode (focus : Bool → List Node → Bool) (v : ViewRef) :
    viewsIn (c.containerNode focus v).toList = c.containerViews v := by
  by_cases htop : (c.view v).isToplevel
  · rw [containerNode_of_toplevel htop, containerViews, if_pos htop,
      ← viewsIn_getViewNodes htop, ← viewsIn_getViewNodes htop]
    exact gather_singleton _ _
  · rw [containerNode, describeView_of_not_toplevel htop, containerViews, if_neg htop]
    rfl

/-! ## The whole tree -/

variable (c) in
/-- The views that stand as containers of a workspace, in its `nodes` and its
`floating_nodes`. -/
def workspaceRoots (o : OutputRef) (p : Point) : List ViewRef :=
  c.workspaceViews [.top, .workspace, .dwidget] p o ++ c.workspaceViews [.top, .dwidget] p o

variable (c) in
/-- The views that stand as containers of an output. -/
def outputRoots (o : OutputRef) : List ViewRef :=
  (c.gridPoints o).flatMap (c.workspaceRoots o) ++ c.shellViews o

variable (c) in
/-- The views that stand as containers of the scratchpad. -/
def scratchpadRoots : List ViewRef :=
  c.outputs.flatMap fun o => (c.gridPoints o).flatMap fun p => c.scratchpadViews p o

variable (c) in
/-- The views that stand as containers. -/
def rootViews : List ViewRef := c.scratchpadRoots ++ c.outputs.flatMap c.outputRoots

variable (c) in
/-- The nodes that describe no view. -/
def frameNodes : List Node :=
  c.tree :: c.getI3ScratchpadOutputNodes :: c.getI3ScratchpadWorkspaceNodes ::
    c.outputs.flatMap fun o => c.outputOf o :: (c.gridPoints o).map (c.workspaceOf o)

section Gather

variable {α : Type*} (f : Node → Option α)

lemma gather_workspaceOf (o : OutputRef) (p : Point) : gather f [c.workspaceOf o p]
    = (f (c.workspaceOf o p)).toList ++ (c.workspaceRoots o p).flatMap fun r =>
        gather f (c.containerNode focusWithoutChildren r).toList := by
  rw [gather_singleton, workspaceRoots, List.flatMap_append, ← gather_filterMap,
    ← gather_filterMap]
  rfl

lemma gather_workspacesOf (o : OutputRef) : (gather f (c.workspacesOf o)).Perm
    (((c.gridPoints o).map (c.workspaceOf o)).filterMap f ++
      ((c.gridPoints o).flatMap (c.workspaceRoots o)).flatMap fun r =>
        gather f (c.containerNode focusWithoutChildren r).toList) := by
  refine (gather_perm f (List.perm_insertionSort _ _)).trans ?_
  rw [gather_map, List.filterMap_eq_flatMap_toList, List.flatMap_map, List.flatMap_assoc]
  simp only [gather_workspaceOf]
  exact (List.flatMap_append_perm _ _ _).symm

lemma gather_outputOf (o : OutputRef) : (gather f [c.outputOf o]).Perm
    ((c.outputOf o :: (c.gridPoints o).map (c.workspaceOf o)).filterMap f ++
      (c.outputRoots o).flatMap fun r =>
        gather f (c.containerNode focusWithoutChildren r).toList) := by
  have hshell : gather f (c.getShellViewNodes o) = (c.shellViews o).flatMap fun r =>
      gather f (c.containerNode focusWithoutChildren r).toList := gather_filterMap _ _ _
  rw [gather_singleton, outputRoots, List.flatMap_append, ← hshell,
    List.filterMap_eq_flatMap_toList, List.flatMap_cons, ← List.filterMap_eq_flatMap_toList,
    List.append_assoc, ← List.append_assoc (List.filterMap _ _)]
  exact ((gather_workspacesOf f o).append_right _).append_left _

lemma gather_scratchpad : gather f [c.getI3ScratchpadOutputNodes]
    = (f c.getI3ScratchpadOutputNodes).toList ++ ((f c.getI3ScratchpadWorkspaceNodes).toList ++
        c.scratchpadRoots.flatMap fun r =>
          gather f (c.containerNode (fun _ views => views.isEmpty) r).toList) := by
  have hflat : c.getI3ScratchpadContainerNodes = c.scratchpadRoots.filterMap
      (c.containerNode fun _ views => views.isEmpty) := by
    rw [scratchpadRoots, List.filterMap_flatMap]
    refine congrArg (List.flatMap · _) (funext fun o => ?_)
    rw [List.filterMap_flatMap]
    rfl
  have hcontainers := gather_filterMap f
    (c.containerNode fun _ views => views.isEmpty) c.scratchpadRoots
  rw [← hflat] at hcontainers
  rw [gather_singleton, ← hcontainers]
  show _ ++ (gather f [c.getI3ScratchpadWorkspaceNodes] ++ []) = _
  rw [gather_singleton, List.append_nil]
  rfl

/-- The nodes of the tree: those that describe no view, then those of each container. -/
theorem gather_tree : (gather f [c.tree]).Perm
    (c.frameNodes.filterMap f ++ (c.scratchpadRoots.flatMap (fun r =>
      gather f (c.containerNode (fun _ views => views.isEmpty) r).toList) ++
        (c.outputs.flatMap c.outputRoots).flatMap fun r =>
          gather f (c.containerNode focusWithoutChildren r).toList)) := by
  have houtputs : (gather f (c.outputs.map c.outputOf)).Perm
      ((c.outputs.flatMap fun o =>
          c.outputOf o :: (c.gridPoints o).map (c.workspaceOf o)).filterMap f ++
        (c.outputs.flatMap c.outputRoots).flatMap fun r =>
          gather f (c.containerNode focusWithoutChildren r).toList) := by
    rw [gather_map, List.filterMap_flatMap, List.flatMap_assoc]
    exact (List.Perm.flatMap_left _ fun o _ => gather_outputOf f o).trans
      (List.flatMap_append_perm _ _ _).symm
  have hcons : gather f c.tree.nodes
      = gather f [c.getI3ScratchpadOutputNodes] ++ gather f (c.outputs.map c.outputOf) :=
    gather_append f [_] _
  have hnil : gather f c.tree.floatingNodes = [] := rfl
  rw [gather_singleton, hcons, hnil, List.append_nil, gather_scratchpad, frameNodes]
  simp only [List.filterMap_eq_flatMap_toList, List.flatMap_cons, List.append_assoc] at houtputs ⊢
  refine List.Perm.append_left _ (List.Perm.append_left _ (List.Perm.append_left _ ?_))
  refine (houtputs.append_left _).trans ?_
  rw [← List.append_assoc, ← List.append_assoc]
  exact List.perm_append_comm.append_right _

end Gather

/-- The views of the nodes of the tree, each as often as it has a node. -/
theorem viewsIn_tree : (viewsIn [c.tree]).Perm (c.rootViews.flatMap c.containerViews) := by
  have hframe : c.frameNodes.filterMap Node.view? = [] := by
    refine List.filterMap_eq_nil_iff.mpr fun n hn => ?_
    simp only [frameNodes, List.mem_cons, List.mem_flatMap, List.mem_map] at hn
    rcases hn with rfl | rfl | rfl | ⟨o, -, rfl | ⟨p, -, rfl⟩⟩ <;> rfl
  have hviews : ∀ focus, (fun r => gather Node.view? (c.containerNode focus r).toList)
      = c.containerViews := fun focus => funext (viewsIn_containerNode focus)
  rw [rootViews, List.flatMap_append]
  refine (gather_tree Node.view?).trans (List.Perm.of_eq ?_)
  rw [hframe, hviews, hviews, List.nil_append]

end Compositor
end WayfireIpc
