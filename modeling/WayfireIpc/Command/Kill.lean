/-
# Closing a container

How often `kill` asks each view to close: the recursion goes down the `nodes` of the
container, its root included, and the handler then closes the root by itself.
-/
import WayfireIpc.Command.Handlers
import WayfireIpc.Compositor.Tree

namespace WayfireIpc

mutual

/-- The nodes of a tree that are reached without entering `floating_nodes`. -/
def Node.tiled : Node → List Node
  | .mk attr nodes floatingNodes => .mk attr nodes floatingNodes :: tiledOfList nodes

def tiledOfList : List Node → List Node
  | [] => []
  | node :: nodes => node.tiled ++ tiledOfList nodes

end

lemma Node.tiled_eq (n : Node) : n.tiled = n :: tiledOfList n.nodes := by
  cases n
  rw [Node.tiled]
  rfl

mutual

lemma Node.tiled_sublist : ∀ n : Node, n.tiled.Sublist n.all
  | .mk attr nodes floatingNodes => by
    rw [Node.tiled, Node.all]
    exact ((tiledOfList_sublist nodes).trans (List.sublist_append_left _ _)).cons_cons _

lemma tiledOfList_sublist : ∀ ns : List Node, (tiledOfList ns).Sublist (allOfList ns)
  | [] => by rw [tiledOfList, allOfList]
  | n :: ns => by
    rw [tiledOfList, allOfList]
    exact n.tiled_sublist.append (tiledOfList_sublist ns)

end

namespace Compositor

/-! ## The requests to close -/

/-- `close()` of some views, one after the other. -/
def close (c : Compositor) (vs : List ViewRef) : Compositor :=
  { c with closed := vs.reverse ++ c.closed }

/-- The views that some nodes name. -/
def named (c : Compositor) (ns : List Node) : List ViewRef :=
  ns.filterMap fun n => IpcCommand.findContainer c n.id

/-- A view is in a tree if the tree has a node with its id. -/
def InTree (c : Compositor) (con : Node) (v : ViewRef) : Prop :=
  v ∈ c.allViews ∧ ∃ n ∈ con.all, n.id.toUInt32 = (c.view v).id

/-- A tree of containers: the ids of its nodes are distinct ids of views. -/
structure ContainerTree (c : Compositor) (con : Node) : Prop where
  distinct : (con.all.map Node.id).Nodup
  isView : ∀ n ∈ con.all, ∃ v ∈ c.allViews, n.id.toUInt32 = (c.view v).id

/-- From `c` to `c'` each view of a tree is asked once to close, and no other view is. -/
structure ClosesOnce (c c' : Compositor) (con : Node) : Prop where
  once : ∀ v, c.InTree con v → c'.closed.count v = c.closed.count v + 1
  other : ∀ v, ¬ c.InTree con v → c'.closed.count v = c.closed.count v

variable {c : Compositor} {con : Node} {v : ViewRef}

@[simp] lemma close_nil : c.close [] = c := rfl

@[simp] lemma close_close (vs ws : List ViewRef) :
    (c.close vs).close ws = c.close (vs ++ ws) := by
  rw [close, close, close, List.reverse_append, List.append_assoc]

@[simp] lemma count_closed_close (vs : List ViewRef) :
    (c.close vs).closed.count v = vs.count v + c.closed.count v := by
  rw [close, List.count_append, List.count_reverse]

@[simp] lemma findContainer_close (vs : List ViewRef) (id : Int32) :
    IpcCommand.findContainer (c.close vs) id = IpcCommand.findContainer c id := rfl

@[simp] lemma named_close (vs : List ViewRef) (ns : List Node) :
    (c.close vs).named ns = c.named ns := rfl

lemma named_cons (n : Node) (ns : List Node) :
    c.named (n :: ns) = c.named [n] ++ c.named ns := by
  rw [named, named, named, ← List.filterMap_append, List.singleton_append]

lemma named_append (ns ns' : List Node) : c.named (ns ++ ns') = c.named ns ++ c.named ns' :=
  List.filterMap_append

lemma named_singleton (hfind : IpcCommand.findContainer c con.id = some v) :
    c.named [con] = [v] := by
  simp [named, hfind]

/-- Different ids name different views. -/
lemma named_nodup {ns : List Node} (hids : (ns.map Node.id).Nodup) : (c.named ns).Nodup := by
  rw [List.Nodup, List.pairwise_map] at hids
  rw [named, List.Nodup, List.pairwise_filterMap]
  refine hids.imp ?_
  intro n m hne v hv w hw hvw
  subst hvw
  have hsame := (IpcCommand.findContainer_id hv).2.trans (IpcCommand.findContainer_id hw).2.symm
  exact hne (by simpa using congrArg UInt32.toInt32 hsame)

namespace ContainerTree

variable (htree : c.ContainerTree con)
include htree

/-- The root of a tree of containers names a view of the tree. -/
lemma exists_root : ∃ v, c.InTree con v ∧ IpcCommand.findContainer c con.id = some v := by
  have hself : con ∈ con.all := by
    rw [Node.all_eq]
    exact List.mem_cons_self
  obtain ⟨w, hw, hid⟩ := htree.isView con hself
  obtain ⟨v, hfind⟩ := IpcCommand.exists_findContainer hw hid
  have hview := IpcCommand.findContainer_id hfind
  exact ⟨v, ⟨hview.1, con, hself, hview.2⟩, hfind⟩

lemma nodup_tiled : (c.named con.tiled).Nodup :=
  named_nodup (htree.distinct.sublist (con.tiled_sublist.map _))

end ContainerTree
end Compositor

open IpcCommand Compositor

variable {c : Compositor} {con : Node} {v : ViewRef}

lemma closeViewContainer_eq (c : Compositor) (n : Node) :
    closeViewContainer c n = c.close (c.named [n]) := by
  rw [closeViewContainer, containerGetView, named, Option.bind_some]
  cases h : findContainer c n.id with
  | none => simp [h]
  | some v => simp [h, close]

mutual

/-- The recursion closes the views of the nodes that it reaches, a parent before its
children. -/
lemma closeViewContainerChild_eq : ∀ (n : Node) (c : Compositor),
    closeViewContainerChild c n = c.close (c.named n.tiled)
  | .mk attr nodes floatingNodes, c => by
    rw [closeViewContainerChild, closeViewContainer_eq, closeViewContainerChildren_eq nodes,
      named_close, close_close, ← named_cons, Node.tiled]

lemma closeViewContainerChildren_eq : ∀ (ns : List Node) (c : Compositor),
    closeViewContainerChildren c ns = c.close (c.named (tiledOfList ns))
  | [], c => by
    rw [closeViewContainerChildren, tiledOfList]
    rfl
  | n :: ns, c => by
    rw [closeViewContainerChildren, closeViewContainerChild_eq n,
      closeViewContainerChildren_eq ns, named_close, close_close, ← named_append, tiledOfList]

end

/-- What `kill` closes: with an output, the views that the recursion reaches and then the root
once more. -/
theorem killHandler_eq (argv : List Str) (ctx : CommandHandlerContext)
    (hcon : ctx.container = some con) :
    killHandler argv ctx c =
      if c.outputs = [] then .ok (noOutputs, c)
      else .ok (⟨.success, none⟩, c.close (c.named con.tiled ++ c.named [con])) := by
  rw [killHandler, hcon]
  simp only
  rw [closeViewContainerChild_eq, closeViewContainer_eq, named_close, close_close]

/-- With an output, `kill` closes the root twice, the views below it in `nodes` once, and the
views in `floating_nodes` not at all. -/
theorem count_closed_killHandler (argv : List Str) (ctx : CommandHandlerContext)
    (hcon : ctx.container = some con) (htree : c.ContainerTree con) (hout : c.outputs ≠ []) :
    ∃ c', killHandler argv ctx c = .ok (⟨.success, none⟩, c') ∧ ∀ v,
      c'.closed.count v = c.closed.count v +
        if findContainer c con.id = some v then 2 else if v ∈ c.named con.tiled then 1 else 0 := by
  refine ⟨_, by rw [killHandler_eq argv ctx hcon, if_neg hout], fun v => ?_⟩
  obtain ⟨w, -, hroot⟩ := htree.exists_root
  have hnodup := htree.nodup_tiled
  rw [count_closed_close, List.count_append, hnodup.count, named_singleton hroot]
  simp only [hroot, Option.some_inj]
  by_cases hv : w = v
  · -- the recursion starts with the root
    have hmem : v ∈ c.named con.tiled := by
      rw [Node.tiled_eq, named_cons, named_singleton hroot, hv]
      exact List.mem_cons_self
    rw [if_pos hmem, if_pos hv, hv, List.count_singleton_self]
    omega
  · rw [if_neg hv, List.count_eq_zero.mpr (by simpa using Ne.symm hv)]
    omega

/-- On no tree of containers does `kill` close each view once: the root is closed twice, or
nothing is closed because there is no output. -/
theorem killHandler_not_closesOnce (argv : List Str) (ctx : CommandHandlerContext)
    (hcon : ctx.container = some con) (htree : c.ContainerTree con) :
    ∃ r c', killHandler argv ctx c = .ok (r, c') ∧ ¬ c.ClosesOnce c' con := by
  obtain ⟨v, hin, hroot⟩ := htree.exists_root
  by_cases hout : c.outputs = []
  · refine ⟨_, _, by rw [killHandler_eq argv ctx hcon, if_pos hout], fun hclosed => ?_⟩
    have honce := hclosed.once v hin
    omega
  · obtain ⟨c', hc', hcount⟩ := count_closed_killHandler argv ctx hcon htree hout
    refine ⟨_, c', hc', fun hclosed => ?_⟩
    have honce := hclosed.once v hin
    rw [hcount, if_pos hroot] at honce
    omega

/-- A compositor with one window, on one output. -/
def oneWindow : Compositor :=
  .flat [⟨1, "A".toList, 1, 1, ⟨0, 0⟩⟩] [.toplevelOn 7 0 .workspace] (some 0)

/-- The container of its window. -/
def oneWindowNode : Node := .mk (oneWindow.viewAttr 0) [] []

lemma inTree_oneWindowNode : oneWindow.InTree oneWindowNode 0 :=
  ⟨by decide, oneWindowNode, List.mem_cons_self, rfl⟩

lemma containerTree_oneWindowNode : oneWindow.ContainerTree oneWindowNode where
  distinct := by decide
  isView := by decide

theorem killHandler_not_closesOnce_oneWindow :
    oneWindow.ContainerTree oneWindowNode ∧
      ∃ r c', killHandler [] { container := some oneWindowNode } oneWindow = .ok (r, c') ∧
        ¬ oneWindow.ClosesOnce c' oneWindowNode :=
  ⟨containerTree_oneWindowNode,
    killHandler_not_closesOnce [] { container := some oneWindowNode } rfl
      containerTree_oneWindowNode⟩

/-- The only window of an output gets two requests to close. -/
theorem killHandler_closes_twice :
    oneWindow.ContainerTree oneWindowNode ∧ oneWindow.InTree oneWindowNode 0 ∧
      ∃ c', killHandler [] { container := some oneWindowNode } oneWindow
          = .ok (⟨.success, none⟩, c') ∧
        oneWindow.closed = [] ∧ c'.closed = [0, 0] ∧ ¬ oneWindow.ClosesOnce c' oneWindowNode := by
  have htwice : killHandler [] { container := some oneWindowNode } oneWindow
      = .ok (⟨.success, none⟩, oneWindow.close [0, 0]) := rfl
  refine ⟨containerTree_oneWindowNode, inTree_oneWindowNode, _, htwice, rfl, rfl, fun hclosed => ?_⟩
  have honce := hclosed.once 0 inTree_oneWindowNode
  revert honce
  decide

end WayfireIpc
