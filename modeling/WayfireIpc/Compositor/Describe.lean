/-
# The tree of containers

The describers of `ipc-json.cpp` that build the answer to GET_TREE: views with their
children, workspaces, outputs, the scratchpad and the root.  Of each JSON object the model
has the members that the commands read, and the `focus` lists.
-/
import WayfireIpc.Compositor.State
import WayfireIpc.Lib.Machine

namespace WayfireIpc

/-- The member `type` of a node. -/
inductive NodeType
  | root | output | workspace | con | floatingCon
deriving DecidableEq, Repr

/-- What a node describes. -/
inductive Entity
  | root
  | output (o : OutputRef)
  | workspace (o : OutputRef) (p : Point)
  | view (v : ViewRef)
  /-- The output and the workspace of the scratchpad. -/
  | i3Output
  | i3Scratch
deriving DecidableEq, Repr

/-- The member `urgent` of a node, a boolean or a number. -/
inductive Urgent
  | bool (b : Bool)
  | number (n : ℕ)
deriving DecidableEq, Repr

/-- The members of a node other than its children.  `entity` is not part of the JSON. -/
structure Attr where
  entity : Entity
  id : Int32
  name : Str
  type : NodeType
  focused : Bool
  focus : List Int32
  urgent : Urgent
  shell : Option Str
  appId : Option Str
  pid : Option Int32
deriving DecidableEq, Repr

/-- A node of the tree, with its `nodes` and its `floating_nodes`. -/
inductive Node
  | mk (attr : Attr) (nodes floatingNodes : List Node)

namespace Node

def attr : Node → Attr
  | mk a _ _ => a

def nodes : Node → List Node
  | mk _ ns _ => ns

def floatingNodes : Node → List Node
  | mk _ _ fs => fs

def id (n : Node) : Int32 := n.attr.id

def entity (n : Node) : Entity := n.attr.entity

def setNodes (n : Node) (ns : List Node) : Node := mk n.attr ns n.floatingNodes

def setFocused (n : Node) (b : Bool) : Node :=
  mk { n.attr with focused := b } n.nodes n.floatingNodes

@[simp] lemma attr_mk (a : Attr) (ns fs : List Node) : (mk a ns fs).attr = a := rfl

@[simp] lemma nodes_mk (a : Attr) (ns fs : List Node) : (mk a ns fs).nodes = ns := rfl

@[simp] lemma floatingNodes_mk (a : Attr) (ns fs : List Node) :
    (mk a ns fs).floatingNodes = fs := rfl

end Node

/-- `create_node`. -/
def createNode (entity : Entity) (id : Int32) (type : NodeType) (name : Str) (focused : Bool) :
    Attr where
  entity := entity
  id := id
  name := name
  type := type
  focused := focused
  focus := []
  urgent := .bool false
  shell := none
  appId := none
  pid := none

/-- `i3_output_id`, `INT32_MAX`. -/
def i3OutputId : Int32 := 2147483647

/-- `i3_scratch_id`, `INT32_MAX - 1`. -/
def i3ScratchId : Int32 := 2147483646

namespace Compositor

variable (c : Compositor)

/-! ## Views -/

/-- Whether `describe_view` reports a view as floating. -/
def isFloating (v : ViewRef) : Bool :=
  (c.view v).above || (c.view v).layer = some .top || (c.view v).layer = some .dwidget

/-- `XCB_ICCCM_WM_HINT_X_URGENCY`. -/
def urgencyHint : UInt32 := 256

/-- The members that `describe_view` sets.  The block about X11 is there if it is compiled in and the
option is set; `xwayland` stands for both. -/
def viewAttr (v : ViewRef) : Attr :=
  let view := c.view v
  let xsurf := if c.xwayland then view.xwaylandHints else none
  { createNode (.view v) view.id.toInt32 (if c.isFloating v then .floatingCon else .con)
      view.title false with
    focused := c.focused = some v && view.enabled
    pid := view.pid
    appId := some view.appId
    shell := some (if xsurf.isSome then "xwayland".toList else "xdg_shell".toList)
    urgent := match xsurf with
      | some (some flags) => .number (flags &&& urgencyHint).toNat
      | _ => .bool false }

/-- The views that `get_view_nodes` describes. -/
def childViews (v : ViewRef) (floating : Bool) : List ViewRef :=
  (c.enumerateViews v).filter fun w =>
    w ≠ v && (c.view w).role = .toplevel && (c.view w).mapped && (c.view w).above = floating

/-- The object that `describe_view` makes of a view and of the nodes of its children. -/
def viewNode (v : ViewRef) (views floating : List Node) : Option Node :=
  if (c.view v).isToplevel then
    some (.mk { c.viewAttr v with focus := views.map Node.id } [] floating)
  else none

/-- `describe_view` of a view with at most `n` generations of children. -/
def describeViewAux : ℕ → ViewRef → Option Node
  | 0, v => c.viewNode v [] []
  | n + 1, v => c.viewNode v ((c.childViews v false).filterMap (describeViewAux n))
      ((c.childViews v true).filterMap (describeViewAux n))

/-- `describe_view`. -/
def describeView (v : ViewRef) : Option Node := c.describeViewAux (c.depth v) v

/-- `get_view_nodes`. -/
def getViewNodes (v : ViewRef) (floating : Bool) : List Node :=
  if (c.view v).isToplevel then (c.childViews v floating).filterMap c.describeView else []

/-- A describer of the views that stand as containers: the object of the view with the
children that do not float as its `nodes`. -/
def containerNode (focus : Bool → List Node → Bool) (v : ViewRef) : Option Node :=
  (c.describeView v).map fun container =>
    let views := c.getViewNodes v false
    (container.setNodes views).setFocused (focus container.attr.focused views)

/-- A container is focused if its view is and has no children. -/
def focusWithoutChildren (focused : Bool) (views : List Node) : Bool := focused && views.isEmpty

/-- The views that `get_shell_view_nodes` describes. -/
def shellViews (o : OutputRef) : List ViewRef :=
  c.allViews.filter fun v =>
    (c.view v).role = .desktopEnvironment && (c.view v).mapped && (c.view v).output = some o

/-- `get_shell_view_nodes`. -/
def getShellViewNodes (o : OutputRef) : List Node :=
  (c.shellViews o).filterMap (c.containerNode focusWithoutChildren)

/-- The views of some layers of an output that stand as containers of a workspace. -/
def workspaceViews (layers : List Layer) (p : Point) (o : OutputRef) : List ViewRef :=
  (c.collectViews o layers).filter fun v =>
    (c.view v).isToplevel && c.mainWorkspace o v = p && !(c.view v).minimized
      && (c.view v).role = .toplevel && (c.view v).mapped

/-- `get_top_view_nodes`. -/
def getTopViewNodes (p : Point) (o : OutputRef) : List Node :=
  (c.workspaceViews [.top, .dwidget] p o).filterMap (c.containerNode focusWithoutChildren)

/-- `get_container_nodes`. -/
def getContainerNodes (p : Point) (o : OutputRef) : List Node :=
  (c.workspaceViews [.top, .workspace, .dwidget] p o).filterMap
    (c.containerNode focusWithoutChildren)

/-! ## Workspaces and outputs -/

/-- `describe_workspace`. -/
def describeWorkspace (p : Point) (o : OutputRef) : Except Failure Node := do
  let index ← c.getWorkspaceIndex p o
  let id ← getWorkspaceId (c.output o).id (.ofNat index.toNat)
  let visible := (c.output o).currentWorkspace = p
  let focused := visible && c.activeOutput = some o
  let attr := createNode (.workspace o p) id .workspace (toString10 index.toNat) focused
  return .mk { attr with focus := (c.getContainerNodes p o).map Node.id } [] (c.getTopViewNodes p o)

/-- A workspace of `get_workspaces_nodes`. -/
def workspaceNode (describeContainerNodes : Bool) (o : OutputRef) (p : Point) :
    Except Failure Node := do
  let workspace ← c.describeWorkspace p o
  if describeContainerNodes then
    let container := c.getContainerNodes p o
    return (workspace.setNodes container).setFocused
      (workspace.attr.focused && container.isEmpty)
  else return workspace

/-- `get_workspaces_nodes`; `std::sort` puts the workspaces in the order of their numbers. -/
def getWorkspacesNodes (o : OutputRef) (describeContainerNodes : Bool) :
    Except Failure (List Node) := do
  let workspaces ← (c.gridPoints o).mapM (c.workspaceNode describeContainerNodes o)
  return workspaces.insertionSort fun a b => a.id ≤ b.id

/-- `describe_output`. -/
def describeOutput (o : OutputRef) : Except Failure Node := do
  let workspaces ← c.getWorkspacesNodes o true
  -- the number of the current workspace, for the member `current_workspace`
  let _ ← c.getWorkspaceIndex (c.output o).currentWorkspace o
  let attr := createNode (.output o) (c.output o).id.toInt32 .output (c.output o).name
    (c.activeOutput = some o)
  return .mk { attr with focus := workspaces.map Node.id } [] (c.getShellViewNodes o)

/-- An output of `get_tree`. -/
def outputNode (o : OutputRef) : Except Failure Node := do
  let out ← c.describeOutput o
  let workspaces ← c.getWorkspacesNodes o true
  return (out.setNodes workspaces).setFocused (out.attr.focused && workspaces.isEmpty)

/-! ## The scratchpad -/

/-- The views that `get_i3_scratchpad_container_nodes_by_workspace` describes. -/
def scratchpadViews (p : Point) (o : OutputRef) : List ViewRef :=
  (c.wsetViews o p).filter fun v =>
    (c.view v).role = .toplevel && (c.view v).mapped && (c.view v).minimized

/-- `get_i3_scratchpad_container_nodes_by_workspace`.  Here `container["focused"]` is tested
for being set, not for being true. -/
def getI3ScratchpadContainerNodesByWorkspace (p : Point) (o : OutputRef) : List Node :=
  (c.scratchpadViews p o).filterMap (c.containerNode fun _ views => views.isEmpty)

/-- `get_i3_scratchpad_container_nodes_by_output`. -/
def getI3ScratchpadContainerNodesByOutput (o : OutputRef) : List Node :=
  (c.gridPoints o).flatMap fun p => c.getI3ScratchpadContainerNodesByWorkspace p o

/-- `get_i3_scratchpad_container_nodes`. -/
def getI3ScratchpadContainerNodes : List Node :=
  c.outputs.flatMap c.getI3ScratchpadContainerNodesByOutput

/-- `get_i3_scratchpad_workspace_nodes`. -/
def getI3ScratchpadWorkspaceNodes : Node :=
  let containers := c.getI3ScratchpadContainerNodes
  let attr := createNode .i3Scratch i3ScratchId .workspace "__i3_scratch".toList false
  .mk { attr with focus := containers.map Node.id } [] containers

/-- `get_i3_scratchpad_output_nodes`. -/
def getI3ScratchpadOutputNodes : Node :=
  let workspace := c.getI3ScratchpadWorkspaceNodes
  let attr := createNode .i3Output i3OutputId .output "__i3".toList false
  .mk { attr with focus := [workspace.id] } [workspace] []

/-! ## The root -/

/-- `get_root_node`. -/
def getRootNode : Option Node :=
  if c.activeOutput = none then none
  else
    let attr := createNode .root 0 .root "root".toList c.outputs.isEmpty
    some (.mk { attr with focus := c.outputs.map fun o => (c.output o).id.toInt32 } [] [])

/-- `get_tree`. -/
def getTree : Except Failure (Option Node) :=
  match c.getRootNode with
  | none => .ok none
  | some root => do
    let outputs ← c.outputs.mapM c.outputNode
    return some (root.setNodes (c.getI3ScratchpadOutputNodes :: outputs))

/-! ## Unfolding the descriptions of views -/

variable {c} {v w : ViewRef}

lemma depth_childViews {b : Bool} (h : w ∈ c.childViews v b) : c.depth w < c.depth v := by
  simp only [childViews, List.mem_filter, Bool.and_eq_true, decide_eq_true_eq] at h
  exact c.depth_lt v w h.1 h.2.1.1.1

lemma describeViewAux_succ : ∀ (n : ℕ) (v : ViewRef), c.depth v ≤ n →
    c.describeViewAux (n + 1) v = c.describeViewAux n v := by
  intro n
  induction n with
  | zero =>
    intro v hv
    have hnil : ∀ b, c.childViews v b = [] := fun b =>
      List.eq_nil_iff_forall_not_mem.mpr fun w hw => by
        have := depth_childViews hw
        omega
    simp [describeViewAux, hnil]
  | succ n ih =>
    intro v hv
    have hnodes : ∀ b, (c.childViews v b).filterMap (c.describeViewAux (n + 1))
        = (c.childViews v b).filterMap (c.describeViewAux n) := fun b =>
      List.filterMap_congr fun w hw => by
        have := depth_childViews hw
        exact ih w (by omega)
    rw [describeViewAux, hnodes, hnodes, describeViewAux]

/-- The recursion may start with any number of generations that is large enough. -/
lemma describeViewAux_eq {n : ℕ} (hn : c.depth v ≤ n) :
    c.describeViewAux n v = c.describeView v := by
  induction n, hn using Nat.le_induction with
  | base => rfl
  | succ n hn ih => rw [describeViewAux_succ n v hn, ih]

/-- `describe_view` as the source has it: the children are described by `describe_view`. -/
theorem describeView_eq (v : ViewRef) :
    c.describeView v = c.viewNode v (c.getViewNodes v false) (c.getViewNodes v true) := by
  by_cases htop : (c.view v).isToplevel
  · have hnodes : ∀ b, (c.childViews v b).filterMap (c.describeViewAux (c.depth v))
        = c.getViewNodes v b := by
      intro b
      rw [getViewNodes, if_pos htop]
      exact List.filterMap_congr fun w hw => describeViewAux_eq (depth_childViews hw).le
    rw [← describeViewAux_eq (Nat.le_succ (c.depth v)), describeViewAux, hnodes, hnodes]
  · have hnone : ∀ ns fs, c.viewNode v ns fs = none := fun ns fs => if_neg htop
    rw [describeView, hnone]
    cases c.depth v with
    | zero => exact hnone _ _
    | succ n => exact hnone _ _

end Compositor
end WayfireIpc
