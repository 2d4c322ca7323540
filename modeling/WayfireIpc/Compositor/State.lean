/-
# What the plugin sees of the compositor

The plugin reads the compositor through its interface: outputs, views, layers, workspace
sets.  `Compositor` is what these queries answer at one moment.  A view or an output is
named by its pointer; the number that its `get_id` returns is a field of it.
-/
import WayfireIpc.Text

namespace WayfireIpc

/-- `wf::point_t`. -/
@[ext]
structure Point where
  x : ℤ
  y : ℤ
deriving DecidableEq, Repr

/-- The pointer of an output. -/
abbrev OutputRef := ℕ

/-- The pointer of a view. -/
abbrev ViewRef := ℕ

/-- `wf::scene::layer`. -/
inductive Layer
  | background | bottom | workspace | top | unmanaged | overlay | lock | dwidget
deriving DecidableEq, Repr

/-- `wf::view_role_t`. -/
inductive ViewRole
  | toplevel | unmanaged | desktopEnvironment
deriving DecidableEq, Repr

/-- An output with the grid of its workspace set. -/
structure Output where
  /-- `get_id()`. -/
  id : UInt32
  name : Str
  gridWidth : ℕ
  gridHeight : ℕ
  currentWorkspace : Point
deriving DecidableEq, Repr

structure View where
  /-- `get_id()`. -/
  id : UInt32
  title : Str
  appId : Str
  role : ViewRole
  /-- Whether `wf::toplevel_cast` gives a view. -/
  isToplevel : Bool
  mapped : Bool
  minimized : Bool
  sticky : Bool
  /-- Whether the view has the data "wm-actions-above". -/
  above : Bool
  /-- `wf::get_view_layer`. -/
  layer : Option Layer
  /-- `get_output()`. -/
  output : Option OutputRef
  /-- Whether its transformed node is enabled. -/
  enabled : Bool
  /-- The process of its client, if it has a client. -/
  pid : Option Int32
  /-- For an Xwayland surface: the flags of its hints, if it has hints. -/
  xwaylandHints : Option (Option UInt32)
  focusTimestamp : UInt64
deriving DecidableEq, Repr

/-- The answers of the compositor to the queries of the plugin. -/
structure Compositor where
  /-- `output_layout->get_outputs()`. -/
  outputs : List OutputRef
  output : OutputRef → Output
  /-- `get_all_views()`. -/
  allViews : List ViewRef
  view : ViewRef → View
  /-- `seat->get_active_output()`. -/
  activeOutput : Option OutputRef
  /-- `wf::get_active_view_for_output`. -/
  activeView : OutputRef → Option ViewRef
  /-- `wf::collect_views_from_output`. -/
  collectViews : OutputRef → List Layer → List ViewRef
  /-- `enumerate_views()` of a toplevel view. -/
  enumerateViews : ViewRef → List ViewRef
  /-- `get_views(0, point)` of the workspace set of an output. -/
  wsetViews : OutputRef → Point → List ViewRef
  /-- `get_view_main_workspace` of the workspace set of an output. -/
  mainWorkspace : OutputRef → ViewRef → Point
  /-- Whether the option "core/xwayland" is "true". -/
  xwayland : Bool
  /-- The views that `close()` has been called on, the latest first. -/
  closed : List ViewRef
  /-- The number of generations of children below a view. -/
  depth : ViewRef → ℕ
  depth_lt : ∀ v w, w ∈ enumerateViews v → w ≠ v → depth w < depth v

namespace Compositor

variable (c : Compositor)

/-- `wf::get_active_view_for_output` of the active output. -/
def focused : Option ViewRef := c.activeOutput.bind c.activeView

/-- The points of the grid of an output, in the order of the loops over it. -/
def gridPoints (o : OutputRef) : List Point :=
  (List.range (c.output o).gridWidth).flatMap fun x : ℕ =>
    (List.range (c.output o).gridHeight).map fun y : ℕ => ⟨x, y⟩

/-- `is_workspace_valid`. -/
def IsWorkspaceValid (o : OutputRef) (p : Point) : Prop :=
  0 ≤ p.x ∧ p.x < (c.output o).gridWidth ∧ 0 ≤ p.y ∧ p.y < (c.output o).gridHeight

instance (o : OutputRef) (p : Point) : Decidable (c.IsWorkspaceValid o p) :=
  inferInstanceAs (Decidable (_ ∧ _))

/-- `ipc_tools::get_workspace_index`. -/
def getWorkspaceIndex (p : Point) (o : OutputRef) : Except Failure ℤ :=
  if ¬ c.IsWorkspaceValid o p then .error .assertion
  else
    let index := p.x + p.y * (c.output o).gridWidth + 1
    if index < 2 ^ 31 then .ok index else .error .overflow

/-- The number of workspaces of an output. -/
def numWorkspaces (o : OutputRef) : ℕ := (c.output o).gridWidth * (c.output o).gridHeight

variable {c} {o : OutputRef} {p : Point}

lemma mem_gridPoints : p ∈ c.gridPoints o ↔ c.IsWorkspaceValid o p := by
  simp only [gridPoints, List.mem_flatMap, List.mem_map, List.mem_range, IsWorkspaceValid]
  constructor
  · rintro ⟨x, hx, y, hy, rfl⟩
    exact ⟨by simp, by simpa using hx, by simp, by simpa using hy⟩
  · rintro ⟨hx₀, hx, hy₀, hy⟩
    exact ⟨p.x.toNat, by omega, p.y.toNat, by omega, Point.ext (by simp [hx₀]) (by simp [hy₀])⟩

lemma nodup_gridPoints : (c.gridPoints o).Nodup := by
  refine List.nodup_flatMap.mpr ⟨fun x _ => ?_, ?_⟩
  · refine List.nodup_range.map ?_
    intro y y' h
    simpa using h
  · refine List.nodup_range.pairwise_of_forall_ne ?_
    intro x _ x' _ hne p hp hp'
    simp only [List.mem_map] at hp hp'
    obtain ⟨y, -, rfl⟩ := hp
    obtain ⟨y', -, h⟩ := hp'
    exact hne (by simpa using (congrArg Point.x h).symm)

/-- A compositor with the given outputs and views, named by their places, in which no view has
children, every view is on the first workspace of its output, and the first output is active. -/
def flat (outputs : List Output) (views : List View) (active : Option ViewRef) : Compositor where
  outputs := List.range outputs.length
  output o := outputs.getD o ⟨0, [], 0, 0, ⟨0, 0⟩⟩
  allViews := List.range views.length
  view v := views.getD v
    ⟨0, [], [], .toplevel, false, false, false, false, false, none, none, false, none, none, 0⟩
  activeOutput := if outputs.isEmpty then none else some 0
  activeView o := if o = 0 then active else none
  collectViews o layers := (List.range views.length).filter fun v =>
    (views[v]?).any fun view => view.output = some o && view.layer.any layers.contains
  enumerateViews v := [v]
  wsetViews o p := (List.range views.length).filter fun v =>
    (views[v]?).any fun view => view.output = some o && view.isToplevel && p = ⟨0, 0⟩
  mainWorkspace _ _ := ⟨0, 0⟩
  xwayland := false
  closed := []
  depth _ := 0
  depth_lt _ _ hw hne := absurd (List.mem_singleton.mp hw) hne

end Compositor

/-- A mapped toplevel view of an output, in a layer. -/
def View.toplevelOn (id : UInt32) (o : OutputRef) (layer : Layer) : View where
  id := id
  title := []
  appId := []
  role := .toplevel
  isToplevel := true
  mapped := true
  minimized := false
  sticky := false
  above := false
  layer := some layer
  output := some o
  enabled := true
  pid := none
  xwaylandHints := none
  focusTimestamp := 0

/-- `ipc_tools::get_workspace_id`. -/
def getWorkspaceId (outputId workspaceIndex : UInt32) : Except Failure Int32 :=
  stoi (toString10 outputId.toNat ++ toString10 workspaceIndex.toNat)

end WayfireIpc
