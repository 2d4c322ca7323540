/-
# The nodes of the tree

The tree that `get_tree` builds when every workspace gets a number, as a plain expression,
and what its nodes describe: which entities have a node, and with which id.
-/
import WayfireIpc.Compositor.Describe

namespace WayfireIpc

mutual

/-- The nodes of a tree, a node before its children. -/
def Node.all : Node → List Node
  | .mk attr nodes floatingNodes =>
    .mk attr nodes floatingNodes :: (allOfList nodes ++ allOfList floatingNodes)

def allOfList : List Node → List Node
  | [] => []
  | node :: nodes => node.all ++ allOfList nodes

end

lemma Node.all_eq (n : Node) : n.all = n :: (allOfList n.nodes ++ allOfList n.floatingNodes) := by
  cases n
  rw [Node.all]
  rfl

lemma allOfList_eq (ns : List Node) : allOfList ns = ns.flatMap Node.all := by
  induction ns with
  | nil => rfl
  | cons n ns ih => rw [allOfList, List.flatMap_cons, ih]

/-! ## What a function gives for all nodes -/

section Gather

variable {α : Type*} (f : Node → Option α)

/-- What `f` gives for the nodes of some trees. -/
def gather (ns : List Node) : List α := (allOfList ns).filterMap f

lemma gather_eq (ns : List Node) : gather f ns = ns.flatMap fun n => gather f [n] := by
  rw [gather, allOfList_eq, List.filterMap_flatMap]
  refine List.flatMap_congr fun n _ => ?_
  rw [gather, allOfList, allOfList, List.append_nil]

lemma gather_append (ns ns' : List Node) :
    gather f (ns ++ ns') = gather f ns ++ gather f ns' := by
  rw [gather_eq, List.flatMap_append, ← gather_eq, ← gather_eq]

lemma gather_singleton (n : Node) :
    gather f [n] = (f n).toList ++ (gather f n.nodes ++ gather f n.floatingNodes) := by
  rw [gather, allOfList, allOfList, List.append_nil, Node.all_eq, ← List.singleton_append,
    List.filterMap_append, List.filterMap_append]
  cases h : f n <;> simp [h, gather]

lemma gather_map {β : Type*} (node : β → Node) (bs : List β) :
    gather f (bs.map node) = bs.flatMap fun b => gather f [node b] := by
  rw [gather_eq, List.flatMap_map]

lemma gather_filterMap {β : Type*} (node : β → Option Node) (bs : List β) :
    gather f (bs.filterMap node) = bs.flatMap fun b => gather f (node b).toList := by
  rw [List.filterMap_eq_flatMap_toList, gather_eq, List.flatMap_assoc]
  exact List.flatMap_congr fun b _ => (gather_eq f _).symm

lemma gather_perm {ns ns' : List Node} (h : ns.Perm ns') :
    (gather f ns).Perm (gather f ns') := by
  rw [gather_eq f ns, gather_eq f ns']
  exact h.flatMap_right _

end Gather

/-- The view that a node describes. -/
def Node.view? (n : Node) : Option ViewRef :=
  match n.entity with
  | .view v => some v
  | _ => none

/-- The views that have nodes in some trees, once for each node. -/
def viewsIn (ns : List Node) : List ViewRef := (allOfList ns).filterMap Node.view?

namespace Compositor

variable (c : Compositor)

/-! ## Numbers -/

/-- The id of an output as a number. -/
def outputKey (o : OutputRef) : ℕ := (c.output o).id.toNat

/-- The number of a workspace on its output. -/
def workspaceIndex (o : OutputRef) (p : Point) : ℕ :=
  (p.x + p.y * (c.output o).gridWidth + 1).toNat

/-- The id of what a node describes, as a number. -/
def entityKey : Entity → ℕ
  | .root => 0
  | .output o => c.outputKey o
  | .workspace o p => Decimal.glue (c.outputKey o) (c.workspaceIndex o p)
  | .view v => (c.view v).id.toNat
  | .i3Output => 2147483647
  | .i3Scratch => 2147483646

/-- The id that a node has in the JSON. -/
def entityId (e : Entity) : Int32 := (UInt32.ofNat (c.entityKey e)).toInt32

/-- The id of the last workspace of each output is an `int`. -/
def WorkspacesFit : Prop :=
  ∀ o ∈ c.outputs, 0 < c.numWorkspaces o →
    Decimal.glue (c.outputKey o) (c.numWorkspaces o) < 2 ^ 31

variable {c} {o : OutputRef} {p : Point}

lemma workspaceIndex_pos (h : c.IsWorkspaceValid o p) : 0 < c.workspaceIndex o p := by
  obtain ⟨hx, -, hy, -⟩ := h
  have : 0 ≤ p.y * (c.output o).gridWidth := by positivity
  rw [workspaceIndex]
  omega

lemma workspaceIndex_le (h : c.IsWorkspaceValid o p) :
    c.workspaceIndex o p ≤ c.numWorkspaces o := by
  obtain ⟨hx, hxw, hy, hyh⟩ := h
  have hmul : p.y * (c.output o).gridWidth + (c.output o).gridWidth
      ≤ (c.output o).gridHeight * (c.output o).gridWidth := by
    nlinarith
  rw [workspaceIndex, numWorkspaces, Int.toNat_le]
  push_cast
  rw [mul_comm ((c.output o).gridWidth : ℤ)]
  omega

/-- Every number up to that of the last workspace is the number of a workspace. -/
lemma exists_workspaceIndex {i : ℕ} (hi : 0 < i) (hle : i ≤ c.numWorkspaces o) :
    ∃ p, c.IsWorkspaceValid o p ∧ c.workspaceIndex o p = i := by
  have hw : 0 < (c.output o).gridWidth := by
    by_contra hzero
    rw [numWorkspaces, Nat.eq_zero_of_not_pos hzero, Nat.zero_mul] at hle
    omega
  refine ⟨⟨((i - 1) % (c.output o).gridWidth : ℕ), ((i - 1) / (c.output o).gridWidth : ℕ)⟩,
    ⟨by positivity, ?_, by positivity, ?_⟩, ?_⟩
  · show (((i - 1) % (c.output o).gridWidth : ℕ) : ℤ) < (c.output o).gridWidth
    exact_mod_cast Nat.mod_lt _ hw
  · have : (i - 1) / (c.output o).gridWidth < (c.output o).gridHeight := by
      rw [Nat.div_lt_iff_lt_mul hw, mul_comm]
      rw [numWorkspaces] at hle
      omega
    show (((i - 1) / (c.output o).gridWidth : ℕ) : ℤ) < (c.output o).gridHeight
    exact_mod_cast this
  · have hmod := Nat.mod_add_div (i - 1) (c.output o).gridWidth
    rw [workspaceIndex]
    have : ((i - 1) % (c.output o).gridWidth
        + (i - 1) / (c.output o).gridWidth * (c.output o).gridWidth + 1 : ℕ) = i := by
      rw [mul_comm ((i - 1) / _)]
      omega
    exact_mod_cast congrArg Int.toNat (congrArg (Nat.cast : ℕ → ℤ) this)

lemma getWorkspaceIndex_eq (h : c.IsWorkspaceValid o p) : c.getWorkspaceIndex p o =
    if c.workspaceIndex o p < 2 ^ 31 then .ok (c.workspaceIndex o p : ℤ) else .error .overflow := by
  have hpos : 0 ≤ p.x + p.y * (c.output o).gridWidth + 1 := by
    have : 0 ≤ p.y * (c.output o).gridWidth := mul_nonneg h.2.2.1 (by positivity)
    have := h.1
    omega
  have hcast : (c.workspaceIndex o p : ℤ) = p.x + p.y * (c.output o).gridWidth + 1 :=
    Int.toNat_of_nonneg hpos
  rw [getWorkspaceIndex, if_neg (not_not.mpr h), ← hcast]
  simp only
  by_cases hlt : c.workspaceIndex o p < 2 ^ 31
  · rw [if_pos hlt, if_pos (by exact_mod_cast hlt)]
  · rw [if_neg hlt, if_neg (by exact_mod_cast hlt)]

lemma workspaceIndex_injOn {p q : Point} (hp : c.IsWorkspaceValid o p)
    (hq : c.IsWorkspaceValid o q) (h : c.workspaceIndex o p = c.workspaceIndex o q) : p = q := by
  obtain ⟨hpx, hpw, hpy, -⟩ := hp
  obtain ⟨hqx, hqw, hqy, -⟩ := hq
  have hsum : p.x + p.y * (c.output o).gridWidth = q.x + q.y * (c.output o).gridWidth := by
    have hp₀ : 0 ≤ p.y * (c.output o).gridWidth := by positivity
    have hq₀ : 0 ≤ q.y * (c.output o).gridWidth := by positivity
    rw [workspaceIndex, workspaceIndex] at h
    omega
  have hy : p.y = q.y := by
    have := congrArg (· / ((c.output o).gridWidth : ℤ)) hsum
    have hw : ((c.output o).gridWidth : ℤ) ≠ 0 := by omega
    simpa [Int.add_mul_ediv_right _ _ hw, Int.ediv_eq_zero_of_lt hpx hpw,
      Int.ediv_eq_zero_of_lt hqx hqw] using this
  refine Point.ext ?_ hy
  rw [hy] at hsum
  omega

lemma getWorkspaceId_eq {i : ℕ} (hi : i < 2 ^ 31) : getWorkspaceId (c.output o).id (.ofNat i) =
    if Decimal.glue (c.outputKey o) i < 2 ^ 31 then
      .ok (UInt32.ofNat (Decimal.glue (c.outputKey o) i)).toInt32
    else .error .outOfRange := by
  have hnat : (UInt32.ofNat i).toNat = i :=
    UInt32.toNat_ofNat_of_lt' (hi.trans (by decide))
  have hint : ∀ n : ℕ, Int32.ofInt n = (UInt32.ofNat n).toInt32 := fun n => by
    rw [← Int32.toBitVec_inj]
    simp
  rw [getWorkspaceId, hnat, stoi_append_toString10, hint]
  rfl

/-! ## The tree as an expression -/

variable (c) in
/-- The node of a workspace that has a number. -/
def workspaceOf (o : OutputRef) (p : Point) : Node :=
  let containers := c.getContainerNodes p o
  let focused := (c.output o).currentWorkspace = p && c.activeOutput = some o
  .mk { createNode (.workspace o p) (c.entityId (.workspace o p)) .workspace
          (toString10 (c.workspaceIndex o p)) (focused && containers.isEmpty) with
        focus := containers.map Node.id } containers (c.getTopViewNodes p o)

variable (c) in
/-- The nodes of the workspaces of an output. -/
def workspacesOf (o : OutputRef) : List Node :=
  ((c.gridPoints o).map (c.workspaceOf o)).insertionSort fun a b => a.id ≤ b.id

variable (c) in
/-- The node of an output. -/
def outputOf (o : OutputRef) : Node :=
  let workspaces := c.workspacesOf o
  .mk { createNode (.output o) (c.output o).id.toInt32 .output (c.output o).name
          (decide (c.activeOutput = some o) && workspaces.isEmpty) with
        focus := workspaces.map Node.id } workspaces (c.getShellViewNodes o)

variable (c) in
/-- The tree of a compositor whose workspaces have numbers. -/
def tree : Node :=
  .mk { createNode .root 0 .root "root".toList c.outputs.isEmpty with
        focus := c.outputs.map fun o => (c.output o).id.toInt32 }
    (c.getI3ScratchpadOutputNodes :: c.outputs.map c.outputOf) []

variable (c) in
/-- What `get_tree` needs for building a tree. -/
structure Describable : Prop where
  active : c.activeOutput ≠ none
  current : ∀ o ∈ c.outputs, c.IsWorkspaceValid o (c.output o).currentWorkspace
  fit : c.WorkspacesFit

lemma WorkspacesFit.glue_lt (hfit : c.WorkspacesFit) (ho : o ∈ c.outputs)
    (hp : c.IsWorkspaceValid o p) :
    Decimal.glue (c.outputKey o) (c.workspaceIndex o p) < 2 ^ 31 :=
  (Decimal.glue_mono (workspaceIndex_le hp)).trans_lt
    (hfit o ho ((workspaceIndex_pos hp).trans_le (workspaceIndex_le hp)))

/-- A workspace gets a number and an id exactly when the id is an `int`. -/
lemma workspaceNumber_iff (hp : c.IsWorkspaceValid o p) :
    (∃ index id, c.getWorkspaceIndex p o = .ok index ∧
      getWorkspaceId (c.output o).id (.ofNat index.toNat) = .ok id) ↔
      Decimal.glue (c.outputKey o) (c.workspaceIndex o p) < 2 ^ 31 := by
  rw [getWorkspaceIndex_eq hp]
  constructor
  · rintro ⟨index, id, hindex, hid⟩
    split at hindex
    · rename_i hlt
      cases hindex
      rw [Int.toNat_natCast, getWorkspaceId_eq hlt] at hid
      by_contra hge
      rw [if_neg hge] at hid
      cases hid
    · cases hindex
  · intro hlt
    have hindex := (Decimal.le_glue (c.outputKey o) (c.workspaceIndex o p)).trans_lt hlt
    have hid := getWorkspaceId_eq (c := c) (o := o) hindex
    rw [if_pos hlt] at hid
    exact ⟨_, _, if_pos hindex, hid⟩

lemma workspaceNode_eq (hp : c.IsWorkspaceValid o p)
    (hlt : Decimal.glue (c.outputKey o) (c.workspaceIndex o p) < 2 ^ 31) :
    c.workspaceNode true o p = .ok (c.workspaceOf o p) := by
  have hindex := (Decimal.le_glue (c.outputKey o) (c.workspaceIndex o p)).trans_lt hlt
  rw [workspaceNode, describeWorkspace, getWorkspaceIndex_eq hp, if_pos hindex, Machine.ok_bind,
    Int.toNat_natCast, getWorkspaceId_eq hindex, if_pos hlt]
  rfl

lemma workspaceNumber_of_ok {b : Bool} {n : Node} (h : c.workspaceNode b o p = .ok n) :
    ∃ index id, c.getWorkspaceIndex p o = .ok index ∧
      getWorkspaceId (c.output o).id (.ofNat index.toNat) = .ok id := by
  rw [workspaceNode] at h
  obtain ⟨ws, hws, -⟩ := Machine.bind_ok_iff.mp h
  rw [describeWorkspace] at hws
  obtain ⟨index, hindex, hws⟩ := Machine.bind_ok_iff.mp hws
  obtain ⟨id, hid, -⟩ := Machine.bind_ok_iff.mp hws
  exact ⟨index, id, hindex, hid⟩

lemma getWorkspacesNodes_eq (hfit : c.WorkspacesFit) (ho : o ∈ c.outputs) :
    c.getWorkspacesNodes o true = .ok (c.workspacesOf o) := by
  have hmap : (c.gridPoints o).mapM (c.workspaceNode true o)
      = .ok ((c.gridPoints o).map (c.workspaceOf o)) :=
    Machine.mapM_eq_map fun p hp =>
      workspaceNode_eq (mem_gridPoints.mp hp) (hfit.glue_lt ho (mem_gridPoints.mp hp))
  rw [getWorkspacesNodes, hmap]
  rfl

lemma outputNode_eq (h : c.Describable) (ho : o ∈ c.outputs) :
    c.outputNode o = .ok (c.outputOf o) := by
  have hvalid := h.current o ho
  have hindex : c.workspaceIndex o (c.output o).currentWorkspace < 2 ^ 31 :=
    (Decimal.le_glue _ _).trans_lt (h.fit.glue_lt ho hvalid)
  rw [outputNode, describeOutput, getWorkspacesNodes_eq h.fit ho, Machine.ok_bind,
    getWorkspaceIndex_eq hvalid, if_pos hindex]
  rfl

/-- `get_tree` builds a tree exactly when there is an active output, every output is on a
workspace of its grid and every workspace has a number. -/
theorem getTree_eq_some_iff {t : Node} :
    c.getTree = .ok (some t) ↔ c.Describable ∧ t = c.tree := by
  have hbuilt : c.Describable → c.getTree = .ok (some c.tree) := by
    intro h
    have hmap : c.outputs.mapM c.outputNode = .ok (c.outputs.map c.outputOf) :=
      Machine.mapM_eq_map fun o ho => outputNode_eq h ho
    rw [getTree, getRootNode, if_neg h.active]
    simp only
    rw [hmap]
    rfl
  refine ⟨fun h => ?_, fun ⟨hdesc, ht⟩ => ht ▸ hbuilt hdesc⟩
  have hactive : c.activeOutput ≠ none := by
    intro hnone
    rw [getTree, getRootNode, if_pos hnone] at h
    cases h
  have hoks : ∀ o ∈ c.outputs, ∃ n, c.outputNode o = .ok n := by
    rw [getTree, getRootNode, if_neg hactive] at h
    obtain ⟨outs, houts, -⟩ := Machine.bind_ok_iff.mp h
    exact Machine.ok_of_mapM houts
  have hdesc : c.Describable := by
    refine ⟨hactive, fun o ho => ?_, fun o ho hpos => ?_⟩
    · obtain ⟨n, hn⟩ := hoks o ho
      obtain ⟨out, hout, -⟩ := Machine.bind_ok_iff.mp hn
      obtain ⟨ws, -, hout⟩ := Machine.bind_ok_iff.mp hout
      obtain ⟨index, hindex, -⟩ := Machine.bind_ok_iff.mp hout
      by_contra hinvalid
      rw [getWorkspaceIndex, if_pos hinvalid] at hindex
      cases hindex
    · obtain ⟨n, hn⟩ := hoks o ho
      obtain ⟨out, hout, -⟩ := Machine.bind_ok_iff.mp hn
      obtain ⟨ws, hws, -⟩ := Machine.bind_ok_iff.mp hout
      obtain ⟨sorted, hsorted, -⟩ := Machine.bind_ok_iff.mp hws
      -- the last workspace has the greatest number
      obtain ⟨p, hp, hlast⟩ := exists_workspaceIndex hpos le_rfl
      obtain ⟨m, hm⟩ := Machine.ok_of_mapM hsorted p (mem_gridPoints.mpr hp)
      rw [← hlast]
      exact (workspaceNumber_iff hp).mp (workspaceNumber_of_ok hm)
  refine ⟨hdesc, ?_⟩
  rw [hbuilt hdesc] at h
  cases h
  rfl

end Compositor
end WayfireIpc
