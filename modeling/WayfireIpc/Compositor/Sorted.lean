/-
# The workspaces of an output in order

`get_workspaces_nodes` collects the workspaces column by column and sorts them by their
ids.  An id is two numerals in a row, and the order of the ids is that of the numbers of the
workspaces, also where a number has one digit more than the one before it.
-/
import WayfireIpc.Compositor.Tree

namespace WayfireIpc

lemma toInt_toInt32_ofNat {n : ℕ} (h : n < 2 ^ 31) : (UInt32.ofNat n).toInt32.toInt = n := by
  have hofInt : (UInt32.ofNat n).toInt32 = Int32.ofInt n := by
    rw [← Int32.toBitVec_inj]
    simp
  rw [hofInt, toInt_ofInt_of_lt h]

/-- `std::sort` leaves no workspace behind one with a greater id. -/
def SortedById (nodes : List Node) : Prop := nodes.Pairwise fun a b => ¬ b.id < a.id

namespace Compositor

variable (c : Compositor)

/-- What `get_workspaces_nodes` collects for a workspace that has a number. -/
def workspaceEntry (describeContainerNodes : Bool) (o : OutputRef) (p : Point) : Node :=
  if describeContainerNodes then c.workspaceOf o p
  else
    .mk { createNode (.workspace o p) (c.entityId (.workspace o p)) .workspace
            (toString10 (c.workspaceIndex o p))
            ((c.output o).currentWorkspace = p && c.activeOutput = some o) with
          focus := (c.getContainerNodes p o).map Node.id } [] (c.getTopViewNodes p o)

/-- The nodes of the workspaces of an output, one for each, in the order of the numbers. -/
structure ListsWorkspaces (o : OutputRef) (nodes : List Node) : Prop where
  points : (nodes.map Node.entity).Perm ((c.gridPoints o).map (.workspace o))
  names : ∀ node ∈ nodes, ∀ p, node.entity = .workspace o p →
    node.attr.name = toString10 (c.workspaceIndex o p)
  order : nodes.map (fun node => node.attr.name)
    = (List.range' 1 (c.numWorkspaces o)).map toString10

variable {c} {o : OutputRef} {p q : Point} {b : Bool}

lemma workspaceNode_eq_entry (hp : c.IsWorkspaceValid o p)
    (hlt : Decimal.glue (c.outputKey o) (c.workspaceIndex o p) < 2 ^ 31) :
    c.workspaceNode b o p = .ok (c.workspaceEntry b o p) := by
  cases b with
  | true => exact workspaceNode_eq hp hlt
  | false =>
    have hindex := (Decimal.le_glue (c.outputKey o) (c.workspaceIndex o p)).trans_lt hlt
    rw [workspaceNode, describeWorkspace, getWorkspaceIndex_eq hp, if_pos hindex, Machine.ok_bind,
      Int.toNat_natCast, getWorkspaceId_eq hindex, if_pos hlt]
    rfl

@[simp] lemma workspaceEntry_entity :
    (c.workspaceEntry b o p).entity = .workspace o p := by
  cases b <;> rfl

@[simp] lemma workspaceEntry_name :
    (c.workspaceEntry b o p).attr.name = toString10 (c.workspaceIndex o p) := by
  cases b <;> rfl

@[simp] lemma workspaceEntry_id :
    (c.workspaceEntry b o p).id = c.entityId (.workspace o p) := by
  cases b <;> rfl

lemma glue_lt_of_valid (hlast : Decimal.glue (c.outputKey o) (c.numWorkspaces o) < 2 ^ 31)
    (hp : c.IsWorkspaceValid o p) :
    Decimal.glue (c.outputKey o) (c.workspaceIndex o p) < 2 ^ 31 :=
  (Decimal.glue_mono (workspaceIndex_le hp)).trans_lt hlast

/-- The ids of two workspaces are in the order of their numbers. -/
lemma entityId_lt_iff (hlast : Decimal.glue (c.outputKey o) (c.numWorkspaces o) < 2 ^ 31)
    (hp : c.IsWorkspaceValid o p) (hq : c.IsWorkspaceValid o q) :
    c.entityId (.workspace o p) < c.entityId (.workspace o q) ↔
      c.workspaceIndex o p < c.workspaceIndex o q := by
  rw [Int32.lt_iff_toInt_lt, entityId, entityId, entityKey, entityKey,
    toInt_toInt32_ofNat (glue_lt_of_valid hlast hp),
    toInt_toInt32_ofNat (glue_lt_of_valid hlast hq), Nat.cast_lt]
  exact (Decimal.glue_strictMono (c.outputKey o)).lt_iff_lt

/-- The points of the grid have the numbers from 1 on, each once. -/
lemma gridPoints_index_perm :
    ((c.gridPoints o).map (c.workspaceIndex o)).Perm (List.range' 1 (c.numWorkspaces o)) := by
  have hnodup : ((c.gridPoints o).map (c.workspaceIndex o)).Nodup :=
    nodup_gridPoints.map_on fun p hp q hq =>
      workspaceIndex_injOn (mem_gridPoints.mp hp) (mem_gridPoints.mp hq)
  refine (List.perm_ext_iff_of_nodup hnodup List.nodup_range').mpr fun i => ?_
  rw [List.mem_map, List.mem_range'_1]
  constructor
  · rintro ⟨p, hp, rfl⟩
    have hpos := workspaceIndex_pos (mem_gridPoints.mp hp)
    have hle := workspaceIndex_le (mem_gridPoints.mp hp)
    omega
  · rintro ⟨hpos, hle⟩
    obtain ⟨p, hp, hnumber⟩ := exists_workspaceIndex (c := c) (o := o) (i := i) hpos (by omega)
    exact ⟨p, mem_gridPoints.mpr hp, hnumber⟩

/-- Points of the grid whose entries are sorted have the numbers from 1 on, in order. -/
lemma index_of_sorted (hlast : Decimal.glue (c.outputKey o) (c.numWorkspaces o) < 2 ^ 31)
    {points : List Point} (hperm : points.Perm (c.gridPoints o))
    (hsorted : SortedById (points.map (c.workspaceEntry b o))) :
    points.map (c.workspaceIndex o) = List.range' 1 (c.numWorkspaces o) := by
  have hle : (points.map (c.workspaceIndex o)).Pairwise (· ≤ ·) := by
    rw [List.pairwise_map]
    refine (List.pairwise_map.mp hsorted).imp_of_mem fun {p q} hp hq hnot => ?_
    have hp' := mem_gridPoints.mp (hperm.mem_iff.mp hp)
    have hq' := mem_gridPoints.mp (hperm.mem_iff.mp hq)
    rw [workspaceEntry_id, workspaceEntry_id, entityId_lt_iff hlast hq' hp'] at hnot
    exact not_lt.mp hnot
  have hrange : (List.range' 1 (c.numWorkspaces o)).Pairwise (· ≤ ·) :=
    (List.pairwise_lt_range' 1).imp Nat.le_of_lt
  exact ((hperm.map _).trans gridPoints_index_perm).eq_of_pairwise
    (fun _ _ _ _ => Nat.le_antisymm) hle hrange

/-- Entries in a sorted order list the workspaces. -/
lemma listsWorkspaces_of_sorted
    (hlast : Decimal.glue (c.outputKey o) (c.numWorkspaces o) < 2 ^ 31)
    {points : List Point} (hperm : points.Perm (c.gridPoints o))
    (hsorted : SortedById (points.map (c.workspaceEntry b o))) :
    c.ListsWorkspaces o (points.map (c.workspaceEntry b o)) := by
  constructor
  case points =>
    rw [List.map_map]
    have hentity : Node.entity ∘ c.workspaceEntry b o = .workspace o :=
      funext fun p => workspaceEntry_entity
    rw [hentity]
    exact hperm.map _
  case names =>
    intro node hnode p hentity
    obtain ⟨q, -, rfl⟩ := List.mem_map.mp hnode
    rw [workspaceEntry_entity] at hentity
    cases hentity
    exact workspaceEntry_name
  case order =>
    rw [← index_of_sorted hlast hperm hsorted, List.map_map, List.map_map]
    exact List.map_congr_left fun p _ => workspaceEntry_name

lemma sortedById_insertionSort (nodes : List Node) :
    SortedById (nodes.insertionSort fun a b => a.id ≤ b.id) := by
  have : Std.Total fun a b : Node => a.id ≤ b.id := ⟨fun a b => Int32.le_total a.id b.id⟩
  have : IsTrans Node fun a b => a.id ≤ b.id := ⟨fun _ _ _ => Int32.le_trans⟩
  exact (List.pairwise_insertionSort _ nodes).imp Int32.not_lt.mpr

/-- A permutation of the entries is the entries of a permutation of the points. -/
lemma exists_points_of_perm {nodes : List Node}
    (hperm : nodes.Perm ((c.gridPoints o).map (c.workspaceEntry b o))) :
    ∃ points : List Point, nodes = points.map (c.workspaceEntry b o) ∧
      points.Perm (c.gridPoints o) := by
  have hcomp := congrFun (congrFun (List.eq_map_comp_perm (c.workspaceEntry b o)) nodes)
    (c.gridPoints o)
  exact hcomp.mpr hperm

/-- Two workspaces whose ids are in no order are one. -/
lemma workspaceEntry_antisymm (hlast : Decimal.glue (c.outputKey o) (c.numWorkspaces o) < 2 ^ 31)
    {m n : Node} (hm : m ∈ (c.gridPoints o).map (c.workspaceEntry b o))
    (hn : n ∈ (c.gridPoints o).map (c.workspaceEntry b o)) (hnot : ¬ n.id < m.id)
    (hnot' : ¬ m.id < n.id) : m = n := by
  obtain ⟨p, hp, rfl⟩ := List.mem_map.mp hm
  obtain ⟨q, hq, rfl⟩ := List.mem_map.mp hn
  rw [mem_gridPoints] at hp hq
  rw [workspaceEntry_id, workspaceEntry_id, entityId_lt_iff hlast hq hp] at hnot
  rw [workspaceEntry_id, workspaceEntry_id, entityId_lt_iff hlast hp hq] at hnot'
  rw [workspaceIndex_injOn hp hq (le_antisymm (not_lt.mp hnot) (not_lt.mp hnot'))]

/-- `get_workspaces_nodes` lists the workspaces in the order of their numbers, and no other
order of the collected nodes is sorted. -/
theorem getWorkspacesNodes_listed (c : Compositor) (o : OutputRef) (describeContainerNodes : Bool)
    (hlast : Decimal.glue (c.outputKey o) (c.numWorkspaces o) < 2 ^ 31) :
    ∃ collected nodes,
      (c.gridPoints o).mapM (c.workspaceNode describeContainerNodes o) = .ok collected ∧
      c.getWorkspacesNodes o describeContainerNodes = .ok nodes ∧ c.ListsWorkspaces o nodes ∧
      ∀ sorted, sorted.Perm collected → SortedById sorted → sorted = nodes := by
  have hmap : (c.gridPoints o).mapM (c.workspaceNode describeContainerNodes o)
      = .ok ((c.gridPoints o).map (c.workspaceEntry describeContainerNodes o)) :=
    Machine.mapM_eq_map fun p hp => workspaceNode_eq_entry (mem_gridPoints.mp hp)
      (glue_lt_of_valid hlast (mem_gridPoints.mp hp))
  refine ⟨_, _, hmap, by rw [getWorkspacesNodes, hmap]; rfl, ?_, fun sorted hperm hsorted => ?_⟩
  · have hsort := sortedById_insertionSort
      ((c.gridPoints o).map (c.workspaceEntry describeContainerNodes o))
    obtain ⟨points, heq, hperm⟩ := exists_points_of_perm (List.perm_insertionSort
      (fun a b => a.id ≤ b.id) ((c.gridPoints o).map (c.workspaceEntry describeContainerNodes o)))
    rw [heq] at hsort ⊢
    exact listsWorkspaces_of_sorted hlast hperm hsort
  · have hinsert := List.perm_insertionSort (fun a b : Node => a.id ≤ b.id)
      ((c.gridPoints o).map (c.workspaceEntry describeContainerNodes o))
    refine (hperm.trans hinsert.symm).eq_of_pairwise (fun m n hm hn => ?_) hsorted
      (sortedById_insertionSort _)
    exact workspaceEntry_antisymm hlast (hperm.mem_iff.mp hm) (hinsert.mem_iff.mp hn)

/-- An output with ten workspaces in a row, the last of which has a number of two digits. -/
theorem tenWorkspaces_listed :
    let c := Compositor.flat [⟨1, "A".toList, 10, 1, ⟨0, 0⟩⟩] [] none
    ∃ collected nodes, (c.gridPoints 0).mapM (c.workspaceNode true 0) = .ok collected ∧
      c.getWorkspacesNodes 0 true = .ok nodes ∧ c.ListsWorkspaces 0 nodes ∧
      ∀ sorted, sorted.Perm collected → SortedById sorted → sorted = nodes :=
  getWorkspacesNodes_listed _ 0 true (by decide)

end Compositor
end WayfireIpc
