/-
# The ids of the nodes

Root, outputs, workspaces, views and the scratchpad share one space of ids.  Every node has
the id of what it describes, so two nodes can be confused exactly when two things with a
node have the same id.  For workspaces, whose ids are two numerals written one behind the
other, this depends on how the numerals of the outputs continue each other.
-/
import WayfireIpc.Compositor.Shown

namespace WayfireIpc

lemma Node.mem_all {n m : Node} : n ∈ m.all ↔
    n = m ∨ (∃ k ∈ m.nodes, n ∈ k.all) ∨ ∃ k ∈ m.floatingNodes, n ∈ k.all := by
  rw [Node.all_eq, List.mem_cons, List.mem_append, allOfList_eq, allOfList_eq, List.mem_flatMap,
    List.mem_flatMap]

lemma Node.mem_all_self (n : Node) : n ∈ n.all := mem_all.mpr (Or.inl rfl)

/-- What `describe_view` puts into the node of a view. -/
structure Node.OfView (c : Compositor) (v : ViewRef) (n : Node) : Prop where
  entity : n.entity = .view v
  id : n.id = c.entityId (.view v)
  shell : n.attr.shell ≠ none
  type : n.attr.type = .con ∨ n.attr.type = .floatingCon

/-- A tree all of whose nodes are nodes of views. -/
def Node.DescribesViews (c : Compositor) (n : Node) : Prop := ∀ m ∈ n.all, ∃ v, m.OfView c v

namespace Compositor

variable {c : Compositor} {v w : ViewRef} {n m : Node} {e e' : Entity}

/-! ## Which entities have nodes -/

variable (c) in
/-- The views that have a node in the tree. -/
def Shown (w : ViewRef) : Prop :=
  ∃ v ∈ c.rootViews, (c.view v).isToplevel ∧
    (w = v ∨ ∃ b, ∃ x ∈ c.childViews v b, c.FloatsBelow x w)

variable (c) in
/-- What has a node in the tree. -/
def HasNode : Entity → Prop
  | .root => True
  | .output o => o ∈ c.outputs
  | .workspace o p => o ∈ c.outputs ∧ c.IsWorkspaceValid o p
  | .view v => c.Shown v
  | .i3Output => True
  | .i3Scratch => True

lemma mem_containerViews : w ∈ c.containerViews v ↔
    (c.view v).isToplevel ∧ (w = v ∨ ∃ b, ∃ x ∈ c.childViews v b, c.FloatsBelow x w) := by
  rw [containerViews]
  split
  · rename_i htop
    simp only [List.mem_cons, List.mem_append, List.mem_flatMap, mem_describedViews, htop,
      true_and, Bool.exists_bool]
  · rename_i htop
    simp [htop]

lemma mem_viewsIn_tree : v ∈ viewsIn [c.tree] ↔ c.Shown v := by
  rw [viewsIn_tree.mem_iff, List.mem_flatMap]
  exact exists_congr fun r => and_congr_right fun _ => mem_containerViews

lemma mem_viewsIn : v ∈ viewsIn [m] ↔ ∃ n ∈ m.all, n.entity = .view v := by
  rw [viewsIn, allOfList, allOfList, List.append_nil, List.mem_filterMap]
  refine exists_congr fun n => and_congr_right fun _ => ?_
  rw [Node.view?]
  constructor
  · intro h
    split at h
    · rename_i w hw
      cases h
      exact hw
    · cases h
  · intro h
    rw [h]

lemma entityId_view (v : ViewRef) : c.entityId (.view v) = (c.view v).id.toInt32 := by
  rw [entityId, entityKey, UInt32.ofNat_toNat]

/-- The members that are set later leave the node one of the view. -/
lemma ofView_mk (v : ViewRef) (focus : List Int32) (focused : Bool) (ns fs : List Node) :
    (Node.mk { c.viewAttr v with focus := focus, focused := focused } ns fs).OfView c v where
  entity := rfl
  id := (entityId_view v).symm
  shell := nofun
  type := by
    show (if c.isFloating v then NodeType.floatingCon else .con) = .con ∨
      (if c.isFloating v then NodeType.floatingCon else .con) = .floatingCon
    split
    · exact Or.inr rfl
    · exact Or.inl rfl

lemma describesViews_mk {a : Attr} {ns fs : List Node} (ha : ∃ v, (Node.mk a ns fs).OfView c v)
    (hns : ∀ n ∈ ns, n.DescribesViews c)
    (hfs : ∀ n ∈ fs, n.DescribesViews c) : (Node.mk a ns fs).DescribesViews c := by
  intro m hm
  rcases Node.mem_all.mp hm with rfl | ⟨k, hk, hm⟩ | ⟨k, hk, hm⟩
  · exact ha
  · exact hns k hk m hm
  · exact hfs k hk m hm

lemma describesViews_describeView (v : ViewRef) :
    ∀ n ∈ c.describeView v, n.DescribesViews c := by
  induction v using depth_induction (c := c) with
  | step v ih =>
    intro n hn
    by_cases htop : (c.view v).isToplevel
    · rw [describeView_of_toplevel htop] at hn
      cases hn
      refine describesViews_mk ⟨v, ofView_mk v _ _ _ _⟩ (fun _ h => absurd h List.not_mem_nil) ?_
      intro m hm
      rw [getViewNodes, if_pos htop, List.mem_filterMap] at hm
      obtain ⟨w, hw, hm⟩ := hm
      exact ih true w hw m hm
    · rw [describeView_of_not_toplevel htop] at hn
      cases hn

lemma describesViews_containers (focus : Bool → List Node → Bool) (vs : List ViewRef) :
    ∀ n ∈ vs.filterMap (c.containerNode focus), n.DescribesViews c := by
  intro n hn
  obtain ⟨v, -, hn⟩ := List.mem_filterMap.mp hn
  have hchildren : ∀ b, ∀ m ∈ c.getViewNodes v b, m.DescribesViews c := by
    intro b m hm
    rw [getViewNodes] at hm
    split at hm
    · obtain ⟨w, -, hm⟩ := List.mem_filterMap.mp hm
      exact describesViews_describeView w m hm
    · exact absurd hm List.not_mem_nil
  by_cases htop : (c.view v).isToplevel
  · rw [containerNode_of_toplevel htop] at hn
    cases hn
    exact describesViews_mk ⟨v, ofView_mk v _ _ _ _⟩ (hchildren false) (hchildren true)
  · rw [containerNode, describeView_of_not_toplevel htop] at hn
    cases hn

lemma mem_frameNodes : n ∈ c.frameNodes ↔ n = c.tree ∨ n = c.getI3ScratchpadOutputNodes ∨
    n = c.getI3ScratchpadWorkspaceNodes ∨ (∃ o ∈ c.outputs, n = c.outputOf o) ∨
    ∃ o ∈ c.outputs, ∃ p, c.IsWorkspaceValid o p ∧ n = c.workspaceOf o p := by
  simp only [frameNodes, List.mem_cons, List.mem_flatMap, List.mem_map, mem_gridPoints,
    and_or_left, exists_or, eq_comm (b := n)]

/-- The nodes of the tree: those that describe no view and those of the containers. -/
lemma mem_all_tree_iff : n ∈ c.tree.all ↔ n ∈ c.frameNodes ∨
    (∃ r ∈ c.scratchpadRoots, ∃ k ∈ c.containerNode (fun _ views => views.isEmpty) r, n ∈ k.all) ∨
    ∃ r ∈ c.outputs.flatMap c.outputRoots,
      ∃ k ∈ c.containerNode focusWithoutChildren r, n ∈ k.all := by
  have hall : gather some [c.tree] = c.tree.all := by
    rw [gather, List.filterMap_some, allOfList, allOfList, List.append_nil]
  have hcontainer : ∀ focus r, n ∈ gather some (c.containerNode focus r).toList ↔
      ∃ k ∈ c.containerNode focus r, n ∈ k.all := by
    intro focus r
    rw [gather, List.filterMap_some, allOfList_eq, List.mem_flatMap]
    simp only [Option.mem_toList, Option.mem_def]
  rw [← hall, (gather_tree some).mem_iff, List.filterMap_some, List.mem_append, List.mem_append,
    List.mem_flatMap, List.mem_flatMap]
  simp only [hcontainer]

/-- The nodes of the tree. -/
lemma mem_all_tree (h : n ∈ c.tree.all) : (∃ v, n.OfView c v) ∨
    ((∀ v, n.entity ≠ .view v) ∧ n.id = c.entityId n.entity ∧ c.HasNode n.entity) := by
  have hview : ∀ focus r, (∃ k ∈ c.containerNode focus r, n ∈ k.all) → ∃ v, n.OfView c v := by
    rintro focus r ⟨k, hk, hn⟩
    exact describesViews_containers focus [r] k (List.mem_filterMap.mpr ⟨r, by simp, hk⟩) n hn
  rcases mem_all_tree_iff.mp h with h | ⟨r, -, h⟩ | ⟨r, -, h⟩
  · refine Or.inr ?_
    rcases mem_frameNodes.mp h with rfl | rfl | rfl | ⟨o, ho, rfl⟩ | ⟨o, ho, p, hp, rfl⟩
    · exact ⟨nofun, rfl, trivial⟩
    · exact ⟨nofun, rfl, trivial⟩
    · exact ⟨nofun, rfl, trivial⟩
    · refine ⟨nofun, ?_, ho⟩
      show _ = c.entityId (.output o)
      rw [entityId, entityKey, outputKey, UInt32.ofNat_toNat]
      rfl
    · exact ⟨nofun, rfl, ho, hp⟩
  · exact Or.inl (hview _ r h)
  · exact Or.inl (hview _ r h)

lemma ofView_of_mem_tree (h : n ∈ c.tree.all) (hv : n.entity = .view v) : n.OfView c v := by
  rcases mem_all_tree h with ⟨w, hw⟩ | ⟨hother, -⟩
  · have hvw := hw.entity.symm.trans hv
    cases hvw
    exact hw
  · exact absurd hv (hother v)

/-- Every node of the tree has the id of what it describes. -/
theorem id_of_mem_tree (h : n ∈ c.tree.all) :
    n.id = c.entityId n.entity ∧ c.HasNode n.entity := by
  rcases mem_all_tree h with ⟨v, hv⟩ | ⟨-, hid⟩
  · rw [hv.entity]
    exact ⟨hv.id, mem_viewsIn_tree.mp (mem_viewsIn.mpr ⟨n, h, hv.entity⟩)⟩
  · exact hid

/-- Everything that can be selected by its id has a node. -/
theorem exists_node (h : c.HasNode e) : ∃ n ∈ c.tree.all, n.entity = e := by
  have hframe : ∀ {n}, n ∈ c.frameNodes → n ∈ c.tree.all := fun hn =>
    mem_all_tree_iff.mpr (Or.inl hn)
  cases e with
  | root => exact ⟨c.tree, Node.mem_all_self _, rfl⟩
  | output o =>
    refine ⟨c.outputOf o, hframe (mem_frameNodes.mpr ?_), rfl⟩
    exact Or.inr (Or.inr (Or.inr (Or.inl ⟨o, h, rfl⟩)))
  | workspace o p =>
    refine ⟨c.workspaceOf o p, hframe (mem_frameNodes.mpr ?_), rfl⟩
    exact Or.inr (Or.inr (Or.inr (Or.inr ⟨o, h.1, p, h.2, rfl⟩)))
  | view v => exact mem_viewsIn.mp (mem_viewsIn_tree.mpr h)
  | i3Output =>
    exact ⟨c.getI3ScratchpadOutputNodes, hframe (mem_frameNodes.mpr (Or.inr (Or.inl rfl))), rfl⟩
  | i3Scratch =>
    refine ⟨c.getI3ScratchpadWorkspaceNodes, hframe (mem_frameNodes.mpr ?_), rfl⟩
    exact Or.inr (Or.inr (Or.inl rfl))

/-! ## Equal ids -/

lemma entityKey_lt (hfit : c.WorkspacesFit) (he : c.HasNode e) : c.entityKey e < 2 ^ 32 := by
  cases e with
  | root => exact (by decide : 0 < 2 ^ 32)
  | output o => exact (c.output o).id.toNat_lt
  | workspace o p => exact (hfit.glue_lt he.1 he.2).trans (by decide)
  | view v => exact (c.view v).id.toNat_lt
  | i3Output => exact (by decide : 2147483647 < 2 ^ 32)
  | i3Scratch => exact (by decide : 2147483646 < 2 ^ 32)

/-- Two entities have the same id exactly when their numbers are the same. -/
lemma entityId_inj (hfit : c.WorkspacesFit) (he : c.HasNode e) (he' : c.HasNode e') :
    c.entityId e = c.entityId e' ↔ c.entityKey e = c.entityKey e' := by
  refine ⟨fun h => ?_, fun h => by rw [entityId, h, entityId]⟩
  have hofNat := congrArg Int32.toUInt32 h
  simp only [entityId, UInt32.toUInt32_toInt32] at hofNat
  have := congrArg UInt32.toNat hofNat
  rwa [UInt32.toNat_ofNat_of_lt' (entityKey_lt hfit he),
    UInt32.toNat_ofNat_of_lt' (entityKey_lt hfit he')] at this

variable (c) in
/-- Every workspace of an output gets an id, and in the tree nodes of different entities have
different ids. -/
structure IdsUnique : Prop where
  workspace_id : ∀ o ∈ c.outputs, ∀ p, c.IsWorkspaceValid o p →
    ∃ index id, c.getWorkspaceIndex p o = .ok index ∧
      getWorkspaceId (c.output o).id (.ofNat index.toNat) = .ok id
  node_id : ∀ t, c.getTree = .ok (some t) → ∀ n ∈ t.all, ∀ n' ∈ t.all,
    n.entity ≠ n'.entity → n.id ≠ n'.id

/-- The ids of the root and of the scratchpad. -/
def reservedKeys : List ℕ := [0, 2147483646, 2147483647]

variable (c) in
/-- The conditions on the ids under which no workspace, output or view takes the id of
something else.  Two workspaces are confused when the id of one output continues that of
another, by `r`, and the other has as many workspaces as the numeral of `r` and a 1 say. -/
structure IdsApart : Prop where
  output_reserved : ∀ o ∈ c.outputs, c.outputKey o ∉ reservedKeys
  view_reserved : ∀ v, c.Shown v → (c.view v).id.toNat ∉ reservedKeys
  workspace_reserved : ∀ o ∈ c.outputs, ∀ i, 0 < i → i ≤ c.numWorkspaces o →
    Decimal.glue (c.outputKey o) i ∉ reservedKeys
  workspace_output : ∀ o ∈ c.outputs, ∀ o' ∈ c.outputs, ∀ i, 0 < i → i ≤ c.numWorkspaces o →
    Decimal.glue (c.outputKey o) i ≠ c.outputKey o'
  workspace_view : ∀ o ∈ c.outputs, ∀ v, c.Shown v → ∀ i, 0 < i → i ≤ c.numWorkspaces o →
    Decimal.glue (c.outputKey o) i ≠ (c.view v).id.toNat
  workspace_workspace : ∀ o ∈ c.outputs, ∀ o' ∈ c.outputs, o ≠ o' → ∀ r, 0 < r →
    c.outputKey o' = Decimal.glue (c.outputKey o) r → 0 < c.numWorkspaces o' →
    c.numWorkspaces o < 10 * r + 1

lemma IdsApart.workspace_ne {o o' : OutputRef} {p p' : Point} (h : c.IdsApart)
    (ho : o ∈ c.outputs) (ho' : o' ∈ c.outputs) (hp : c.IsWorkspaceValid o p)
    (hp' : c.IsWorkspaceValid o' p') (hne : o ≠ o') (hkey : c.outputKey o ≠ c.outputKey o') :
    Decimal.glue (c.outputKey o) (c.workspaceIndex o p)
      ≠ Decimal.glue (c.outputKey o') (c.workspaceIndex o' p') := by
  intro heq
  have hex : ∃ i j, 0 < i ∧ i ≤ c.numWorkspaces o ∧ 0 < j ∧ j ≤ c.numWorkspaces o' ∧
      Decimal.glue (c.outputKey o) i = Decimal.glue (c.outputKey o') j :=
    ⟨_, _, workspaceIndex_pos hp, workspaceIndex_le hp, workspaceIndex_pos hp',
      workspaceIndex_le hp', heq⟩
  rcases (Decimal.exists_glue_eq_iff hkey).mp hex with ⟨r, hr, hcont, hle, hpos⟩ |
    ⟨r, hr, hcont, hle, hpos⟩
  · have := h.workspace_workspace o ho o' ho' hne r hr hcont hpos
    omega
  · have := h.workspace_workspace o' ho' o ho hne.symm r hr hcont hpos
    omega

/-- Only the root and the scratchpad have the reserved ids. -/
lemma IdsApart.reserved (h : c.IdsApart) (he : c.HasNode e) (hmem : c.entityKey e ∈ reservedKeys) :
    e = .root ∨ e = .i3Output ∨ e = .i3Scratch := by
  cases e with
  | root => exact Or.inl rfl
  | output o => exact absurd hmem (h.output_reserved o he)
  | workspace o p =>
    exact absurd hmem
      (h.workspace_reserved o he.1 _ (workspaceIndex_pos he.2) (workspaceIndex_le he.2))
  | view v => exact absurd hmem (h.view_reserved v he)
  | i3Output => exact Or.inr (Or.inl rfl)
  | i3Scratch => exact Or.inr (Or.inr rfl)

lemma eq_of_reserved (he : e = .root ∨ e = .i3Output ∨ e = .i3Scratch)
    (he' : e' = .root ∨ e' = .i3Output ∨ e' = .i3Scratch)
    (hkey : c.entityKey e = c.entityKey e') : e = e' := by
  rcases he with rfl | rfl | rfl <;> rcases he' with rfl | rfl | rfl <;>
    first | rfl | exact absurd hkey (by simp [entityKey])

lemma reserved_root : c.entityKey .root ∈ reservedKeys := by simp [entityKey, reservedKeys]

lemma reserved_i3Output : c.entityKey .i3Output ∈ reservedKeys := by
  simp [entityKey, reservedKeys]

lemma reserved_i3Scratch : c.entityKey .i3Scratch ∈ reservedKeys := by
  simp [entityKey, reservedKeys]

/-- Under the conditions, different things with a node have different numbers. -/
lemma IdsApart.eq_of_key (h : c.IdsApart)
    (houtputs : ∀ o ∈ c.outputs, ∀ o' ∈ c.outputs, (c.output o).id = (c.output o').id → o = o')
    (hviews : ∀ v w, c.Shown v → c.Shown w → (c.view v).id = (c.view w).id → v = w)
    (hcross : ∀ o ∈ c.outputs, ∀ v, c.Shown v → (c.output o).id ≠ (c.view v).id)
    (he : c.HasNode e) (he' : c.HasNode e') (hkey : c.entityKey e = c.entityKey e') : e = e' := by
  by_cases hres : c.entityKey e ∈ reservedKeys
  · exact eq_of_reserved (h.reserved he hres) (h.reserved he' (hkey ▸ hres)) hkey
  have hres' : c.entityKey e' ∉ reservedKeys := hkey ▸ hres
  -- what is left are outputs, workspaces and views
  cases e with
  | root => exact absurd reserved_root hres
  | i3Output => exact absurd reserved_i3Output hres
  | i3Scratch => exact absurd reserved_i3Scratch hres
  | output o =>
    cases e' with
    | root => exact absurd reserved_root hres'
    | i3Output => exact absurd reserved_i3Output hres'
    | i3Scratch => exact absurd reserved_i3Scratch hres'
    | output o' => rw [houtputs o he o' he' (UInt32.toNat_inj.mp hkey)]
    | workspace o' p' =>
      exact absurd hkey.symm (h.workspace_output o' he'.1 o he _ (workspaceIndex_pos he'.2)
        (workspaceIndex_le he'.2))
    | view v' => exact absurd (UInt32.toNat_inj.mp hkey) (hcross o he v' he')
  | workspace o p =>
    cases e' with
    | root => exact absurd reserved_root hres'
    | i3Output => exact absurd reserved_i3Output hres'
    | i3Scratch => exact absurd reserved_i3Scratch hres'
    | output o' =>
      exact absurd hkey (h.workspace_output o he.1 o' he' _ (workspaceIndex_pos he.2)
        (workspaceIndex_le he.2))
    | workspace o' p' =>
      by_cases ho : o = o'
      · subst ho
        rw [workspaceIndex_injOn he.2 he'.2 (Decimal.glue_injective _ hkey)]
      · have hids : c.outputKey o ≠ c.outputKey o' := fun hids =>
          ho (houtputs o he.1 o' he'.1 (UInt32.toNat_inj.mp hids))
        exact absurd hkey (h.workspace_ne he.1 he'.1 he.2 he'.2 ho hids)
    | view v' =>
      exact absurd hkey (h.workspace_view o he.1 v' he' _ (workspaceIndex_pos he.2)
        (workspaceIndex_le he.2))
  | view v =>
    cases e' with
    | root => exact absurd reserved_root hres'
    | i3Output => exact absurd reserved_i3Output hres'
    | i3Scratch => exact absurd reserved_i3Scratch hres'
    | output o' => exact absurd (UInt32.toNat_inj.mp hkey).symm (hcross o' he' v he)
    | workspace o' p' =>
      exact absurd hkey.symm (h.workspace_view o' he'.1 v he _ (workspaceIndex_pos he'.2)
        (workspaceIndex_le he'.2))
    | view v' => rw [hviews v v' he he' (UInt32.toNat_inj.mp hkey)]

/-- Two numbers of things with a node are different if the ids of their nodes are. -/
lemma IdsUnique.key_ne (h : c.IdsUnique) (hdesc : c.Describable) (he : c.HasNode e)
    (he' : c.HasNode e') (hne : e ≠ e') : c.entityKey e ≠ c.entityKey e' := by
  obtain ⟨n, hn, rfl⟩ := exists_node he
  obtain ⟨n', hn', rfl⟩ := exists_node he'
  intro hkey
  refine h.node_id c.tree (getTree_eq_some_iff.mpr ⟨hdesc, rfl⟩) n hn n' hn' hne ?_
  rw [(id_of_mem_tree hn).1, (id_of_mem_tree hn').1]
  exact (entityId_inj hdesc.fit he he').mpr hkey

/-- Ids that are unique satisfy the conditions. -/
lemma IdsUnique.apart (h : c.IdsUnique) (hdesc : c.Describable)
    (hcontinue : ∀ o ∈ c.outputs, ∀ o' ∈ c.outputs, o ≠ o' → c.outputKey o ≠ c.outputKey o') :
    c.IdsApart := by
  have hreserved : ∀ e, c.HasNode e → e ≠ .root → e ≠ .i3Output → e ≠ .i3Scratch →
      c.entityKey e ∉ reservedKeys := by
    intro e he hroot hout hscratch
    simp only [reservedKeys, List.mem_cons, List.not_mem_nil, or_false, not_or]
    exact ⟨h.key_ne hdesc he (show c.HasNode .root from trivial) hroot,
      h.key_ne hdesc he (show c.HasNode .i3Scratch from trivial) hscratch,
      h.key_ne hdesc he (show c.HasNode .i3Output from trivial) hout⟩
  -- a number up to that of the last workspace belongs to a workspace
  have hindex : ∀ o ∈ c.outputs, ∀ i, 0 < i → i ≤ c.numWorkspaces o → ∃ p,
      c.HasNode (.workspace o p) ∧ c.entityKey (.workspace o p) = Decimal.glue (c.outputKey o) i := by
    intro o ho i hi hle
    obtain ⟨p, hp, rfl⟩ := exists_workspaceIndex hi hle
    exact ⟨p, ⟨ho, hp⟩, rfl⟩
  constructor
  case output_reserved => exact fun o ho => hreserved (.output o) ho nofun nofun nofun
  case view_reserved => exact fun v hv => hreserved (.view v) hv nofun nofun nofun
  case workspace_reserved =>
    intro o ho i hi hle
    obtain ⟨p, hnode, hkey⟩ := hindex o ho i hi hle
    rw [← hkey]
    exact hreserved _ hnode nofun nofun nofun
  case workspace_output =>
    intro o ho o' ho' i hi hle
    obtain ⟨p, hnode, hkey⟩ := hindex o ho i hi hle
    rw [← hkey]
    exact h.key_ne hdesc hnode (show c.HasNode (.output o') from ho') nofun
  case workspace_view =>
    intro o ho v hv i hi hle
    obtain ⟨p, hnode, hkey⟩ := hindex o ho i hi hle
    rw [← hkey]
    exact h.key_ne hdesc hnode (show c.HasNode (.view v) from hv) nofun
  case workspace_workspace =>
    intro o ho o' ho' hne r hr hcont hpos
    by_contra hlt
    have hex := (Decimal.exists_glue_eq_iff (hcontinue o ho o' ho' hne)).mpr
      (Or.inl ⟨r, hr, hcont, not_lt.mp hlt, hpos⟩)
    obtain ⟨i, j, hi, hle, hj, hle', heq⟩ := hex
    obtain ⟨p, hnode, hkey⟩ := hindex o ho i hi hle
    obtain ⟨p', hnode', hkey'⟩ := hindex o' ho' j hj hle'
    refine h.key_ne hdesc hnode hnode' (fun he => hne ?_) (hkey.trans (heq.trans hkey'.symm))
    cases he
    rfl

/-- For distinct ids of outputs and views: the ids of the nodes are unique exactly when every
workspace id is an `int` and, if there is a tree, no id of one thing is that of another. -/
theorem idsUnique_iff
    (houtputs : ∀ o ∈ c.outputs, ∀ o' ∈ c.outputs, (c.output o).id = (c.output o').id → o = o')
    (hviews : ∀ v w, c.Shown v → c.Shown w → (c.view v).id = (c.view w).id → v = w)
    (hcross : ∀ o ∈ c.outputs, ∀ v, c.Shown v → (c.output o).id ≠ (c.view v).id) :
    c.IdsUnique ↔ c.WorkspacesFit ∧ (c.Describable → c.IdsApart) := by
  constructor
  · intro h
    refine ⟨fun o ho hpos => ?_, fun hdesc => h.apart hdesc fun o ho o' ho' hne hkey => ?_⟩
    · obtain ⟨p, hp, hlast⟩ := exists_workspaceIndex hpos le_rfl
      rw [← hlast]
      exact (workspaceNumber_iff hp).mp (h.workspace_id o ho p hp)
    · exact hne (houtputs o ho o' ho' (UInt32.toNat_inj.mp hkey))
  · rintro ⟨hfit, hapart⟩
    constructor
    · exact fun o ho p hp => (workspaceNumber_iff hp).mpr (hfit.glue_lt ho hp)
    · intro t ht n hn n' hn' hne hid
      obtain ⟨hdesc, rfl⟩ := getTree_eq_some_iff.mp ht
      obtain ⟨hn, he⟩ := id_of_mem_tree hn
      obtain ⟨hn', he'⟩ := id_of_mem_tree hn'
      rw [hn, hn', entityId_inj hfit he he'] at hid
      exact hne ((hapart hdesc).eq_of_key houtputs hviews hcross he he' hid)

/-- An output with the id 1 and eleven workspaces, and one with the id 11. -/
def twoOutputs : Compositor :=
  .flat [⟨1, "A".toList, 11, 1, ⟨0, 0⟩⟩, ⟨11, "B".toList, 1, 1, ⟨0, 0⟩⟩] [] none

/-- Workspace 11 of the one and workspace 1 of the other output both have the id 111. -/
theorem twoOutputs_confused :
    (∀ o ∈ twoOutputs.outputs, ∀ o' ∈ twoOutputs.outputs,
      (twoOutputs.output o).id = (twoOutputs.output o').id → o = o') ∧
    twoOutputs.allViews = [] ∧ ¬ twoOutputs.IdsUnique := by
  refine ⟨by decide, rfl, fun h => ?_⟩
  have hdesc : twoOutputs.Describable := by
    constructor
    case active => decide
    case current => decide
    case fit =>
      show ∀ o ∈ [0, 1], 0 < twoOutputs.numWorkspaces o →
        Decimal.glue (twoOutputs.outputKey o) (twoOutputs.numWorkspaces o) < 2 ^ 31
      decide
  exact h.key_ne hdesc (e := .workspace 0 ⟨10, 0⟩) (by constructor <;> decide)
    (show twoOutputs.HasNode (.workspace 1 ⟨0, 0⟩) by constructor <;> decide) nofun (by decide)

/-- An output with the id 1 and one workspace, which shows a view with the id 2. -/
def oneView : Compositor :=
  .flat [⟨1, "A".toList, 1, 1, ⟨0, 0⟩⟩] [.toplevelOn 2 0 .workspace] none

theorem oneView_unique : oneView.IdsUnique := by
  have hoff : ∀ o ∈ oneView.outputs, o = 0 := by decide
  have hshown : ∀ v, oneView.Shown v → v = 0 := by
    intro v hv
    have hviews : ∀ w ∈ viewsIn [oneView.tree], w = 0 := by decide +kernel
    exact hviews v (mem_viewsIn_tree.mpr hv)
  have hindex : ∀ o ∈ oneView.outputs, ∀ i, 0 < i → i ≤ oneView.numWorkspaces o → i = 1 := by
    intro o ho i hi hle
    have hone : oneView.numWorkspaces 0 = 1 := rfl
    rw [hoff o ho, hone] at hle
    omega
  refine (idsUnique_iff ?_ ?_ ?_).mpr ⟨?_, fun _ => ?_⟩
  · exact fun o ho o' ho' _ => (hoff o ho).trans (hoff o' ho').symm
  · exact fun v w hv hw _ => (hshown v hv).trans (hshown w hw).symm
  · intro o ho v hv
    rw [hoff o ho, hshown v hv]
    decide
  · show ∀ o ∈ [0], 0 < oneView.numWorkspaces o →
      Decimal.glue (oneView.outputKey o) (oneView.numWorkspaces o) < 2 ^ 31
    decide
  · constructor
    case output_reserved => decide
    case view_reserved =>
      intro v hv
      rw [hshown v hv]
      decide
    case workspace_reserved =>
      intro o ho i hi hle
      rw [hoff o ho, hindex o ho i hi hle]
      decide
    case workspace_output =>
      intro o ho o' ho' i hi hle
      rw [hoff o ho, hoff o' ho', hindex o ho i hi hle]
      decide
    case workspace_view =>
      intro o ho v hv i hi hle
      rw [hoff o ho, hshown v hv, hindex o ho i hi hle]
      decide
    case workspace_workspace =>
      exact fun o ho o' ho' hne => absurd ((hoff o ho).trans (hoff o' ho').symm) hne

end Compositor
end WayfireIpc
