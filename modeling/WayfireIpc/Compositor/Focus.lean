/-
# Which nodes are focused

A compositor has at most one active view.  Its node is focused, but the node of a container
with children gives the focus up, and so does that of a workspace or an output with children.
The nodes of the scratchpad take it.  The tree has one focused node, that of the active view,
exactly when the lists that it is built from show the view once and where it keeps the focus.
-/
import WayfireIpc.Compositor.Once

namespace WayfireIpc

/-! ## Counting in lists of lists -/

section Count

variable {α β : Type*} [DecidableEq β] {l : List α} {f : α → List β} {a : α} {x : β}

lemma eq_singleton_iff_count {l : List β} :
    l = [x] ↔ (∀ y ∈ l, y = x) ∧ l.count x = 1 := by
  constructor
  · rintro rfl
    exact ⟨fun y hy => List.mem_singleton.mp hy, List.count_singleton_self⟩
  · rintro ⟨hall, hcount⟩
    rw [List.eq_replicate_of_mem hall] at hcount ⊢
    rw [List.count_replicate_self] at hcount
    rw [hcount, List.replicate_one]

/-- Where only one list of a list of lists has `x`. -/
lemma count_flatMap_of_unique [DecidableEq α] (hl : l.Nodup) (ha : a ∈ l)
    (h : ∀ b ∈ l, x ∈ f b → b = a) : (l.flatMap f).count x = (f a).count x := by
  rw [List.count_flatMap, List.sum_map_eq_nsmul_single a, List.count_eq_one_of_mem hl ha, one_smul,
    Function.comp_apply]
  exact fun b hne hb => List.count_eq_zero.mpr fun hx => hne (h b hb hx)

/-- `x` is in a list of lists once when one of them has it, and has it once. -/
lemma count_flatMap_eq_one_iff : (l.flatMap f).count x = 1 ↔
    ∃ a, (l.filter fun a => x ∈ f a) = [a] ∧ (f a).count x = 1 := by
  induction l with
  | nil => simp
  | cons b l ih =>
    rw [List.flatMap_cons, List.count_append]
    by_cases hx : x ∈ f b
    · have hpos := List.count_pos_iff.mpr hx
      rw [List.filter_cons_of_pos (p := fun a => decide (x ∈ f a)) (decide_eq_true hx)]
      constructor
      · intro h
        have hrest : (l.flatMap f).count x = 0 := by omega
        refine ⟨b, ?_, by omega⟩
        rw [List.count_eq_zero, List.mem_flatMap] at hrest
        rw [List.filter_eq_nil_iff.mpr fun c hc hxc => hrest ⟨c, hc, of_decide_eq_true hxc⟩]
      · rintro ⟨a, hfilter, hcount⟩
        obtain ⟨rfl, hnil⟩ := List.cons_eq_cons.mp hfilter
        rw [hcount, List.count_eq_zero.mpr]
        rintro hmem
        obtain ⟨c, hc, hxc⟩ := List.mem_flatMap.mp hmem
        exact List.filter_eq_nil_iff.mp hnil c hc (decide_eq_true hxc)
    · rw [List.filter_cons_of_neg (p := fun a => decide (x ∈ f a)) (by simpa using hx),
        List.count_eq_zero.mpr hx, Nat.zero_add, ih]

end Count

/-! ## Focused nodes -/

/-- What a focused node describes. -/
def Node.focused? (n : Node) : Option Entity := if n.attr.focused then some n.entity else none

lemma gather_focused_eq_singleton_iff {t : Node} {e : Entity} :
    gather Node.focused? [t] = [e] ↔
      ∃ n, (t.all.filter fun n => n.attr.focused) = [n] ∧ n.entity = e := by
  have hmap : gather Node.focused? [t]
      = (t.all.filter fun n => n.attr.focused).map Node.entity := by
    rw [gather, allOfList, allOfList, List.append_nil, ← List.filterMap_eq_map,
      List.filterMap_filter]
    rfl
  rw [hmap, List.map_eq_singleton_iff]

namespace Compositor

variable (c : Compositor)

/-- The container of a view has `nodes`. -/
def HasNodes (v : ViewRef) : Prop := ∃ w ∈ c.childViews v false, (c.view w).isToplevel

instance (v : ViewRef) : Decidable (c.HasNodes v) :=
  inferInstanceAs (Decidable (∃ w ∈ _, _))

/-- The views of the nodes below the node of a container. -/
def belowViews (v : ViewRef) : List ViewRef :=
  if (c.view v).isToplevel then
    (c.childViews v false ++ c.childViews v true).flatMap c.describedViews
  else []

/-- A mapped, enabled toplevel view, not minimised and on a workspace, is the active view of the
active output. -/
structure ActiveOn (o : OutputRef) (v : ViewRef) : Prop where
  activeOutput : c.activeOutput = some o
  /-- The active output is one of the outputs. -/
  output_mem : o ∈ c.outputs
  activeView : c.activeView o = some v
  /-- The active view is one of the views. -/
  view_mem : v ∈ c.allViews
  toplevel : (c.view v).isToplevel
  role : (c.view v).role = .toplevel
  mapped : (c.view v).mapped
  enabled : (c.view v).enabled
  minimized : (c.view v).minimized = false
  output : (c.view v).output = some o
  workspace : c.IsWorkspaceValid o (c.mainWorkspace o v)
  layer : ∃ l ∈ [Layer.top, .workspace, .dwidget], (c.view v).layer = some l

variable {c} {o : OutputRef} {v w r : ViewRef}

lemma ActiveOn.focused (h : c.ActiveOn o v) : (c.viewAttr w).focused = decide (w = v) := by
  have hfocused : c.focused = some v := by
    rw [Compositor.focused, h.activeOutput, Option.bind_some, h.activeView]
  show (decide (c.focused = some w) && (c.view w).enabled) = _
  rw [hfocused]
  by_cases heq : w = v
  · rw [heq, h.enabled]
    simp
  · have hne : some v ≠ some w := fun h => heq (Option.some.inj h).symm
    rw [decide_eq_false hne, decide_eq_false heq, Bool.false_and]

/-! ## Below a container -/

/-- Below `describe_view` the nodes of the active view are focused. -/
lemma ActiveOn.focused_describeView (h : c.ActiveOn o v) (w : ViewRef) :
    gather Node.focused? (c.describeView w).toList
      = ((c.describedViews w).filter (· = v)).map Entity.view := by
  induction w using depth_induction (c := c) with
  | step w ih =>
    by_cases htop : (c.view w).isToplevel
    · have hchildren : gather Node.focused? (c.getViewNodes w true)
          = (((c.childViews w true).flatMap c.describedViews).filter (· = v)).map Entity.view := by
        rw [getViewNodes, if_pos htop, gather_filterMap, List.filter_flatMap, List.map_flatMap]
        exact List.flatMap_congr fun x hx => ih true x hx
      have hself : ∀ focus ns fs,
          (Node.mk { c.viewAttr w with focus := focus } ns fs).focused?.toList
            = if w = v then [Entity.view w] else [] := by
        intro focus ns fs
        show (if (c.viewAttr w).focused then some (Entity.view w) else none).toList = _
        rw [h.focused]
        by_cases heq : w = v <;> simp [heq]
      rw [describeView_of_toplevel htop, describedViews_of_toplevel htop, Option.toList_some,
        gather_singleton, hself, List.filter_cons]
      show _ ++ ([] ++ gather Node.focused? (c.getViewNodes w true)) = _
      rw [hchildren]
      by_cases heq : w = v <;> simp [heq]
    · rw [describeView_of_not_toplevel htop, describedViews_of_not_toplevel htop]
      rfl

lemma getViewNodes_isEmpty (htop : (c.view r).isToplevel) :
    (c.getViewNodes r false).isEmpty = !decide (c.HasNodes r) := by
  have hnone : ∀ w, c.describeView w = none ↔ ¬ (c.view w).isToplevel := by
    intro w
    by_cases h : (c.view w).isToplevel
    · simp [describeView_of_toplevel h, h]
    · simp [describeView_of_not_toplevel h, h]
  rw [Bool.eq_iff_iff, List.isEmpty_iff, getViewNodes, if_pos htop, List.filterMap_eq_nil_iff]
  rw [Bool.not_eq_true', decide_eq_false_iff_not, HasNodes, not_exists]
  simp only [hnone, not_and]

/-- The focused nodes of a container: its own, and those of the active view below it. -/
lemma ActiveOn.focused_containerNode (h : c.ActiveOn o v) (htop : (c.view r).isToplevel)
    (focus : Bool → List Node → Bool) : gather Node.focused? (c.containerNode focus r).toList
      = (if focus (decide (r = v)) (c.getViewNodes r false) then [Entity.view r] else []) ++
        List.replicate ((c.belowViews r).count v) (Entity.view v) := by
  have hchildren : ∀ b, gather Node.focused? (c.getViewNodes r b)
      = (((c.childViews r b).flatMap c.describedViews).filter (· = v)).map Entity.view := by
    intro b
    rw [getViewNodes, if_pos htop, gather_filterMap, List.filter_flatMap, List.map_flatMap]
    exact List.flatMap_congr fun x _ => h.focused_describeView x
  have hself : ∀ ids b ns fs,
      (Node.mk { c.viewAttr r with focus := ids, focused := b } ns fs).focused?.toList
        = if b then [Entity.view r] else [] := by
    intro ids b ns fs
    cases b <;> rfl
  rw [containerNode_of_toplevel htop, Option.toList_some, gather_singleton, hself, h.focused,
    Node.nodes_mk, Node.floatingNodes_mk, hchildren, hchildren, belowViews, if_pos htop,
    ← List.map_append, ← List.filter_append, ← List.flatMap_append, List.filter_eq,
    List.map_replicate]

lemma focused_containerNode_of_not_toplevel (htop : ¬ (c.view r).isToplevel)
    (focus : Bool → List Node → Bool) :
    gather Node.focused? (c.containerNode focus r).toList = [] := by
  rw [containerNode, describeView_of_not_toplevel htop]
  rfl

lemma ActiveOn.count_containerNode (h : c.ActiveOn o v) (focus : Bool → List Node → Bool)
    (r : ViewRef) :
    (gather Node.focused? (c.containerNode focus r).toList).count (Entity.view v)
      = (c.belowViews r).count v +
        if r = v ∧ focus true (c.getViewNodes v false) then 1 else 0 := by
  by_cases htop : (c.view r).isToplevel
  · rw [h.focused_containerNode htop, List.count_append, List.count_replicate_self, add_comm]
    congr 1
    by_cases heq : r = v
    · subst heq
      rw [decide_eq_true rfl]
      cases focus true (c.getViewNodes r false) <;> simp
    · have hne : Entity.view r ≠ Entity.view v := fun h => heq (Entity.view.inj h)
      have hself : ¬ (r = v ∧ focus true (c.getViewNodes v false)) := fun h => heq h.1
      rw [if_neg hself]
      cases focus (decide (r = v)) (c.getViewNodes r false) <;> simp [hne]
  · have hne : r ≠ v := fun heq => htop (heq ▸ h.toplevel)
    rw [focused_containerNode_of_not_toplevel htop, belowViews, if_neg htop,
      if_neg fun h => hne h.1]
    rfl

/-- Among some containers the active view is focused below each container as often as it is
shown there, and as a container unless it gives the focus up. -/
lemma ActiveOn.count_containers (h : c.ActiveOn o v) (focus : Bool → List Node → Bool)
    (rs : List ViewRef) :
    (rs.flatMap fun r =>
      gather Node.focused? (c.containerNode focus r).toList).count (Entity.view v)
      = (rs.flatMap c.belowViews).count v +
        if focus true (c.getViewNodes v false) then rs.count v else 0 := by
  induction rs with
  | nil => simp
  | cons r rs ih =>
    rw [List.flatMap_cons, List.count_append, h.count_containerNode, ih, List.flatMap_cons,
      List.count_append, List.count_cons]
    by_cases hfocus : focus true (c.getViewNodes v false)
    · by_cases heq : r = v
      · simp only [hfocus, heq, and_self, if_true, beq_self_eq_true]
        omega
      · simp only [hfocus, heq, beq_iff_eq, and_true, if_true, if_false]
        omega
    · simp only [hfocus, and_false, if_false, Bool.false_eq_true]
      omega

/-! ## The focused nodes of the tree -/

lemma entity_of_mem_frameNodes {n : Node} (hn : n ∈ c.frameNodes) : n.entity ≠ .view v := by
  rcases mem_frameNodes.mp hn with rfl | rfl | rfl | ⟨o, -, rfl⟩ | ⟨o, -, p, -, rfl⟩ <;> nofun

lemma mem_filterMap_focused {ns : List Node} {e : Entity} :
    e ∈ ns.filterMap Node.focused? ↔ ∃ n ∈ ns, n.attr.focused ∧ n.entity = e := by
  simp only [List.mem_filterMap, Node.focused?, Option.ite_none_right_eq_some, Option.some.injEq]

lemma count_frameNodes : (c.frameNodes.filterMap Node.focused?).count (Entity.view v) = 0 := by
  refine List.count_eq_zero.mpr fun hmem => ?_
  obtain ⟨n, hn, -, hentity⟩ := mem_filterMap_focused.mp hmem
  exact entity_of_mem_frameNodes hn hentity

/-- How many nodes of the active view are focused. -/
theorem ActiveOn.count_tree (h : c.ActiveOn o v) :
    (gather Node.focused? [c.tree]).count (Entity.view v)
      = (c.rootViews.flatMap c.belowViews).count v +
        if c.HasNodes v then 0 else (c.outputs.flatMap c.outputRoots).count v := by
  have hscratch : c.scratchpadRoots.count v = 0 := by
    refine List.count_eq_zero.mpr fun hmem => ?_
    have := (scratchpadRoots_minimized hmem).2
    rw [h.minimized] at this
    cases this
  have hkeeps : (focusWithoutChildren true (c.getViewNodes v false)) = !decide (c.HasNodes v) := by
    rw [focusWithoutChildren, Bool.true_and, getViewNodes_isEmpty h.toplevel]
  rw [(gather_tree Node.focused?).count_eq, List.count_append, List.count_append,
    count_frameNodes, h.count_containers, h.count_containers, hscratch, ite_self, hkeeps, rootViews,
    List.flatMap_append, List.count_append]
  by_cases hnodes : c.HasNodes v <;> simp [hnodes, add_assoc]

/-! ## Where the active view stands -/

/-- The active view is a container of its workspace, and a second time in the upper layers. -/
lemma Lawful.count_outputRoots (hc : c.Lawful) (h : c.ActiveOn o v) :
    (c.outputs.flatMap c.outputRoots).count v
      = if (c.view v).layer = some .workspace then 1 else 2 := by
  -- the view is on one output and in one workspace of it
  have houtput : ∀ o' ∈ c.outputs, v ∈ c.outputRoots o' → o' = o := by
    intro o' _ hmem
    have hout := (hc.of_mem_outputRoots hmem).1
    rw [h.output] at hout
    exact (Option.some.inj hout).symm
  have hpoint : ∀ p ∈ c.gridPoints o, v ∈ c.workspaceRoots o p → p = c.mainWorkspace o v :=
    fun p _ hmem => (hc.of_mem_workspaceRoots hmem).2.1.symm
  -- it is a toplevel view, which no view of the shell is
  have hshell : (c.shellViews o).count v = 0 := by
    refine List.count_eq_zero.mpr fun hmem => ?_
    have := (mem_shellViews.mp hmem).2.1
    rw [h.role] at this
    cases this
  have hviews : ∀ layers, v ∈ c.workspaceViews layers (c.mainWorkspace o v) o ↔
      ∃ l ∈ layers, (c.view v).layer = some l := by
    intro layers
    rw [mem_workspaceViews, hc.mem_collect]
    have := h.view_mem
    have := h.output
    have := h.toplevel
    have := h.minimized
    have := h.role
    have := h.mapped
    tauto
  -- it is once among the views of all layers
  have hall : (c.workspaceViews [.top, .workspace, .dwidget] (c.mainWorkspace o v) o).count v = 1 :=
    List.count_eq_one_of_mem ((hc.collect_nodup o _).filter _) ((hviews _).mpr h.layer)
  -- and once more among those above the workspaces, if it is one of them
  have hupper : (c.workspaceViews [.top, .dwidget] (c.mainWorkspace o v) o).count v
      = if (c.view v).layer = some .workspace then 0 else 1 := by
    split
    · rename_i hlayer
      refine List.count_eq_zero.mpr fun hmem => ?_
      obtain ⟨l, hl, hl'⟩ := (hviews _).mp hmem
      rw [hlayer] at hl'
      cases hl'
      simp at hl
    · rename_i hlayer
      refine List.count_eq_one_of_mem ((hc.collect_nodup o _).filter _) ((hviews _).mpr ?_)
      obtain ⟨l, hl, hl'⟩ := h.layer
      refine ⟨l, ?_, hl'⟩
      have hne : l ≠ .workspace := fun heq => hlayer (heq ▸ hl')
      simp only [List.mem_cons, List.not_mem_nil, or_false] at hl ⊢
      tauto
  rw [count_flatMap_of_unique hc.outputs_nodup h.output_mem houtput, outputRoots, List.count_append,
    hshell, count_flatMap_of_unique nodup_gridPoints (mem_gridPoints.mpr h.workspace) hpoint,
    workspaceRoots, List.count_append, hall, hupper]
  split <;> rfl

variable (c) in
/-- The container of `r` shows `v` as a child. -/
def ShowsChild (v r : ViewRef) : Prop :=
  (c.view r).isToplevel ∧ v ∈ c.childViews r (c.view v).above

instance : DecidablePred (c.ShowsChild v) := fun _ => inferInstanceAs (Decidable (_ ∧ _))

lemma above_of_mem_childViews {b : Bool} (h : w ∈ c.childViews v b) : (c.view w).above = b :=
  (mem_childViews.mp h).2.2.2.2

lemma mem_append_childViews :
    w ∈ c.childViews r false ++ c.childViews r true ↔ ∃ b, w ∈ c.childViews r b := by
  rw [List.mem_append, Bool.exists_bool]

/-- What floats below a view is one of its floating children. -/
lemma Lawful.mem_childViews_of_floatsBelow (hc : c.Lawful) (h : c.FloatsBelow w v) :
    w = v ∨ v ∈ c.childViews w true := by
  induction h with
  | self => exact Or.inl rfl
  | child _ hchild _ ih =>
    rcases ih with rfl | hmem
    · exact Or.inr hchild
    · exact Or.inr (hc.childViews_trans hchild hmem)

lemma FloatsBelow.toplevel (h : c.FloatsBelow w v) : (c.view w).isToplevel := by
  cases h with
  | self htop => exact htop
  | child htop _ _ => exact htop

lemma Lawful.mem_describedViews_iff (hc : c.Lawful) (htop : (c.view v).isToplevel) (hne : w ≠ v) :
    v ∈ c.describedViews w ↔ (c.view w).isToplevel ∧ v ∈ c.childViews w true := by
  rw [mem_describedViews]
  constructor
  · exact fun h => ⟨h.toplevel, (hc.mem_childViews_of_floatsBelow h).resolve_left hne⟩
  · rintro ⟨htopw, hchild⟩
    exact .child htopw hchild (.self htop)

lemma Lawful.mem_belowViews_iff (hc : c.Lawful) (htop : (c.view v).isToplevel) :
    v ∈ c.belowViews r ↔ c.ShowsChild v r := by
  rw [belowViews]
  split
  · rename_i htopr
    rw [List.mem_flatMap, ShowsChild, and_iff_right htopr]
    constructor
    · rintro ⟨w, hw, hvw⟩
      obtain ⟨b, hw⟩ := mem_append_childViews.mp hw
      rcases hc.mem_childViews_of_floatsBelow (mem_describedViews.mp hvw) with rfl | hchild
      · rw [above_of_mem_childViews hw]
        exact hw
      · rw [above_of_mem_childViews hchild]
        exact hc.childViews_trans hw hchild
    · intro hv
      exact ⟨v, mem_append_childViews.mpr ⟨_, hv⟩, mem_describedViews_self htop⟩
  · rename_i htopr
    exact iff_of_false List.not_mem_nil fun h => htopr h.1

/-- `describe_view` of a view has one node of the view. -/
lemma count_describedViews_self (htop : (c.view v).isToplevel) :
    (c.describedViews v).count v = 1 := by
  have hnone : v ∉ (c.childViews v true).flatMap c.describedViews := by
    intro hmem
    obtain ⟨w, hw, hvw⟩ := List.mem_flatMap.mp hmem
    have hdepth : ∀ {w x}, c.FloatsBelow w x → c.depth x ≤ c.depth w := by
      intro w x hbelow
      induction hbelow with
      | self => exact le_rfl
      | child _ hchild _ ih => exact ih.trans (depth_childViews hchild).le
    have := hdepth (mem_describedViews.mp hvw)
    have := depth_childViews hw
    omega
  rw [describedViews_of_toplevel htop, List.count_cons_self, List.count_eq_zero.mpr hnone]

/-- A container shows a child once if none of its children has it as a child that floats. -/
lemma Lawful.count_belowViews_eq_one_iff (hc : c.Lawful) (htop : (c.view v).isToplevel)
    (hr : c.ShowsChild v r) : (c.belowViews r).count v = 1 ↔
      ∀ b, ∀ w ∈ c.childViews r b, (c.view w).isToplevel → v ∉ c.childViews w true := by
  have hnodup : (c.childViews r false ++ c.childViews r true).Nodup := by
    refine (hc.childViews_nodup r false).append (hc.childViews_nodup r true) fun w hw hw' => ?_
    have := above_of_mem_childViews hw
    rw [above_of_mem_childViews hw'] at this
    cases this
  have hmem : v ∈ c.childViews r false ++ c.childViews r true :=
    mem_append_childViews.mpr ⟨_, hr.2⟩
  have hself := mem_describedViews_self htop
  rw [belowViews, if_pos hr.1, count_flatMap_eq_one_iff]
  constructor
  · rintro ⟨x, hfilter, -⟩ b w hw htopw hvw
    have honly : ∀ w ∈ c.childViews r false ++ c.childViews r true,
        v ∈ c.describedViews w → w = x := by
      intro w hw hvw
      rw [← List.mem_singleton, ← hfilter]
      exact List.mem_filter.mpr ⟨hw, decide_eq_true hvw⟩
    have hvx : v = x := honly v hmem hself
    have hwx : w = x := honly w (mem_append_childViews.mpr ⟨b, hw⟩)
      (mem_describedViews.mpr (.child htopw hvw (.self htop)))
    rw [hwx, ← hvx] at hvw
    exact not_mem_childViews_self hvw
  · intro h
    refine ⟨v, eq_singleton_iff_count.mpr ⟨fun w hw => ?_, ?_⟩, count_describedViews_self htop⟩
    · obtain ⟨hw, hvw⟩ := List.mem_filter.mp hw
      by_contra hne
      obtain ⟨htopw, hchild⟩ :=
        (hc.mem_describedViews_iff htop hne).mp (of_decide_eq_true hvw)
      obtain ⟨b, hw⟩ := mem_append_childViews.mp hw
      exact h b w hw htopw hchild
    · refine List.count_eq_one_of_mem (hnodup.filter _) (List.mem_filter.mpr ⟨hmem, ?_⟩)
      exact decide_eq_true hself

/-! ## One focused node -/

lemma getContainerNodes_isEmpty {p : Point} : (c.getContainerNodes p o).isEmpty
    = (c.workspaceViews [.top, .workspace, .dwidget] p o).isEmpty := by
  rw [Bool.eq_iff_iff, List.isEmpty_iff, List.isEmpty_iff, getContainerNodes,
    List.filterMap_eq_nil_iff, List.eq_nil_iff_forall_not_mem]
  refine forall₂_congr fun v hv => ?_
  rw [containerNode_of_toplevel (mem_workspaceViews.mp hv).2.1]
  exact iff_of_false nofun not_false

/-- A node that describes no view is focused only if it is that of the current workspace of the
active output, and this workspace has no containers. -/
lemma ActiveOn.frameNodes_focused_iff (h : c.ActiveOn o v) (hdesc : c.Describable) :
    (∀ n ∈ c.frameNodes, n.attr.focused = false) ↔
      c.workspaceViews [.top, .workspace, .dwidget] (c.output o).currentWorkspace o ≠ [] := by
  have hws : ∀ o' p, (c.workspaceOf o' p).attr.focused
      = ((decide ((c.output o').currentWorkspace = p) && decide (c.activeOutput = some o')) &&
        (c.workspaceViews [.top, .workspace, .dwidget] p o').isEmpty) := by
    intro o' p
    rw [← getContainerNodes_isEmpty]
    rfl
  constructor
  · intro hall hnil
    have := hall _ (mem_frameNodes.mpr (Or.inr (Or.inr (Or.inr (Or.inr
      ⟨o, h.output_mem, _, hdesc.current o h.output_mem, rfl⟩)))))
    rw [hws, hnil, h.activeOutput] at this
    simp at this
  · intro hne n hn
    rcases mem_frameNodes.mp hn with rfl | rfl | rfl | ⟨o', ho', rfl⟩ | ⟨o', ho', p, hp, rfl⟩
    · exact List.isEmpty_eq_false_iff.mpr (List.ne_nil_of_mem h.output_mem)
    · rfl
    · rfl
    · show (decide (c.activeOutput = some o') && (c.workspacesOf o').isEmpty) = false
      rw [h.activeOutput]
      by_cases heq : o = o'
      · subst heq
        have hmem : c.workspaceOf o (c.mainWorkspace o v) ∈ c.workspacesOf o :=
          (List.perm_insertionSort _ _).mem_iff.mpr
            (List.mem_map_of_mem (mem_gridPoints.mpr h.workspace))
        rw [List.isEmpty_eq_false_iff.mpr (List.ne_nil_of_mem hmem), Bool.and_false]
      · rw [decide_eq_false fun h => heq (Option.some.inj h), Bool.false_and]
    · rw [hws, h.activeOutput]
      by_cases heq : o = o' ∧ (c.output o').currentWorkspace = p
      · obtain ⟨rfl, rfl⟩ := heq
        rw [List.isEmpty_eq_false_iff.mpr hne, Bool.and_false]
      · rw [Bool.and_eq_false_iff]
        refine Or.inl ?_
        rw [Bool.and_eq_false_iff, decide_eq_false_iff_not, decide_eq_false_iff_not,
          Option.some.injEq]
        tauto

/-- Nothing else is focused exactly when the current workspace has containers and those of the
scratchpad have `nodes`. -/
lemma ActiveOn.forall_focused_iff (h : c.ActiveOn o v) :
    (∀ e ∈ gather Node.focused? [c.tree], e = .view v) ↔
      (∀ n ∈ c.frameNodes, n.attr.focused = false) ∧
        ∀ r ∈ c.scratchpadRoots, (c.view r).isToplevel → c.HasNodes r := by
  have hbelow : ∀ {e : Entity} {k}, e ∈ List.replicate k (Entity.view v) → e = .view v :=
    fun he => (List.mem_replicate.mp he).2
  simp only [(gather_tree Node.focused?).mem_iff, List.mem_append, List.mem_flatMap]
  constructor
  · -- a frame that is focused would be another entity, and so would a view of the scratchpad
    intro hall
    refine ⟨fun n hn => ?_, fun r hr htop => ?_⟩
    · by_contra hfocused
      refine entity_of_mem_frameNodes hn (hall n.entity (Or.inl ?_))
      exact mem_filterMap_focused.mpr ⟨n, hn, by simpa using hfocused, rfl⟩
    · by_contra hnodes
      have hself : Entity.view r = .view v := by
        refine hall _ (Or.inr (Or.inl ⟨r, hr, ?_⟩))
        rw [h.focused_containerNode htop, getViewNodes_isEmpty htop, decide_eq_false hnodes]
        exact List.mem_append_left _ List.mem_cons_self
      have hmin := (scratchpadRoots_minimized hr).2
      rw [Entity.view.inj hself, h.minimized] at hmin
      cases hmin
  · rintro ⟨hframe, hscratch⟩ e (he | ⟨r, hr, he⟩ | ⟨r, -, he⟩)
    · -- frames are not focused
      obtain ⟨n, hn, hfocused, -⟩ := mem_filterMap_focused.mp he
      rw [hframe n hn] at hfocused
      cases hfocused
    · -- a view of the scratchpad passes the focus on to its children
      by_cases htop : (c.view r).isToplevel
      · rw [h.focused_containerNode htop, getViewNodes_isEmpty htop,
          decide_eq_true (hscratch r hr htop)] at he
        exact hbelow he
      · rw [focused_containerNode_of_not_toplevel htop] at he
        cases he
    · -- a view in a workspace has the focus only if it is the active one
      by_cases htop : (c.view r).isToplevel
      · rw [h.focused_containerNode htop, List.mem_append] at he
        rcases he with he | he
        · by_cases heq : r = v
          · rw [heq] at he
            split at he
            · exact List.mem_singleton.mp he
            · cases he
          · rw [decide_eq_false heq, focusWithoutChildren, Bool.false_and] at he
            cases he
        · exact hbelow he
      · rw [focused_containerNode_of_not_toplevel htop] at he
        cases he

variable (c) in
/-- The conditions under which the active view of an output has the only focused node. -/
structure FocusedAlone (o : OutputRef) (v : ViewRef) : Prop where
  /-- A current workspace without containers would be focused. -/
  workspace : c.workspaceViews [.top, .workspace, .dwidget] (c.output o).currentWorkspace o ≠ []
  /-- A container of the scratchpad without `nodes` would be focused. -/
  scratchpad : ∀ r ∈ c.scratchpadRoots, (c.view r).isToplevel → c.HasNodes r
  /-- A view without `nodes` is focused wherever it stands, so it must stand in one place. -/
  container : ¬ c.HasNodes v →
    (c.view v).layer = some .workspace ∧ ∀ r ∈ c.rootViews, ¬ c.ShowsChild v r
  /-- A view with `nodes` is focused only as a child, so it must be shown once as a child. -/
  child : c.HasNodes v → ∃ r, (c.rootViews.filter fun r => c.ShowsChild v r) = [r] ∧
    ∀ b, ∀ w ∈ c.childViews r b, (c.view w).isToplevel → v ∉ c.childViews w true

/-- How often the active view is shown below containers. -/
lemma Lawful.count_rootViews_below (hc : c.Lawful) (htop : (c.view v).isToplevel) :
    (c.rootViews.flatMap c.belowViews).count v = 1 ↔
      ∃ r, (c.rootViews.filter fun r => c.ShowsChild v r) = [r] ∧
        ∀ b, ∀ w ∈ c.childViews r b, (c.view w).isToplevel → v ∉ c.childViews w true := by
  have hfilter : (c.rootViews.filter fun r => v ∈ c.belowViews r)
      = c.rootViews.filter fun r => c.ShowsChild v r :=
    List.filter_congr fun r _ => decide_eq_decide.mpr (hc.mem_belowViews_iff htop)
  rw [count_flatMap_eq_one_iff, hfilter]
  refine exists_congr fun r => and_congr_right fun hr => ?_
  have hmem : r ∈ c.rootViews.filter fun r => c.ShowsChild v r := hr ▸ List.mem_cons_self
  exact hc.count_belowViews_eq_one_iff htop (of_decide_eq_true (List.mem_filter.mp hmem).2)

lemma Lawful.not_mem_rootViews_below (hc : c.Lawful) (htop : (c.view v).isToplevel) :
    (c.rootViews.flatMap c.belowViews).count v = 0 ↔ ∀ r ∈ c.rootViews, ¬ c.ShowsChild v r := by
  rw [List.count_eq_zero, List.mem_flatMap, not_exists]
  simp only [not_and, hc.mem_belowViews_iff htop]

/-- `get_tree` has one focused node, and it is one of the active view, exactly under these
conditions. -/
theorem tree_focused_iff (hc : c.Lawful) (h : c.ActiveOn o v) {t : Node}
    (ht : c.getTree = .ok (some t)) :
    (∃ n, (t.all.filter fun n => n.attr.focused) = [n] ∧ n.entity = .view v) ↔
      c.FocusedAlone o v := by
  obtain ⟨hdesc, rfl⟩ := getTree_eq_some_iff.mp ht
  rw [← gather_focused_eq_singleton_iff, eq_singleton_iff_count, h.forall_focused_iff,
    h.frameNodes_focused_iff hdesc, h.count_tree, hc.count_outputRoots h]
  constructor
  · rintro ⟨⟨hworkspace, hscratch⟩, hcount⟩
    refine ⟨hworkspace, hscratch, fun hnodes => ?_, fun hnodes => ?_⟩
    · rw [if_neg hnodes] at hcount
      split at hcount
      · rename_i hlayer
        exact ⟨hlayer, (hc.not_mem_rootViews_below h.toplevel).mp (by omega)⟩
      · omega
    · rw [if_pos hnodes] at hcount
      exact (hc.count_rootViews_below h.toplevel).mp hcount
  · rintro ⟨hworkspace, hscratch, hcontainer, hchild⟩
    refine ⟨⟨hworkspace, hscratch⟩, ?_⟩
    by_cases hnodes : c.HasNodes v
    · rw [if_pos hnodes]
      exact (hc.count_rootViews_below h.toplevel).mpr (hchild hnodes)
    · obtain ⟨hlayer, hnone⟩ := hcontainer hnodes
      rw [if_neg hnodes, if_pos hlayer, (hc.not_mem_rootViews_below h.toplevel).mpr hnone]

/-- An output with one workspace and some views on it, the first of which is active. -/
def oneWorkspace (views : List View) : Compositor :=
  .flat [⟨1, "A".toList, 1, 1, ⟨0, 0⟩⟩] views (some 0)

lemma oneWorkspace_describable (views : List View) : (oneWorkspace views).Describable where
  active := nofun
  current := by
    show ∀ o ∈ [0],
      (oneWorkspace []).IsWorkspaceValid o ((oneWorkspace []).output o).currentWorkspace
    decide
  fit := by
    show ∀ o ∈ [0], 0 < (oneWorkspace []).numWorkspaces o →
      Decimal.glue ((oneWorkspace []).outputKey o) ((oneWorkspace []).numWorkspaces o) < 2 ^ 31
    decide

lemma oneWorkspace_active (views : List View) :
    (oneWorkspace (.toplevelOn 2 0 .workspace :: views)).ActiveOn 0 0 where
  activeOutput := rfl
  output_mem := List.mem_cons_self
  activeView := rfl
  view_mem := by
    show 0 ∈ List.range (views.length + 1)
    exact List.mem_range.mpr (Nat.succ_pos _)
  toplevel := rfl
  role := rfl
  mapped := rfl
  enabled := rfl
  minimized := rfl
  output := rfl
  workspace := by
    show (oneWorkspace []).IsWorkspaceValid 0 ⟨0, 0⟩
    decide
  layer := ⟨.workspace, by decide, rfl⟩

/-- A view without children that is alone has the focused node. -/
theorem lone_view_focused : ∃ n, ((oneWorkspace [.toplevelOn 2 0 .workspace]).tree.all.filter
    fun n => n.attr.focused) = [n] ∧ n.entity = .view 0 := by
  have hnodes : ¬ (oneWorkspace [.toplevelOn 2 0 .workspace]).HasNodes 0 := by decide
  refine (tree_focused_iff (flat_lawful _ _ _) (oneWorkspace_active [])
    (getTree_eq_some_iff.mpr ⟨oneWorkspace_describable _, rfl⟩)).mpr ⟨?_, ?_, fun _ => ?_, ?_⟩
  · decide
  · decide +kernel
  · exact ⟨rfl, by decide +kernel⟩
  · exact fun h => absurd h hnodes

/-- The container of a minimised view is focused as well as that of the active view. -/
theorem minimized_view_focused : ¬ ∀ (c : Compositor) (o : OutputRef) (v : ViewRef) (t : Node),
    c.Lawful → c.ActiveOn o v → c.getTree = .ok (some t) →
      ∃ n, (t.all.filter fun n => n.attr.focused) = [n] ∧ n.entity = .view v := by
  intro h
  obtain ⟨n, hn, -⟩ := h
    (oneWorkspace [.toplevelOn 2 0 .workspace,
      { View.toplevelOn 3 0 .workspace with minimized := true }]) 0 0 _
    (flat_lawful _ _ _) (oneWorkspace_active _)
    (getTree_eq_some_iff.mpr ⟨oneWorkspace_describable _, rfl⟩)
  have hlength := (congrArg List.length hn).trans (List.length_singleton (a := n))
  exact absurd hlength (by decide +kernel)

end Compositor
end WayfireIpc
