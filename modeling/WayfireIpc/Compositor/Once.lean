/-
# Which views have several nodes

Under what the compositor promises about its queries, the tree has one node for each view
that it shows exactly when no view stands in two of the lists that the tree is built from.
-/
import WayfireIpc.Compositor.Ids

namespace WayfireIpc

/-! ## Lists of lists -/

section FlatMap

variable {α β : Type*} {l : List α} {a b : α}

lemma disjoint_of_nodup_flatMap {f : α → List β} (h : (l.flatMap f).Nodup) (ha : a ∈ l)
    (hb : b ∈ l) (hne : a ≠ b) : (f a).Disjoint (f b) := by
  have : Std.Symm (Function.onFun List.Disjoint f) := ⟨fun _ _ h => h.symm⟩
  exact (List.nodup_flatMap.mp h).2.forall ha hb hne

lemma flatMap_eq_flatMap_filter {f : α → List β} {p : α → Bool}
    (hnil : ∀ a ∈ l, ¬ p a → f a = []) : l.flatMap f = (l.filter p).flatMap f := by
  induction l with
  | nil => rfl
  | cons a l ih =>
    rw [List.flatMap_cons, ih fun b hb => hnil b (List.mem_cons_of_mem a hb)]
    by_cases hp : p a
    · rw [List.filter_cons_of_pos hp, List.flatMap_cons]
    · rw [List.filter_cons_of_neg hp, hnil a List.mem_cons_self hp, List.nil_append]

/-- When each list that is not empty contains the element that it belongs to. -/
lemma nodup_flatMap_iff {f : α → List α} {p : α → Bool} (hself : ∀ a ∈ l, p a → a ∈ f a)
    (hnil : ∀ a ∈ l, ¬ p a → f a = []) : (l.flatMap f).Nodup ↔
      (l.filter p).Nodup ∧ (∀ a ∈ l, p a → (f a).Nodup) ∧
        ∀ a ∈ l, ∀ b ∈ l, p a → p b → a ≠ b → (f a).Disjoint (f b) := by
  rw [flatMap_eq_flatMap_filter hnil]
  constructor
  · intro h
    obtain ⟨hnodup, hdisj⟩ := List.nodup_flatMap.mp h
    refine ⟨hdisj.imp_of_mem fun {a b} ha _ hab heq => ?_, fun a ha hp => ?_, ?_⟩
    · obtain ⟨ha, hp⟩ := List.mem_filter.mp ha
      exact hab (hself a ha hp) (heq ▸ hself a ha hp)
    · exact hnodup a (List.mem_filter.mpr ⟨ha, hp⟩)
    · intro a ha b hb hpa hpb hne
      exact disjoint_of_nodup_flatMap h (List.mem_filter.mpr ⟨ha, hpa⟩)
        (List.mem_filter.mpr ⟨hb, hpb⟩) hne
  · rintro ⟨hl, hnodup, hdisj⟩
    refine List.nodup_flatMap.mpr ⟨fun a ha => ?_, ?_⟩
    · obtain ⟨ha, hp⟩ := List.mem_filter.mp ha
      exact hnodup a ha hp
    · refine hl.pairwise_of_forall_ne fun a ha b hb hne => ?_
      obtain ⟨ha, hpa⟩ := List.mem_filter.mp ha
      obtain ⟨hb, hpb⟩ := List.mem_filter.mp hb
      exact hdisj a ha b hb hpa hpb hne

end FlatMap

namespace Compositor

/-- What the queries promise: outputs, views, the views of layers and the views below a view are
listed once, and the views below a view are all its transitive children. -/
structure Lawful (c : Compositor) : Prop where
  outputs_nodup : c.outputs.Nodup
  allViews_nodup : c.allViews.Nodup
  collect_nodup : ∀ o layers, (c.collectViews o layers).Nodup
  mem_collect : ∀ o layers v, v ∈ c.collectViews o layers ↔
    v ∈ c.allViews ∧ (c.view v).output = some o ∧ ∃ l ∈ layers, (c.view v).layer = some l
  enumerate_nodup : ∀ v, (c.enumerateViews v).Nodup
  enumerate_trans : ∀ v w x, w ∈ c.enumerateViews v → x ∈ c.enumerateViews w →
    x ∈ c.enumerateViews v

variable (c : Compositor)

/-- The views that the container of `r` describes if no child has children that float. -/
def Family (r w : ViewRef) : Prop :=
  w = r ∨ ((c.view w).isToplevel ∧ ∃ b, w ∈ c.childViews r b)

/-- The conditions under which no view has two nodes. -/
structure RootsApart : Prop where
  /-- A view of these layers stands in `nodes` and in `floating_nodes` of its workspace. -/
  top : ∀ o ∈ c.outputs, ∀ p, c.IsWorkspaceValid o p → c.workspaceViews [.top, .dwidget] p o = []
  scratchpad : (c.scratchpadRoots.filter fun v => (c.view v).isToplevel).Nodup
  /-- A child that floats is described below its parent and again below the parent's parent. -/
  child : ∀ r ∈ c.rootViews, (c.view r).isToplevel → ∀ b, ∀ w ∈ c.childViews r b,
    (c.view w).isToplevel → ∀ x ∈ c.childViews w true, ¬ (c.view x).isToplevel
  apart : ∀ r ∈ c.rootViews, ∀ r' ∈ c.rootViews, (c.view r).isToplevel →
    (c.view r').isToplevel → r ≠ r' → ∀ w, c.Family r w → ¬ c.Family r' w

variable {c} {v w r r' x : ViewRef}

/-- The queries of a compositor without children keep the promises. -/
lemma flat_lawful (outputs : List Output) (views : List View) (active : Option ViewRef) :
    (flat outputs views active).Lawful where
  outputs_nodup := List.nodup_range
  allViews_nodup := List.nodup_range
  collect_nodup := fun _ _ => List.nodup_range.filter _
  mem_collect := by
    intro o layers v
    show v ∈ (List.range views.length).filter _ ↔ v ∈ List.range views.length ∧ _
    rw [List.mem_filter]
    refine and_congr_right fun hv => ?_
    have hlt : v < views.length := List.mem_range.mp hv
    simp only [flat, List.getElem?_eq_getElem hlt, List.getD_eq_getElem _ _ hlt, Option.any_some,
      Option.any_eq_true, Bool.and_eq_true, decide_eq_true_eq, List.contains_iff_mem]
    exact and_congr_right fun _ => exists_congr fun l => and_comm
  enumerate_nodup := fun _ => List.nodup_singleton _
  enumerate_trans := by
    intro v w x hw hx
    rw [List.mem_singleton.mp hw] at hx
    exact hx

/-! ## Children -/

lemma mem_childViews {b : Bool} : w ∈ c.childViews v b ↔
    w ∈ c.enumerateViews v ∧ w ≠ v ∧ (c.view w).role = .toplevel ∧ (c.view w).mapped ∧
      (c.view w).above = b := by
  simp only [childViews, List.mem_filter, Bool.and_eq_true, decide_eq_true_eq, and_assoc]

lemma not_mem_childViews_self {b : Bool} : v ∉ c.childViews v b := fun h =>
  (mem_childViews.mp h).2.1 rfl

lemma Lawful.childViews_trans (hc : c.Lawful) {b b' : Bool} (hw : w ∈ c.childViews v b)
    (hx : x ∈ c.childViews w b') : x ∈ c.childViews v b' := by
  obtain ⟨henum, -, -⟩ := mem_childViews.mp hw
  obtain ⟨henum', -, hrest⟩ := mem_childViews.mp hx
  refine mem_childViews.mpr ⟨hc.enumerate_trans v w x henum henum', ?_, hrest⟩
  rintro rfl
  have := depth_childViews hw
  have := depth_childViews hx
  omega

lemma Lawful.childViews_nodup (hc : c.Lawful) (v : ViewRef) (b : Bool) :
    (c.childViews v b).Nodup := (hc.enumerate_nodup v).filter _

lemma describedViews_of_no_children (htop : (c.view v).isToplevel)
    (h : ∀ x ∈ c.childViews v true, ¬ (c.view x).isToplevel) : c.describedViews v = [v] := by
  rw [describedViews_of_toplevel htop]
  refine congrArg (v :: ·) (List.flatMap_eq_nil_iff.mpr fun x hx => ?_)
  exact describedViews_of_not_toplevel (h x hx)

lemma mem_describedViews_self (htop : (c.view v).isToplevel) : v ∈ c.describedViews v :=
  mem_describedViews.mpr (.self htop)

/-- No child of `r` with a node has children that float and have a node. -/
def NoFloatingGrandchild (c : Compositor) (r : ViewRef) : Prop :=
  ∀ b, ∀ w ∈ c.childViews r b, (c.view w).isToplevel → ∀ x ∈ c.childViews w true,
    ¬ (c.view x).isToplevel

lemma NoFloatingGrandchild.flatMap_eq (h : c.NoFloatingGrandchild r) (b : Bool) :
    (c.childViews r b).flatMap c.describedViews
      = (c.childViews r b).filter fun w => (c.view w).isToplevel := by
  rw [flatMap_eq_flatMap_filter (p := fun w => (c.view w).isToplevel) fun w _ htop =>
    describedViews_of_not_toplevel htop]
  calc ((c.childViews r b).filter fun w => (c.view w).isToplevel).flatMap c.describedViews
      = ((c.childViews r b).filter fun w => (c.view w).isToplevel).flatMap fun w => [w] := by
        refine List.flatMap_congr fun w hw => ?_
        obtain ⟨hw, htop⟩ := List.mem_filter.mp hw
        exact describedViews_of_no_children htop (h b w hw htop)
    _ = _ := List.flatMap_singleton' _

lemma NoFloatingGrandchild.mem_containerViews (h : c.NoFloatingGrandchild r)
    (htop : (c.view r).isToplevel) : w ∈ c.containerViews r ↔ c.Family r w := by
  rw [containerViews, if_pos htop, h.flatMap_eq, h.flatMap_eq, Family, List.mem_cons,
    List.mem_append, List.mem_filter, List.mem_filter, Bool.exists_bool]
  tauto

/-- Under a container each view has one node exactly when no child has children that float. -/
lemma Lawful.containerViews_nodup_iff (hc : c.Lawful) (htop : (c.view r).isToplevel) :
    (c.containerViews r).Nodup ↔ c.NoFloatingGrandchild r := by
  constructor
  · rw [containerViews, if_pos htop, List.nodup_cons, List.nodup_append]
    rintro ⟨-, hfalse, htrue, hdisj⟩ b w hw htopw x hx htopx
    -- `x` is described below `w` and as a child of `r`
    have hxr : x ∈ c.childViews r true := hc.childViews_trans hw hx
    have hxw : x ∈ c.describedViews w :=
      mem_describedViews.mpr (.child htopw hx (.self htopx))
    have hxx : x ∈ c.describedViews x := mem_describedViews_self htopx
    cases b with
    | false =>
      exact hdisj x (List.mem_flatMap.mpr ⟨w, hw, hxw⟩) x (List.mem_flatMap.mpr ⟨x, hxr, hxx⟩) rfl
    | true =>
      have hne : w ≠ x := fun h => not_mem_childViews_self (h ▸ hx)
      exact disjoint_of_nodup_flatMap htrue hw hxr hne hxw hxx
  · intro h
    rw [containerViews, if_pos htop, h.flatMap_eq, h.flatMap_eq]
    refine List.nodup_cons.mpr ⟨?_, List.nodup_append.mpr ⟨?_, ?_, ?_⟩⟩
    · rw [List.mem_append, List.mem_filter, List.mem_filter]
      rintro (⟨h, -⟩ | ⟨h, -⟩) <;> exact not_mem_childViews_self h
    · exact (hc.childViews_nodup r false).filter _
    · exact (hc.childViews_nodup r true).filter _
    · rintro x hx y hy rfl
      have := (mem_childViews.mp (List.mem_filter.mp hx).1).2.2.2.2
      rw [(mem_childViews.mp (List.mem_filter.mp hy).1).2.2.2.2] at this
      cases this

/-! ## Roots -/

variable {o o' : OutputRef} {p p' : Point} {layers : List Layer}

lemma mem_workspaceViews : v ∈ c.workspaceViews layers p o ↔ v ∈ c.collectViews o layers ∧
    (c.view v).isToplevel ∧ c.mainWorkspace o v = p ∧ (c.view v).minimized = false ∧
      (c.view v).role = .toplevel ∧ (c.view v).mapped := by
  simp only [workspaceViews, List.mem_filter, Bool.and_eq_true, decide_eq_true_eq,
    Bool.not_eq_true', and_assoc]

lemma mem_shellViews : v ∈ c.shellViews o ↔ v ∈ c.allViews ∧
    (c.view v).role = .desktopEnvironment ∧ (c.view v).mapped ∧ (c.view v).output = some o := by
  simp only [shellViews, List.mem_filter, Bool.and_eq_true, decide_eq_true_eq, and_assoc]

/-- Where a view that stands as a container of a workspace is. -/
lemma Lawful.of_mem_workspaceRoots (hc : c.Lawful) (h : v ∈ c.workspaceRoots o p) :
    (c.view v).output = some o ∧ c.mainWorkspace o v = p ∧ (c.view v).minimized = false ∧
      (c.view v).role = .toplevel := by
  have hviews : ∀ layers, v ∈ c.workspaceViews layers p o → (c.view v).output = some o ∧
      c.mainWorkspace o v = p ∧ (c.view v).minimized = false ∧ (c.view v).role = .toplevel := by
    intro layers h
    obtain ⟨hcollect, -, hmain, hmin, hrole, -⟩ := mem_workspaceViews.mp h
    exact ⟨((hc.mem_collect o layers v).mp hcollect).2.1, hmain, hmin, hrole⟩
  rcases List.mem_append.mp h with h | h
  · exact hviews _ h
  · exact hviews _ h

lemma Lawful.of_mem_outputRoots (hc : c.Lawful) (h : v ∈ c.outputRoots o) :
    (c.view v).output = some o ∧
      ((c.view v).role = .toplevel → (c.view v).minimized = false) := by
  rcases List.mem_append.mp h with h | h
  · obtain ⟨p, -, h⟩ := List.mem_flatMap.mp h
    obtain ⟨hout, -, hmin, -⟩ := hc.of_mem_workspaceRoots h
    exact ⟨hout, fun _ => hmin⟩
  · obtain ⟨-, hrole, -, hout⟩ := mem_shellViews.mp h
    refine ⟨hout, fun h => ?_⟩
    rw [hrole] at h
    cases h

/-- A view of the upper layers is among the views of all layers. -/
lemma Lawful.mem_all_of_mem_top (hc : c.Lawful) (h : v ∈ c.workspaceViews [.top, .dwidget] p o) :
    v ∈ c.workspaceViews [.top, .workspace, .dwidget] p o := by
  obtain ⟨hcollect, hrest⟩ := mem_workspaceViews.mp h
  obtain ⟨hall, hout, l, hl, hlayer⟩ := (hc.mem_collect o _ v).mp hcollect
  refine mem_workspaceViews.mpr ⟨(hc.mem_collect o _ v).mpr ⟨hall, hout, l, ?_, hlayer⟩, hrest⟩
  simp only [List.mem_cons, List.not_mem_nil, or_false] at hl ⊢
  exact hl.imp_right Or.inr

/-- The containers of the outputs are different views if no view is in the upper layers. -/
lemma Lawful.outputRoots_nodup (hc : c.Lawful) (htop : ∀ o ∈ c.outputs, ∀ p,
    c.IsWorkspaceValid o p → c.workspaceViews [.top, .dwidget] p o = []) :
    (c.outputs.flatMap c.outputRoots).Nodup := by
  refine List.nodup_flatMap.mpr ⟨fun o ho => ?_, ?_⟩
  · refine List.nodup_append.mpr ⟨List.nodup_flatMap.mpr ⟨fun p hp => ?_, ?_⟩, ?_, ?_⟩
    · rw [workspaceRoots, htop o ho p (mem_gridPoints.mp hp), List.append_nil]
      exact (hc.collect_nodup o _).filter _
    · refine nodup_gridPoints.pairwise_of_forall_ne fun p _ p' _ hne v hv hv' => hne ?_
      rw [← (hc.of_mem_workspaceRoots hv).2.1, (hc.of_mem_workspaceRoots hv').2.1]
    · exact hc.allViews_nodup.filter _
    · rintro v hv w hw rfl
      obtain ⟨p, -, hv⟩ := List.mem_flatMap.mp hv
      have := (hc.of_mem_workspaceRoots hv).2.2.2
      rw [(mem_shellViews.mp hw).2.1] at this
      cases this
  · refine hc.outputs_nodup.pairwise_of_forall_ne fun o _ o' _ hne v hv hv' => hne ?_
    have hout := (hc.of_mem_outputRoots hv).1
    rw [(hc.of_mem_outputRoots hv').1] at hout
    exact (Option.some_injective _ hout).symm

lemma scratchpadRoots_minimized (h : v ∈ c.scratchpadRoots) :
    (c.view v).role = .toplevel ∧ (c.view v).minimized = true := by
  obtain ⟨o, -, h⟩ := List.mem_flatMap.mp h
  obtain ⟨p, -, h⟩ := List.mem_flatMap.mp h
  simp only [scratchpadViews, List.mem_filter, Bool.and_eq_true, decide_eq_true_eq] at h
  exact ⟨h.2.1.1, h.2.2⟩

/-- No view stands as a container twice exactly when none is in the upper layers and the
scratchpad has none twice. -/
lemma Lawful.rootViews_nodup_iff (hc : c.Lawful) :
    (c.rootViews.filter fun v => (c.view v).isToplevel).Nodup ↔
      (∀ o ∈ c.outputs, ∀ p, c.IsWorkspaceValid o p →
        c.workspaceViews [.top, .dwidget] p o = []) ∧
      (c.scratchpadRoots.filter fun v => (c.view v).isToplevel).Nodup := by
  rw [rootViews, List.filter_append, List.nodup_append]
  constructor
  · rintro ⟨hscratch, houtputs, -⟩
    refine ⟨fun o ho p hp => ?_, hscratch⟩
    rw [List.filter_flatMap] at houtputs
    have hroots := (List.nodup_flatMap.mp houtputs).1 o ho
    rw [outputRoots, List.filter_append, List.filter_flatMap] at hroots
    have hws := (List.nodup_flatMap.mp (List.nodup_append.mp hroots).1).1 p (mem_gridPoints.mpr hp)
    rw [workspaceRoots, List.filter_append] at hws
    refine List.eq_nil_iff_forall_not_mem.mpr fun v hv => ?_
    have htop := (mem_workspaceViews.mp hv).2.1
    exact (List.nodup_append.mp hws).2.2 v (List.mem_filter.mpr ⟨hc.mem_all_of_mem_top hv, htop⟩)
      v (List.mem_filter.mpr ⟨hv, htop⟩) rfl
  · rintro ⟨htop, hscratch⟩
    refine ⟨hscratch, (hc.outputRoots_nodup htop).filter _, ?_⟩
    rintro v hv w hw rfl
    obtain ⟨hrole, hmin⟩ := scratchpadRoots_minimized (List.mem_filter.mp hv).1
    obtain ⟨o, -, hw⟩ := List.mem_flatMap.mp (List.mem_filter.mp hw).1
    rw [(hc.of_mem_outputRoots hw).2 hrole] at hmin
    cases hmin

/-- Each view that the tree shows has one node exactly under these conditions. -/
theorem Lawful.viewsIn_tree_nodup_iff (hc : c.Lawful) :
    (viewsIn [c.tree]).Nodup ↔ c.RootsApart := by
  have hself : ∀ r ∈ c.rootViews, (c.view r).isToplevel → r ∈ c.containerViews r := by
    intro r _ htop
    rw [containerViews, if_pos htop]
    exact List.mem_cons_self
  have hnil : ∀ r ∈ c.rootViews, ¬ (c.view r).isToplevel → c.containerViews r = [] :=
    fun r _ htop => if_neg htop
  rw [viewsIn_tree.nodup_iff, nodup_flatMap_iff hself hnil, hc.rootViews_nodup_iff]
  constructor
  · rintro ⟨⟨htop, hscratch⟩, hnodup, hdisj⟩
    have hchild : ∀ r ∈ c.rootViews, (c.view r).isToplevel → c.NoFloatingGrandchild r :=
      fun r hr htop => (hc.containerViews_nodup_iff htop).mp (hnodup r hr htop)
    refine ⟨htop, hscratch, hchild, fun r hr r' hr' ht ht' hne w hw hw' => ?_⟩
    exact hdisj r hr r' hr' ht ht' hne (((hchild r hr ht).mem_containerViews ht).mpr hw)
      (((hchild r' hr' ht').mem_containerViews ht').mpr hw')
  · rintro ⟨htop, hscratch, hchild, hapart⟩
    refine ⟨⟨htop, hscratch⟩, fun r hr ht => ?_, fun r hr r' hr' ht ht' hne w hw hw' => ?_⟩
    · exact (hc.containerViews_nodup_iff ht).mpr (hchild r hr ht)
    · exact hapart r hr r' hr' ht ht' hne w
        ((NoFloatingGrandchild.mem_containerViews (hchild r hr ht) ht).mp hw)
        ((NoFloatingGrandchild.mem_containerViews (hchild r' hr' ht') ht').mp hw')

end Compositor
end WayfireIpc
