/-
# Criteria with a single member

What `matches_view` does with criteria of which only `workspace` or only `urgent` is set.  For
the workspace of a view it takes that of the last other toplevel view; and it compares the
member `urgent` of the description, which is a number wherever it could be true, with a
boolean.
-/
import WayfireIpc.Command.Selection

namespace WayfireIpc

namespace Compositor

variable {c : Compositor} {v : ViewRef} {node : Node}

/-- The members of the description of a view. -/
lemma attr_describeView (h : c.describeView v = some node) :
    node.id = (c.view v).id.toInt32 ∧ node.attr.urgent = (c.viewAttr v).urgent := by
  rw [describeView_eq, viewNode] at h
  split_ifs at h
  cases h
  exact ⟨rfl, rfl⟩

variable (c)

/-- The description of the main workspace of a view. -/
def describeMainWorkspace (v : ViewRef) : Except Failure Node :=
  match (c.view v).output with
  | none => .error .nullPointer
  | some o => c.describeWorkspace (c.mainWorkspace o v) o

/-- The toplevel views with another id. -/
def otherToplevels (id : UInt32) : List ViewRef :=
  c.allViews.filter fun u => id ≠ (c.view u).id ∧ (c.view u).isToplevel

/-- The loop leaves the workspace of the last of the other toplevel views. -/
lemma otherViewsWorkspace_eq (id : UInt32) : c.otherViewsWorkspace id
    = (c.otherToplevels id).foldlM (fun _ u => some <$> c.describeMainWorkspace u) none := by
  rw [otherViewsWorkspace, otherToplevels]
  generalize (none : Option Node) = workspace
  induction c.allViews generalizing workspace with
  | nil => rfl
  | cons u views ih =>
    rw [List.foldlM_cons, List.filter_cons]
    by_cases hu : id ≠ (c.view u).id ∧ (c.view u).isToplevel = true
    · rw [if_pos hu, if_pos (by simpa using hu), List.foldlM_cons]
      rw [describeMainWorkspace]
      cases (c.view u).output with
      | none => rfl
      | some o =>
        simp only
        cases c.describeWorkspace (c.mainWorkspace o u) o with
        | error f => rfl
        | ok ws => exact ih (some ws)
    · rw [if_neg hu, if_neg (by simpa using hu)]
      exact ih workspace

end Compositor

namespace Criteria

variable {W : Library} {c : Compositor} {v : ViewRef} {node : Node}

/-! ## Criteria on the workspace -/

/-- The test of `matches_view` on the name of a workspace. -/
def testName (W : Library) (c : Compositor) (pattern : Pattern) (name : Str) :
    Except Failure Bool :=
  match pattern with
  | .pcre2 value => .ok (W.isMatch value (cStr name))
  | .focused =>
    match c.focused with
    | none => .ok true
    | some focused =>
      if ¬ (c.view focused).isToplevel then .ok false
      else do
        let focusedWorkspace ← c.describeMainWorkspace focused
        return cStr name = cStr focusedWorkspace.attr.name

/-- The pattern matches the name of the main workspace of the view on its own output; for
`__focused__` this is the name of the workspace of the focused view. -/
def MatchesOwn (W : Library) (c : Compositor) (pattern : Pattern) (m : Node) : Prop :=
  ∃ name, ownWorkspace c m = some name ∧ PatternHolds W pattern name
    (c.focused.bind fun f => (c.describeView f).bind (ownWorkspace c))

lemma matchesWorkspace_eq (pattern : Pattern) : matchesWorkspace W c node pattern
    = (c.otherViewsWorkspace node.id.toUInt32 >>= fun workspace =>
      match workspace with
      | none => .ok false
      | some ws => testName W c pattern ws.attr.name) := by
  rw [matchesWorkspace]
  refine congrArg _ (funext fun workspace => ?_)
  cases workspace with
  | none => rfl
  | some ws =>
    cases pattern with
    | pcre2 value => rfl
    | focused =>
      simp only [testName, Compositor.describeMainWorkspace]
      cases c.focused with
      | none => rfl
      | some focused =>
        simp only
        split_ifs
        · cases (c.view focused).output with
          | none => rfl
          | some o => rfl
        · rfl

/-- With `workspace` alone, `matches_view` is its test. -/
lemma matchesView_workspace (raw : Str) (pattern : Pattern) :
    matchesView W c { raw := raw, workspace := some pattern } node
      = matchesWorkspace W c node pattern := by
  have hmembers : matchesMembers W c { raw := raw, workspace := some pattern } node = true := rfl
  rw [matchesView, if_pos hmembers]
  simp only [testUrgent, testWorkspace, Machine.ok_bind, if_true]
  cases matchesWorkspace W c node pattern with
  | error f => rfl
  | ok b => cases b <;> rfl

open Classical in
/-- Criteria on the workspace test a view as they should if and only if the workspaces of all other
toplevel views can be described, and the test on that of the last of them says what the test of
the view's own would; without another toplevel view no view is matched. -/
theorem matchesView_workspace_iff (raw : Str) (pattern : Pattern)
    (h : c.describeView v = some node) :
    matchesView W c { raw := raw, workspace := some pattern } node
        = .ok (decide (MatchesOwn W c pattern node)) ↔
      (∀ u ∈ c.otherToplevels (c.view v).id, ∃ ws, c.describeMainWorkspace u = .ok ws) ∧
      match (c.otherToplevels (c.view v).id).getLast? with
      | none => ¬ MatchesOwn W c pattern node
      | some u => ∀ ws, c.describeMainWorkspace u = .ok ws →
          testName W c pattern ws.attr.name = .ok (decide (MatchesOwn W c pattern node)) := by
  have hid : node.id.toUInt32 = (c.view v).id := by
    rw [(Compositor.attr_describeView h).1, UInt32.toUInt32_toInt32]
  rw [matchesView_workspace, matchesWorkspace_eq, hid, Compositor.otherViewsWorkspace_eq]
  set others := c.otherToplevels (c.view v).id with hothers
  by_cases hok : ∀ u ∈ others, ∃ ws, c.describeMainWorkspace u = .ok ws
  · rw [and_iff_right hok]
    have : Nonempty Node := ⟨node⟩
    choose! g hg using hok
    rw [Machine.foldlM_overwrite none hg, Machine.ok_bind]
    cases hlast : others.getLast? with
    | none => simp
    | some u =>
      have hu := hg u (List.mem_of_getLast? hlast)
      simp [hu]
  · refine iff_of_false (fun hcon => hok ?_) fun hcon => hok hcon.1
    obtain ⟨workspace, hfold, -⟩ := Machine.bind_ok_iff.mp hcon
    exact Machine.ok_of_foldlM_overwrite hfold

/-- A second window beside the first. -/
def twoWindows : Compositor :=
  .flat [⟨1, [], 1, 1, ⟨0, 0⟩⟩] [.toplevelOn 7 0 .workspace, .toplevelOn 8 0 .workspace] none

/-- A view alone on workspace 1 is not matched by `workspace=1`. -/
theorem lone_view_not_matched :
    ∃ node, oneWindow.describeView 0 = some node ∧
      MatchesOwn equalTexts oneWindow (.pcre2 "1".toList) node ∧
      matchesView equalTexts oneWindow { workspace := some (.pcre2 "1".toList) } node = .ok false := by
  refine ⟨_, rfl, ⟨"1".toList, ?_, ?_⟩, ?_⟩
  · decide +kernel
  · show equalTexts.isMatch "1".toList (cStr "1".toList) = true
    decide +kernel
  · rfl

open Classical in
/-- With another view on the same workspace it is. -/
theorem neighbour_matched :
    ∃ node, twoWindows.describeView 0 = some node ∧
      matchesView equalTexts twoWindows { workspace := some (.pcre2 "1".toList) } node
        = .ok (decide (MatchesOwn equalTexts twoWindows (.pcre2 "1".toList) node)) := by
  obtain ⟨ws, hws, hname⟩ : ∃ ws, twoWindows.describeMainWorkspace 1 = .ok ws ∧ ws.attr.name = "1".toList :=
    ⟨_, rfl, by decide +kernel⟩
  have hothers : twoWindows.otherToplevels (twoWindows.view 0).id = [1] := by decide +kernel
  refine ⟨_, rfl, (matchesView_workspace_iff (v := 0) [] _ rfl).mpr ?_⟩
  rw [hothers]
  refine ⟨fun u hu => ⟨ws, List.mem_singleton.mp hu ▸ hws⟩, fun ws' hws' => ?_⟩
  cases hws.symm.trans hws'
  rw [testName, hname, decide_eq_true]
  · rfl
  · refine ⟨"1".toList, by decide +kernel, ?_⟩
    show equalTexts.isMatch "1".toList (cStr "1".toList) = true
    decide +kernel

/-! ## Criteria on urgency -/

/-- The hints of the view, for an X11 window, have the flag for urgency. -/
def HintUrgent (c : Compositor) (v : ViewRef) : Prop :=
  ∃ flags, (c.view v).xwaylandHints = some (some flags) ∧ flags &&& Compositor.urgencyHint ≠ 0

/-- The view is urgent, and of all urgent views it was focused last or first. -/
def IsUrgentTarget (c : Compositor) (order : UrgentOrder) (v : ViewRef) : Prop :=
  v ∈ c.allViews ∧ HintUrgent c v ∧ ∀ u ∈ c.allViews, HintUrgent c u →
    match order with
    | .latest => (c.view u).focusTimestamp ≤ (c.view v).focusTimestamp
    | .oldest => (c.view v).focusTimestamp ≤ (c.view u).focusTimestamp

/-- The views whose description the criteria match. -/
def MatchedView (W : Library) (c : Compositor) (ks : Criteria) (v : ViewRef) : Prop :=
  v ∈ c.allViews ∧ ∃ node, c.describeView v = some node ∧ ks.matchesView W c node = .ok true

/-- The member `urgent` of a description is never the boolean `true`. -/
lemma urgent_describeView (h : c.describeView v = some node) : node.attr.urgent ≠ .bool true := by
  rw [(Compositor.attr_describeView h).2, Compositor.viewAttr]
  simp only
  split <;> simp

/-- With `urgent` alone, no description is matched, and no list of urgent views is looked at. -/
lemma matchesView_urgent (raw : Str) (order : UrgentOrder) (h : c.describeView v = some node) :
    matchesView W c { raw := raw, urgent := some order } node = .ok false := by
  have hmembers : matchesMembers W c { raw := raw, urgent := some order } node = true := rfl
  rw [matchesView, if_pos hmembers]
  simp only [testUrgent, matchesUrgent, if_pos (urgent_describeView h), Machine.ok_bind]
  rfl

/-- There is an urgent view that was focused last or first. -/
lemma exists_urgentTarget (order : UrgentOrder) (h : ∃ v ∈ c.allViews, HintUrgent c v) :
    ∃ v, IsUrgentTarget c order v := by
  classical
  set urgent := c.allViews.filter (HintUrgent c ·) with hurgent
  have hmem : ∀ {v}, v ∈ urgent ↔ v ∈ c.allViews ∧ HintUrgent c v := by
    intro v
    rw [hurgent, List.mem_filter, decide_eq_true_eq]
  obtain ⟨v₀, hv₀, hhint₀⟩ := h
  have hne : urgent.toFinset.Nonempty := ⟨v₀, List.mem_toFinset.mpr (hmem.mpr ⟨hv₀, hhint₀⟩)⟩
  cases order with
  | latest =>
    obtain ⟨v, hv, hmax⟩ := urgent.toFinset.exists_max_image
      (fun v => (c.view v).focusTimestamp.toNat) hne
    have hv := hmem.mp (List.mem_toFinset.mp hv)
    exact ⟨v, hv.1, hv.2, fun u hu hhint => hmax u (List.mem_toFinset.mpr (hmem.mpr ⟨hu, hhint⟩))⟩
  | oldest =>
    obtain ⟨v, hv, hmin⟩ := urgent.toFinset.exists_min_image
      (fun v => (c.view v).focusTimestamp.toNat) hne
    have hv := hmem.mp (List.mem_toFinset.mp hv)
    exact ⟨v, hv.1, hv.2, fun u hu hhint => hmin u (List.mem_toFinset.mpr (hmem.mpr ⟨hu, hhint⟩))⟩

/-- Wherever a view is urgent, `urgent=latest` and `urgent=oldest` do not match exactly the view they
name: they match no view at all, and no element of a list is accessed. -/
theorem urgent_never_matches (raw : Str) (order : UrgentOrder)
    (h : ∃ v ∈ c.allViews, HintUrgent c v) :
    ¬ (∀ v, MatchedView W c { raw := raw, urgent := some order } v ↔ IsUrgentTarget c order v) ∧
      ∀ v node, c.describeView v = some node →
        matchesView W c { raw := raw, urgent := some order } node = .ok false := by
  refine ⟨fun hall => ?_, fun v node => matchesView_urgent raw order⟩
  obtain ⟨v, htarget⟩ := exists_urgentTarget order h
  obtain ⟨-, node, hnode, hmatch⟩ := (hall v).mpr htarget
  rw [matchesView_urgent raw order hnode] at hmatch
  cases hmatch

/-- An X11 window with the flag for urgency. -/
def urgentWindow : Compositor :=
  { Compositor.flat [⟨1, [], 1, 1, ⟨0, 0⟩⟩]
      [{ View.toplevelOn 7 0 .workspace with xwaylandHints := some (some 256) }] none with
    xwayland := true }

lemma urgentWindow_urgent : ∃ v ∈ urgentWindow.allViews, HintUrgent urgentWindow v :=
  ⟨0, by decide, 256, rfl, by decide⟩

/-- The only window is urgent and is not matched. -/
theorem urgentWindow_not_matched :
    IsUrgentTarget urgentWindow .latest 0 ∧
      ¬ MatchedView equalTexts urgentWindow { urgent := some .latest } 0 := by
  refine ⟨⟨by decide, ⟨256, rfl, by decide⟩, fun u hu _ => ?_⟩, ?_⟩
  · have hzero : u = 0 := by simpa [urgentWindow, Compositor.flat] using hu
    subst hzero
    exact UInt64.le_refl _
  · rintro ⟨-, node, hnode, hmatch⟩
    rw [matchesView_urgent [] .latest hnode] at hmatch
    cases hmatch

/-- Neither order matches it alone. -/
theorem urgentWindow_never_matches :
    (∃ v ∈ urgentWindow.allViews, HintUrgent urgentWindow v) ∧
      ¬ (∀ v, MatchedView equalTexts urgentWindow { urgent := some .latest } v ↔
        IsUrgentTarget urgentWindow .latest v) :=
  ⟨urgentWindow_urgent, (urgent_never_matches [] .latest urgentWindow_urgent).1⟩

end Criteria

end WayfireIpc
