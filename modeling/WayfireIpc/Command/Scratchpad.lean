/-
# The command `scratchpad`

`scratchpad show` turns to the active view of the output, to a minimised view of the current
workspace, or to a minimised view of another workspace, which it moves to the current one.
What it asks for is the opposite of what the view needs.
-/
import WayfireIpc.Compositor.Shown
import WayfireIpc.Command.Workspace

namespace WayfireIpc

/-- `move_to_workspace` of a workspace set, as far as the command relies on it. -/
structure MoveToWorkspace where
  run : Compositor → OutputRef → ViewRef → Point → Compositor
  /-- Nothing is minimised, mapped or closed by it. -/
  view_run : ∀ c o v p, (run c o v p).view = c.view
  /-- A view of the set comes to be on the workspace. -/
  mem_run : ∀ c o v p q, c.IsWorkspaceValid o p → v ∈ c.wsetViews o q →
    v ∈ (run c o v p).wsetViews o p

namespace Compositor

variable (c : Compositor)

/-- `minimize_request`. -/
def minimizeRequest (v : ViewRef) (minimized : Bool) : Compositor :=
  { c with view := Function.update c.view v { c.view v with minimized := minimized } }

/-- The toplevel view of a container, unless it is the focus. -/
def unfocusedToplevel (focus : Option ViewRef) (container : Node) : Option ViewRef :=
  let view := IpcCommand.containerGetView c (some container)
  if focus ≠ view then view.filter fun v => (c.view v).isToplevel else none

/-- `scratchpad_toggle_auto`. -/
def scratchpadToggleAuto (M : MoveToWorkspace) (output : OutputRef) : Compositor :=
  let focus := c.activeView output
  match focus.filter fun v => (c.view v).isToplevel with
  | some toplevelView => c.minimizeRequest toplevelView false
  | none =>
    let ws := (c.output output).currentWorkspace
    if ws = invalidWorkspace then c
    else
      let containers := c.getI3ScratchpadContainerNodesByWorkspace ws output
      match containers.findSome? (c.unfocusedToplevel focus) with
      | some toplevelView => c.minimizeRequest toplevelView true
      | none =>
        let containers := c.getI3ScratchpadContainerNodesByOutput output
        match containers.findSome? (c.unfocusedToplevel focus) with
        | some toplevelView => (M.run c output toplevelView ws).minimizeRequest toplevelView true
        | none => c

/-- `scratchpad_toggle_container`. -/
def scratchpadToggleContainer (toplevelView : ViewRef) : Compositor :=
  c.minimizeRequest toplevelView !(c.view toplevelView).minimized

end Compositor

open IpcCommand

/-- `scratchpad_handler`. -/
def scratchpadHandler (M : MoveToWorkspace) : CommandHandler := fun argv ctx c =>
  match checkarg argv.length "scratchpad".toList .atLeast 1 with
  | some error => .ok (error, c)
  | none =>
    if argv.headD [] ≠ "show".toList then
      .ok (⟨.invalidParameter, some "Expected 'scratchpad show'".toList⟩, c)
    else if ctx.nodeOverridden then
      match (containerGetView c ctx.container).filter fun v => (c.view v).isToplevel with
      | none => .ok (⟨.success, none⟩, c)
      | some toplevelView => .ok (⟨.success, none⟩, c.scratchpadToggleContainer toplevelView)
    else
      match c.activeOutput with
      | none => .ok (noOutputs, c)
      | some output => .ok (⟨.success, none⟩, c.scratchpadToggleAuto M output)

namespace Compositor

variable (c : Compositor)

/-! ## What the command has to do -/

/-- The active view of an output, if it is a toplevel view. -/
def activeToplevel (o : OutputRef) : Option ViewRef :=
  (c.activeView o).filter fun v => (c.view v).isToplevel

/-- A minimised mapped toplevel view of an output. -/
structure InScratchpad (o : OutputRef) (v : ViewRef) : Prop where
  mem : v ∈ c.allViews
  output : (c.view v).output = some o
  toplevel : (c.view v).isToplevel
  role : (c.view v).role = .toplevel
  mapped : (c.view v).mapped
  minimized : (c.view v).minimized

/-- The views with `minimized` set for one of them. -/
def viewsWith (v : ViewRef) (minimized : Bool) : ViewRef → View :=
  Function.update c.view v { c.view v with minimized := minimized }

/-- `c'` is the state that `scratchpad show` has to lead to from `c`. -/
structure ShowsScratchpad (c' : Compositor) (o : OutputRef) : Prop where
  /-- An active toplevel view becomes minimised. -/
  hides : ∀ v, c.activeToplevel o = some v → c'.view = c.viewsWith v true
  /-- Else one minimised view is shown on the current workspace. -/
  shows : c.activeToplevel o = none → (∃ v, c.InScratchpad o v) →
    ∃ v, c.InScratchpad o v ∧ c'.view = c.viewsWith v false ∧
      v ∈ c'.wsetViews o (c.output o).currentWorkspace ∧
      ((∃ u ∈ c.wsetViews o (c.output o).currentWorkspace, c.InScratchpad o u) →
        v ∈ c.wsetViews o (c.output o).currentWorkspace)
  keeps : c.activeToplevel o = none → (¬ ∃ v, c.InScratchpad o v) → c'.view = c.view

/-- The workspace set of an output has views of this output. -/
def WsetOfOutput (o : OutputRef) : Prop :=
  ∀ p, ∀ v ∈ c.wsetViews o p, v ∈ c.allViews ∧ (c.view v).output = some o

variable {c} {M : MoveToWorkspace} {o : OutputRef} {p : Point} {v w : ViewRef}

/-! ## What the command asks for -/

lemma view_minimizeRequest (b : Bool) : (c.minimizeRequest v b).view = c.viewsWith v b := rfl

@[simp] lemma viewsWith_self (b : Bool) : (c.viewsWith v b v).minimized = b := by
  rw [viewsWith, Function.update_self]

/-- The command asks for an active toplevel view to be shown, and else for a view to be hidden
or for nothing. -/
lemma scratchpadToggleAuto_cases (M : MoveToWorkspace) (c : Compositor) (o : OutputRef) :
    (∃ v, c.activeToplevel o = some v ∧ c.scratchpadToggleAuto M o = c.minimizeRequest v false) ∨
      c.activeToplevel o = none ∧ (c.scratchpadToggleAuto M o = c ∨
        ∃ (v : ViewRef) (c₀ : Compositor), c₀.view = c.view ∧
          c.scratchpadToggleAuto M o = c₀.minimizeRequest v true) := by
  rw [scratchpadToggleAuto]
  simp only
  rw [← activeToplevel]
  split
  · rename_i v hv
    exact Or.inl ⟨v, hv, rfl⟩
  · rename_i hnone
    refine Or.inr ⟨hnone, ?_⟩
    split
    · exact Or.inl rfl
    · split
      · rename_i v _
        exact Or.inr ⟨v, c, rfl, rfl⟩
      · split
        · rename_i v _
          exact Or.inr ⟨v, _, M.view_run _ _ _ _, rfl⟩
        · exact Or.inl rfl

lemma inScratchpad_of_mem (hwset : c.WsetOfOutput o) (hv : v ∈ c.scratchpadViews p o)
    (htop : (c.view v).isToplevel) : c.InScratchpad o v := by
  simp only [scratchpadViews, List.mem_filter, Bool.and_eq_true, decide_eq_true_eq] at hv
  obtain ⟨hlisted, ⟨hrole, hmapped⟩, hminimized⟩ := hv
  obtain ⟨hmem, hout⟩ := hwset p v hlisted
  exact ⟨hmem, hout, htop, hrole, hmapped, hminimized⟩

lemma scratchpad_eq_nil (hwset : c.WsetOfOutput o) (hnone : ¬ ∃ v, c.InScratchpad o v) (p : Point) :
    c.getI3ScratchpadContainerNodesByWorkspace p o = [] := by
  rw [getI3ScratchpadContainerNodesByWorkspace, List.filterMap_eq_nil_iff]
  intro v hv
  rw [containerNode, describeView_of_not_toplevel, Option.map_none]
  exact fun htop => hnone ⟨v, inScratchpad_of_mem hwset hv htop⟩

/-- Without an active toplevel view and without a minimised view nothing is asked for. -/
lemma scratchpadToggleAuto_of_nothing (hwset : c.WsetOfOutput o)
    (hactive : c.activeToplevel o = none) (hnone : ¬ ∃ v, c.InScratchpad o v) :
    c.scratchpadToggleAuto M o = c := by
  have hnil := scratchpad_eq_nil hwset hnone
  have houtput : c.getI3ScratchpadContainerNodesByOutput o = [] := by
    rw [getI3ScratchpadContainerNodesByOutput, List.flatMap_eq_nil_iff]
    exact fun p _ => hnil p
  rw [scratchpadToggleAuto]
  simp only
  rw [← activeToplevel, hactive, hnil, houtput]
  simp only [List.findSome?_nil, ite_self]

/-! ## What the command does -/

/-- The command does what it has to exactly when there is nothing to do. -/
lemma showsScratchpad_toggleAuto_iff (hwset : c.WsetOfOutput o) :
    c.ShowsScratchpad (c.scratchpadToggleAuto M o) o ↔
      c.activeToplevel o = none ∧ ¬ ∃ v, c.InScratchpad o v := by
  constructor
  · intro hshows
    rcases scratchpadToggleAuto_cases M c o with ⟨v, hv, htoggle⟩ | ⟨hactive, htoggle⟩
    · -- the active view is shown, not hidden
      have hview := congrFun (hshows.hides v hv) v
      rw [htoggle, view_minimizeRequest] at hview
      have hflag := congrArg View.minimized hview
      rw [viewsWith_self, viewsWith_self] at hflag
      cases hflag
    · refine ⟨hactive, fun hex => ?_⟩
      obtain ⟨u, hu, hview, -⟩ := hshows.shows hactive hex
      have hshown : ((c.scratchpadToggleAuto M o).view u).minimized = false := by
        rw [hview, viewsWith_self]
      have hhidden : ((c.scratchpadToggleAuto M o).view u).minimized = true := by
        rcases htoggle with htoggle | ⟨v, c₀, hc₀, htoggle⟩
        · rw [htoggle, hu.minimized]
        · rw [htoggle, view_minimizeRequest, viewsWith, hc₀]
          by_cases huv : u = v
          · rw [huv, Function.update_self]
          · rw [Function.update_of_ne huv, hu.minimized]
      rw [hshown] at hhidden
      cases hhidden
  · rintro ⟨hactive, hnone⟩
    rw [scratchpadToggleAuto_of_nothing hwset hactive hnone]
    exact ⟨fun v hv => by simp [hactive] at hv, fun _ hex => absurd hex hnone, fun _ _ => rfl⟩

end Compositor

open Compositor

variable {c : Compositor} {o : OutputRef}

/-- `scratchpad show` without criteria does what it has to exactly when the active view of the
output is no toplevel view and the output has no minimised mapped toplevel view. -/
theorem scratchpadHandler_shows_iff (M : MoveToWorkspace) (argv : List Str)
    (ctx : CommandHandlerContext) (hctx : ctx.nodeOverridden = false)
    (hactive : c.activeOutput = some o) (hwset : c.WsetOfOutput o) :
    ∃ c', scratchpadHandler M ("show".toList :: argv) ctx c = .ok (⟨.success, none⟩, c') ∧
      (c.ShowsScratchpad c' o ↔ c.activeToplevel o = none ∧ ¬ ∃ v, c.InScratchpad o v) := by
  refine ⟨c.scratchpadToggleAuto M o, ?_, showsScratchpad_toggleAuto_iff hwset⟩
  have hargs : checkarg ("show".toList :: argv).length "scratchpad".toList .atLeast 1 = none := by
    simp [checkarg]
  rw [scratchpadHandler, hargs]
  simp [hctx, hactive]

/-- A workspace set that keeps its list of views and moves them by their workspace. -/
def MoveToWorkspace.plain : MoveToWorkspace where
  run c o v p :=
    { c with
      wsetViews := fun o' q =>
        if o' = o then (c.wsetViews o q).filter (· ≠ v) ++ if q = p then [v] else []
        else c.wsetViews o' q
      mainWorkspace := fun o' w => if o' = o ∧ w = v then p else c.mainWorkspace o' w }
  view_run _ _ _ _ := rfl
  mem_run c o v p q _ _ := by simp

/-- One window of one output, minimised or active. -/
def loneWindow (minimized : Bool) : Compositor :=
  .flat [⟨1, "A".toList, 1, 1, ⟨0, 0⟩⟩]
    [{ View.toplevelOn 7 0 .workspace with minimized := minimized }]
    (if minimized then none else some 0)

lemma wsetOfOutput_loneWindow (minimized : Bool) : (loneWindow minimized).WsetOfOutput 0 := by
  intro p v hv
  obtain ⟨hmem, hany⟩ := List.mem_filter.mp hv
  have hzero : v = 0 := by simpa using hmem
  subst hzero
  exact ⟨hmem, rfl⟩

lemma inScratchpad_loneWindow : (loneWindow true).InScratchpad 0 0 :=
  ⟨by decide, rfl, rfl, rfl, rfl, rfl⟩

theorem scratchpadHandler_shows_iff_loneWindow :
    ∃ c', scratchpadHandler .plain ["show".toList] {} (loneWindow true)
        = .ok (⟨.success, none⟩, c') ∧
      ((loneWindow true).ShowsScratchpad c' 0 ↔ (loneWindow true).activeToplevel 0 = none ∧
        ¬ ∃ v, (loneWindow true).InScratchpad 0 v) :=
  scratchpadHandler_shows_iff .plain [] {} rfl rfl (wsetOfOutput_loneWindow true)

/-- An active window is not minimised, and a minimised window is not shown. -/
theorem scratchpadHandler_shows_nothing :
    ((loneWindow false).activeToplevel 0 = some 0 ∧
      ∃ c', scratchpadHandler .plain ["show".toList] {} (loneWindow false)
          = .ok (⟨.success, none⟩, c') ∧
        (c'.view 0).minimized = false ∧ ¬ (loneWindow false).ShowsScratchpad c' 0) ∧
    (loneWindow true).activeToplevel 0 = none ∧ (loneWindow true).InScratchpad 0 0 ∧
      ∃ c', scratchpadHandler .plain ["show".toList] {} (loneWindow true)
          = .ok (⟨.success, none⟩, c') ∧
        (∀ v, c'.view v = (loneWindow true).view v) ∧ ¬ (loneWindow true).ShowsScratchpad c' 0 := by
  refine ⟨⟨rfl, _, rfl, rfl, fun hshows => ?_⟩, rfl, inScratchpad_loneWindow, _, rfl,
    fun v => ?_, fun hshows => ?_⟩
  · exact nomatch ((showsScratchpad_toggleAuto_iff (wsetOfOutput_loneWindow false)).mp hshows).1
  · rcases eq_or_ne v 0 with rfl | hv
    · rfl
    · exact Function.update_of_ne hv _ _
  · exact ((showsScratchpad_toggleAuto_iff (wsetOfOutput_loneWindow true)).mp hshows).2
      ⟨0, inScratchpad_loneWindow⟩

end WayfireIpc
