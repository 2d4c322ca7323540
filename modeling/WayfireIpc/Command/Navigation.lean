/-
# Going from workspace to workspace

The number of a workspace, the search for a number, the name that the tree gives to a
workspace and the keywords `next` and `prev` agree with each other.
-/
import WayfireIpc.Command.Workspace

namespace WayfireIpc

/-- `workspace` with one word, several times. -/
def repeatWorkspace (word : Str) : ℕ → Compositor → Except Failure Compositor
  | 0, c => .ok c
  | n + 1, c => do
    let (_, c) ← workspaceHandler [word] {} c
    repeatWorkspace word n c

namespace Compositor

/-- The agreement of the numbers and the names on an output, and of `prev` with them. -/
structure Numbered (c : Compositor) (o : OutputRef) : Prop where
  /-- Every workspace has a number, and the search for it returns the workspace. -/
  index : ∀ p, c.IsWorkspaceValid o p → ∃ i, 1 ≤ i ∧ i ≤ (c.numWorkspaces o : ℤ) ∧
    c.getWorkspaceIndex p o = .ok i ∧ c.getWorkspaceAtIndex i o = .ok p
  /-- Every number is that of a workspace. -/
  at_index : ∀ i, 1 ≤ i → i ≤ (c.numWorkspaces o : ℤ) → ∃ p, c.IsWorkspaceValid o p ∧
    c.getWorkspaceAtIndex i o = .ok p ∧ c.getWorkspaceIndex p o = .ok i
  other : ∀ i, -2 ^ 31 ≤ i → i < 2 ^ 31 → ¬ (1 ≤ i ∧ i ≤ (c.numWorkspaces o : ℤ)) →
    c.getWorkspaceAtIndex i o = .ok invalidWorkspace
  /-- The name of a workspace leads to it. -/
  name : c.activeOutput = some o → ∀ p node, c.describeWorkspace p o = .ok node → ∀ ctx,
    workspaceHandler [node.attr.name] ctx c = .ok (⟨.success, none⟩, c.workspaceSwitch p o)
  /-- `prev` undoes `next` on a workspace that is not the last. -/
  prev : c.activeOutput = some o → c.IsWorkspaceValid o (c.output o).currentWorkspace →
    c.workspaceIndex o (c.output o).currentWorkspace < c.numWorkspaces o → ∀ ctx ctx',
      ∃ c', workspaceHandler ["next".toList] ctx c = .ok (⟨.success, none⟩, c') ∧
        workspaceHandler ["prev".toList] ctx' c' = .ok (⟨.success, none⟩, c)

/-- The agreement of the numbers, the names and the keywords on an output. -/
structure Navigates (c : Compositor) (o : OutputRef) : Prop extends c.Numbered o where
  /-- `next` visits the workspaces in the order of their numbers and stays at the last. -/
  next : c.activeOutput = some o → c.IsWorkspaceValid o (c.output o).currentWorkspace → ∀ k,
    ∃ p, c.IsWorkspaceValid o p ∧
      c.workspaceIndex o p
        = min (c.workspaceIndex o (c.output o).currentWorkspace + k) (c.numWorkspaces o) ∧
      repeatWorkspace "next".toList k c = .ok (c.workspaceSwitch p o)

variable {c : Compositor} {o : OutputRef} {p : Point}

/-! ## Numbers -/

lemma searchFits (hsize : c.numWorkspaces o < 2 ^ 31) (index : ℤ) : c.SearchFits o index := by
  intro p hp
  have hmem := (List.takeWhile_sublist _).subset hp
  exact (workspaceIndex_le (mem_gridPoints.mp hmem)).trans_lt hsize

lemma getWorkspaceIndex_of_size (hsize : c.numWorkspaces o < 2 ^ 31)
    (hp : c.IsWorkspaceValid o p) : c.getWorkspaceIndex p o = .ok (c.workspaceIndex o p : ℤ) := by
  rw [getWorkspaceIndex_eq hp, if_pos ((workspaceIndex_le hp).trans_lt hsize)]

/-- The search for the number of a workspace returns the workspace. -/
lemma getWorkspaceAtIndex_workspaceIndex (hsize : c.numWorkspaces o < 2 ^ 31)
    (hp : c.IsWorkspaceValid o p) : c.getWorkspaceAtIndex (c.workspaceIndex o p) o = .ok p := by
  have hle := workspaceIndex_le hp
  have hlt : (c.workspaceIndex o p : ℤ) < 2 ^ 31 := by omega
  obtain ⟨q, hq⟩ := (getWorkspaceAtIndex_ok_iff hlt).mpr (searchFits hsize _)
  rcases getWorkspaceAtIndex_spec hlt hq with ⟨hvalid, heq⟩ | ⟨-, hnone⟩
  · rw [hq, workspaceIndex_injOn hvalid hp (by exact_mod_cast heq)]
  · exact absurd rfl (hnone p hp)

lemma getWorkspaceAtIndex_other (hsize : c.numWorkspaces o < 2 ^ 31) {i : ℤ} (hlt : i < 2 ^ 31)
    (hother : ¬ (1 ≤ i ∧ i ≤ (c.numWorkspaces o : ℤ))) :
    c.getWorkspaceAtIndex i o = .ok invalidWorkspace := by
  obtain ⟨q, hq⟩ := (getWorkspaceAtIndex_ok_iff hlt).mpr (searchFits hsize _)
  rcases getWorkspaceAtIndex_spec hlt hq with ⟨hvalid, heq⟩ | ⟨rfl, -⟩
  · have hpos := workspaceIndex_pos hvalid
    have hle := workspaceIndex_le hvalid
    exact absurd ⟨by omega, by omega⟩ hother
  · exact hq

/-! ## Switching -/

lemma output_workspaceSwitch (ws : Point) :
    (c.workspaceSwitch ws o).output o = { c.output o with currentWorkspace := ws } :=
  Function.update_self _ _ _

lemma isWorkspaceValid_workspaceSwitch (ws : Point) :
    (c.workspaceSwitch ws o).IsWorkspaceValid o p ↔ c.IsWorkspaceValid o p := by
  rw [IsWorkspaceValid, IsWorkspaceValid, output_workspaceSwitch]

lemma workspaceIndex_workspaceSwitch (ws : Point) :
    (c.workspaceSwitch ws o).workspaceIndex o p = c.workspaceIndex o p := by
  rw [workspaceIndex, workspaceIndex, output_workspaceSwitch]

lemma numWorkspaces_workspaceSwitch (ws : Point) :
    (c.workspaceSwitch ws o).numWorkspaces o = c.numWorkspaces o := by
  rw [numWorkspaces, numWorkspaces, output_workspaceSwitch]

lemma workspaceSwitch_workspaceSwitch (ws ws' : Point) :
    (c.workspaceSwitch ws o).workspaceSwitch ws' o = c.workspaceSwitch ws' o := by
  rw [workspaceSwitch, output_workspaceSwitch, workspaceSwitch, workspaceSwitch,
    Function.update_idem]

lemma workspaceSwitch_current : c.workspaceSwitch (c.output o).currentWorkspace o = c := by
  rw [workspaceSwitch, Function.update_eq_self]

/-! ## Keywords -/

lemma workspaceHandler_next (hactive : c.activeOutput = some o) (ctx : CommandHandlerContext) :
    workspaceHandler ["next".toList] ctx c = (do
      let i ← c.getWorkspaceIndex (c.output o).currentWorkspace o
      let ws ← c.workspaceNext i (c.output o).currentWorkspace o
      c.switchIfValid ws (some o)) := by
  have hhandler : workspaceHandler ["next".toList] ctx c =
      c.workspaceByName "next".toList c.activeOutput >>= (c.switchIfValid · c.activeOutput) := rfl
  rw [hhandler, hactive]
  exact bind_assoc _ _ _

lemma workspaceHandler_prev (hactive : c.activeOutput = some o) (ctx : CommandHandlerContext) :
    workspaceHandler ["prev".toList] ctx c = (do
      let i ← c.getWorkspaceIndex (c.output o).currentWorkspace o
      let ws ← c.workspacePrev i (c.output o).currentWorkspace o
      c.switchIfValid ws (some o)) := by
  have hhandler : workspaceHandler ["prev".toList] ctx c =
      c.workspaceByName "prev".toList c.activeOutput >>= (c.switchIfValid · c.activeOutput) := rfl
  rw [hhandler, hactive]
  exact bind_assoc _ _ _

lemma ne_invalidWorkspace (hp : c.IsWorkspaceValid o p) : p ≠ invalidWorkspace := fun h =>
  not_valid_invalidWorkspace (h ▸ hp)

/-- One step of `next`, if the number after the current one is an `int`. -/
lemma next_step (hfits : c.numWorkspaces o < 2 ^ 31) (hactive : c.activeOutput = some o)
    (hcurrent : c.IsWorkspaceValid o (c.output o).currentWorkspace)
    (hafter : c.workspaceIndex o (c.output o).currentWorkspace + 1 < 2 ^ 31)
    (ctx : CommandHandlerContext) :
    ∃ p, c.IsWorkspaceValid o p ∧
      c.workspaceIndex o p
        = min (c.workspaceIndex o (c.output o).currentWorkspace + 1) (c.numWorkspaces o) ∧
      workspaceHandler ["next".toList] ctx c = .ok (⟨.success, none⟩, c.workspaceSwitch p o) := by
  have hle := workspaceIndex_le hcurrent
  rw [workspaceHandler_next hactive, getWorkspaceIndex_of_size hfits hcurrent, Machine.ok_bind,
    workspaceNext, intValue_of_fits (by omega) (by omega), Machine.ok_bind]
  by_cases hlast : c.workspaceIndex o (c.output o).currentWorkspace = c.numWorkspaces o
  · refine ⟨_, hcurrent, by omega, ?_⟩
    rw [getWorkspaceAtIndex_other hfits (by omega) (by omega), Machine.ok_bind]
    exact switchIfValid_of_valid hcurrent
  · obtain ⟨p, hp, hnumber⟩ := exists_workspaceIndex (c := c) (o := o)
      (i := c.workspaceIndex o (c.output o).currentWorkspace + 1) (by omega) (by omega)
    have hfound := getWorkspaceAtIndex_workspaceIndex hfits hp
    rw [hnumber, Nat.cast_add, Nat.cast_one] at hfound
    refine ⟨p, hp, by omega, ?_⟩
    rw [hfound, Machine.ok_bind, if_pos (ne_invalidWorkspace hp)]
    exact switchIfValid_of_valid hp

/-- Some steps of `next`. -/
lemma next_run (k : ℕ) : ∀ {c : Compositor}, c.numWorkspaces o + 1 < 2 ^ 31 →
    c.activeOutput = some o → c.IsWorkspaceValid o (c.output o).currentWorkspace →
    ∃ p, c.IsWorkspaceValid o p ∧
      c.workspaceIndex o p
        = min (c.workspaceIndex o (c.output o).currentWorkspace + k) (c.numWorkspaces o) ∧
      repeatWorkspace "next".toList k c = .ok (c.workspaceSwitch p o) := by
  induction k with
  | zero =>
    intro c _ _ hcurrent
    have hle := workspaceIndex_le hcurrent
    exact ⟨_, hcurrent, by omega, by rw [workspaceSwitch_current]; rfl⟩
  | succ k ih =>
    intro c hsize hactive hcurrent
    have hle := workspaceIndex_le hcurrent
    obtain ⟨q, hq, hnumber, hstep⟩ := next_step (by omega) hactive hcurrent (by omega) {}
    obtain ⟨p, hp, hindex, hrun⟩ := ih (c := c.workspaceSwitch q o)
      (by rwa [numWorkspaces_workspaceSwitch]) hactive
      (by rwa [isWorkspaceValid_workspaceSwitch, output_workspaceSwitch])
    rw [workspaceIndex_workspaceSwitch, workspaceIndex_workspaceSwitch, output_workspaceSwitch,
      numWorkspaces_workspaceSwitch, hnumber] at hindex
    refine ⟨p, (isWorkspaceValid_workspaceSwitch _).mp hp, by omega, ?_⟩
    rw [repeatWorkspace, hstep, Machine.ok_bind]
    simp only
    rw [hrun, workspaceSwitch_workspaceSwitch]

/-- `prev` goes back to the workspace with the number before. -/
lemma prev_step (hsize : c.numWorkspaces o < 2 ^ 31) (hactive : c.activeOutput = some o)
    (hcurrent : c.IsWorkspaceValid o (c.output o).currentWorkspace) (hp : c.IsWorkspaceValid o p)
    (hnumber : c.workspaceIndex o (c.output o).currentWorkspace = c.workspaceIndex o p + 1)
    (ctx : CommandHandlerContext) :
    workspaceHandler ["prev".toList] ctx c = .ok (⟨.success, none⟩, c.workspaceSwitch p o) := by
  have hle := workspaceIndex_le hcurrent
  have hbefore : (c.workspaceIndex o (c.output o).currentWorkspace : ℤ) - 1
      = c.workspaceIndex o p := by omega
  rw [workspaceHandler_prev hactive, getWorkspaceIndex_of_size hsize hcurrent, Machine.ok_bind,
    workspacePrev, hbefore, intValue_of_fits (by omega) (by omega), Machine.ok_bind,
    getWorkspaceAtIndex_workspaceIndex hsize hp, Machine.ok_bind, if_pos (ne_invalidWorkspace hp)]
  exact switchIfValid_of_valid hp

lemma prev_undoes_next (hsize : c.numWorkspaces o < 2 ^ 31) (hactive : c.activeOutput = some o)
    (hcurrent : c.IsWorkspaceValid o (c.output o).currentWorkspace)
    (hlast : c.workspaceIndex o (c.output o).currentWorkspace < c.numWorkspaces o)
    (ctx ctx' : CommandHandlerContext) :
    ∃ c', workspaceHandler ["next".toList] ctx c = .ok (⟨.success, none⟩, c') ∧
      workspaceHandler ["prev".toList] ctx' c' = .ok (⟨.success, none⟩, c) := by
  obtain ⟨p, hp, hnumber, hnext⟩ := next_step hsize hactive hcurrent (by omega) ctx
  refine ⟨_, hnext, ?_⟩
  rw [prev_step (c := c.workspaceSwitch p o) (p := (c.output o).currentWorkspace)
    (by rw [numWorkspaces_workspaceSwitch]; omega) hactive
    (by rwa [isWorkspaceValid_workspaceSwitch, output_workspaceSwitch])
    ((isWorkspaceValid_workspaceSwitch _).mpr hcurrent) ?_, workspaceSwitch_workspaceSwitch,
    workspaceSwitch_current]
  rw [workspaceIndex_workspaceSwitch, workspaceIndex_workspaceSwitch, output_workspaceSwitch]
  show c.workspaceIndex o p = c.workspaceIndex o (c.output o).currentWorkspace + 1
  omega

/-! ## Names -/

end Compositor

lemma stoi_toString10 {i : ℕ} (hi : i < 2 ^ 31) : stoi (toString10 i) = .ok (.ofInt i) := by
  have hnum : numeral (toString10 i) = some (false, toString10 i, []) :=
    numeral_of_digits Nat.toDigits_ne_nil fun ch hch => isDigit_of_mem_toString10 hch
  have hvalue : Nat.ofDigitChars 10 (toString10 i) 0 = i := Nat.ofDigitChars_ten_toDigits
  simp only [stoi, hnum, hvalue, Bool.false_eq_true, if_false]
  rw [if_pos (by omega)]

/-- A numeral is no keyword. -/
lemma eqIgnoringCase_toString10 {i : ℕ} {t : Str} (ht : t.head?.any Char.isDigit = false) :
    eqIgnoringCase (toString10 i) t = false := by
  refine decide_eq_false fun hmap => ?_
  have hself : (toString10 i).map Char.toLower = toString10 i :=
    (List.map_congr_left fun ch hch => toLower_of_isDigit (isDigit_of_mem_toString10 hch)).trans
      (List.map_id _)
  obtain ⟨ch, rest, hcons⟩ := List.exists_cons_of_ne_nil (Nat.toDigits_ne_nil (n := i) (b := 10))
  have hhead : t.head? = some ch := by
    rw [← hmap, hself, toString10, hcons]
    rfl
  have hdigit : ch.isDigit = true :=
    isDigit_of_mem_toString10 (i := i) (by rw [toString10, hcons]; simp)
  rw [hhead, Option.any_some, hdigit] at ht
  cases ht

namespace Compositor

variable {c : Compositor} {o : OutputRef} {p : Point}

/-- `workspace` with the number of a workspace switches to it. -/
lemma workspaceHandler_number (hsize : c.numWorkspaces o < 2 ^ 31)
    (hactive : c.activeOutput = some o) (hp : c.IsWorkspaceValid o p)
    (ctx : CommandHandlerContext) :
    workspaceHandler [toString10 (c.workspaceIndex o p)] ctx c
      = .ok (⟨.success, none⟩, c.workspaceSwitch p o) := by
  have hlt := (workspaceIndex_le hp).trans_lt hsize
  have hkey : (workspaceKeywords.any fun t =>
      eqIgnoringCase (toString10 (c.workspaceIndex o p)) t) = false := by
    refine List.any_eq_false.mpr fun t ht => ?_
    have hletter : ∀ t ∈ workspaceKeywords, t.head?.any Char.isDigit = false := by decide
    rw [eqIgnoringCase_toString10 (hletter t ht)]
    nofun
  have hjoin : joinArgs [toString10 (c.workspaceIndex o p)]
      = toString10 (c.workspaceIndex o p) := by
    simp [joinArgs, List.intercalate]
  have hback : eqIgnoringCase (joinArgs [toString10 (c.workspaceIndex o p)])
      "back_and_forth".toList = false := by
    rw [hjoin]
    exact eqIgnoringCase_toString10 (by decide)
  have hname := workspaceByName_of_not_keyword (c := c) (o := o)
    (joinArgs_not_keyword (List.cons_ne_nil (toString10 (c.workspaceIndex o p)) []) hkey) hback
  have hnumber : eqIgnoringCase (toString10 (c.workspaceIndex o p)) "number".toList = false :=
    eqIgnoringCase_toString10 (by decide)
  have hcheck : IpcCommand.checkarg 1 "workspace".toList .atLeast 1 = none := rfl
  rw [workspaceHandler]
  simp only [List.length_singleton, hcheck, List.headD_cons, hnumber, hkey, hactive,
    Bool.false_eq_true, if_false]
  rw [hname, hjoin, stoi_toString10 hlt, Machine.ok_bind, toInt_ofInt_of_lt hlt, workspaceByNumber,
    getWorkspaceAtIndex_workspaceIndex hsize hp, Machine.ok_bind, switchIfValid_of_valid hp]

/-- The name that `describe_workspace` reports is the number. -/
lemma describeWorkspace_name (hp : c.IsWorkspaceValid o p) {node : Node}
    (h : c.describeWorkspace p o = .ok node) :
    node.attr.name = toString10 (c.workspaceIndex o p) := by
  rw [describeWorkspace, getWorkspaceIndex_eq hp] at h
  obtain ⟨i, hi, h⟩ := Machine.bind_ok_iff.mp h
  obtain ⟨id, -, h⟩ := Machine.bind_ok_iff.mp h
  split at hi
  · cases hi
    cases h
    rfl
  · cases hi

lemma numbered (hsize : c.numWorkspaces o < 2 ^ 31) : c.Numbered o := by
  constructor
  case index =>
    intro p hp
    have hpos := workspaceIndex_pos hp
    have hle := workspaceIndex_le hp
    exact ⟨c.workspaceIndex o p, by omega, by omega, getWorkspaceIndex_of_size hsize hp,
      getWorkspaceAtIndex_workspaceIndex hsize hp⟩
  case at_index =>
    intro i hpos hle
    obtain ⟨n, rfl⟩ := Int.eq_ofNat_of_zero_le (by omega : 0 ≤ i)
    obtain ⟨p, hp, rfl⟩ := exists_workspaceIndex (c := c) (o := o) (i := n) (by omega) (by omega)
    exact ⟨p, hp, getWorkspaceAtIndex_workspaceIndex hsize hp, getWorkspaceIndex_of_size hsize hp⟩
  case other => exact fun i _ hlt hother => getWorkspaceAtIndex_other hsize hlt hother
  case name =>
    intro hactive p node hnode ctx
    have hp : c.IsWorkspaceValid o p := by
      by_contra hnot
      rw [describeWorkspace, getWorkspaceIndex, if_pos hnot] at hnode
      cases hnode
    rw [describeWorkspace_name hp hnode, workspaceHandler_number hsize hactive hp]
  case prev =>
    exact fun hactive hcurrent hlast ctx ctx' =>
      prev_undoes_next hsize hactive hcurrent hlast ctx ctx'

/-- On every grid the numbers, the names and `prev` agree; on one whose size is below the greatest
`int`, `next` does, too. -/
theorem navigates (hsize : c.numWorkspaces o < 2 ^ 31) :
    c.Numbered o ∧ (c.numWorkspaces o + 1 < 2 ^ 31 → c.Navigates o) :=
  ⟨numbered hsize, fun hlast => ⟨numbered hsize, fun hactive hcurrent k =>
    next_run k hlast hactive hcurrent⟩⟩

theorem twoWorkspaces_navigates : twoWorkspaces.Navigates 0 :=
  (navigates (by decide)).2 (by decide)

/-- On the last workspace of the largest grid the number after it is no `int`. -/
theorem largestGrid_not_navigates :
    ¬ ∀ (c : Compositor) (o : OutputRef), c.numWorkspaces o < 2 ^ 31 → c.Navigates o := by
  intro h
  let c := Compositor.flat [⟨1, "A".toList, 1, 2 ^ 31 - 1, ⟨0, 2 ^ 31 - 2⟩⟩] [] none
  have hsize : c.numWorkspaces 0 < 2 ^ 31 := by decide
  have hcurrent : c.IsWorkspaceValid 0 (c.output 0).currentWorkspace := by decide
  obtain ⟨p, -, -, hrun⟩ := (h c 0 hsize).next rfl hcurrent 1
  have hlast : c.workspaceIndex 0 (c.output 0).currentWorkspace = 2 ^ 31 - 1 := by decide
  rw [repeatWorkspace, workspaceHandler_next rfl, getWorkspaceIndex_of_size hsize hcurrent,
    Machine.ok_bind, hlast] at hrun
  cases hrun

end Compositor
end WayfireIpc
