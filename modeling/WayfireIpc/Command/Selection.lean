/-
# What the selected containers satisfy

Which constraints of a criteria object hold of the containers that `get_containers` returns.
A mark is passed over, and so is `__focused__` as a title or an app id while no view is focused;
for the workspace of a view that of another view is taken; and nodes other than views are tested
for their id only.
-/
import WayfireIpc.Command.Containers

namespace WayfireIpc
namespace Criteria

/-- A text matches a pattern; `ofFocused` is the text of the focused view. -/
def PatternHolds (W : Library) (pattern : Pattern) (text : Str) (ofFocused : Option Str) : Prop :=
  match pattern with
  | .pcre2 value => W.isMatch value (cStr text) = true
  | .focused => ∃ t, ofFocused = some t ∧ cStr text = cStr t

/-- The name of the workspace that a node stands on. -/
def ownWorkspace (c : Compositor) (m : Node) : Option Str :=
  match m.entity with
  | .view v => do
    let o ← (c.view v).output
    let workspace ← (c.describeWorkspace (c.mainWorkspace o v) o).toOption
    return workspace.attr.name
  | _ => some m.attr.name

/-- Every constraint that is set holds of the node. -/
structure Satisfies (W : Library) (c : Compositor) (ks : Criteria) (m : Node) : Prop where
  title : ∀ p ∈ ks.title, PatternHolds W p m.attr.name (c.focused.map fun f => (c.view f).title)
  shell : ∀ p ∈ ks.shell, PatternHolds W p (m.attr.shell.getD [])
    ((c.focused.bind c.describeView).bind fun f => f.attr.shell)
  app_id : ∀ p ∈ ks.appId, PatternHolds W p (m.attr.appId.getD [])
    (c.focused.map fun f => (c.view f).appId)
  /-- No node has a mark. -/
  con_mark : ks.conMark = none
  con_id : ks.conId ≠ 0 → m.id.toUInt32 = ks.conId
  floating : ks.floating = true → m.attr.type = .floatingCon
  tiling : ks.tiling = true → m.attr.type = .con
  workspace : ∀ p ∈ ks.workspace, ∃ name, ownWorkspace c m = some name ∧ PatternHolds W p name
    (c.focused.bind fun f => (c.describeView f).bind (ownWorkspace c))
  pid : ks.pid ≠ 0 → m.attr.pid = some ks.pid

/-- What holds of a view that `matches_view` lets through. -/
structure Selected (W : Library) (c : Compositor) (ks : Criteria) (m : Node) : Prop where
  title : ∀ p ∈ ks.title, (p = .focused ∧ c.focused = none) ∨
    PatternHolds W p m.attr.name (c.focused.map fun f => (c.view f).title)
  shell : ∀ p ∈ ks.shell, PatternHolds W p (m.attr.shell.getD [])
    ((c.focused.bind c.describeView).bind fun f => f.attr.shell)
  app_id : ∀ p ∈ ks.appId, (p = .focused ∧ c.focused = none) ∨
    PatternHolds W p (m.attr.appId.getD []) (c.focused.map fun f => (c.view f).appId)
  con_id : ks.conId ≠ 0 → m.id.toUInt32 = ks.conId
  floating : ks.floating = true → m.attr.type = .floatingCon
  tiling : ks.tiling = false
  pid : ks.pid ≠ 0 → m.attr.pid = some ks.pid

/-- What `matches_view` does not test of a view, or not as it is meant. -/
structure UntestedHolds (W : Library) (c : Compositor) (ks : Criteria) (m : Node) : Prop where
  con_mark : ks.conMark = none
  title : ks.title = some .focused → c.focused ≠ none
  app_id : ks.appId = some .focused → c.focused ≠ none
  workspace : ∀ p ∈ ks.workspace, ∃ name, ownWorkspace c m = some name ∧ PatternHolds W p name
    (c.focused.bind fun f => (c.describeView f).bind (ownWorkspace c))

variable {W : Library} {c : Compositor} {ks : Criteria} {m : Node}

lemma matchesPattern_eqFocused {p : Pattern} {text : Str} {ofFocused : View → Str}
    (h : matchesPattern W p text (eqFocused c text ofFocused) = true) :
    (p = .focused ∧ c.focused = none) ∨
      PatternHolds W p text (c.focused.map fun f => ofFocused (c.view f)) := by
  cases p with
  | pcre2 value => exact Or.inr h
  | focused =>
    change eqFocused c text ofFocused = true at h
    rw [eqFocused] at h
    cases hf : c.focused with
    | none => exact Or.inl ⟨rfl, rfl⟩
    | some f =>
      rw [hf, Option.all_some, decide_eq_true_eq] at h
      exact Or.inr ⟨_, rfl, h⟩

lemma matchesContainer_iff : ks.matchesContainer m = true ↔
    (ks.conId ≠ 0 → m.id.toUInt32 = ks.conId) := by
  rw [matchesContainer, Bool.or_eq_true, decide_eq_true_eq, decide_eq_true_eq, or_iff_not_imp_left]

lemma matchesPid_iff : ks.matchesPid m = true ↔ (ks.pid ≠ 0 → m.attr.pid = some ks.pid) := by
  rw [matchesPid, Bool.or_eq_true, decide_eq_true_eq, decide_eq_true_eq, or_iff_not_imp_left]
  refine imp_congr_right fun hpid => ?_
  cases m.attr.pid with
  | none => simp [hpid]
  | some pid => simp [eq_comm]

lemma matchesShell_holds {p : Pattern} (h : matchesShell W c m p = true) :
    PatternHolds W p (m.attr.shell.getD [])
      ((c.focused.bind c.describeView).bind fun f => f.attr.shell) := by
  cases p with
  | pcre2 value => exact h
  | focused =>
    obtain ⟨t, ht, heq⟩ := (Option.any_eq_true _ _).mp h
    exact ⟨t, ht, of_decide_eq_true heq⟩

/-- What `matches_view` has tested when it says that a view matches. -/
lemma selected_of_matchesView (h : ks.matchesView W c m = .ok true) : Selected W c ks m := by
  rw [matchesView] at h
  split at h
  · next hmembers =>
    obtain ⟨urgent, -, h⟩ := Machine.bind_ok_iff.mp h
    cases urgent with
    | false => cases h
    | true =>
      obtain ⟨workspace, -, h⟩ := Machine.bind_ok_iff.mp h
      have hboth := Except.ok.inj h
      rw [Bool.and_eq_true] at hboth
      rw [matchesMembers] at hmembers
      simp only [Bool.and_eq_true, Option.all_eq_true, Bool.or_eq_true, Bool.not_eq_true',
        decide_eq_true_eq] at hmembers
      obtain ⟨⟨⟨⟨⟨htitle, hshell⟩, happId⟩, hcontainer⟩, hfloating⟩, htiling⟩ := hmembers
      exact {
        title := fun p hp => matchesPattern_eqFocused (htitle p hp)
        shell := fun p hp => matchesShell_holds (hshell p hp)
        app_id := fun p hp => matchesPattern_eqFocused (happId p hp)
        con_id := matchesContainer_iff.mp hcontainer
        floating := fun hf => hfloating.resolve_left (by simp [hf])
        tiling := htiling
        pid := matchesPid_iff.mp hboth.2 }
  · cases h

/-- In every tree the containers that `get_containers` returns have been tested: the views for
all the constraints that are supported, the other nodes for the id, which must be set. -/
theorem getContainersFrom_selected (W : Library) (c : Compositor) (ks : Criteria)
    (root : Option Node) (ms : List Node) (h : ks.getContainersFrom W c root = .ok ms) :
    ∀ m ∈ ms, if m.attr.type = .con ∨ m.attr.type = .floatingCon then Selected W c ks m
      else ks.conId ≠ 0 ∧ m.id.toUInt32 = ks.conId := by
  intro m hm
  have hmatch := (matchesOf_spec h).2 m hm
  rw [matchesNode] at hmatch
  split_ifs at hmatch ⊢
  · exact selected_of_matchesView hmatch
  · have hboth := Except.ok.inj hmatch
    rw [Bool.and_eq_true, hasContainer, decide_eq_true_eq] at hboth
    exact ⟨hboth.1, matchesContainer_iff.mp hboth.2 hboth.1⟩

/-- What is tested of a view and what is not make up the constraints. -/
lemma Selected.satisfies_iff (h : Selected W c ks m) :
    Satisfies W c ks m ↔ UntestedHolds W c ks m := by
  have hfocused : ∀ {ofFocused : View → Str} {text : Str},
      PatternHolds W .focused text (c.focused.map fun f => ofFocused (c.view f)) →
        c.focused ≠ none := by
    rintro ofFocused text ⟨t, ht, -⟩ hnone
    rw [hnone] at ht
    cases ht
  constructor
  · intro hall
    exact {
      con_mark := hall.con_mark
      title := fun hp => hfocused (hall.title _ hp)
      app_id := fun hp => hfocused (hall.app_id _ hp)
      workspace := hall.workspace }
  · intro hrest
    exact {
      title := fun p hp => (h.title p hp).resolve_left fun ⟨hf, hnone⟩ =>
        hrest.title (hf ▸ hp) hnone
      shell := h.shell
      app_id := fun p hp => (h.app_id p hp).resolve_left fun ⟨hf, hnone⟩ =>
        hrest.app_id (hf ▸ hp) hnone
      con_mark := hrest.con_mark
      con_id := h.con_id
      floating := h.floating
      tiling := fun ht => absurd ht (by simp [h.tiling])
      workspace := hrest.workspace
      pid := h.pid }

/-- A node with the id satisfies the constraints if it satisfies the other ones. -/
lemma satisfies_iff_of_id (hid : m.id.toUInt32 = ks.conId) :
    Satisfies W c ks m ↔ Satisfies W c { ks with conId := 0 } m := by
  constructor
  · rintro ⟨htitle, hshell, happId, hmark, -, hfloating, htiling, hworkspace, hpid⟩
    exact ⟨htitle, hshell, happId, hmark, fun h => absurd rfl h, hfloating, htiling, hworkspace, hpid⟩
  · rintro ⟨htitle, hshell, happId, hmark, -, hfloating, htiling, hworkspace, hpid⟩
    exact ⟨htitle, hshell, happId, hmark, fun _ => hid, hfloating, htiling, hworkspace, hpid⟩

/-- The containers that `get_containers` returns satisfy every constraint that is set if and only if
in the tree each view that passes `matches_view` meets what is not tested of it, and each other node
with the id that is asked for meets the other constraints. -/
theorem getContainersFrom_satisfies_iff (W : Library) (c : Compositor) (ks : Criteria)
    (root : Option Node) (ms : List Node) (h : ks.getContainersFrom W c root = .ok ms) :
    (∀ m ∈ ms, Satisfies W c ks m) ↔ ∀ m ∈ root.elim [] Node.containers,
      if m.attr.type = .con ∨ m.attr.type = .floatingCon then
        ks.matchesView W c m = .ok true → UntestedHolds W c ks m
      else ks.conId ≠ 0 → m.id.toUInt32 = ks.conId → Satisfies W c { ks with conId := 0 } m := by
  have hmem : ∀ m, m ∈ ms ↔ m ∈ root.elim [] Node.containers ∧ ks.matchesNode W c m = .ok true :=
    fun m => mem_matchesOf h
  have hselected := getContainersFrom_selected W c ks root ms h
  constructor
  · intro hall m hm
    split_ifs with htype
    · intro hview
      have hms : m ∈ ms := (hmem m).mpr ⟨hm, by rw [matchesNode, if_pos htype, hview]⟩
      have hsel := hselected m hms
      rw [if_pos htype] at hsel
      exact hsel.satisfies_iff.mp (hall m hms)
    · intro hid hm'
      have hmatch : ks.matchesNode W c m = .ok true := by
        rw [matchesNode, if_neg htype, hasContainer, decide_eq_true hid,
          matchesContainer_iff.mpr fun _ => hm', Bool.true_and]
      exact (satisfies_iff_of_id hm').mp (hall m ((hmem m).mpr ⟨hm, hmatch⟩))
  · intro hall m hm
    obtain ⟨htree, hmatch⟩ := (hmem m).mp hm
    have hsel := hselected m hm
    have hrest := hall m htree
    split_ifs at hsel hrest with htype
    · rw [matchesNode, if_pos htype] at hmatch
      exact hsel.satisfies_iff.mpr (hrest hmatch)
    · exact (satisfies_iff_of_id hsel.2).mpr (hrest hsel.1 hsel.2)

/-- A compositor with one window, and a library in which a pattern matches the equal text. -/
def oneWindow : Compositor :=
  .flat [⟨1, [], 1, 1, ⟨0, 0⟩⟩] [.toplevelOn 7 0 .workspace] none

def equalTexts : Library := ⟨fun _ => none, fun value text => value = text, fun _ l => l⟩

/-- By its id the window is selected rightly. -/
theorem oneWindow_satisfies :
    ∃ ms, getContainersFrom equalTexts oneWindow { conId := 7 } (oneWindow.getTree.toOption.bind id)
      = .ok ms ∧ ms.map Node.id = [7] ∧ ∀ m ∈ ms, Satisfies equalTexts oneWindow { conId := 7 } m := by
  have hids : (getContainersFrom equalTexts oneWindow { conId := 7 }
      (oneWindow.getTree.toOption.bind id)).map (List.map Node.id) = .ok [7] := by decide +kernel
  obtain ⟨ms, hget, hms⟩ := Machine.map_ok_iff.mp hids
  refine ⟨ms, hget, hms, ?_⟩
  refine (getContainersFrom_satisfies_iff equalTexts oneWindow { conId := 7 } _ ms hget).mpr ?_
  intro m _
  split_ifs
  · exact fun _ => ⟨rfl, nofun, nofun, nofun⟩
  · exact fun _ _ => ⟨nofun, nofun, nofun, rfl, fun h => absurd rfl h, nofun, nofun, nofun,
      fun h => absurd rfl h⟩

/-- A criteria object with a mark selects a window, which has no marks. -/
theorem conMark_selects : ¬ ∀ (ms : List Node), getContainers equalTexts oneWindow
    { conMark := some (.pcre2 "x".toList) } = .ok ms → ∀ m ∈ ms, Satisfies equalTexts oneWindow
      { conMark := some (.pcre2 "x".toList) } m := by
  intro h
  have hids : (getContainers equalTexts oneWindow { conMark := some (.pcre2 "x".toList) }).map
      (List.map Node.id) = .ok [7] := by decide +kernel
  obtain ⟨ms, hget, hms⟩ := Machine.map_ok_iff.mp hids
  cases ms with
  | nil => cases hms
  | cons m ms => exact absurd (h _ hget m List.mem_cons_self).con_mark (by simp)

end Criteria
end WayfireIpc
