/-
# The containers that criteria select

`get_containers` walks the tree and keeps the nodes that match: `matches_view` tests the
nodes of views, `matches_container` tests the others.
-/
import WayfireIpc.Command.Criteria

namespace WayfireIpc

mutual

/-- `node_for_each_matched_container`: the workspaces and the nodes with a shell, a node
before its children. -/
def Node.containers : Node → List Node
  | .mk attr nodes floatingNodes =>
    (if attr.type = .workspace ∨ attr.shell ≠ none then [.mk attr nodes floatingNodes] else [])
      ++ containersOfList nodes ++ containersOfList floatingNodes

/-- The loops of `node_for_each_matched_container` over the children. -/
def containersOfList : List Node → List Node
  | [] => []
  | node :: nodes => node.containers ++ containersOfList nodes

end

/-- The loop that `set_config_node` and `matches_view` run over all views: each toplevel view
with an id other than the given one overwrites the workspace with its own. -/
def Compositor.otherViewsWorkspace (c : Compositor) (id : UInt32) : Except Failure (Option Node) :=
  c.allViews.foldlM (fun workspace v =>
    if id ≠ (c.view v).id ∧ (c.view v).isToplevel then
      match (c.view v).output with
      | none => .error .nullPointer
      | some o => some <$> c.describeWorkspace (c.mainWorkspace o v) o
    else .ok workspace) none

namespace Criteria

variable (W : Library) (c : Compositor)

/-- The test of a text against a pattern; `onFocused` is the result for `__focused__`. -/
def matchesPattern (pattern : Pattern) (text : Str) (onFocused : Bool) : Bool :=
  match pattern with
  | .focused => onFocused
  | .pcre2 value => W.isMatch value (cStr text)

/-- The text equals that of the focused view, or no view is focused. -/
def eqFocused (text : Str) (ofFocused : View → Str) : Bool :=
  c.focused.all fun focused => cStr text = cStr (ofFocused (c.view focused))

def matchesTitle (view : Node) (pattern : Pattern) : Bool :=
  matchesPattern W pattern view.attr.name (eqFocused c view.attr.name View.title)

def matchesShell (view : Node) (pattern : Pattern) : Bool :=
  let viewShell := view.attr.shell.getD []
  -- no description of a focused view, no match
  matchesPattern W pattern viewShell
    (((c.focused.bind c.describeView).bind fun focused => focused.attr.shell).any fun focusedShell =>
      cStr viewShell = cStr focusedShell)

def matchesAppId (view : Node) (pattern : Pattern) : Bool :=
  let appId := view.attr.appId.getD []
  matchesPattern W pattern appId (eqFocused c appId View.appId)

/-- `has_container`. -/
def hasContainer (ks : Criteria) : Bool := ks.conId ≠ 0

/-- `matches_container`; marks are not supported. -/
def matchesContainer (ks : Criteria) (container : Node) : Bool :=
  ks.conId = 0 || container.id.toUInt32 = ks.conId

/-- The comparison of focus timestamps, of which each result but 0 counts as true. -/
def cmpUrgent (a b : ViewRef) : Bool := (c.view a).focusTimestamp ≠ (c.view b).focusTimestamp

def matchesUrgent (view : Node) (order : UrgentOrder) : Except Failure Bool :=
  if view.attr.urgent ≠ .bool true then .ok false
  else
    let urgentViews := c.allViews.filter fun v =>
      (c.describeView v).any fun node => node.attr.urgent = .bool true
    let urgentViews := W.sort (cmpUrgent c) urgentViews
    let urgentTarget := match order with
      | .oldest => urgentViews.head?
      | .latest => urgentViews.getLast?
    match urgentTarget with
    | none => .error .outOfBounds
    | some target => .ok (view.id.toUInt32 = (c.view target).id)

def matchesWorkspace (view : Node) (pattern : Pattern) : Except Failure Bool := do
  match ← c.otherViewsWorkspace view.id.toUInt32 with
  | none => return false
  | some workspace =>
    let name := workspace.attr.name
    match pattern with
    | .pcre2 value => return W.isMatch value (cStr name)
    | .focused =>
      match c.focused with
      | none => return true
      | some focused =>
        if ¬ (c.view focused).isToplevel then return false
        else
          match (c.view focused).output with
          | none => .error .nullPointer
          | some o =>
            let focusedWorkspace ← c.describeWorkspace (c.mainWorkspace o focused) o
            return cStr name = cStr focusedWorkspace.attr.name

def matchesPid (ks : Criteria) (view : Node) : Bool :=
  ks.pid = 0 || ks.pid = view.attr.pid.getD 0

/-- The tests of `matches_view` up to that of `tiling`, which is not supported. -/
def matchesMembers (ks : Criteria) (view : Node) : Bool :=
  ks.title.all (matchesTitle W c view) && ks.shell.all (matchesShell W c view)
    && ks.appId.all (matchesAppId W c view) && ks.matchesContainer view
    && (!ks.floating || view.attr.type = .floatingCon) && !ks.tiling

/-- The test of `urgent`, if it is set. -/
def testUrgent (ks : Criteria) (view : Node) : Except Failure Bool :=
  match ks.urgent with
  | none => .ok true
  | some order => matchesUrgent W c view order

/-- The test of `workspace`, if it is set. -/
def testWorkspace (ks : Criteria) (view : Node) : Except Failure Bool :=
  match ks.workspace with
  | none => .ok true
  | some pattern => matchesWorkspace W c view pattern

/-- `matches_view`. -/
def matchesView (ks : Criteria) (view : Node) : Except Failure Bool :=
  if ks.matchesMembers W c view then do
    let urgent ← ks.testUrgent W c view
    if urgent then
      let workspace ← ks.testWorkspace W c view
      return workspace && ks.matchesPid view
    else return false
  else .ok false

/-- The test of `get_containers` on a container. -/
def matchesNode (ks : Criteria) (container : Node) : Except Failure Bool :=
  if container.attr.type = .con ∨ container.attr.type = .floatingCon then
    ks.matchesView W c container
  else .ok (ks.hasContainer && ks.matchesContainer container)

/-- The loop of `get_containers`. -/
def matchesOf (ks : Criteria) : List Node → Except Failure (List Node)
  | [] => .ok []
  | container :: containers => do
    let isMatch ← ks.matchesNode W c container
    let rest ← matchesOf ks containers
    return if isMatch then container :: rest else rest

/-- The containers of a tree, `root`, that `get_containers` returns. -/
def getContainersFrom (ks : Criteria) (root : Option Node) : Except Failure (List Node) :=
  ks.matchesOf W c (root.elim [] Node.containers)

/-- `get_containers`. -/
def getContainers (ks : Criteria) : Except Failure (List Node) := do
  let root ← c.getTree
  ks.getContainersFrom W c root

variable {W c}

/-- The loop keeps the containers that match, in their order. -/
lemma matchesOf_spec {ks : Criteria} : ∀ {containers ms : List Node},
    ks.matchesOf W c containers = .ok ms →
      ms.Sublist containers ∧ ∀ m ∈ ms, ks.matchesNode W c m = .ok true := by
  intro containers
  induction containers with
  | nil =>
    intro ms h
    cases h
    exact ⟨List.Sublist.refl _, by simp⟩
  | cons container containers ih =>
    intro ms h
    obtain ⟨b, hb, h⟩ := Machine.bind_ok_iff.mp h
    obtain ⟨rest, hrest, h⟩ := Machine.bind_ok_iff.mp h
    obtain ⟨hsub, hmatch⟩ := ih hrest
    cases b with
    | false =>
      cases h
      exact ⟨hsub.cons _, hmatch⟩
    | true =>
      cases h
      refine ⟨hsub.cons_cons _, ?_⟩
      rintro m (_ | ⟨_, hm⟩)
      · exact hb
      · exact hmatch m hm

/-- The containers that the loop keeps are those that match. -/
lemma mem_matchesOf {ks : Criteria} {m : Node} : ∀ {containers ms : List Node},
    ks.matchesOf W c containers = .ok ms →
      (m ∈ ms ↔ m ∈ containers ∧ ks.matchesNode W c m = .ok true) := by
  intro containers
  induction containers with
  | nil =>
    intro ms h
    cases h
    simp
  | cons container containers ih =>
    intro ms h
    obtain ⟨b, hb, h⟩ := Machine.bind_ok_iff.mp h
    obtain ⟨rest, hrest, h⟩ := Machine.bind_ok_iff.mp h
    have hmem := ih hrest
    cases b with
    | false =>
      cases h
      have hne : ks.matchesNode W c m = .ok true → m ≠ container := by
        rintro hm rfl
        cases hm.symm.trans hb
      simp only [Bool.false_eq_true, if_false, hmem, List.mem_cons]
      exact and_congr_left fun hm => (or_iff_right (hne hm)).symm
    | true =>
      cases h
      simp only [if_true, hmem, List.mem_cons]
      constructor
      · rintro (rfl | ⟨hm, hmatch⟩)
        · exact ⟨Or.inl rfl, hb⟩
        · exact ⟨Or.inr hm, hmatch⟩
      · rintro ⟨rfl | hm, hmatch⟩
        · exact Or.inl rfl
        · exact Or.inr ⟨hm, hmatch⟩

end Criteria
end WayfireIpc
