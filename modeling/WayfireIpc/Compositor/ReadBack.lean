/-
# Reading the tree back

The members that the commands use of a node can be read from its document: the answer to GET_TREE
tells all that the tree of nodes does, but for what a node describes.
-/
import WayfireIpc.Compositor.Documents
import WayfireIpc.Compositor.Ids

namespace WayfireIpc

namespace Json

/-- A member of an object, or null. -/
def member (v : Json) (key : String) : Json :=
  match v with
  | .obj members => (members.lookup key).getD .null
  | _ => .null

/-- The elements of a member that is an array. -/
def memberElements (v : Json) (key : String) : List Json := (v.member key).elements

lemma sizeOf_memberElements {v x : Json} {key : String} (h : x ∈ v.memberElements key) :
    sizeOf x < sizeOf v := by
  rcases v with _ | _ | _ | _ | _ | _ | members
  all_goals try exact absurd h List.not_mem_nil
  rw [memberElements, member] at h
  rcases hlookup : members.lookup key with _ | m
  · rw [hlookup] at h
    exact absurd h List.not_mem_nil
  · rw [hlookup, Option.getD_some] at h
    have hmem : (key, m) ∈ members := by
      obtain ⟨l₁, l₂, rfl, -⟩ := List.lookup_eq_some_iff.mp hlookup
      simp
    rcases m with _ | _ | _ | _ | _ | xs | _
    all_goals try exact absurd h List.not_mem_nil
    have hx : sizeOf x < sizeOf xs := List.sizeOf_lt_of_mem h
    have hm := List.sizeOf_lt_of_mem hmem
    simp only [Prod.mk.sizeOf_spec, Json.arr.sizeOf_spec, Json.obj.sizeOf_spec] at hm ⊢
    omega

@[simp] lemma member_object (as : List (String × Json)) (key : String) :
    (object as).member key = (Members.last key as).getD .null := by
  have hlookup := Members.lookup_setAll key as []
  rw [List.lookup_nil, Option.or_none] at hlookup
  rw [object, member, hlookup]

/-! ## Values -/

def readInt : Json → Option Int32
  | .int i => some (.ofInt i)
  | _ => none

def readString : Json → Option Str
  | .str s => some s.toList
  | _ => none

def readBool : Json → Option Bool
  | .bool b => some b
  | _ => none

def readUrgent : Json → Option Urgent
  | .bool b => some (.bool b)
  | .int n => some (.number n.toNat)
  | _ => none

def readFocus : Json → Option (List Int32)
  | .arr ids => ids.mapM readInt
  | _ => none

/-- A null stands for no value. -/
def readOption {α : Type} (read : Json → Option α) (v : Json) : Option (Option α) :=
  if v.isNull then some none else some <$> read v

@[simp] lemma readInt_toInt (i : Int32) : readInt (.int i.toInt) = some i := by
  rw [readInt, Int32.ofInt_toInt]

@[simp] lemma readString_str (s : String) : readString (.str s) = some s.toList := rfl

@[simp] lemma readString_string (s : Str) : readString (.string s) = some s := by
  rw [Json.string, readString, String.toList_ofList]

@[simp] lemma readOption_null {α : Type} (read : Json → Option α) : readOption read .null = some none :=
  rfl

@[simp] lemma readOption_str (s : String) : readOption readString (.str s) = some (some s.toList) := rfl

@[simp] lemma readOption_string (s : Str) : readOption readString (.string s) = some (some s) :=
  congrArg (some ∘ some) String.toList_ofList

@[simp] lemma readUrgent_json (u : Urgent) : readUrgent u.json = some u := by
  rcases u with b | n
  · rfl
  · exact congrArg (some ∘ Urgent.number) (Int.toNat_natCast n)

@[simp] lemma readFocus_json (focus : List Int32) : readFocus (focusJson focus) = some focus := by
  rw [focusJson, readFocus]
  induction focus with
  | nil => rfl
  | cons id focus ih => rw [List.map_cons, List.mapM_cons, readInt_toInt, ih]; rfl

end Json

namespace NodeType

def ofText (s : Str) : Option NodeType :=
  [root, output, workspace, con, floatingCon].find? fun type => type.text.toList = s

@[simp] lemma ofText_text (type : NodeType) : ofText type.text.toList = some type := by
  cases type <;> decide

end NodeType

/-! ## Nodes -/

/-- The members of a node; what it describes is not among them. -/
def Json.readAttr (v : Json) : Option Attr := do
  let id ← (v.member "id").readInt
  let name ← (v.member "name").readString
  let type ← (v.member "type").readString >>= NodeType.ofText
  let focused ← (v.member "focused").readBool
  let focus ← (v.member "focus").readFocus
  let urgent ← (v.member "urgent").readUrgent
  let shell ← (v.member "shell").readOption readString
  let appId ← (v.member "app_id").readOption readString
  let pid ← (v.member "pid").readOption readInt
  return ⟨.root, id, name, type, focused, focus, urgent, shell, appId, pid⟩

/-- A node with its children. -/
def Json.readNode (v : Json) : Option Node := do
  let attr ← v.readAttr
  let nodes ← (v.memberElements "nodes").attach.mapM fun node => node.1.readNode
  let floatingNodes ← (v.memberElements "floating_nodes").attach.mapM fun node => node.1.readNode
  return .mk attr nodes floatingNodes
termination_by sizeOf v
decreasing_by
  · exact Json.sizeOf_memberElements node.2
  · exact Json.sizeOf_memberElements node.2

mutual

/-- A tree without what its nodes describe. -/
def Node.erase : Node → Node
  | .mk attr nodes floatingNodes =>
    .mk { attr with entity := .root } (eraseList nodes) (eraseList floatingNodes)

def eraseList : List Node → List Node
  | [] => []
  | node :: nodes => node.erase :: eraseList nodes

end

@[simp] lemma last_assignSome (key key' : String) (value : Option Json) :
    Members.last key (assignSome key' value) = if key = key' then value else none := by
  rcases value with _ | v
  · rw [ite_self]
    rfl
  · exact (Members.last_cons key key' v []).trans (Option.none_or)

section Documents

variable (c : Compositor) (D : Details)

lemma member_document (attr : Attr) (nodes floatingNodes : List Node) (key : String) :
    ((Node.mk attr nodes floatingNodes).document c D).member key
      = (Members.last key (nodeMembers c D attr ++ [("nodes", Json.arr (documents c D nodes)),
        ("floating_nodes", Json.arr (documents c D floatingNodes))])).getD .null := by
  rw [Node.document, Json.member_object]

/-- The children of a node are in its document. -/
lemma memberElements_document (attr : Attr) (nodes floatingNodes : List Node) :
    ((Node.mk attr nodes floatingNodes).document c D).memberElements "nodes" = documents c D nodes ∧
      ((Node.mk attr nodes floatingNodes).document c D).memberElements "floating_nodes"
        = documents c D floatingNodes := by
  rw [Json.memberElements, Json.memberElements, member_document, member_document]
  refine ⟨?_, ?_⟩
  · simp [Json.elements]
  · simp [Json.elements]

/-- No describer sets these members once more. -/
lemma last_entityMembers (attr : Attr) {key : String} (hkey : key = "id" ∨ key = "name" ∨ key = "type") :
    Members.last key (entityMembers c D attr) = none := by
  rcases hentity : attr.entity with _ | o | ⟨o, p⟩ | v | _ | _
  case view =>
    rcases hkey with rfl | rfl | rfl <;>
      cases hxwayland : c.xwayland && (c.view v).xwaylandHints.isSome <;>
      simp [entityMembers, hentity, viewMembers, hxwayland, xwaylandMembers]
  all_goals
    rcases hkey with rfl | rfl | rfl <;>
      simp [entityMembers, hentity, outputMembers, workspaceMembers]

/-- The members of a node that the describers give to it. -/
def Compositor.Gives (attr : Attr) : Prop :=
  (∃ v focus focused, attr = { c.viewAttr v with focus := focus, focused := focused }) ∨
    ∃ e id type name focused focus, (∀ v, e ≠ .view v) ∧
      attr = { createNode e id type name focused with focus := focus }

lemma readAttr_view (v : ViewRef) (focus : List Int32) (focused : Bool) (nodes floatingNodes : List Node) :
    ((Node.mk { c.viewAttr v with focus := focus, focused := focused } nodes floatingNodes).document c
      D).readAttr = some { c.viewAttr v with entity := .root, focus := focus, focused := focused } := by
  have hpid : (((c.view v).pid.map fun pid => Json.int pid.toInt).getD .null).readOption Json.readInt
      = some (c.view v).pid := by
    rcases (c.view v).pid with _ | pid
    · rfl
    · exact congrArg (some ∘ some) (Int32.ofInt_toInt pid)
  rcases hx : c.xwayland && (c.view v).xwaylandHints.isSome with _ | _
  · have hsurf : (if c.xwayland then (c.view v).xwaylandHints else none) = none := by
      by_cases hc : c.xwayland <;> simp_all
    simp [Json.readAttr, member_document, nodeMembers, createNodeMembers, entityMembers, viewMembers, hx,
      hpid, Compositor.viewAttr, createNode, hsurf, Json.readBool, Json.readUrgent]
  · obtain ⟨hc, hints, hsome⟩ : c.xwayland = true ∧ ∃ hints, (c.view v).xwaylandHints = some hints := by
      simpa [Option.isSome_iff_exists] using hx
    simp [Json.readAttr, member_document, nodeMembers, createNodeMembers, entityMembers, viewMembers,
      xwaylandMembers, hpid, Compositor.viewAttr, createNode, hc, hsome, Json.readBool]

lemma readAttr_other {e : Entity} (he : ∀ v, e ≠ .view v) (id : Int32) (type : NodeType) (name : Str)
    (focused : Bool) (focus : List Int32) (nodes floatingNodes : List Node) :
    ((Node.mk { createNode e id type name focused with focus := focus } nodes floatingNodes).document c
      D).readAttr = some { createNode .root id type name focused with focus := focus } := by
  rcases e with _ | o | ⟨o, p⟩ | v | _ | _
  case view => exact absurd rfl (he v)
  all_goals
    simp [Json.readAttr, member_document, nodeMembers, createNodeMembers, entityMembers, outputMembers,
      workspaceMembers, createNode, Json.readBool, Json.readUrgent]

lemma readAttr_document {attr : Attr} (h : c.Gives attr) (nodes floatingNodes : List Node) :
    ((Node.mk attr nodes floatingNodes).document c D).readAttr = some { attr with entity := .root } := by
  rcases h with ⟨v, focus, focused, rfl⟩ | ⟨e, id, type, name, focused, focus, he, rfl⟩
  · exact readAttr_view c D v focus focused nodes floatingNodes
  · exact readAttr_other c D he id type name focused focus nodes floatingNodes

lemma Json.readNode_eq (v : Json) : v.readNode = (do
    let attr ← v.readAttr
    let nodes ← (v.memberElements "nodes").mapM Json.readNode
    let floatingNodes ← (v.memberElements "floating_nodes").mapM Json.readNode
    return .mk attr nodes floatingNodes) := by
  have hattach : ∀ xs : List Json, xs.attach.mapM (fun node => node.1.readNode) = xs.mapM Json.readNode := by
    intro xs
    rw [List.mapM_subtype (g := Json.readNode) fun _ _ => rfl, List.unattach_attach]
  rw [Json.readNode, hattach, hattach]

mutual

/-- A tree whose members are given by the describers is read back. -/
lemma readNode_document : ∀ n : Node, (∀ m ∈ n.all, c.Gives m.attr) →
    (n.document c D).readNode = some n.erase
  | .mk attr nodes floatingNodes, h => by
    rw [Node.all] at h
    obtain ⟨hattr, hchildren⟩ := List.forall_mem_cons.mp h
    rw [Node.attr_mk] at hattr
    rw [Json.readNode_eq, readAttr_document c D hattr, (memberElements_document c D attr _ _).1,
      (memberElements_document c D attr _ _).2,
      readNode_documents nodes fun m hm => hchildren m (List.mem_append_left _ hm),
      readNode_documents floatingNodes fun m hm => hchildren m (List.mem_append_right _ hm), Node.erase]
    rfl

lemma readNode_documents : ∀ ns : List Node, (∀ m ∈ allOfList ns, c.Gives m.attr) →
    (documents c D ns).mapM Json.readNode = some (eraseList ns)
  | [], _ => by rw [documents, eraseList]; rfl
  | n :: ns, h => by
    rw [allOfList] at h
    rw [documents, List.mapM_cons, readNode_document n fun m hm => h m (List.mem_append_left _ hm),
      readNode_documents ns fun m hm => h m (List.mem_append_right _ hm), eraseList]
    rfl

end

end Documents

/-! ## The members of the tree -/

namespace Compositor

variable {c : Compositor} {n : Node}

lemma gives_describeView (v : ViewRef) : ∀ n ∈ c.describeView v, ∀ m ∈ n.all, c.Gives m.attr := by
  induction v using depth_induction (c := c) with
  | step v ih =>
    intro n hn m hm
    by_cases htop : (c.view v).isToplevel
    · rw [describeView_of_toplevel htop] at hn
      cases hn
      rcases Node.mem_all.mp hm with rfl | ⟨k, hk, -⟩ | ⟨k, hk, hm⟩
      · exact Or.inl ⟨v, _, _, rfl⟩
      · cases hk
      · rw [Node.floatingNodes_mk, getViewNodes, if_pos htop, List.mem_filterMap] at hk
        obtain ⟨w, hw, hk⟩ := hk
        exact ih true w hw k hk m hm
    · rw [describeView_of_not_toplevel htop] at hn
      cases hn

lemma gives_containerNode (focus : Bool → List Node → Bool) (v : ViewRef) :
    ∀ n ∈ c.containerNode focus v, ∀ m ∈ n.all, c.Gives m.attr := by
  have hchildren : ∀ b, ∀ k ∈ c.getViewNodes v b, ∀ m ∈ k.all, c.Gives m.attr := by
    intro b k hk
    rw [getViewNodes] at hk
    split_ifs at hk
    · obtain ⟨w, -, hk⟩ := List.mem_filterMap.mp hk
      exact gives_describeView w k hk
    · cases hk
  intro n hn m hm
  by_cases htop : (c.view v).isToplevel
  · rw [containerNode_of_toplevel htop] at hn
    cases hn
    rcases Node.mem_all.mp hm with rfl | ⟨k, hk, hm⟩ | ⟨k, hk, hm⟩
    · exact Or.inl ⟨v, _, _, rfl⟩
    · exact hchildren false k hk m hm
    · exact hchildren true k hk m hm
  · rw [containerNode, describeView_of_not_toplevel htop] at hn
    cases hn

lemma gives_of_mem_tree (h : n ∈ c.tree.all) : c.Gives n.attr := by
  rcases mem_all_tree_iff.mp h with h | ⟨r, -, k, hk, h⟩ | ⟨r, -, k, hk, h⟩
  · refine Or.inr ?_
    rcases mem_frameNodes.mp h with rfl | rfl | rfl | ⟨o, -, rfl⟩ | ⟨o, -, p, -, rfl⟩
    · exact ⟨.root, _, _, _, _, _, by simp, rfl⟩
    · exact ⟨.i3Output, _, _, _, _, _, by simp, rfl⟩
    · exact ⟨.i3Scratch, _, _, _, _, _, by simp, rfl⟩
    · exact ⟨.output o, _, _, _, _, _, by simp, rfl⟩
    · exact ⟨.workspace o p, _, _, _, _, _, by simp, rfl⟩
  · exact gives_containerNode _ r k hk n h
  · exact gives_containerNode _ r k hk n h

/-- The answer to GET_TREE tells the tree that criteria and commands work on, whatever the rest of
the documents says: it can be read back from it. -/
theorem readNode_getTree {t : Node} (h : c.getTree = .ok (some t)) (D : Details) :
    (t.document c D).readNode = some t.erase := by
  obtain ⟨-, rfl⟩ := getTree_eq_some_iff.mp h
  exact readNode_document c D c.tree fun n hn => gives_of_mem_tree hn

/-- Details of outputs and views without a size. -/
def plainDetails : Details where
  handle _ := ⟨"A", none, none, none, true, "1.0", .normal, .unknown, false, [], none, 0, 0, 0⟩
  layoutGeometry _ := ⟨0, 0, 0, 0⟩
  workspaceRectangle _ _ := ⟨0, 0, 0, 0⟩
  view _ := ⟨none, none, none, ⟨0, 0, 0, 0⟩, none, ⟨0, none, none, none, none⟩⟩
  rootRect := ⟨0, 0, 0, 0⟩
  maxRenderTime := 0
  dynamicDelay := false

theorem oneView_readBack :
    (oneView.tree.document oneView plainDetails).readNode = some oneView.tree.erase := by
  have hdesc : oneView.Describable := by
    constructor
    case active => decide
    case current => decide
    case fit =>
      show ∀ o ∈ [0], 0 < oneView.numWorkspaces o →
        Decimal.glue (oneView.outputKey o) (oneView.numWorkspaces o) < 2 ^ 31
      decide
  exact readNode_getTree (getTree_eq_some_iff.mpr ⟨hdesc, rfl⟩) plainDetails

end Compositor

end WayfireIpc
