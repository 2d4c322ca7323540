/-
# Queries with `wf-msg`

The documents of the server are what `wf-msg` reads: each of its conversions finds a value that can
be converted, so that every reply to a query is printed.
-/
import WayfireIpc.Client.Print
import WayfireIpc.Compositor.Focus

namespace WayfireIpc

namespace Json

@[simp] lemma get_object (as : List (String × Json)) (key : String) :
    (object as).get key = .ok ((Members.last key as).getD .null) :=
  congrArg Except.ok (member_object as key)

lemma assign_object (as : List (String × Json)) (key : String) (v : Json) :
    (object as).assign key v = object (as ++ [(key, v)]) := by
  rw [object, object, assign, Members.setAll, Members.setAll, List.foldl_append]
  rfl

/-- An object has the member that was assigned last. -/
lemma empty_object (as : List (String × Json)) (key : String) (v : Json) :
    (object (as ++ [(key, v)])).empty = false := by
  have hlookup := Members.lookup_setAll key (as ++ [(key, v)]) []
  rw [Members.last_append, Members.last_cons, if_pos rfl] at hlookup
  rw [object, empty]
  rcases hmembers : Members.setAll (as ++ [(key, v)]) [] with _ | ⟨m, ms⟩
  · rw [hmembers] at hlookup
    cases hlookup
  · rfl

end Json

mutual

/-- The nodes of a tree with their depths, each in front of its children. -/
def Node.outline : Node → ℕ → List (Node × ℕ)
  | .mk attr nodes floatingNodes, depth => (.mk attr nodes floatingNodes, depth)
      :: (outlineOfList nodes (depth + 1) ++ outlineOfList floatingNodes (depth + 1))

def outlineOfList : List Node → ℕ → List (Node × ℕ)
  | [], _ => []
  | node :: nodes, depth => node.outline depth ++ outlineOfList nodes depth

end

mutual

lemma Node.outline_all : ∀ (n : Node) (depth : ℕ), (n.outline depth).map Prod.fst = n.all
  | .mk attr nodes floatingNodes, depth => by
    rw [Node.outline, Node.all, List.map_cons, List.map_append, outlineOfList_all nodes,
      outlineOfList_all floatingNodes]

lemma outlineOfList_all : ∀ (ns : List Node) (depth : ℕ),
    (outlineOfList ns depth).map Prod.fst = allOfList ns
  | [], _ => by rw [outlineOfList, allOfList, List.map_nil]
  | n :: ns, depth => by
    rw [outlineOfList, allOfList, List.map_append, Node.outline_all n, outlineOfList_all ns]

end

namespace WfMsg

variable (F : Formats) (J : JsonCpp) (c : Compositor) (D : Details)

/-- A text up to its first zero. -/
def cText (s : Str) : String := String.ofList (cStr s)

@[simp] lemma asString_str (s : String) : asString (.str s) = .ok (cText s.toList) := rfl

@[simp] lemma asString_string (s : Str) : asString (.string s) = .ok (cText s) := by
  rw [Json.string, asString_str, String.toList_ofList]

@[simp] lemma asInt_int (i : Int32) : asInt F (.int i.toInt) = .ok i.toInt := by
  have hlow := i.le_toInt
  have hhigh := i.toInt_lt
  rw [asInt, if_pos ⟨hlow, hhigh⟩]

lemma asInt_natCast {n : ℕ} (h : n < 2 ^ 31) : asInt F (.int n) = .ok (n : ℤ) := by
  have hlow : -2 ^ 31 ≤ (n : ℤ) := le_trans (by norm_num) (Int.natCast_nonneg n)
  have hhigh : (n : ℤ) < 2 ^ 31 := by exact_mod_cast h
  rw [asInt, if_pos ⟨hlow, hhigh⟩]

/-- A function that does not throw. -/
def Returns {α : Type} (x : Except WfMsgFault α) : Prop := ∃ a, x = .ok a

/-! ## The tree -/

/-- What is printed of a view behind its name. -/
def viewText (v : ViewRef) : String :=
  let view := c.view v
  let surface := (D.view v).xsurface
  let xwayland := c.xwayland && view.xwaylandHints.isSome
  " (" ++ (if xwayland then "xwayland" else "xdg_shell") ++ ", pid: "
    ++ toString (view.pid.elim 0 Int32.toInt) ++ (", app_id: \"" ++ cText view.appId ++ "\"")
    ++ (if xwayland then surface.instance.elim "" fun inst => ", instance: \"" ++ cText inst.toList ++ "\""
      else "")
    ++ (if xwayland ∧ surface.windowId ≠ 0 then ", X11 window: 0x" ++ F.hex surface.windowId.toNat else "")
    ++ ")"

/-- The line of a node. -/
def nodeLine (attr : Attr) (indent : ℕ) : String :=
  String.join (List.replicate indent "  ") ++ "#" ++ toString attr.id.toInt ++ ": " ++ attr.type.text
    ++ " \"" ++ cText attr.name ++ "\""
    ++ match attr.entity with
      | .view v => viewText F c D v
      | _ => ""

/-- The lines of nodes at their depths. -/
def nodeLines (nodes : List (Node × ℕ)) : List String := nodes.map fun x => nodeLine F c D x.1.attr x.2

/-- The numbers of X11 windows are small. -/
def SmallWindows : Prop := ∀ v, (D.view v).xsurface.windowId.toNat < 2 ^ 31

lemma get_document (attr : Attr) (nodes floatingNodes : List Node) (key : String) :
    ((Node.mk attr nodes floatingNodes).document c D).get key
      = .ok ((Members.last key (nodeMembers c D attr ++ [("nodes", .arr (documents c D nodes)),
        ("floating_nodes", .arr (documents c D floatingNodes))])).getD .null) := by
  rw [Node.document, Json.get_object]

@[simp] lemma cText_type (type : NodeType) : cText type.text.toList = type.text := by
  cases type <;> decide +kernel

lemma propertyOf_object (as : List (String × Json)) (key : String) :
    propertyOf (.object as) key = .ok ((Members.last key as).getD .null) := by
  rw [← Json.get_object]
  rfl

lemma optionalText_str (s : Option String) (before after : String) :
    optionalText ((s.map Json.str).getD .null) before after
      = .ok (s.elim "" fun s => before ++ cText s.toList ++ after) := by
  rcases s with _ | s <;> rfl

/-- The members of the document of a view that are printed behind its name. -/
lemma get_view {attr : Attr} {v : ViewRef} (hentity : attr.entity = .view v)
    (nodes floatingNodes : List Node) :
    let doc := (Node.mk attr nodes floatingNodes).document c D
    let surface := (D.view v).xsurface
    let xwayland := c.xwayland && (c.view v).xwaylandHints.isSome
    doc.get "shell" = .ok (.str (if xwayland then "xwayland" else "xdg_shell")) ∧
      intOf F doc "pid" = .ok ((c.view v).pid.elim 0 Int32.toInt) ∧
      doc.get "app_id" = .ok (.string (c.view v).appId) ∧
      doc.get "window" = .ok (if xwayland then .int surface.windowId.toNat else .null) ∧
      ∃ props, doc.get "window_properties" = .ok props ∧
        propertyOf props "class" = .ok .null ∧ propertyOf props "instance"
          = .ok ((if xwayland then surface.instance.map .str else none).getD .null) := by
  have hpid : asInt F (((c.view v).pid.map fun pid => Json.int pid.toInt).getD .null)
      = .ok ((c.view v).pid.elim 0 Int32.toInt) := by
    rcases (c.view v).pid with _ | pid
    · rfl
    · exact asInt_int F pid
  intro doc surface xwayland
  cases hxwayland : xwayland with
  | false =>
    refine ⟨?_, ?_, ?_, ?_, .null, ?_, rfl, rfl⟩ <;>
      simp [doc, intOf, get_document, nodeMembers, createNodeMembers, entityMembers, hentity, viewMembers,
        xwayland, hxwayland, hpid]
  | true =>
    refine ⟨?_, ?_, ?_, ?_, .object (assignSome "instance" (surface.instance.map .str)
      ++ assignSome "title" (surface.title.map .str) ++ assignSome "window_role" (surface.role.map .str)
      ++ assignSome "transient_for" ((D.view v).parent.map fun id => .int id.toNat)
      ++ [("type", .str "unknown")]), ?_, ?_, ?_⟩
    case refine_6 => simp [propertyOf_object]
    case refine_7 => simp [propertyOf_object]
    all_goals
      simp [doc, intOf, get_document, nodeMembers, createNodeMembers, entityMembers, hentity, viewMembers,
        xwayland, hxwayland, xwaylandMembers, hpid, surface]

lemma shellText_document {attr : Attr} {v : ViewRef} (hD : SmallWindows D) (hentity : attr.entity = .view v)
    (nodes floatingNodes : List Node) :
    shellText F ((Node.mk attr nodes floatingNodes).document c D)
        (.str (if c.xwayland && (c.view v).xwaylandHints.isSome then "xwayland" else "xdg_shell"))
      = .ok (viewText F c D v) := by
  obtain ⟨-, hpid, happId, hwindow, props, hprops, hclass, hinstance⟩ :=
    get_view F c D hentity nodes floatingNodes
  have happIdText := optionalText_str (some (String.ofList (c.view v).appId)) ", app_id: \"" "\""
  rw [Option.map_some, Option.getD_some, Option.elim_some, String.toList_ofList] at happIdText
  have hnull : ∀ before after, optionalText .null before after = .ok "" := fun _ _ => rfl
  rw [shellText, hpid, Machine.ok_bind, happId, Machine.ok_bind, hprops, Machine.ok_bind, hinstance,
    Machine.ok_bind, hclass, Machine.ok_bind, hwindow, Machine.ok_bind, asString_str, Machine.ok_bind,
    Json.string, happIdText, Machine.ok_bind, hnull, viewText]
  have hname : cText "xdg_shell".toList = "xdg_shell" ∧ cText "xwayland".toList = "xwayland" := by
    decide +kernel
  cases hxwayland : c.xwayland && (c.view v).xwaylandHints.isSome with
  | false =>
    have hid : asInt F .null = .ok 0 := rfl
    simp only [Bool.false_eq_true, if_false, false_and, Option.getD_none, hnull, hid, Machine.ok_bind,
      hname, ne_eq, not_true_eq_false, String.append_empty]
    rfl
  | true =>
    have hid := asInt_natCast F (hD v)
    have hzero : ((D.view v).xsurface.windowId.toNat : ℤ) ≠ 0 ↔ (D.view v).xsurface.windowId ≠ 0 := by
      rw [Ne, Ne, Int.natCast_eq_zero, ← UInt32.toNat_inj]
      rfl
    simp only [if_true, true_and, optionalText_str, hid, Machine.ok_bind, hname, hzero,
      String.append_empty]
    rfl

lemma treeLine_document (hD : SmallWindows D) (attr : Attr) (nodes floatingNodes : List Node)
    (indent : ℕ) : treeLine F ((Node.mk attr nodes floatingNodes).document c D) indent
      = .ok (nodeLine F c D attr indent) := by
  have hid : intOf F ((Node.mk attr nodes floatingNodes).document c D) "id" = .ok attr.id.toInt := by
    simp [intOf, get_document, nodeMembers, createNodeMembers, last_entityMembers]
  have hname : stringOf ((Node.mk attr nodes floatingNodes).document c D) "name" = .ok (cText attr.name) := by
    simp [stringOf, get_document, nodeMembers, createNodeMembers, last_entityMembers]
  have htype : stringOf ((Node.mk attr nodes floatingNodes).document c D) "type" = .ok attr.type.text := by
    simp [stringOf, get_document, nodeMembers, createNodeMembers, last_entityMembers]
  rw [treeLine, hid, Machine.ok_bind, hname, Machine.ok_bind, htype, Machine.ok_bind]
  rcases hentity : attr.entity with _ | o | ⟨o, p⟩ | v | _ | _
  case view =>
    have hnull : ∀ s, (Json.str s).isNull = false := fun _ => rfl
    rw [(get_view F c D hentity nodes floatingNodes).1, Machine.ok_bind, hnull, if_neg Bool.false_ne_true,
      shellText_document F c D hD hentity, nodeLine, hentity]
    rfl
  all_goals
    have hshell : ((Node.mk attr nodes floatingNodes).document c D).get "shell" = .ok .null := by
      simp [get_document, nodeMembers, createNodeMembers, entityMembers, hentity, outputMembers,
        workspaceMembers]
    rw [hshell, nodeLine, hentity]
    rfl

/-- Every node prints its line and then its children. -/
lemma prettyPrintTree_eq {obj : Json} (hnull : obj.isNull = false) (indent : ℕ) :
    prettyPrintTree F obj indent = (do
      let line ← treeLine F obj indent
      let nodes ← (obj.memberElements "nodes").mapM fun node => prettyPrintTree F node (indent + 1)
      let floatingNodes ← (obj.memberElements "floating_nodes").mapM fun node =>
        prettyPrintTree F node (indent + 1)
      return line :: (nodes.flatten ++ floatingNodes.flatten)) := by
  have hattach : ∀ xs : List Json, xs.attach.mapM (fun node => prettyPrintTree F node.1 (indent + 1))
      = xs.mapM fun node => prettyPrintTree F node (indent + 1) := by
    intro xs
    rw [List.mapM_subtype (g := fun node => prettyPrintTree F node (indent + 1)) fun _ _ => rfl,
      List.unattach_attach]
  rw [prettyPrintTree, hnull, if_neg Bool.false_ne_true, hattach, hattach]

mutual

/-- Printing the document of a tree prints the lines of its nodes. -/
lemma prettyPrintTree_document (hD : SmallWindows D) : ∀ (n : Node) (indent : ℕ),
    prettyPrintTree F (n.document c D) indent = .ok (nodeLines F c D (n.outline indent))
  | .mk attr nodes floatingNodes, indent => by
    have hnull : ((Node.mk attr nodes floatingNodes).document c D).isNull = false := by
      rw [Node.document]
      rfl
    obtain ⟨ls, hls, hlines⟩ := prettyPrintTree_documents hD nodes (indent + 1)
    obtain ⟨fs, hfs, hfloating⟩ := prettyPrintTree_documents hD floatingNodes (indent + 1)
    rw [prettyPrintTree_eq F hnull, treeLine_document F c D hD, Machine.ok_bind,
      (memberElements_document c D attr nodes floatingNodes).1, hls, Machine.ok_bind,
      (memberElements_document c D attr nodes floatingNodes).2, hfs, Machine.ok_bind, hlines, hfloating,
      Node.outline, nodeLines, nodeLines, nodeLines, List.map_cons, List.map_append]
    rfl

lemma prettyPrintTree_documents (hD : SmallWindows D) : ∀ (ns : List Node) (indent : ℕ),
    ∃ ls, (documents c D ns).mapM (fun node => prettyPrintTree F node indent) = .ok ls ∧
      ls.flatten = nodeLines F c D (outlineOfList ns indent)
  | [], _ => ⟨[], by rw [documents]; rfl, by rw [outlineOfList]; rfl⟩
  | n :: ns, indent => by
    obtain ⟨ls, hls, hlines⟩ := prettyPrintTree_documents hD ns indent
    refine ⟨nodeLines F c D (n.outline indent) :: ls, ?_, ?_⟩
    · rw [documents, List.mapM_cons, prettyPrintTree_document hD n indent, Machine.ok_bind, hls]
      rfl
    · rw [List.flatten_cons, hlines, outlineOfList, nodeLines, nodeLines, nodeLines, List.map_append]

end

/-! ## Other documents -/

lemma returns_mode (mode : DescribedMode) : Returns (prettyPrintMode F (describeOutputMode mode)) := by
  simp [Returns, prettyPrintMode, describeOutputMode, intOf]

lemma returns_workspace {attr : Attr} {o : OutputRef} {p : Point} (hentity : attr.entity = .workspace o p)
    (nodes floatingNodes : List Node) :
    Returns (prettyPrintWorkspace F ((Node.mk attr nodes floatingNodes).document c D)) := by
  have hnull : ((Node.mk attr nodes floatingNodes).document c D).isNull = false := by
    rw [Node.document]
    rfl
  rw [prettyPrintWorkspace, hnull, if_neg Bool.false_ne_true]
  simp [Returns, stringOf, boolOf, get_document, nodeMembers, createNodeMembers, entityMembers, hentity,
    workspaceMembers, asBool]

lemma returns_mapM {α : Type} {f : α → Except WfMsgFault String} {xs : List α}
    (h : ∀ x ∈ xs, Returns (f x)) : Returns (xs.mapM f) := by
  choose g hg using h
  induction xs with
  | nil => exact ⟨[], rfl⟩
  | cons x xs ih =>
    obtain ⟨ys, hys⟩ := ih (fun y hy => g y (List.mem_cons_of_mem x hy)) fun y hy => hg y _
    refine ⟨g x List.mem_cons_self :: ys, ?_⟩
    rw [List.mapM_cons, hg x List.mem_cons_self, Machine.ok_bind, hys]
    rfl

lemma returns_modes (modes : List DescribedMode) :
    Returns ((modes.map describeOutputMode).mapM (prettyPrintMode F)) := by
  refine returns_mapM fun x hx => ?_
  obtain ⟨mode, -, rfl⟩ := List.mem_map.mp hx
  exact returns_mode F mode

lemma returns_disabledOutput (handle : OutputHandle) :
    Returns (prettyPrintOutput F (describeDisabledOutput handle)) := by
  have hnull : (describeDisabledOutput handle).isNull = false := rfl
  have hrect : createEmptyRect.get "x" = .ok (.int 0) := rfl
  have hmode : Json.null.get "width" = .ok .null := rfl
  rw [prettyPrintOutput, hnull, if_neg Bool.false_ne_true]
  simp [Returns, describeDisabledOutput, outputTitle, stringOf, asBool, hrect, hmode, Json.elements]

lemma get_currentMode (handle : OutputHandle) (key : String) (hkey : key ∈ ["width", "height", "refresh"]) :
    ∃ i : Int32, (describeCurrentMode handle).get key = .ok (.int i.toInt) := by
  rw [describeCurrentMode]
  rcases handle.currentMode with _ | mode
  · fin_cases hkey <;> simp
  · fin_cases hkey <;> simp [describeOutputMode]

lemma returns_enabledOutput {attr : Attr} {o : OutputRef} (hentity : attr.entity = .output o)
    (nodes floatingNodes : List Node) (focused : Bool) (subpixel : Subpixel) :
    Returns (prettyPrintOutput F
      ((((Node.mk attr nodes floatingNodes).document c D).assign "focused" (.bool focused)).assign
        "subpixel_hinting" (.str (outputSubpixelDescription subpixel)))) := by
  obtain ⟨width, hwidth⟩ := get_currentMode (D.handle o) "width" (by simp)
  obtain ⟨height, hheight⟩ := get_currentMode (D.handle o) "height" (by simp)
  obtain ⟨refresh, hrefresh⟩ := get_currentMode (D.handle o) "refresh" (by simp)
  obtain ⟨lines, hlines⟩ := returns_modes F (D.handle o).modes
  have hx : (describeGeometry (D.layoutGeometry o)).get "x" = .ok (.int (D.layoutGeometry o).x.toInt) := rfl
  have hy : (describeGeometry (D.layoutGeometry o)).get "y" = .ok (.int (D.layoutGeometry o).y.toInt) := rfl
  have hnull : ∀ as, (Json.object as).isNull = false := fun _ => rfl
  rw [Node.document, Json.assign_object, Json.assign_object, prettyPrintOutput, hnull,
    if_neg Bool.false_ne_true]
  simp [Returns, nodeMembers, createNodeMembers, entityMembers, hentity, outputMembers, entityRect,
    activeOutputLines, outputTitle, stringOf, boolOf, intOf, asBool, asDouble, hwidth, hheight, hrefresh,
    hlines, hx, hy, Json.elements]

/-- The layouts of a keyboard set a name of the active one only. -/
lemma last_activeLayoutMembers (state : ℕ → Bool) {key : String} (hkey : key ≠ "xkb_active_layout_index")
    (hname : key ≠ "xkb_active_layout_name") : ∀ (i : ℕ) (layouts : List (Option String)),
    Members.last key (activeLayoutMembers state i layouts) = none := by
  intro i layouts
  induction layouts generalizing i with
  | nil => rfl
  | cons layout layouts ih =>
    rw [activeLayoutMembers, Members.last_append, ih]
    split_ifs <;> simp [hkey, hname]

/-- The members that only a keyboard has. -/
def keyboardKeys : List String :=
  ["repeat_delay", "repeat_rate", "xkb_layout_names", "xkb_active_layout_index", "xkb_active_layout_name"]

lemma last_keyboardMembers (options : InputOptions) (keyboard : Option Keyboard) {key : String}
    (hkey : key ∉ keyboardKeys) : Members.last key (keyboardMembers options keyboard) = none := by
  simp only [keyboardKeys, List.mem_cons, List.not_mem_nil, or_false, not_or] at hkey
  obtain ⟨hdelay, hrate, hnames, hindex, hname⟩ := hkey
  have hlayouts : ∀ state layouts, Members.last key (activeLayoutMembers state 0 layouts) = none :=
    fun state layouts => last_activeLayoutMembers state hindex hname 0 layouts
  rcases keyboard with _ | ⟨_ | layouts, _ | state⟩ <;>
    simp [keyboardMembers, hlayouts, hdelay, hrate, hnames]

/-- Of a device the members that every device has. -/
lemma get_input {options : InputOptions} {device : DescribedInput} {v : Json}
    (h : describeInput options (some device) = .ok v) : ∃ name, device.name = some name ∧
      v.isNull = false ∧ v.get "name" = .ok (.str name) ∧
      v.get "type" = .ok (.str (inputDeviceGetTypeDescription device.type)) ∧
      (∃ id, v.get "identifier" = .ok (.str id)) ∧ v.get "vendor" = .ok (.int 0) ∧
      v.get "product" = .ok (.int 0) ∧ v.get "libinput" = .ok .null ∧
      ∃ layout, v.get "xkb_active_layout_name" = .ok layout := by
  obtain ⟨_ | name, type, keyboard⟩ := device
  · cases h
  · cases h
    have hlast : ∀ key ∈ ["identifier", "name", "vendor", "product", "type", "libinput"],
        Members.last key ((if type = .keyboard then keyboardMembers options keyboard else [])
          ++ (if type = .pointer then [("scroll_factor", .real options.scrollFactor)] else []))
          = none := by
      intro key hkey
      have hscroll : key ≠ "scroll_factor" := by rintro rfl; simp at hkey
      have hkeyboard : key ∉ keyboardKeys := by
        fin_cases hkey <;> simp [keyboardKeys]
      rw [Members.last_append]
      split_ifs <;> simp [last_keyboardMembers options keyboard hkeyboard, hscroll]
    rw [List.append_assoc]
    refine ⟨name, rfl, rfl, ?_, ?_, ⟨"0:0:" ++ name.map fun ch => if ch = ' ' then '_' else ch, ?_⟩,
      ?_, ?_, ?_, _, Json.get_object _ _⟩
    all_goals rw [Json.get_object, Members.last_append, hlast _ (by simp)]; rfl

lemma returns_input {options : InputOptions} {device : Option DescribedInput} {v : Json}
    (h : describeInput options device = .ok v) : Returns (prettyPrintInput F J v) := by
  rcases device with _ | device
  · cases h
    exact ⟨"\n", rfl⟩
  · obtain ⟨name, -, hnull, hname, htype, ⟨id, hid⟩, hvendor, hproduct, hlibinput, layout, hlayout⟩ :=
      get_input h
    have hzero : asInt F (.int 0) = .ok 0 := asInt_int F 0
    rw [prettyPrintInput, hnull, if_neg Bool.false_ne_true]
    simp [Returns, stringOf, intOf, hname, htype, hid, hvendor, hproduct, hlibinput, hlayout, hzero,
      prettyPrintLibinput, Json.isNull]

lemma returns_device {options : InputOptions} {device : Option DescribedInput} {v : Json}
    (h : describeInput options device = .ok v) : Returns (prettyPrintDevice v) := by
  rcases device with _ | device
  · cases h
    exact ⟨_, rfl⟩
  · obtain ⟨name, -, -, hname, -⟩ := get_input h
    simp [Returns, prettyPrintDevice, stringOf, hname]

lemma returns_seat {options : InputOptions} {name : String} {capabilities : UInt32}
    {devices : List (Option DescribedInput)} {v : Json} (hcapabilities : capabilities.toNat < 2 ^ 31)
    (h : describeSeat options name capabilities devices = .ok v) : Returns (prettyPrintSeat F v) := by
  obtain ⟨ds, hds, hv⟩ := Machine.bind_ok_iff.mp h
  have hv := Except.ok.inj hv
  have hlines : Returns (ds.mapM prettyPrintDevice) := by
    refine returns_mapM fun x hx => ?_
    obtain ⟨device, -, hdevice⟩ := Machine.exists_of_mem_mapM hds x hx
    exact returns_device hdevice
  obtain ⟨lines, hlines⟩ := hlines
  have hname : stringOf v "name" = .ok (cText name.toList) := by
    rw [← hv]
    simp [stringOf]
  have hint : intOf F v "capabilities" = .ok (capabilities.toNat : ℤ) := by
    have hget : v.get "capabilities" = .ok (.int capabilities.toNat) := by
      rw [← hv]
      simp
    rw [intOf, hget, Machine.ok_bind, asInt_natCast F hcapabilities]
  have hdevices : v.get "devices" = .ok (.arr ds) := by
    rw [← hv]
    simp
  have hnull : v.isNull = false := by
    rw [← hv]
    rfl
  rw [prettyPrintSeat, hnull, if_neg Bool.false_ne_true, hname, Machine.ok_bind, hint, Machine.ok_bind,
    hdevices, Machine.ok_bind, Json.elements, hlines, Machine.ok_bind]
  exact ⟨_, rfl⟩

/-! ## Judging -/

/-- An object without a member `success`. -/
def Plain (v : Json) : Prop := ∃ as, v = .object as ∧ Members.last "success" as = none

lemma Plain.isNull {v : Json} (h : Plain v) : v.isNull = false := by
  obtain ⟨as, rfl, -⟩ := h
  rfl

lemma Plain.successObject {v : Json} (h : Plain v) : successObject v = .ok true := by
  rw [WfMsg.successObject, h.isNull, if_neg Bool.false_ne_true]
  obtain ⟨as, rfl, hlast⟩ := h
  rw [Json.get_object, hlast, Machine.ok_bind]
  rfl

lemma Plain.assign {v : Json} {key : String} (h : Plain v) (hkey : key ≠ "success") (x : Json) :
    Plain (v.assign key x) := by
  obtain ⟨as, rfl, hlast⟩ := h
  refine ⟨_, Json.assign_object as key x, ?_⟩
  simp [hlast, hkey.symm]

lemma anyFailed_plain {xs : List Json} (h : ∀ x ∈ xs, x = .null ∨ Plain x) :
    anyFailed xs = .ok (xs.any Json.isNull) := by
  induction xs with
  | nil => rfl
  | cons x xs ih =>
    obtain ⟨hx, hxs⟩ := List.forall_mem_cons.mp h
    rw [anyFailed, List.any_cons]
    rcases hx with rfl | hx
    · rfl
    · rw [hx.successObject, Machine.ok_bind, if_neg (by simp), ih hxs, hx.isNull, Bool.false_or]

lemma plain_document (n : Node) : Plain (n.document c D) := by
  obtain ⟨attr, nodes, floatingNodes⟩ := n
  refine ⟨_, Node.document.eq_1 .., ?_⟩
  rcases hentity : attr.entity with _ | o | ⟨o, p⟩ | v | _ | _
  case view =>
    cases hxwayland : c.xwayland && (c.view v).xwaylandHints.isSome <;>
      simp [nodeMembers, createNodeMembers, entityMembers, hentity, viewMembers, hxwayland, xwaylandMembers]
  all_goals
    simp [nodeMembers, createNodeMembers, entityMembers, hentity, outputMembers, workspaceMembers]

lemma plain_input {options : InputOptions} {device : Option DescribedInput} {v : Json}
    (h : describeInput options device = .ok v) : v = .null ∨ Plain v := by
  rcases device with _ | ⟨_ | name, type, keyboard⟩
  · cases h
    exact Or.inl rfl
  · cases h
  · cases h
    refine Or.inr ⟨_, rfl, ?_⟩
    have hkeyboard : Members.last "success" (keyboardMembers options keyboard) = none :=
      last_keyboardMembers options keyboard (by simp [keyboardKeys])
    rw [Members.last_append, Members.last_append]
    split_ifs <;> simp [hkeyboard]

/-! ## Queries -/

lemma documents_eq (ns : List Node) : documents c D ns = ns.map (Node.document c D) := by
  induction ns with
  | nil => rw [documents, List.map_nil]
  | cons n ns ih => rw [documents, ih, List.map_cons]

end WfMsg

namespace Desktop

variable (d : Desktop)

/-- There is nothing that a query could describe. -/
def nothing : IpcPayloadType → Bool
  | .getOutputs => d.compositor.outputs.isEmpty
  | .getWorkspaces => d.compositor.outputs.all fun o => (d.compositor.gridPoints o).isEmpty
  | .getInputs => d.inputDevices.isEmpty
  | .getTree => d.compositor.activeOutput.isNone
  | _ => false

/-- The exit status after a query. -/
def exitStatus (type : IpcPayloadType) : ℕ :=
  if d.nothing type then 1
  else if type = .getInputs ∧ d.inputDevices.any Option.isNone then 2
  else 0

/-- The requests that describe something. -/
def IsQuery (type : IpcPayloadType) : Prop :=
  type ∈ [.getOutputs, .getWorkspaces, .getInputs, .getVersion, .getSeats, .getConfig, .getTree]

/-- What a client can print: the numbers of windows and the capabilities are `int`. -/
structure Printable : Prop where
  windows : WfMsg.SmallWindows d.details
  capabilities : d.seatCapabilities.toNat < 2 ^ 31

/-- How a client takes a reply to a query. -/
structure Taken (F : Formats) (J : JsonCpp) (type : IpcPayloadType) (v : Json) : Prop where
  empty : v.empty = d.nothing type
  printed : WfMsg.Returns (WfMsg.prettyPrintText F J type v)
  success : v.empty = false →
    WfMsg.success v true = .ok !(type = .getInputs ∧ d.inputDevices.any Option.isNone)

open WfMsg

variable {d} (F : Formats) (J : JsonCpp)

/-- An array of documents is printed one by one, and judged by its nulls. -/
lemma taken_arr {type : IpcPayloadType} {xs : List Json} {print : Json → Except WfMsgFault String}
    (htext : prettyPrintText F J type (.arr xs) = prettyPrintAll print (.arr xs))
    (hempty : xs = [] ↔ d.nothing type = true) (hprint : ∀ x ∈ xs, Returns (print x))
    (hplain : ∀ x ∈ xs, x = .null ∨ Plain x)
    (hnull : xs.any Json.isNull = decide (type = .getInputs ∧ d.inputDevices.any Option.isNone)) :
    d.Taken F J type (.arr xs) := by
  refine ⟨?_, ?_, fun hne => ?_⟩
  · rw [Bool.eq_iff_iff, ← hempty]
    exact List.isEmpty_iff
  · obtain ⟨texts, htexts⟩ := returns_mapM hprint
    rw [htext, prettyPrintAll, Json.elements, htexts]
    exact ⟨_, rfl⟩
  · have hne : xs ≠ [] := by
      rintro rfl
      cases hne
    rw [WfMsg.success, if_neg hne, anyFailed_plain hplain, hnull]
    rfl

lemma taken_plain {type : IpcPayloadType} {v : Json} (htype : type ≠ .getInputs) (hv : Plain v)
    (hempty : v.empty = false) (hnothing : d.nothing type = false)
    (hprint : Returns (prettyPrintText F J type v)) : d.Taken F J type v := by
  refine ⟨hempty.trans hnothing.symm, hprint, fun _ => ?_⟩
  have hsuccess : WfMsg.success v true = successObject v := by
    obtain ⟨as, rfl, -⟩ := hv
    rfl
  rw [hsuccess, hv.successObject]
  simp [htype]

lemma any_isNull_eq_false {xs : List Json} (h : ∀ x ∈ xs, Plain x) : xs.any Json.isNull = false := by
  rw [List.any_eq_false]
  exact fun x hx => by simp [(h x hx).isNull]

lemma getOutputs_taken {v : Json} (h : d.getOutputs = .ok v) : d.Taken F J .getOutputs v := by
  obtain ⟨enabled, henabled, hv⟩ := Machine.bind_ok_iff.mp h
  cases hv
  have hcases : ∀ x ∈ enabled ++ (d.compositor.outputs.filter fun o =>
      ¬ (d.details.handle o).enabled).map (fun o => describeDisabledOutput (d.details.handle o)),
      Returns (prettyPrintOutput F x) ∧ Plain x := by
    intro x hx
    rcases List.mem_append.mp hx with hx | hx
    · obtain ⟨o, -, ho⟩ := Machine.exists_of_mem_mapM henabled x hx
      obtain ⟨node, hnode, ho⟩ := Machine.bind_ok_iff.mp ho
      cases ho
      refine ⟨?_, ((plain_document _ _ node).assign (by simp) _).assign (by simp) _⟩
      obtain ⟨ws, -, hnode⟩ := Machine.bind_ok_iff.mp hnode
      obtain ⟨index, -, hnode⟩ := Machine.bind_ok_iff.mp hnode
      cases hnode
      exact returns_enabledOutput F _ _ rfl _ _ _ _
    · obtain ⟨o, -, rfl⟩ := List.mem_map.mp hx
      exact ⟨returns_disabledOutput F _, _, rfl, by simp⟩
  refine taken_arr F J rfl ?_ (fun x hx => (hcases x hx).1) (fun x hx => Or.inr (hcases x hx).2) ?_
  · rw [List.append_eq_nil_iff, List.map_eq_nil_iff, Machine.mapM_eq_nil_iff henabled, nothing, List.isEmpty_iff]
    simp only [List.filter_eq_nil_iff, decide_eq_true_eq, not_not]
    constructor
    · rintro ⟨hoff, hon⟩
      exact List.eq_nil_iff_forall_not_mem.mpr fun o ho => hoff o ho (hon o ho)
    · intro hnil
      simp [hnil]
  · rw [any_isNull_eq_false fun x hx => (hcases x hx).2]
    simp

lemma getWorkspaces_taken {v : Json} (h : d.getWorkspaces = .ok v) : d.Taken F J .getWorkspaces v := by
  obtain ⟨nodes, hnodes, hv⟩ := Machine.bind_ok_iff.mp h
  cases hv
  have hworkspace : ∀ n ∈ nodes.flatten, ∃ o p, n.attr.entity = .workspace o p := by
    intro n hn
    obtain ⟨ns, hns, hn⟩ := List.mem_flatten.mp hn
    obtain ⟨o, -, ho⟩ := Machine.exists_of_mem_mapM hnodes ns hns
    obtain ⟨ws, hws, ho⟩ := Machine.bind_ok_iff.mp ho
    cases ho
    obtain ⟨p, -, hp⟩ := Machine.exists_of_mem_mapM hws n ((List.mem_insertionSort _).mp hn)
    obtain ⟨node, hnode, hp⟩ := Machine.bind_ok_iff.mp hp
    cases hp
    obtain ⟨index, -, hnode⟩ := Machine.bind_ok_iff.mp hnode
    obtain ⟨id, -, hnode⟩ := Machine.bind_ok_iff.mp hnode
    cases hnode
    exact ⟨o, p, rfl⟩
  have hempty : nodes.flatten = [] ↔ ∀ o ∈ d.compositor.outputs, d.compositor.gridPoints o = [] := by
    have hnil : ∀ o ns, d.compositor.getWorkspacesNodes o false = .ok ns →
        (ns = [] ↔ d.compositor.gridPoints o = []) := by
      intro o ns ho
      obtain ⟨ws, hws, ho⟩ := Machine.bind_ok_iff.mp ho
      cases ho
      rw [← Machine.mapM_eq_nil_iff hws, ← List.length_eq_zero_iff, List.length_insertionSort,
        List.length_eq_zero_iff]
    rw [List.flatten_eq_nil_iff]
    constructor
    · intro hall o ho
      obtain ⟨ns, hns, hnode⟩ := Machine.mem_of_mapM hnodes o ho
      exact (hnil o ns hnode).mp (hall ns hns)
    · intro hall ns hns
      obtain ⟨o, ho, hnode⟩ := Machine.exists_of_mem_mapM hnodes ns hns
      exact (hnil o ns hnode).mpr (hall o ho)
  rw [documents_eq]
  refine taken_arr F J rfl ?_ ?_ ?_ ?_
  · rw [List.map_eq_nil_iff, hempty, nothing, List.all_eq_true]
    simp only [List.isEmpty_iff]
  · intro x hx
    obtain ⟨⟨attr, ns, fs⟩, hn, rfl⟩ := List.mem_map.mp hx
    obtain ⟨o, p, hentity⟩ := hworkspace _ hn
    exact returns_workspace F _ _ hentity ns fs
  · intro x hx
    obtain ⟨n, -, rfl⟩ := List.mem_map.mp hx
    exact Or.inr (plain_document _ _ n)
  · rw [any_isNull_eq_false]
    · simp
    · intro x hx
      obtain ⟨n, -, rfl⟩ := List.mem_map.mp hx
      exact plain_document _ _ n

lemma getInputs_taken {v : Json} (h : d.getInputs = .ok v) : d.Taken F J .getInputs v := by
  obtain ⟨devices, hdevices, hv⟩ := Machine.bind_ok_iff.mp h
  have hplain : ∀ x ∈ devices, x = .null ∨ Plain x := by
    intro x hx
    obtain ⟨device, -, hdevice⟩ := Machine.exists_of_mem_mapM hdevices x hx
    exact plain_input hdevice
  have hnull : ∀ {device x}, describeInput d.inputOptions device = .ok x →
      x.isNull = device.isNone := by
    intro device x hdevice
    rcases device with _ | ⟨_ | name, type, keyboard⟩ <;> cases hdevice <;> rfl
  have hany : devices.any Json.isNull = d.inputDevices.any Option.isNone := by
    rw [Bool.eq_iff_iff, List.any_eq_true, List.any_eq_true]
    constructor
    · rintro ⟨x, hx, hisNull⟩
      obtain ⟨device, hdevice, hx⟩ := Machine.exists_of_mem_mapM hdevices x hx
      exact ⟨device, hdevice, (hnull hx).symm.trans hisNull⟩
    · rintro ⟨device, hdevice, hisNone⟩
      obtain ⟨x, hx, hdevice⟩ := Machine.mem_of_mapM hdevices device hdevice
      exact ⟨x, hx, (hnull hdevice).trans hisNone⟩
  have hempty := Machine.mapM_eq_nil_iff hdevices
  by_cases hnil : devices = []
  · rw [if_pos hnil] at hv
    cases hv
    refine ⟨?_, ⟨_, rfl⟩, fun hne => ?_⟩
    · rw [nothing, hempty.mp hnil]
      rfl
    · cases hne
  · rw [if_neg hnil] at hv
    cases hv
    refine taken_arr F J rfl ?_ ?_ hplain ?_
    · rw [hempty, nothing, List.isEmpty_iff]
    · intro x hx
      obtain ⟨device, -, hdevice⟩ := Machine.exists_of_mem_mapM hdevices x hx
      exact returns_input F J hdevice
    · rw [hany]
      simp

lemma getSeats_taken {v : Json} (hd : d.Printable) (h : d.getSeats = .ok v) : d.Taken F J .getSeats v := by
  obtain ⟨seat, hseat, hv⟩ := Machine.bind_ok_iff.mp h
  cases hv
  have hplain : Plain seat := by
    obtain ⟨devices, -, hseat⟩ := Machine.bind_ok_iff.mp hseat
    cases hseat
    exact ⟨_, rfl, by simp⟩
  refine taken_arr F J rfl (by simp [nothing]) ?_ ?_ ?_
  · intro x hx
    rw [List.mem_singleton.mp hx]
    exact returns_seat F hd.capabilities hseat
  · intro x hx
    rw [List.mem_singleton.mp hx]
    exact Or.inr hplain
  · simp [hplain.isNull]

lemma getVersion_taken : d.Taken F J .getVersion (getVersion d.version) := by
  have hplain : Plain (getVersion d.version) := ⟨_, rfl, by simp⟩
  refine taken_plain F J (by simp) hplain (Json.empty_object [_, _, _, _, _, _] _ _) rfl ?_
  rw [prettyPrintText, prettyPrintVersion, hplain.isNull, if_neg Bool.false_ne_true, getVersion,
    Json.get_object]
  exact ⟨_, rfl⟩

lemma getConfig_taken : d.Taken F J .getConfig d.getConfig := by
  have hplain : Plain d.getConfig := ⟨_, rfl, by simp⟩
  refine taken_plain F J (by simp) hplain (Json.empty_object [] _ _) rfl ?_
  rw [prettyPrintText, prettyPrintConfig, hplain.isNull, if_neg Bool.false_ne_true, getConfig,
    Json.get_object]
  exact ⟨_, rfl⟩

lemma getTree_taken {v : Json} (hd : d.Printable) (h : d.getTree = .ok v) : d.Taken F J .getTree v := by
  obtain ⟨tree, htree, hv⟩ := Machine.bind_ok_iff.mp h
  cases hv
  have hactive : tree = none ↔ d.compositor.activeOutput = none := by
    rw [Compositor.getTree, Compositor.getRootNode] at htree
    split_ifs at htree with hnone
    · cases htree
      exact iff_of_true rfl hnone
    · obtain ⟨outputs, -, htree⟩ := Machine.bind_ok_iff.mp htree
      cases htree
      exact iff_of_false (by simp) hnone
  rcases tree with _ | root
  · refine ⟨?_, ?_, fun hne => ?_⟩
    · simp [nothing, hactive.mp rfl, Json.empty]
    · rw [prettyPrintText, Option.elim_none, prettyPrintTree]
      exact ⟨_, rfl⟩
    · cases hne
  · have hnothing : d.nothing .getTree = false := by
      rcases hout : d.compositor.activeOutput with _ | o
      · cases hactive.mpr hout
      · rw [nothing, hout]
        rfl
    have hempty : (root.document d.compositor d.details).empty = false := by
      obtain ⟨attr, nodes, floatingNodes⟩ := root
      have hconcat := Json.empty_object (nodeMembers d.compositor d.details attr
        ++ [("nodes", .arr (documents d.compositor d.details nodes))]) "floating_nodes"
        (.arr (documents d.compositor d.details floatingNodes))
      rw [List.append_assoc] at hconcat
      rw [Node.document]
      exact hconcat
    refine taken_plain F J (by simp) (plain_document _ _ root) hempty hnothing ?_
    rw [prettyPrintText, Option.elim_some, prettyPrintTree_document F _ _ hd.windows]
    exact ⟨_, rfl⟩

lemma describe_taken {type : IpcPayloadType} {v : Json} (hd : d.Printable) (htype : IsQuery type)
    (h : d.describe type = .ok v) : d.Taken F J type v := by
  rcases type with _ | _ | _ | _ | _ | _ | _ | _ | _ | _ | _ | _ | _ | _ | _ | _
  case getOutputs => exact getOutputs_taken F J h
  case getWorkspaces => exact getWorkspaces_taken F J h
  case getInputs => exact getInputs_taken F J h
  case getSeats => exact getSeats_taken F J hd h
  case getTree => exact getTree_taken F J hd h
  case getVersion =>
    cases h
    exact getVersion_taken F J
  case getConfig =>
    cases h
    exact getConfig_taken F J
  all_goals simp [IsQuery] at htype

end Desktop

namespace WfMsg

/-- Whatever there is on the desktop, the client prints the reply to a query (one of the seven
requests that describe something) and exits with 0, but for two cases: there is nothing to describe,
and there is an input device without a handle. -/
theorem main_query (F : Formats) (J : JsonCpp) {d : Desktop} (hd : d.Printable) {type : IpcPayloadType}
    (htype : Desktop.IsQuery type) {v : Json} (hv : d.describe type = .ok v)
    (hread : J.Reads (J.jsonToString v) (if v.isNull then .obj [] else v)) (opts : Options)
    (events : List Buf) :
    main J (printOther F J) opts type (J.jsonToString v) events = .ok (d.exitStatus type) := by
  obtain ⟨hempty, ⟨text, htext⟩, hsuccess⟩ := Desktop.describe_taken F J hd htype hv
  cases hnothing : v.empty with
  | true =>
    have hblank : (if v.isNull then Json.obj [] else v).empty = true := by
      split_ifs
      · rfl
      · exact hnothing
    rw [main_of_empty hread hblank, Desktop.exitStatus, ← hempty, hnothing, if_pos rfl]
  | false =>
    have hnull : v.isNull = false := by
      cases v <;> first | rfl | cases hnothing
    rw [hnull, if_neg Bool.false_ne_true] at hread
    have hprint : prettyPrint (printOther F J) type v = .ok () := by
      have hother : prettyPrint (printOther F J) type v = printOther F J type v := by
        cases type <;> first | rfl | simp [Desktop.IsQuery] at htype
      rw [hother, printOther, htext]
      rfl
    have hsubscribe : type ≠ .subscribe := by
      rintro rfl
      simp [Desktop.IsQuery] at htype
    rw [main_of_reads hread hnothing, hsuccess hnothing, Machine.ok_bind, hprint, ite_self,
      Machine.ok_bind, if_neg fun h => hsubscribe h.1, Desktop.exitStatus, ← hempty, hnothing,
      if_neg Bool.false_ne_true]
    by_cases hnone : type = .getInputs ∧ d.inputDevices.any Option.isNone = true
    · rw [if_pos hnone, decide_eq_true hnone]
      rfl
    · rw [if_neg hnone, decide_eq_false hnone]
      rfl

/-- Formats for documents without numbers that are no integers. -/
def plainFormats : Formats where
  truncate _ := none
  nonzero _ := true
  fixed _ := "0.000000"
  hertz _ := "0.000"
  hex _ := "0"

/-- A desktop with an output, a window and an input device without a handle. -/
def oneWindowDesktop : Desktop where
  compositor := .oneWorkspace [.toplevelOn 7 0 .workspace]
  details := Compositor.plainDetails
  inputOptions := ⟨0, 0, "1.0"⟩
  inputDevices := [none]
  seatName := "default"
  seatCapabilities := 0
  version := ⟨"0.8.0", 0, 8, 0, 1, none⟩
  sections := []
  toStyledString _ := "[]\n"

lemma oneWindowDesktop_printable : oneWindowDesktop.Printable where
  windows v := by
    show (0 : UInt32).toNat < 2 ^ 31
    decide
  capabilities := by decide

theorem oneWindowDesktop_inputs :
    let J := jsonCppOn (.arr [.null])
    main J (printOther plainFormats J) ⟨false, false, false⟩ .getInputs (J.jsonToString (.arr [.null])) []
      = .ok 2 := by
  intro J
  have hinputs : oneWindowDesktop.describe .getInputs = .ok (.arr [.null]) := rfl
  exact main_query plainFormats J oneWindowDesktop_printable (by simp [Desktop.IsQuery]) hinputs
    ⟨by decide, by decide, rfl⟩ ⟨false, false, false⟩ []

/-- Printing the reply to `get_tree` prints a line for every node of the tree, in front of those of
its children.  The numbers of the X11 windows are printed as `int`. -/
theorem prettyPrintText_tree (F : Formats) (J : JsonCpp) {d : Desktop}
    (hwindows : SmallWindows d.details) {root : Node}
    (htree : d.compositor.getTree = .ok (some root)) :
    ∃ v, d.describe .getTree = .ok v ∧
      prettyPrintText F J .getTree v = .ok (String.join
        ((nodeLines F d.compositor d.details (root.outline 0)).map (· ++ "\n"))) ∧
      (root.outline 0).map Prod.fst = root.all := by
  refine ⟨root.document d.compositor d.details, ?_, ?_, root.outline_all 0⟩
  · rw [Desktop.describe, Desktop.getTree, htree]
    rfl
  · rw [prettyPrintText, prettyPrintTree_document F _ _ hwindows]
    rfl

theorem oneWindowDesktop_tree :
    (∃ v, oneWindowDesktop.describe .getTree = .ok v ∧
      prettyPrintText plainFormats (jsonCppOn .null) .getTree v = .ok (String.join
        ((nodeLines plainFormats oneWindowDesktop.compositor oneWindowDesktop.details
          (oneWindowDesktop.compositor.tree.outline 0)).map (· ++ "\n"))) ∧
      (oneWindowDesktop.compositor.tree.outline 0).map Prod.fst = oneWindowDesktop.compositor.tree.all) ∧
    nodeLines plainFormats oneWindowDesktop.compositor oneWindowDesktop.details
        (oneWindowDesktop.compositor.tree.outline 0)
      = ["#0: root \"root\"", "  #2147483647: output \"__i3\"",
        "    #2147483646: workspace \"__i3_scratch\"", "  #1: output \"A\"",
        "    #11: workspace \"1\"", "      #7: con \"\" (xdg_shell, pid: 0, app_id: \"\")"] :=
  ⟨prettyPrintText_tree plainFormats (jsonCppOn .null) oneWindowDesktop_printable.windows
    (Compositor.getTree_eq_some_iff.mpr ⟨Compositor.oneWorkspace_describable _, rfl⟩), by decide +kernel⟩

end WfMsg

end WayfireIpc
