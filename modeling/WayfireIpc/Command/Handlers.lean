/-
# Handlers of commands on a container

`kill` and `sticky`, with the helpers of `command_impl.cpp` that they use: they act on the
view whose id is that of the container in their context.
-/
import WayfireIpc.Command.Execute

namespace WayfireIpc

/-- `strcasecmp(s, t) == 0` for a text `t` in lower case. -/
def eqIgnoringCase (s t : Str) : Bool := s.map Char.toLower = t

namespace IpcCommand

/-- `parse_boolean`. -/
def parseBoolean (boolean : Str) (current : Bool) : Bool :=
  if ["1", "yes", "on", "true", "enable", "enabled", "active"].any fun t =>
      eqIgnoringCase boolean t.toList then true
  else if eqIgnoringCase boolean "toggle".toList then !current
  else false

/-- `expected_args`. -/
inductive ExpectedArgs
  | atLeast | atMost | equalTo
deriving DecidableEq, Repr

/-- `checkarg`; no result if the check succeeds. -/
def checkarg (argc : ℕ) (name : Str) (type : ExpectedArgs) (val : ℕ) : Option CommandResult :=
  let errorName : Option Str := match type with
    | .atLeast => if argc < val then some "at least ".toList else none
    | .atMost => if argc > val then some "at most ".toList else none
    | .equalTo => if argc ≠ val then some [] else none
  errorName.map fun errorName =>
    ⟨.invalidParameter, some ("Invalid ".toList ++ name ++ " command (expected ".toList ++ errorName
      ++ toString10 val ++ " argument".toList ++ (if val ≠ 1 then "s".toList else [])
      ++ ", got ".toList ++ toString10 argc ++ ")".toList)⟩

/-- `find_container`. -/
def findContainer (c : Compositor) (conId : Int32) : Option ViewRef :=
  c.allViews.find? fun v => conId.toUInt32 = (c.view v).id

section FindContainer

variable {c : Compositor} {v : ViewRef} {id : Int32}

lemma findContainer_id (hfind : findContainer c id = some v) :
    v ∈ c.allViews ∧ id.toUInt32 = (c.view v).id := by
  rw [findContainer] at hfind
  exact ⟨List.mem_of_find?_eq_some hfind, by simpa using List.find?_some hfind⟩

lemma exists_findContainer (hv : v ∈ c.allViews) (hid : id.toUInt32 = (c.view v).id) :
    ∃ w, findContainer c id = some w := by
  rw [← Option.isSome_iff_exists, findContainer, List.find?_isSome]
  exact ⟨v, hv, decide_eq_true hid⟩

end FindContainer

/-- `container_get_view`. -/
def containerGetView (c : Compositor) (container : Option Node) : Option ViewRef :=
  container.bind fun container => findContainer c container.id

/-- `close_view_container`. -/
def closeViewContainer (c : Compositor) (container : Node) : Compositor :=
  match containerGetView c container with
  | some view => { c with closed := view :: c.closed }
  | none => c

mutual

/-- `close_view_container_child`. -/
def closeViewContainerChild (c : Compositor) : Node → Compositor
  | .mk attr nodes floatingNodes =>
    closeViewContainerChildren (closeViewContainer c (.mk attr nodes floatingNodes)) nodes

/-- Its loop over the children. -/
def closeViewContainerChildren (c : Compositor) : List Node → Compositor
  | [] => c
  | node :: nodes => closeViewContainerChildren (closeViewContainerChild c node) nodes

end

end IpcCommand

/-- The result of a command that needs an output when there is none. -/
def noOutputs : CommandResult :=
  ⟨.invalidParameter,
    some "Can't run this command while there's no outputs connected.".toList⟩

open IpcCommand

/-- `kill_handler`. -/
def killHandler : CommandHandler := fun _ ctx c =>
  if c.outputs = [] then .ok (noOutputs, c)
  else
    match ctx.container with
    | some con => .ok (⟨.success, none⟩, closeViewContainer (closeViewContainerChild c con) con)
    | none => .ok (⟨.unsupported, some "Killing a workspace is unsupported for now.".toList⟩, c)

/-- `set_sticky` of a view. -/
def Compositor.setSticky (c : Compositor) (v : ViewRef) (sticky : Bool) : Compositor :=
  { c with view := Function.update c.view v { c.view v with sticky := sticky } }

/-- `sticky_handler`. -/
def stickyHandler : CommandHandler := fun argv ctx c =>
  match checkarg argv.length "sticky".toList .equalTo 1 with
  | some error => .ok (error, c)
  | none =>
    if c.outputs = [] then .ok (noOutputs, c)
    else if ctx.container.isNone then
      .ok (⟨.invalidParameter, some "No current container".toList⟩, c)
    else
      match (containerGetView c ctx.container).filter fun v => (c.view v).isToplevel with
      | none => .ok (⟨.aborted, some "No toplevel for this container".toList⟩, c)
      | some v =>
        let sticky := parseBoolean (argv.headD []) (c.view v).sticky
        .ok (⟨.success, none⟩, c.setSticky v sticky)

end WayfireIpc
