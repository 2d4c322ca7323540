/-
# Running a command string

`ipc_command::execute_command`: the loop over the commands of a string, the context that
is handed to their handlers and the list of their results.  The handlers are given by a
table; each may change the compositor.  `log` records what the loop does.
-/
import WayfireIpc.Protocol
import WayfireIpc.Command.Containers

namespace WayfireIpc

/-- The object that `command_result` makes. -/
structure CommandResult where
  status : ReturnStatus
  error : Option Str
deriving DecidableEq, Repr

namespace CommandResult

/-- The member `success`. -/
def success (r : CommandResult) : Bool := r.status = .success

/-- The member `parse_error`, which a success does not have. -/
def parseError (r : CommandResult) : Option Bool :=
  if r.success then none
  else some (r.status = .invalidParameter || r.status = .notFound)

/-- The result of a command under criteria that select nothing. -/
def noMatchingNode : CommandResult := ⟨.aborted, some "No matching node.".toList⟩

end CommandResult

/-- `command_handler_context`, without the members that only the `output` command uses. -/
structure CommandHandlerContext where
  node : Option Node := none
  container : Option Node := none
  workspace : Option Node := none
  /-- "True if the node is selected by means other than focus." -/
  nodeOverridden : Bool := false

/-- The keys of `core_handler_map`. -/
inductive CommandName
  | output | kill | fullscreen | exit | sticky | opacity | workspace | scratchpad
deriving DecidableEq, Repr

/-- `core_handler`. -/
def coreHandler (name : Str) : Option CommandName :=
  if name = "output".toList then some .output
  else if name = "kill".toList then some .kill
  else if name = "fullscreen".toList then some .fullscreen
  else if name = "exit".toList then some .exit
  else if name = "sticky".toList then some .sticky
  else if name = "opacity".toList then some .opacity
  else if name = "workspace".toList then some .workspace
  else if name = "scratchpad".toList then some .scratchpad
  else none

/-- A command handler: it gets `argv + 1` and the context, and may change the compositor. -/
abbrev CommandHandler :=
  List Str → CommandHandlerContext → Compositor → Except Failure (CommandResult × Compositor)

/-- What `execute_command` calls. -/
structure Commands where
  library : Library
  handler : CommandName → CommandHandler

/-- `set_config_node`; it sets every member of the context. -/
def setConfigNode (c : Compositor) (node : Option Node) (nodeOverridden : Bool) :
    Except Failure CommandHandlerContext :=
  match node with
  | none => .ok { nodeOverridden := nodeOverridden }
  | some n =>
    match n.attr.type with
    | .con | .floatingCon => do
      let workspace ← c.otherViewsWorkspace n.id.toUInt32
      return { node := n, container := n, workspace := workspace, nodeOverridden := nodeOverridden }
    | .workspace => .ok { node := n, workspace := n, nodeOverridden := nodeOverridden }
    | _ => .ok { node := n, nodeOverridden := nodeOverridden }

/-- The call of a handler. -/
structure HandlerCall where
  usingCriteria : Bool
  name : CommandName
  argv : List Str
  context : CommandHandlerContext
  /-- The compositor at the moment of the call. -/
  compositor : Compositor

/-- The entries of the log. -/
inductive ExecEvent
  /-- "Handling command". -/
  | handling (cmd : Str)
  | call (call : HandlerCall)
  /-- An entry of the list of results. -/
  | result (r : CommandResult)
  /-- The entry for a criteria block that does not parse. -/
  | parseError (r : CommandResult)

/-- The local variables of `execute_command`. -/
structure Exec where
  head : Option Str
  matchedDelim : Char
  usingCriteria : Bool
  containers : List Node
  handlerContext : CommandHandlerContext
  compositor : Compositor
  resList : List CommandResult
  log : List ExecEvent

/-- How a part of the loop ends. -/
inductive Flow
  /-- With the next round, if there is one. -/
  | next
  /-- With the jump to `cleanup`. -/
  | cleanup
  | failed (f : Failure)
deriving DecidableEq, Repr

namespace Exec

variable (W : Commands)

def note (s : Exec) (e : ExecEvent) : Exec := { s with log := s.log ++ [e] }

/-- `res_list.append`. -/
def append (s : Exec) (r : CommandResult) : Exec :=
  { s with resList := s.resList ++ [r], log := s.log ++ [.result r] }

/-- The handler context is set for a call, and the call is made. -/
def enter (s : Exec) (call : HandlerCall) : Exec :=
  { s with handlerContext := call.context, log := s.log ++ [.call call] }

/-- Setting the context and calling a handler, with the result that it returns. -/
def callHandler (s : Exec) (name : CommandName) (argv : List Str)
    (context : Except Failure CommandHandlerContext) : Exec × Except Failure CommandResult :=
  match context with
  | .error f => (s, .error f)
  | .ok context =>
    let called := s.enter ⟨s.usingCriteria, name, argv, context, s.compositor⟩
    match W.handler name argv context s.compositor with
    | .error f => (called, .error f)
    | .ok (res, compositor) => ({ called with compositor := compositor }, .ok res)

/-- The context of a command without criteria: that of the active view of the output, or the
one that is there when no view is active. -/
def plainContext (s : Exec) (out : OutputRef) : Except Failure CommandHandlerContext :=
  match s.compositor.activeView out with
  | some activeView => setConfigNode s.compositor (s.compositor.describeView activeView) false
  | none => .ok s.handlerContext

/-- A command without criteria. -/
def runPlain (s : Exec) (name : CommandName) (argv : List Str) : Exec × Flow :=
  match s.compositor.activeOutput with
  | none => (s, .failed .assertion)
  | some out =>
    match s.callHandler W name argv (s.plainContext out) with
    | (s, .error f) => (s, .failed f)
    | (s, .ok res) => (s.append res, if res.status ≠ .success then .cleanup else .next)

/-- The loop over the containers; after it the command has succeeded. -/
def runContainers (name : CommandName) (argv : List Str) : List Node → Exec → Exec × Flow
  | [], s => (s.append ⟨.success, none⟩, .next)
  | container :: containers, s =>
    match s.callHandler W name argv (setConfigNode s.compositor container true) with
    | (s, .error f) => (s, .failed f)
    | (s, .ok res) =>
      if res.status = .success then runContainers name argv containers s
      else (s.append res, .cleanup)

/-- The words behind the first are freed of their quotes, except for `exec` and `mode`. -/
def stripArgs (name : Str) (args : List Str) : List Str :=
  if name ≠ "exec".toList ∧ name ≠ "exec_always".toList ∧ name ≠ "mode".toList then
    args.map fun arg =>
      if charAt arg 0 = doubleQuote ∨ charAt arg 0 = singleQuote then IpcTools.stripQuotes arg
      else arg
  else args

/-- The part of a round behind "Handling command". -/
def runCommand (s : Exec) (cmd : Str) : Exec × Flow :=
  match IpcTools.splitArgs cmd with
  | .error f => (s, .failed f)
  | .ok [] => (s, .failed .nullPointer)
  | .ok (name :: args) =>
    let args := stripArgs name args
    match coreHandler name with
    | none => (s.append ⟨.notFound, some ("Unknown command ".toList ++ name)⟩, .cleanup)
    | some handler =>
      if ¬ s.usingCriteria then s.runPlain W handler args
      else if s.containers = [] then (s.append .noMatchingNode, .next)
      else runContainers W handler args s.containers s

/-- The part of a round behind the criteria block: a command is cut off and run. -/
def nextCommand (s : Exec) (head : Str) : Exec × Flow :=
  match IpcTools.argsep ";,".toList head with
  | .error f => (s, .failed f)
  | .ok r =>
    let s := { s with head := r.stringp, matchedDelim := r.matched }
    let cmd := skipBlanks r.start
    if cmd = [] then (s, .next) else (s.note (.handling cmd)).runCommand W cmd

/-- One round of the loop. -/
def round (s : Exec) (head : Str) : Exec × Flow :=
  let head := skipBlanks head
  if s.matchedDelim = ';' then
    let s := { s with usingCriteria := false }
    if head.head? = some '[' then
      match Criteria.parse W.library s.compositor head with
      | .error f => (s, .failed f)
      | .ok (.error error) =>
        let r := ⟨.invalidParameter, some error⟩
        ({ s with resList := s.resList ++ [r], log := s.log ++ [.parseError r] }, .cleanup)
      | .ok (.ok criteria) =>
        match criteria.getContainers W.library s.compositor with
        | .error f => (s, .failed f)
        | .ok containers =>
          let s := { s with containers := containers, usingCriteria := true }
          s.nextCommand W (skipBlanks (head.drop criteria.raw.length))
    else s.nextCommand W head
  else s.nextCommand W head

/-- The loop. -/
def loop : ℕ → Exec → Exec × Flow
  | 0, s => (s, .failed .diverges)
  | n + 1, s =>
    match s.head with
    | none => (s, .cleanup)
    | some head =>
      match s.round W head with
      | (s, .next) => loop n s
      | r => r

/-- The variables before the loop. -/
def init (exec : Str) (c : Compositor) : Exec where
  head := some (cStr exec)
  matchedDelim := ';'
  usingCriteria := false
  containers := []
  handlerContext := {}
  compositor := c
  resList := []
  log := []

end Exec

/-- `execute_command`: the variables at the end and how it ends; when it returns, it returns
`resList`. -/
def executeCommand (W : Commands) (exec : Str) (c : Compositor) : Exec × Flow :=
  Exec.loop W ((cStr exec).length + 2) (Exec.init exec c)

end WayfireIpc
