/-
# What a command string asks of Wayfire

The handlers of `kill`, `sticky`, `workspace` and `scratchpad` change the compositor only by
requests to Wayfire.  This file says which requests a call of each of them can make, and that a
command string does nothing to the compositor but the requests of its calls, in their order.
-/
import WayfireIpc.Command.Context
import WayfireIpc.Command.Kill
import WayfireIpc.Command.Scratchpad

namespace WayfireIpc

/-! ## Calls one behind the other -/

namespace Exec

/-- Each call finds the compositor as the call before has left it, and `R` says how a call can
leave it. -/
inductive Linked (R : HandlerCall → Compositor → Prop) :
    Compositor → List HandlerCall → Compositor → Prop
  | nil (c : Compositor) : Linked R c [] c
  | cons {k : HandlerCall} {calls : List HandlerCall} {c₁ c' : Compositor} (h : R k c₁)
      (hrest : Linked R c₁ calls c') : Linked R k.compositor (k :: calls) c'

lemma Linked.append {R : HandlerCall → Compositor → Prop} {c c₁ c' : Compositor}
    {calls calls' : List HandlerCall} (h : Linked R c calls c₁) (h' : Linked R c₁ calls' c') :
    Linked R c (calls ++ calls') c' := by
  induction h with
  | nil c => exact h'
  | cons h hrest ih => exact .cons h (ih h')

/-- The calls from `s` to `s'` are linked. -/
def Leads (R : HandlerCall → Compositor → Prop) (s s' : Exec) : Prop :=
  ∃ calls, callsOf s'.log = callsOf s.log ++ calls ∧ Linked R s.compositor calls s'.compositor

/-- `R` covers every call of a handler, also one that throws. -/
structure Covers (W : Commands) (R : HandlerCall → Compositor → Prop) : Prop where
  throws : ∀ k, R k k.compositor
  returns : ∀ k res c', W.handler k.name k.argv k.context k.compositor = .ok (res, c') → R k c'

section Run

variable {W : Commands} {R : HandlerCall → Compositor → Prop}

/-- A step without calls. -/
lemma leads_of_eq {s s' : Exec} (hlog : callsOf s'.log = callsOf s.log)
    (hcompositor : s'.compositor = s.compositor) : Leads R s s' := by
  refine ⟨[], by rw [hlog, List.append_nil], ?_⟩
  rw [hcompositor]
  exact .nil s.compositor

lemma Leads.trans {s s₁ s' : Exec} (h : Leads R s s₁) (h' : Leads R s₁ s') : Leads R s s' := by
  obtain ⟨calls, hlog, hlinked⟩ := h
  obtain ⟨calls', hlog', hlinked'⟩ := h'
  exact ⟨calls ++ calls', by rw [hlog', hlog, List.append_assoc], hlinked.append hlinked'⟩

lemma leads_append (s : Exec) (r : CommandResult) : Leads R s (s.append r) := by
  refine leads_of_eq ?_ rfl
  rw [append, callsOf_append]
  exact List.append_nil _

variable (h : Covers W R)
include h

lemma leads_callHandler (s : Exec) (name : CommandName) (argv : List Str)
    (context : Except Failure CommandHandlerContext) :
    Leads R s (s.callHandler W name argv context).1 := by
  rcases context with f | context
  · exact leads_of_eq rfl rfl
  · let k : HandlerCall := ⟨s.usingCriteria, name, argv, context, s.compositor⟩
    have hcall : ∀ c', R k c' → Leads R s { s.enter k with compositor := c' } := fun c' hc' =>
      ⟨[k], callsOf_append _ _, .cons hc' (.nil c')⟩
    rw [callHandler]
    rcases hres : W.handler name argv context s.compositor with f | ⟨res, c'⟩
    · exact hcall s.compositor (h.throws k)
    · exact hcall c' (h.returns k res c' hres)

lemma leads_runContainers (name : CommandName) (argv : List Str) (containers : List Node) :
    ∀ s : Exec, Leads R s (runContainers W name argv containers s).1 := by
  induction containers with
  | nil => exact fun s => leads_append s _
  | cons container containers ih =>
    intro s
    have hcall := leads_callHandler h s name argv (setConfigNode s.compositor container true)
    rw [runContainers]
    rcases hcalled : s.callHandler W name argv (setConfigNode s.compositor container true) with
      ⟨s₁, f | res⟩
    · rw [hcalled] at hcall
      exact hcall
    · rw [hcalled] at hcall
      dsimp only
      split_ifs
      · exact hcall.trans (ih s₁)
      · exact hcall.trans (leads_append s₁ res)

lemma leads_runPlain (s : Exec) (name : CommandName) (argv : List Str) :
    Leads R s (s.runPlain W name argv).1 := by
  rw [runPlain]
  rcases s.compositor.activeOutput with _ | out
  · exact leads_of_eq rfl rfl
  · have hcall := leads_callHandler h s name argv (s.plainContext out)
    dsimp only
    rcases hcalled : s.callHandler W name argv (s.plainContext out) with ⟨s₁, f | res⟩
    · rw [hcalled] at hcall
      exact hcall
    · rw [hcalled] at hcall
      exact hcall.trans (leads_append s₁ res)

lemma leads_runCommand (s : Exec) (cmd : Str) : Leads R s (s.runCommand W cmd).1 := by
  rw [runCommand]
  rcases IpcTools.splitArgs cmd with f | _ | ⟨name, args⟩
  · exact leads_of_eq rfl rfl
  · exact leads_of_eq rfl rfl
  · dsimp only
    rcases coreHandler name with _ | handler
    · exact leads_append s _
    · dsimp only
      split_ifs
      · exact leads_append s _
      · exact leads_runContainers h handler _ _ s
      · exact leads_runPlain h s handler _

lemma leads_nextCommand (s : Exec) (head : Str) : Leads R s (s.nextCommand W head).1 := by
  rw [nextCommand]
  rcases IpcTools.argsep ";,".toList head with f | r
  · exact leads_of_eq rfl rfl
  · dsimp only
    split_ifs
    · exact leads_of_eq rfl rfl
    · have hrun := leads_runCommand h (note { s with head := r.stringp, matchedDelim := r.matched }
        (.handling (skipBlanks r.start))) (skipBlanks r.start)
      refine Leads.trans (leads_of_eq ?_ ?_) hrun
      · rw [note, callsOf_append]
        exact List.append_nil _
      · rfl

lemma leads_round (s : Exec) (head : Str) : Leads R s (s.round W head).1 := by
  have hnext : ∀ (s₁ : Exec) (t : Str), s₁.log = s.log → s₁.compositor = s.compositor →
      Leads R s (s₁.nextCommand W t).1 := fun s₁ t hlog hcompositor =>
    Leads.trans (leads_of_eq (congrArg callsOf hlog) hcompositor)
      (leads_nextCommand h s₁ t)
  rw [round]
  dsimp only
  split_ifs
  · rcases Criteria.parse W.library s.compositor (skipBlanks head) with f | error | criteria
    · exact leads_of_eq rfl rfl
    · refine leads_of_eq ?_ rfl
      exact (callsOf_append _ _).trans (List.append_nil _)
    · dsimp only
      rcases criteria.getContainers W.library s.compositor with f | containers
      · exact leads_of_eq rfl rfl
      · exact hnext _ _ rfl rfl
  · exact hnext _ _ rfl rfl
  · exact hnext _ _ rfl rfl

lemma leads_loop : ∀ (n : ℕ) (s : Exec), Leads R s (loop W n s).1 := by
  intro n
  induction n with
  | zero => exact fun s => leads_of_eq rfl rfl
  | succ n ih =>
    intro s
    rw [loop]
    rcases s.head with _ | head
    · exact leads_of_eq rfl rfl
    · have hround := leads_round h s head
      dsimp only
      rcases hs : s.round W head with ⟨s₁, _ | _ | f⟩
      · rw [hs] at hround
        exact hround.trans (ih s₁)
      · rw [hs] at hround
        exact hround
      · rw [hs] at hround
        exact hround

/-- The calls of a run are linked. -/
lemma executeCommand_linked (exec : Str) (c : Compositor) :
    Linked R c (callsOf (executeCommand W exec c).1.log) (executeCommand W exec c).1.compositor := by
  obtain ⟨calls, hlog, hlinked⟩ := leads_loop h ((cStr exec).length + 2) (init exec c)
  have hcalls : callsOf (executeCommand W exec c).1.log = calls := hlog
  rw [hcalls]
  exact hlinked

end Run

end Exec

/-! ## Requests -/

/-- What the handlers ask of Wayfire. -/
inductive Request
  | close (v : ViewRef)
  | setSticky (v : ViewRef) (sticky : Bool)
  | requestWorkspace (ws : Point) (output : OutputRef)
  | moveToWorkspace (output : OutputRef) (v : ViewRef) (ws : Point)
  | minimizeRequest (v : ViewRef) (minimized : Bool)

/-- The command that makes a request. -/
def Request.command : Request → CommandName
  | .close _ => .kill
  | .setSticky _ _ => .sticky
  | .requestWorkspace _ _ => .workspace
  | .moveToWorkspace _ _ _ => .scratchpad
  | .minimizeRequest _ _ => .scratchpad

/-- What a request does to the values that the commands read; whatever else Wayfire does then is
outside of the model. -/
def Request.run (M : MoveToWorkspace) (c : Compositor) : Request → Compositor
  | .close v => c.close [v]
  | .setSticky v sticky => c.setSticky v sticky
  | .requestWorkspace ws output => c.workspaceSwitch ws output
  | .moveToWorkspace output v ws => M.run c output v ws
  | .minimizeRequest v minimized => c.minimizeRequest v minimized

/-- Requests one behind the other. -/
def Request.runAll (M : MoveToWorkspace) (c : Compositor) (requests : List Request) : Compositor :=
  requests.foldl (run M) c

open IpcCommand

namespace HandlerCall

/-- The requests that a call can make. -/
inductive Asks (k : HandlerCall) : List Request → Prop
  | nothing : k.Asks []
  /-- The views of the container, and the root once more. -/
  | kill {con : Node} (hname : k.name = .kill) (hcon : k.context.container = some con) :
      k.Asks ((k.compositor.named con.tiled ++ k.compositor.named [con]).map .close)
  | sticky {v : ViewRef} (hname : k.name = .sticky)
      (hv : containerGetView k.compositor k.context.container = some v)
      (htop : (k.compositor.view v).isToplevel) :
      k.Asks [.setSticky v (parseBoolean (k.argv.headD []) (k.compositor.view v).sticky)]
  | workspace {o : OutputRef} {ws : Point} (hname : k.name = .workspace)
      (ho : k.compositor.activeOutput = some o) (hws : k.compositor.IsWorkspaceValid o ws) :
      k.Asks [.requestWorkspace ws o]
  | scratchpad {v : ViewRef} (minimized : Bool) (hname : k.name = .scratchpad)
      (htop : (k.compositor.view v).isToplevel) : k.Asks [.minimizeRequest v minimized]
  /-- A view of another workspace is moved to the current one first. -/
  | fetch {o : OutputRef} {v : ViewRef} (hname : k.name = .scratchpad)
      (ho : k.compositor.activeOutput = some o) (htop : (k.compositor.view v).isToplevel) :
      k.Asks [.moveToWorkspace o v (k.compositor.output o).currentWorkspace, .minimizeRequest v true]

/-- The call leaves the compositor as some requests that it can make do. -/
def LeadsTo (k : HandlerCall) (M : MoveToWorkspace) (c' : Compositor) : Prop :=
  ∃ requests, k.Asks requests ∧ c' = Request.runAll M k.compositor requests

variable {k : HandlerCall} {M : MoveToWorkspace} {c' : Compositor} {res : CommandResult}

lemma LeadsTo.nothing (k : HandlerCall) (M : MoveToWorkspace) : k.LeadsTo M k.compositor :=
  ⟨[], .nothing, rfl⟩

/-- A call makes requests of its own command only. -/
lemma Asks.command {requests : List Request} (h : k.Asks requests) :
    ∀ r ∈ requests, r.command = k.name := by
  cases h with
  | nothing => exact fun r hr => absurd hr List.not_mem_nil
  | kill hname =>
    intro r hr
    obtain ⟨v, -, rfl⟩ := List.mem_map.mp hr
    exact hname.symm
  | sticky hname => exact List.forall_mem_singleton.mpr hname.symm
  | workspace hname => exact List.forall_mem_singleton.mpr hname.symm
  | scratchpad _ hname => exact List.forall_mem_singleton.mpr hname.symm
  | fetch hname =>
    exact List.forall_mem_cons.mpr ⟨hname.symm, List.forall_mem_singleton.mpr hname.symm⟩

/-! ## What the handlers ask for -/

/-- Views asked to close one behind the other. -/
lemma runAll_close (M : MoveToWorkspace) (vs : List ViewRef) :
    ∀ c : Compositor, Request.runAll M c (vs.map .close) = c.close vs := by
  induction vs with
  | nil => exact fun c => rfl
  | cons v vs ih =>
    intro c
    rw [List.map_cons, Request.runAll, List.foldl_cons, ← Request.runAll, ih, Request.run,
      Compositor.close_close, List.singleton_append]

lemma killHandler_asks (hname : k.name = .kill)
    (h : killHandler k.argv k.context k.compositor = .ok (res, c')) : k.LeadsTo M c' := by
  rcases hcon : k.context.container with _ | con
  · rw [killHandler, hcon] at h
    split_ifs at h <;> cases h <;> exact .nothing k M
  · rw [killHandler_eq k.argv k.context hcon] at h
    split_ifs at h
    · cases h
      exact .nothing k M
    · cases h
      exact ⟨_, .kill hname hcon, (runAll_close M _ _).symm⟩

lemma stickyHandler_asks (hname : k.name = .sticky)
    (h : stickyHandler k.argv k.context k.compositor = .ok (res, c')) : k.LeadsTo M c' := by
  rw [stickyHandler] at h
  split at h
  · cases h
    exact .nothing k M
  · split_ifs at h
    · cases h
      exact .nothing k M
    · cases h
      exact .nothing k M
    · split at h
      · cases h
        exact .nothing k M
      · rename_i v hv
        cases h
        obtain ⟨hv, htop⟩ := Option.filter_eq_some_iff.mp hv
        exact ⟨_, .sticky hname hv htop, rfl⟩

lemma switchIfValid_asks (hname : k.name = .workspace) {ws : Point}
    (h : k.compositor.switchIfValid ws k.compositor.activeOutput = .ok (res, c')) :
    k.LeadsTo M c' := by
  rcases ho : k.compositor.activeOutput with _ | o
  · rw [ho] at h
    cases h
  · rw [ho, Compositor.switchIfValid] at h
    split_ifs at h with hws
    · cases h
      exact ⟨_, .workspace hname ho hws, rfl⟩
    · cases h
      exact .nothing k M

lemma workspaceHandler_asks (hname : k.name = .workspace)
    (h : workspaceHandler k.argv k.context k.compositor = .ok (res, c')) : k.LeadsTo M c' := by
  rw [workspaceHandler] at h
  split at h
  · cases h
    exact .nothing k M
  · dsimp only at h
    split_ifs at h
    · split at h
      · cases h
        exact .nothing k M
      · split_ifs at h
        · obtain ⟨index, -, h⟩ := Machine.bind_ok_iff.mp h
          obtain ⟨ws, -, h⟩ := Machine.bind_ok_iff.mp h
          exact switchIfValid_asks hname h
        · cases h
          exact .nothing k M
    · obtain ⟨ws, -, h⟩ := Machine.bind_ok_iff.mp h
      exact switchIfValid_asks hname h
    · obtain ⟨ws, -, h⟩ := Machine.bind_ok_iff.mp h
      exact switchIfValid_asks hname h

/-- A view that is searched for among the containers is a toplevel view. -/
lemma isToplevel_of_findSome? {c : Compositor} {focus : Option ViewRef} {containers : List Node}
    {v : ViewRef} (h : containers.findSome? (c.unfocusedToplevel focus) = some v) :
    (c.view v).isToplevel := by
  obtain ⟨container, -, hv⟩ := List.exists_of_findSome?_eq_some h
  rw [Compositor.unfocusedToplevel] at hv
  split_ifs at hv
  exact (Option.filter_eq_some_iff.mp hv).2

lemma scratchpadToggleAuto_asks (hname : k.name = .scratchpad) {o : OutputRef}
    (ho : k.compositor.activeOutput = some o) :
    k.LeadsTo M (k.compositor.scratchpadToggleAuto M o) := by
  rw [Compositor.scratchpadToggleAuto]
  dsimp only
  split
  · rename_i v hv
    exact ⟨_, .scratchpad false hname (Option.filter_eq_some_iff.mp hv).2, rfl⟩
  · split_ifs
    · exact .nothing k M
    · split
      · rename_i v hv
        exact ⟨_, .scratchpad true hname (isToplevel_of_findSome? hv), rfl⟩
      · split
        · rename_i v hv
          exact ⟨_, .fetch hname ho (isToplevel_of_findSome? hv), rfl⟩
        · exact .nothing k M

lemma scratchpadHandler_asks (hname : k.name = .scratchpad)
    (h : scratchpadHandler M k.argv k.context k.compositor = .ok (res, c')) : k.LeadsTo M c' := by
  rw [scratchpadHandler] at h
  split at h
  · cases h
    exact .nothing k M
  · split_ifs at h
    · cases h
      exact .nothing k M
    · split at h
      · cases h
        exact .nothing k M
      · rename_i v hv
        cases h
        exact ⟨_, .scratchpad _ hname (Option.filter_eq_some_iff.mp hv).2, rfl⟩
    · split at h
      · cases h
        exact .nothing k M
      · rename_i o ho
        cases h
        exact scratchpadToggleAuto_asks hname ho

end HandlerCall

/-! ## What a run asks for -/

/-- The handlers of this file, and others for the other names. -/
def coreCommands (L : Library) (M : MoveToWorkspace) (others : CommandName → CommandHandler) :
    Commands where
  library := L
  handler
    | .kill => killHandler
    | .sticky => stickyHandler
    | .workspace => workspaceHandler
    | .scratchpad => scratchpadHandler M
    | name => others name

/-- The names of the handlers of this file. -/
def CommandName.IsCore (name : CommandName) : Prop :=
  name = .kill ∨ name = .sticky ∨ name = .workspace ∨ name = .scratchpad

instance : DecidablePred CommandName.IsCore := fun _ => inferInstanceAs (Decidable (_ ∨ _))

/-- How a call of one of the handlers of this file leaves the compositor. -/
def HandlerCall.Leaves (M : MoveToWorkspace) (k : HandlerCall) (c' : Compositor) : Prop :=
  k.name.IsCore → k.LeadsTo M c'

/-- The handlers of this file make the requests of their calls. -/
lemma covers_leaves (L : Library) (M : MoveToWorkspace) (others : CommandName → CommandHandler) :
    Exec.Covers (coreCommands L M others) (HandlerCall.Leaves M) where
  throws k _ := .nothing k M
  returns k res c' h hcore := by
    rcases hcore with hname | hname | hname | hname
    · exact HandlerCall.killHandler_asks hname (by rwa [hname] at h)
    · exact HandlerCall.stickyHandler_asks hname (by rwa [hname] at h)
    · exact HandlerCall.workspaceHandler_asks hname (by rwa [hname] at h)
    · exact HandlerCall.scratchpadHandler_asks hname (by rwa [hname] at h)

/-- Linked calls of the handlers of this file make their requests one behind the other. -/
lemma Exec.Linked.requests {M : MoveToWorkspace} {c c' : Compositor} {calls : List HandlerCall}
    (h : Exec.Linked (HandlerCall.Leaves M) c calls c') (hcore : ∀ k ∈ calls, k.name.IsCore) :
    ∃ requests, List.Forall₂ HandlerCall.Asks calls requests ∧
      c' = Request.runAll M c requests.flatten ∧
      ∀ r ∈ requests.flatten, ∃ k ∈ calls, r.command = k.name := by
  induction h with
  | nil c => exact ⟨[], .nil, rfl, fun r hr => absurd hr List.not_mem_nil⟩
  | @cons k calls c₁ c' h hrest ih =>
    obtain ⟨hname, hcalls⟩ := List.forall_mem_cons.mp hcore
    obtain ⟨asked, hasks, rfl⟩ := h hname
    obtain ⟨requests, hrequests, hlast, hcommand⟩ := ih hcalls
    refine ⟨asked :: requests, .cons hasks hrequests, ?_, ?_⟩
    · rw [hlast, List.flatten_cons, Request.runAll, Request.runAll, Request.runAll,
        List.foldl_append]
    · rw [List.flatten_cons, List.forall_mem_append]
      refine ⟨fun r hr => ⟨k, List.mem_cons_self, hasks.command r hr⟩, fun r hr => ?_⟩
      obtain ⟨k', hk', hr⟩ := hcommand r hr
      exact ⟨k', List.mem_cons_of_mem _ hk', hr⟩

/-- A command string leaves the compositor to its calls: each call finds it as the call before has
left it, and a call of `kill`, `sticky`, `workspace` or `scratchpad` makes the requests of its own
command and does nothing else.  If it calls no others, all that happens are these requests. -/
theorem executeCommand_asks (L : Library) (M : MoveToWorkspace)
    (others : CommandName → CommandHandler) (exec : Str) (c : Compositor) :
    let s := (executeCommand (coreCommands L M others) exec c).1
    Exec.Linked (HandlerCall.Leaves M) c (callsOf s.log) s.compositor ∧
      ((∀ k ∈ callsOf s.log, k.name.IsCore) → ∃ requests,
        List.Forall₂ HandlerCall.Asks (callsOf s.log) requests ∧
        s.compositor = Request.runAll M c requests.flatten ∧
        ∀ r ∈ requests.flatten, ∃ k ∈ callsOf s.log, r.command = k.name) := by
  intro s
  have hlinked := Exec.executeCommand_linked (covers_leaves L M others) exec c
  exact ⟨hlinked, fun hcore => hlinked.requests hcore⟩

/-- All four commands on two workspaces with one window. -/
theorem twoWorkspaces_asks :
    let c := Compositor.flat [⟨1, "A".toList, 2, 1, ⟨0, 0⟩⟩] [.toplevelOn 7 0 .workspace] (some 0)
    let s := (executeCommand (coreCommands ⟨fun _ => none, fun _ _ => false, fun _ l => l⟩
      .plain fun _ => killHandler)
      "[con_id=7] sticky on; workspace 2, scratchpad show; kill".toList c).1
    ∃ requests, List.Forall₂ HandlerCall.Asks (callsOf s.log) requests ∧
      s.compositor = Request.runAll .plain c requests.flatten ∧
      ∀ r ∈ requests.flatten, ∃ k ∈ callsOf s.log, r.command = k.name :=
  (executeCommand_asks _ _ _ _ _).2 (by decide +kernel)

end WayfireIpc
