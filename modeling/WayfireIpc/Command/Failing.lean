/-
# Failures under criteria

Under criteria the handler of a command is to be called on every container, and the result of
the command is the last failure.  `execute_command` has a variable for that failure, and leaves
the loop at the first one.
-/
import WayfireIpc.Command.Rounds
import WayfireIpc.Command.Handlers
import WayfireIpc.Command.Selection

namespace WayfireIpc

namespace Exec

/-- The handler is called on one container after the other, whatever it returns. -/
def visitAll (W : Commands) (name : CommandName) (argv : List Str) :
    List Node → Exec → Except Failure (Exec × List CommandResult)
  | [], s => .ok (s, [])
  | container :: containers, s =>
    match s.callHandler W name argv (setConfigNode s.compositor container true) with
    | (_, .error f) => .error f
    | (s, .ok res) => do
      let (s, results) ← visitAll W name argv containers s
      return (s, res :: results)

/-- The last failure, or success if there is none. -/
def verdict (results : List CommandResult) : CommandResult :=
  ((results.filter fun r => !r.success).getLast?).getD ⟨.success, none⟩

variable {W : Commands} {name : CommandName} {argv : List Str} {container : Node}
  {containers : List Node} {s s₁ : Exec} {results : List CommandResult}

/-- The first call, and the calls on the other containers. -/
lemma visitAll_cons (h : visitAll W name argv (container :: containers) s = .ok (s₁, results)) :
    ∃ s' res rest, s.callHandler W name argv (setConfigNode s.compositor container true) = (s', .ok res) ∧
      visitAll W name argv containers s' = .ok (s₁, rest) ∧ results = res :: rest := by
  rw [visitAll] at h
  split at h
  · cases h
  · rename_i s' res hcall
    obtain ⟨⟨s₂, rest⟩, hrest, hret⟩ := Machine.bind_ok_iff.mp h
    cases hret
    exact ⟨s', res, rest, hcall, hrest, rfl⟩

/-- The calls that have been logged. -/
def callCount (s : Exec) : ℕ := s.log.countP fun e => match e with | .call _ => true | _ => false

@[simp] lemma callCount_append (s : Exec) (r : CommandResult) : (s.append r).callCount = s.callCount := by
  simp [callCount, append]

lemma callCount_callHandler {context : Except Failure CommandHandlerContext} {s' : Exec}
    {res : CommandResult} (h : s.callHandler W name argv context = (s', .ok res)) :
    s'.callCount = s.callCount + 1 := by
  cases context with
  | error f => cases h
  | ok context =>
    rw [callHandler] at h
    split at h
    · cases h
    · cases h
      simp [callCount, enter]

/-- There is one call on each container. -/
lemma callCount_visitAll (h : visitAll W name argv containers s = .ok (s₁, results)) :
    s₁.callCount = s.callCount + containers.length ∧ results.length = containers.length := by
  induction containers generalizing s results with
  | nil =>
    cases h
    exact ⟨rfl, rfl⟩
  | cons container containers ih =>
    obtain ⟨s', res, rest, hcall, hrest, rfl⟩ := visitAll_cons h
    obtain ⟨hcount, hlen⟩ := ih hrest
    have hfirst := callCount_callHandler hcall
    rw [List.length_cons, List.length_cons, hlen]
    exact ⟨by omega, rfl⟩

lemma verdict_cons_success {res : CommandResult} (hres : res.success = true) :
    verdict (res :: results) = verdict results := by
  rw [verdict, List.filter_cons_of_neg (by simp [hres]), verdict]

/-- The loop does what it should if and only if no call fails before the last one. -/
lemma runContainers_eq_iff (h : visitAll W name argv containers s = .ok (s₁, results)) :
    (runContainers W name argv containers s).1 = s₁.append (verdict results) ↔
      ∀ r ∈ results.dropLast, r.success = true := by
  induction containers generalizing s results with
  | nil =>
    cases h
    exact iff_of_true rfl (by simp)
  | cons container containers ih =>
    obtain ⟨s', res, rest, hcall, hrest, rfl⟩ := visitAll_cons h
    rw [runContainers, hcall]
    simp only
    by_cases hres : res.status = .success
    · have hsuccess : res.success = true := by simpa [CommandResult.success] using hres
      rw [if_pos hres, verdict_cons_success hsuccess, ih hrest]
      cases rest with
      | nil => simp
      | cons r rest => simp [hsuccess]
    · have hfail : res.success = false := by simpa [CommandResult.success] using hres
      rw [if_neg hres]
      cases rest with
      | nil =>
        -- the call that fails is the last one
        have hnil : containers = [] := List.length_eq_zero_iff.mp (callCount_visitAll hrest).2.symm
        subst hnil
        cases hrest
        exact iff_of_true (by simp [verdict, hfail]) (by simp)
      | cons r rest =>
        refine iff_of_false (fun heq => ?_) fun hall => ?_
        · have hcount := congrArg callCount heq
          rw [callCount_append, callCount_append, (callCount_visitAll hrest).1,
            ← (callCount_visitAll hrest).2, List.length_cons] at hcount
          omega
        · have hcon := hall res (by simp)
          rw [hfail] at hcon
          cases hcon

/-- The handler is called on every container, and the result of the command is the last failure or
success, if and only if all calls can be made and none fails before the last. -/
theorem runContainers_visits_iff (W : Commands) (name : CommandName) (argv : List Str)
    (containers : List Node) (s : Exec) :
    (∃ s₁ results, visitAll W name argv containers s = .ok (s₁, results) ∧
      (runContainers W name argv containers s).1 = s₁.append (verdict results)) ↔
    ∃ s₁ results, visitAll W name argv containers s = .ok (s₁, results) ∧
      ∀ r ∈ results.dropLast, r.success = true :=
  exists₂_congr fun _ _ => and_congr_right runContainers_eq_iff

/-- The handlers of the two commands, and texts that match themselves. -/
def stickyAndKill : Commands where
  library := Criteria.equalTexts
  handler := fun name => if name = .sticky then stickyHandler else killHandler

/-- Two windows on workspace 1. -/
def twoOfThem : Compositor :=
  .flat [⟨1, [], 1, 1, ⟨0, 0⟩⟩] [.toplevelOn 7 0 .workspace, .toplevelOn 8 0 .workspace] none

/-- `sticky` without its argument fails on the first of two containers, and is not called on the
second. -/
theorem sticky_called_once :
    ∃ containers, ({ workspace := some (.pcre2 "1".toList) } : Criteria).getContainers
        Criteria.equalTexts twoOfThem = .ok containers ∧
      (runContainers stickyAndKill .sticky [] containers (init [] twoOfThem)).1.callCount = 1 ∧
      (∃ s₁ results, visitAll stickyAndKill .sticky [] containers (init [] twoOfThem)
          = .ok (s₁, results) ∧ s₁.callCount = 2) ∧
      ¬ ∃ s₁ results, visitAll stickyAndKill .sticky [] containers (init [] twoOfThem)
          = .ok (s₁, results) ∧
        (runContainers stickyAndKill .sticky [] containers (init [] twoOfThem)).1
          = s₁.append (verdict results) := by
  refine ⟨_, rfl, by decide +kernel, ⟨_, _, rfl, by decide +kernel⟩, ?_⟩
  rintro ⟨s₁, results, hvisit, heq⟩
  have hcount := congrArg callCount heq
  rw [callCount_append, (callCount_visitAll hvisit).1] at hcount
  revert hcount
  decide +kernel

end Exec

end WayfireIpc
