/-
# The rounds of `execute_command`

What one round adds to the log and to the list of results, and from this the log of a
whole run: one segment for each command that is reached, and at the end possibly a
criteria block that does not parse or a failure.
-/
import WayfireIpc.Command.Execute

namespace WayfireIpc

/-- The entry of the list of results that an event stands for. -/
def ExecEvent.entry : ExecEvent → Option CommandResult
  | .result r => some r
  | .parseError r => some r
  | _ => none

/-- The failures that come from the code which the loop calls. -/
inductive Raised (W : Commands) : Failure → Prop
  | handler {name argv ctx c f} : W.handler name argv ctx c = .error f → Raised W f
  | context {c node b f} : setConfigNode c node b = .error f → Raised W f
  | criteria {c f} {ks : Criteria} : ks.getContainers W.library c = .error f → Raised W f
  /-- There is no active output. -/
  | output : Raised W .assertion

namespace Exec

/-- `s'` is `s` after the events `evs`, at the same place of the string. -/
structure Extends (s s' : Exec) (evs : List ExecEvent) : Prop where
  log : s'.log = s.log ++ evs
  resList : s'.resList = s.resList ++ evs.filterMap ExecEvent.entry
  head : s'.head = s.head

/-- The part of a command behind "Handling command": handlers are called, and then there is a
result, or one of the calls fails. -/
inductive Tail (W : Commands) (s s' : Exec) : Flow → Prop
  | passed (calls : List HandlerCall) {r : CommandResult}
      (h : s.Extends s' (calls.map .call ++ [.result r]))
      (hr : r.success = true ∨ r = .noMatchingNode) : Tail W s s' .next
  | stopped (calls : List HandlerCall) {r : CommandResult}
      (h : s.Extends s' (calls.map .call ++ [.result r])) (hr : r.success = false) :
      Tail W s s' .cleanup
  | failed (calls : List HandlerCall) {f : Failure} (h : s.Extends s' (calls.map .call))
      (hf : Raised W f) : Tail W s s' (.failed f)

variable {W : Commands} {s s₁ s' : Exec} {evs evs' : List ExecEvent}

lemma Extends.refl : s.Extends s [] := ⟨by simp, by simp, rfl⟩

lemma Extends.trans (h : s.Extends s₁ evs) (h' : s₁.Extends s' evs') :
    s.Extends s' (evs ++ evs') where
  log := by rw [h'.log, h.log, List.append_assoc]
  resList := by rw [h'.resList, h.resList, List.filterMap_append, List.append_assoc]
  head := h'.head.trans h.head

lemma extends_append (s : Exec) (r : CommandResult) : s.Extends (s.append r) [.result r] :=
  ⟨rfl, rfl, rfl⟩

lemma entries_calls (calls : List HandlerCall) :
    (calls.map ExecEvent.call).filterMap ExecEvent.entry = [] := by
  induction calls with
  | nil => rfl
  | cons call calls ih => exact ih

/-- Calls made before the tail of a command belong to it. -/
lemma Tail.after (calls : List HandlerCall) (h : s.Extends s₁ (calls.map .call)) {flow : Flow}
    (ht : Tail W s₁ s' flow) : Tail W s s' flow := by
  cases ht with
  | passed calls' h' hr =>
    refine .passed (calls ++ calls') ?_ hr
    rw [List.map_append, List.append_assoc]
    exact h.trans h'
  | stopped calls' h' hr =>
    refine .stopped (calls ++ calls') ?_ hr
    rw [List.map_append, List.append_assoc]
    exact h.trans h'
  | failed calls' h' hf =>
    refine .failed (calls ++ calls') ?_ hf
    rw [List.map_append]
    exact h.trans h'

/-- The result after which a command has passed. -/
lemma Tail.of_result (r : CommandResult) (hr : r.success = true ∨ r = .noMatchingNode) :
    Tail W s (s.append r) .next :=
  .passed [] (extends_append s r) hr

lemma Tail.of_failure (r : CommandResult) (hr : r.success = false) :
    Tail W s (s.append r) .cleanup :=
  .stopped [] (extends_append s r) hr

/-- The two outcomes of setting a context and calling a handler. -/
lemma callHandler_cases (s : Exec) (name : CommandName) (argv : List Str)
    (context : Except Failure CommandHandlerContext)
    (hcontext : ∀ f, context = .error f → Raised W f) :
    (∃ s' f, ∃ calls : List HandlerCall, s.callHandler W name argv context = (s', .error f) ∧
      s.Extends s' (calls.map .call) ∧ Raised W f) ∨
    (∃ s' res, ∃ call : HandlerCall, s.callHandler W name argv context = (s', .ok res) ∧
      s.Extends s' ([call].map .call)) := by
  cases context with
  | error f => exact Or.inl ⟨s, f, [], rfl, .refl, hcontext f rfl⟩
  | ok context =>
    set call : HandlerCall := ⟨s.usingCriteria, name, argv, context, s.compositor⟩ with hcall
    have henter : s.Extends (s.enter call) ([call].map .call) := ⟨rfl, by simp [enter, ExecEvent.entry], rfl⟩
    cases hres : W.handler name argv context s.compositor with
    | error f =>
      exact Or.inl ⟨s.enter call, f, [call], by rw [callHandler, hres], henter, .handler hres⟩
    | ok res =>
      exact Or.inr ⟨{ s.enter call with compositor := res.2 }, res.1, call,
        by rw [callHandler, hres], henter.log, henter.resList, henter.head⟩

lemma runPlain_tail (s : Exec) (name : CommandName) (argv : List Str) :
    Tail W s (s.runPlain W name argv).1 (s.runPlain W name argv).2 := by
  rw [runPlain]
  cases s.compositor.activeOutput with
  | none => exact .failed [] .refl .output
  | some out =>
    simp only
    have hcontext : ∀ f, s.plainContext out = .error f → Raised W f := by
      intro f hf
      rw [plainContext] at hf
      split at hf
      · exact .context hf
      · cases hf
    rcases callHandler_cases (W := W) s name argv _ hcontext with
      ⟨s', f, calls, heq, hext, hf⟩ | ⟨s', res, call, heq, hext⟩
    · rw [heq]
      exact .failed calls hext hf
    · rw [heq]
      simp only
      split_ifs with hstatus
      · exact Tail.after [call] hext (.of_failure res (by simpa [CommandResult.success]))
      · exact Tail.after [call] hext
          (.of_result res (Or.inl (by simpa [CommandResult.success] using hstatus)))

lemma runContainers_tail (name : CommandName) (argv : List Str) : ∀ (containers : List Node) (s : Exec),
    Tail W s (runContainers W name argv containers s).1
      (runContainers W name argv containers s).2 := by
  intro containers
  induction containers with
  | nil => exact fun s => .of_result _ (Or.inl rfl)
  | cons container containers ih =>
    intro s
    rw [runContainers]
    rcases callHandler_cases (W := W) s name argv (setConfigNode s.compositor container true)
        (fun f hf => .context hf) with
      ⟨s', f, calls, heq, hext, hf⟩ | ⟨s', res, call, heq, hext⟩
    · rw [heq]
      exact .failed calls hext hf
    · rw [heq]
      simp only
      split_ifs with hstatus
      · exact Tail.after [call] hext (ih s')
      · exact Tail.after [call] hext (.of_failure res (by simpa [CommandResult.success]))

/-- The text of the command after its blanks begins with a word. -/
lemma runCommand_tail (s : Exec) {cmd : Str} (hne : cmd ≠ []) (hnul : nul ∉ cmd)
    (hblank : isSpace (charAt cmd 0) = false) :
    Tail W s (s.runCommand W cmd).1 (s.runCommand W cmd).2 := by
  obtain ⟨argv, hargv, hsome⟩ := IpcTools.splitArgs_spec cmd
  have hfirst : charAt cmd 0 ≠ nul := by
    obtain ⟨ch, t, rfl⟩ := List.exists_cons_of_ne_nil hne
    rintro h
    exact hnul (h ▸ List.mem_cons_self)
  rw [runCommand, hargv]
  cases argv with
  | nil => exact absurd rfl (hsome hfirst hblank)
  | cons name args =>
    simp only
    cases coreHandler name with
    | none => exact .of_failure _ rfl
    | some handler =>
      simp only
      split_ifs
      · exact .of_result _ (Or.inr rfl)
      · exact runContainers_tail handler _ _ s
      · exact runPlain_tail s handler _

/-- The log of one round. -/
inductive RoundLog (W : Commands) : List ExecEvent → Flow → Prop
  | skipped : RoundLog W [] .next
  | parseError (r : CommandResult) (hr : r.success = false) :
      RoundLog W [.parseError r] .cleanup
  | passed (cmd : Str) (calls : List HandlerCall) (r : CommandResult)
      (hr : r.success = true ∨ r = .noMatchingNode) :
      RoundLog W (.handling cmd :: (calls.map .call ++ [.result r])) .next
  | stopped (cmd : Str) (calls : List HandlerCall) (r : CommandResult) (hr : r.success = false) :
      RoundLog W (.handling cmd :: (calls.map .call ++ [.result r])) .cleanup
  | failed (evs : List ExecEvent) (hevs : ∀ e ∈ evs, e.entry = none) {f : Failure}
      (hf : Raised W f) : RoundLog W evs (.failed f)

/-- What a round that starts at the text `head` leaves. -/
structure RoundSpec (W : Commands) (s : Exec) (head : Str) (s' : Exec) (flow : Flow) : Prop where
  log : ∃ evs, s'.log = s.log ++ evs ∧ s'.resList = s.resList ++ evs.filterMap ExecEvent.entry ∧
    RoundLog W evs flow
  rest_subset : flow = .next → ∀ t, s'.head = some t → t ⊆ head
  rest_short : flow = .next → ∀ t, s'.head = some t → t.length < head.length

lemma RoundSpec.mono {head head' : Str} {flow : Flow} (h : RoundSpec W s head s' flow)
    (hsub : head ⊆ head') (hlen : head.length ≤ head'.length) : RoundSpec W s head' s' flow where
  log := h.log
  rest_subset := fun hf t ht => List.Subset.trans (h.rest_subset hf t ht) hsub
  rest_short := fun hf t ht => (h.rest_short hf t ht).trans_le hlen

/-- The round depends on the log and the results only through what it adds to them. -/
lemma RoundSpec.of_eq {head : Str} {flow : Flow} (h : RoundSpec W s₁ head s' flow)
    (hlog : s₁.log = s.log) (hres : s₁.resList = s.resList) : RoundSpec W s head s' flow where
  log := by rw [← hlog, ← hres]; exact h.log
  rest_subset := h.rest_subset
  rest_short := h.rest_short

lemma entries_segment (cmd : Str) (calls : List HandlerCall) (r : CommandResult) :
    (ExecEvent.handling cmd :: (calls.map .call ++ [.result r])).filterMap ExecEvent.entry = [r] := by
  rw [List.filterMap_cons_none rfl, List.filterMap_append, entries_calls]
  rfl

/-- The log of a command begins with "Handling command". -/
lemma Tail.roundLog {cmd : Str} {flow : Flow} (h : Tail W (s.note (.handling cmd)) s' flow) :
    ∃ evs, s'.log = s.log ++ evs ∧ s'.resList = s.resList ++ evs.filterMap ExecEvent.entry ∧
      RoundLog W evs flow := by
  have hstep : ∀ {evs}, (s.note (.handling cmd)).Extends s' evs →
      s'.log = s.log ++ .handling cmd :: evs ∧
        s'.resList = s.resList ++ (ExecEvent.handling cmd :: evs).filterMap ExecEvent.entry :=
    fun h => ⟨by rw [h.log, note, List.append_assoc]; rfl, h.resList⟩
  cases h with
  | passed calls hext hr =>
    obtain ⟨hlog, hres⟩ := hstep hext
    exact ⟨_, hlog, hres, .passed cmd calls _ hr⟩
  | stopped calls hext hr =>
    obtain ⟨hlog, hres⟩ := hstep hext
    exact ⟨_, hlog, hres, .stopped cmd calls _ hr⟩
  | failed calls hext hf =>
    obtain ⟨hlog, hres⟩ := hstep hext
    refine ⟨_, hlog, hres, .failed _ ?_ hf⟩
    rintro e (_ | ⟨_, he⟩)
    · rfl
    · obtain ⟨call, -, rfl⟩ := List.mem_map.mp he
      rfl

lemma Tail.head_eq {flow : Flow} (h : Tail W s s' flow) : s'.head = s.head := by
  cases h with
  | passed _ hext _ => exact hext.head
  | stopped _ hext _ => exact hext.head
  | failed _ hext _ => exact hext.head

lemma nextCommand_spec (s : Exec) {head : Str} (hnul : nul ∉ head) :
    RoundSpec W s head (s.nextCommand W head).1 (s.nextCommand W head).2 := by
  obtain ⟨r, hr, hcut⟩ := IpcTools.argsep_spec ";,".toList head
  rw [nextCommand, hr]
  simp only
  split_ifs with hcmd
  · exact ⟨⟨[], by simp, by simp, .skipped⟩, fun _ => hcut.rest_subset, fun _ => hcut.rest_short⟩
  · have hsub : skipBlanks r.start ⊆ head :=
      List.Subset.trans (List.dropWhile_subset _) hcut.start_subset
    have htail := runCommand_tail (W := W)
      (Exec.note { s with head := r.stringp, matchedDelim := r.matched }
        (.handling (skipBlanks r.start))) hcmd (fun h => hnul (hsub h)) (isSpace_skipBlanks _)
    have hhead : _ = r.stringp := htail.head_eq
    exact ⟨htail.roundLog, fun _ t ht => hcut.rest_subset t (hhead ▸ ht),
      fun _ t ht => hcut.rest_short t (hhead ▸ ht)⟩

lemma round_spec (s : Exec) {head : Str} (hnul : nul ∉ head) :
    RoundSpec W s head (s.round W head).1 (s.round W head).2 := by
  have hskip : ∀ t : Str, skipBlanks t ⊆ t ∧ (skipBlanks t).length ≤ t.length := fun t =>
    ⟨List.dropWhile_subset _, (List.dropWhile_suffix _).length_le⟩
  have hnext : ∀ (s : Exec) {t : Str}, t ⊆ head → t.length ≤ head.length →
      RoundSpec W s head (s.nextCommand W t).1 (s.nextCommand W t).2 := fun s t hsub hlen =>
    (nextCommand_spec s fun h => hnul (hsub h)).mono hsub hlen
  obtain ⟨hsub, hlen⟩ := hskip head
  rw [round]
  simp only
  split_ifs with hdelim hbracket
  · -- a criteria block
    obtain ⟨result, hparse⟩ := Criteria.parse_ends W.library s.compositor (skipBlanks head)
    simp only [hparse]
    cases result with
    | error error =>
      exact ⟨⟨[_], rfl, rfl, .parseError _ rfl⟩, by rintro ⟨⟩, by rintro ⟨⟩⟩
    | ok criteria =>
      simp only
      cases hget : criteria.getContainers W.library s.compositor with
      | error f =>
        exact ⟨⟨[], by simp, by simp, .failed [] (by simp) (.criteria hget)⟩,
          by rintro ⟨⟩, by rintro ⟨⟩⟩
      | ok containers =>
        obtain ⟨hsub₁, hlen₁⟩ := hskip ((skipBlanks head).drop criteria.raw.length)
        refine (hnext _ (List.Subset.trans hsub₁ (List.Subset.trans (List.drop_subset _ _) hsub))
          (hlen₁.trans ?_)).of_eq rfl rfl
        rw [List.length_drop]
        omega
  · exact (hnext _ hsub hlen).of_eq rfl rfl
  · exact hnext _ hsub hlen

/-! ## Runs -/

/-- The log of a run: rounds, of which the last ends the run or is followed by the end of the
string. -/
inductive RunLog (W : Commands) : List ExecEvent → Flow → Prop
  | done : RunLog W [] .cleanup
  | next {evs evs' : List ExecEvent} {flow : Flow} (h : RoundLog W evs .next)
      (h' : RunLog W evs' flow) : RunLog W (evs ++ evs') flow
  | last {evs : List ExecEvent} {flow : Flow} (h : RoundLog W evs flow) (hflow : flow ≠ .next) :
      RunLog W evs flow

lemma loop_spec : ∀ (n : ℕ) (s : Exec), (∀ t, s.head = some t → nul ∉ t ∧ t.length + 1 < n) → 0 < n →
    ∃ evs, (loop W n s).1.log = s.log ++ evs ∧
      (loop W n s).1.resList = s.resList ++ evs.filterMap ExecEvent.entry ∧
      RunLog W evs (loop W n s).2 := by
  intro n
  induction n with
  | zero => intro s _ hn; omega
  | succ n ih =>
    intro s hs _
    rw [loop]
    cases hhead : s.head with
    | none => exact ⟨[], by simp, by simp, .done⟩
    | some head =>
      obtain ⟨hnul, hlen⟩ := hs head hhead
      obtain ⟨⟨evs, hlog, hres, hround⟩, hsub, hshort⟩ := round_spec (W := W) s hnul
      simp only
      cases hr : s.round W head with
      | mk s' flow =>
        rw [hr] at hlog hres hround hsub hshort
        cases flow with
        | next =>
          obtain ⟨evs', hlog', hres', hrun⟩ := ih s' (fun t ht =>
            ⟨fun h => hnul (hsub rfl t ht h), by have := hshort rfl t ht; omega⟩) (by omega)
          refine ⟨evs ++ evs', ?_, ?_, .next hround hrun⟩
          · rw [hlog', hlog, List.append_assoc]
          · rw [hres', hres, List.filterMap_append, List.append_assoc]
        | cleanup => exact ⟨evs, hlog, hres, .last hround (by simp)⟩
        | failed f => exact ⟨evs, hlog, hres, .last hround (by simp)⟩

lemma nul_not_mem_cStr (s : Str) : nul ∉ cStr s := by
  intro h
  simpa [nul] using List.mem_takeWhile_imp h

end Exec

/-- The log of `execute_command` is the log of a run, and the list of results has its entries. -/
theorem executeCommand_runLog (W : Commands) (exec : Str) (c : Compositor) :
    (executeCommand W exec c).1.resList
        = (executeCommand W exec c).1.log.filterMap ExecEvent.entry ∧
      Exec.RunLog W (executeCommand W exec c).1.log (executeCommand W exec c).2 := by
  obtain ⟨evs, hlog, hres, hrun⟩ := Exec.loop_spec (W := W) ((cStr exec).length + 2)
    (Exec.init exec c) (by rintro t ⟨⟩; exact ⟨Exec.nul_not_mem_cStr exec, by omega⟩) (by omega)
  have hlog' : (executeCommand W exec c).1.log = evs := hlog
  have hres' : (executeCommand W exec c).1.resList = evs.filterMap ExecEvent.entry := hres
  rw [hres', hlog']
  exact ⟨rfl, hrun⟩

end WayfireIpc
