/-
# The results of a command string

`execute_command` returns one result for each command it reaches, and one more when a
criteria block does not parse.  All of them but the last are successes or the result for
criteria that select nothing, and after any other result no handler is called.
-/
import WayfireIpc.Command.Rounds

namespace WayfireIpc

/-- The command of this result does not keep the loop from going on. -/
def CommandResult.Passes (r : CommandResult) : Prop := r.success = true ∨ r = .noMatchingNode

/-- A command that is reached: its text, the calls of its handler and its result. -/
structure Reached where
  cmd : Str
  calls : List HandlerCall
  result : CommandResult

/-- What the log has about a command that is reached. -/
def Reached.events (k : Reached) : List ExecEvent :=
  .handling k.cmd :: (k.calls.map .call ++ [.result k.result])

namespace Exec

variable {W : Commands} {evs : List ExecEvent} {flow : Flow}

/-- An entry that lets the loop go on is the last event of its round. -/
lemma RoundLog.entry_last (h : RoundLog W evs flow) {pre post : List ExecEvent} {e : ExecEvent}
    (hsplit : evs = pre ++ e :: post) (he : e.entry.isSome) :
    post = [] ∧ (flow = .next → ∀ r, e.entry = some r → r.Passes) := by
  have hmem : e ∈ evs := by
    rw [hsplit]
    simp
  -- the result of a command is the last entry of its round
  have hsegment : ∀ {cmd : Str} {calls : List HandlerCall} {r : CommandResult},
      evs = .handling cmd :: (calls.map .call ++ [.result r]) → post = [] ∧ e = .result r := by
    intro cmd calls r hevs
    rcases List.eq_nil_or_concat post with rfl | ⟨post', x, rfl⟩
    · have := hevs.symm.trans hsplit
      rw [← List.cons_append] at this
      exact ⟨rfl, (List.cons.inj (List.append_inj' this rfl).2).1.symm⟩
    · -- `e` would stand before the result, where there are no entries
      exfalso
      have := hevs.symm.trans hsplit
      rw [List.concat_eq_append, ← List.cons_append, ← List.cons_append, ← List.append_assoc] at this
      have hinit := (List.append_inj' this rfl).1
      have he' : e ∈ ExecEvent.handling cmd :: calls.map .call := by
        rw [hinit]
        simp
      rcases List.mem_cons.mp he' with rfl | he'
      · cases he
      · obtain ⟨call, -, rfl⟩ := List.mem_map.mp he'
        cases he
  cases h with
  | skipped => simp at hmem
  | parseError r hr =>
    cases pre with
    | nil =>
      simp only [List.nil_append, List.cons.injEq] at hsplit
      exact ⟨hsplit.2.symm, by rintro ⟨⟩⟩
    | cons x pre => simp at hsplit
  | passed cmd calls r hr =>
    obtain ⟨hpost, rfl⟩ := hsegment rfl
    refine ⟨hpost, fun _ r' hr' => ?_⟩
    cases hr'
    exact hr
  | stopped cmd calls r hr => exact ⟨(hsegment rfl).1, by rintro ⟨⟩⟩
  | failed _ hevs _ =>
    rw [hevs e hmem] at he
    cases he

/-- After an entry of any other kind nothing happens. -/
lemma RunLog.stops (h : RunLog W evs flow) {pre post : List ExecEvent} {e : ExecEvent}
    {r : CommandResult} (hsplit : evs = pre ++ e :: post) (he : e.entry = some r)
    (hr : ¬ r.Passes) : post = [] := by
  induction h generalizing pre with
  | done => simp at hsplit
  | @next evs evs' flow hround _ ih =>
    rcases List.append_eq_append_iff.mp hsplit with ⟨a, rfl, ha⟩ | ⟨a, ha, hpost⟩
    · exact ih ha
    · cases a with
      | nil =>
        rw [List.nil_append] at hpost
        exact ih (show evs' = [] ++ e :: post from hpost.symm)
      | cons x a =>
        obtain ⟨rfl, -⟩ := List.cons.inj hpost
        exact absurd ((hround.entry_last ha (by simp [he])).2 rfl r he) hr
  | last hround _ => exact (hround.entry_last hsplit (by simp [he])).1

/-- The log of a run that returns, command by command. -/
lemma RunLog.reached (h : RunLog W evs flow) (hflow : flow = .cleanup) :
    ∃ (ks : List Reached) (error : Option CommandResult),
      evs = ks.flatMap Reached.events ++ error.toList.map .parseError ∧
      evs.filterMap ExecEvent.entry = ks.map Reached.result ++ error.toList ∧
      ∀ r ∈ (ks.map Reached.result ++ error.toList).dropLast, r.Passes := by
  induction h with
  | done => exact ⟨[], none, rfl, rfl, by simp⟩
  | @next evs evs' flow hround hrun ih =>
    obtain ⟨ks, error, hlog, hentries, hpass⟩ := ih hflow
    cases hround with
    | skipped => exact ⟨ks, error, hlog, hentries, hpass⟩
    | passed cmd calls r hr =>
      refine ⟨⟨cmd, calls, r⟩ :: ks, error, ?_, ?_, ?_⟩
      · rw [hlog, List.flatMap_cons, List.append_assoc]
        rfl
      · rw [List.filterMap_append, entries_segment, hentries]
        rfl
      · intro r' hr'
        rw [List.map_cons, List.cons_append] at hr'
        cases hrest : ks.map Reached.result ++ error.toList with
        | nil =>
          rw [hrest] at hr'
          cases hr'
        | cons x l =>
          rw [hrest, List.dropLast_cons_of_ne_nil (by simp)] at hr'
          rcases List.mem_cons.mp hr' with rfl | hr'
          · exact hr
          · exact hpass r' (hrest ▸ hr')
  | last hround hne =>
    subst hflow
    cases hround with
    | parseError r hr => exact ⟨[], some r, rfl, rfl, by simp⟩
    | stopped cmd calls r hr =>
      exact ⟨[⟨cmd, calls, r⟩], none, by simp [Reached.events], by rw [entries_segment]; rfl, by simp⟩

/-- A run ends at `cleanup`, or with a failure of the code that the loop calls. -/
lemma RunLog.ends (h : RunLog W evs flow) : flow = .cleanup ∨ ∃ f, flow = .failed f ∧ Raised W f := by
  induction h with
  | done => exact Or.inl rfl
  | next _ _ ih => exact ih
  | last hround hne =>
    cases hround with
    | skipped => exact absurd rfl hne
    | parseError => exact Or.inl rfl
    | passed => exact absurd rfl hne
    | stopped => exact Or.inl rfl
    | failed _ _ hf => exact Or.inr ⟨_, rfl, hf⟩

end Exec

/-- `execute_command` returns unless a handler or the compositor fails; its list has the results
of the commands reached in their order, and possibly one for a criteria block; all but the last
let the loop go on; and behind an entry of another kind no handler is called. -/
theorem executeCommand_results (W : Commands) (exec : Str) (c : Compositor) :
    let s := (executeCommand W exec c).1
    let flow := (executeCommand W exec c).2
    (flow = .cleanup ∨ ∃ f, flow = .failed f ∧ Raised W f) ∧
    (flow = .cleanup → ∃ (ks : List Reached) (error : Option CommandResult),
      s.log = ks.flatMap Reached.events ++ error.toList.map .parseError ∧
      s.resList = ks.map Reached.result ++ error.toList ∧
      ∀ r ∈ s.resList.dropLast, r.Passes) ∧
    ∀ pre entry post r, s.log = pre ++ entry :: post → entry.entry = some r → ¬ r.Passes →
      ∀ call, .call call ∉ post := by
  intro s flow
  obtain ⟨hres, hrun⟩ := executeCommand_runLog W exec c
  refine ⟨hrun.ends, fun hflow => ?_, fun pre entry post r hsplit he hr call hcall => ?_⟩
  · obtain ⟨ks, error, hlog, hentries, hpass⟩ := hrun.reached hflow
    refine ⟨ks, error, hlog, hres.trans hentries, fun r hr => hpass r ?_⟩
    rwa [← hentries, ← hres]
  · rw [hrun.stops hsplit he hr] at hcall
    cases hcall

/-- Two commands of which the second is unknown, under criteria that select nothing. -/
theorem executeCommand_unknown :
    let W : Commands := ⟨⟨fun _ => none, fun _ _ => false, fun _ l => l⟩,
      fun _ _ _ c => .ok (⟨.success, none⟩, c)⟩
    ∃ (ks : List Reached) (error : Option CommandResult),
      (executeCommand W "[con_id=1] kill, foo".toList (.flat [] [] none)).1.log
        = ks.flatMap Reached.events ++ error.toList.map .parseError ∧
      [.noMatchingNode, ⟨.notFound, some "Unknown command foo".toList⟩]
        = ks.map Reached.result ++ error.toList ∧
      CommandResult.Passes .noMatchingNode := by
  intro W
  have hflow : (executeCommand W "[con_id=1] kill, foo".toList (.flat [] [] none)).2 = .cleanup := by
    decide
  have hlist : (executeCommand W "[con_id=1] kill, foo".toList (.flat [] [] none)).1.resList
      = [.noMatchingNode, ⟨.notFound, some "Unknown command foo".toList⟩] := by decide
  obtain ⟨ks, error, hlog, hres, hpass⟩ :=
    (executeCommand_results W "[con_id=1] kill, foo".toList (.flat [] [] none)).2.1 hflow
  rw [hlist] at hres hpass
  exact ⟨ks, error, hlog, hres, hpass _ List.mem_cons_self⟩

end WayfireIpc
