/-
# Strings without a command

`execute_command` returns an empty list exactly for the strings that are made of blanks,
delimiters and criteria blocks.
-/
import WayfireIpc.Command.Rounds

namespace WayfireIpc
namespace Exec

/-- The text from which a command is cut: behind the blanks, and behind the criteria block if there
is one; nothing if the block does not parse. -/
def textAt (W : Library) (c : Compositor) (matchedDelim : Char) (head : Str) : Option Str :=
  let head := skipBlanks head
  if matchedDelim = ';' ∧ head.head? = some '[' then
    match Criteria.parse W c head with
    | .ok (.ok ks) => some (skipBlanks (head.drop ks.raw.length))
    | _ => none
  else some head

/-- Behind a delimiter, the text has nothing but blanks, delimiters and criteria blocks. -/
inductive NoCommand (W : Library) (c : Compositor) : Char → Str → Prop
  | skip {matchedDelim : Char} {head text : Str} {r : IpcTools.Argsep}
      (htext : textAt W c matchedDelim head = some text)
      (hcut : IpcTools.argsep ";,".toList text = .ok r) (hblank : skipBlanks r.start = [])
      (hrest : ∀ rest, r.stringp = some rest → NoCommand W c r.matched rest) :
      NoCommand W c matchedDelim head

variable {W : Commands} {s : Exec} {head : Str}

/-- A round cuts a command from its text, unless the criteria block before it does not parse or its
containers cannot be found. -/
lemma round_text (s : Exec) (head : Str) :
    (∃ (s' : Exec) (text : Str), textAt W.library s.compositor s.matchedDelim head = some text ∧
      s.round W head = s'.nextCommand W text ∧ s'.resList = s.resList ∧ s'.compositor = s.compositor) ∨
    (textAt W.library s.compositor s.matchedDelim head = none ∧
      (s.round W head).1.resList ≠ [] ∧ (s.round W head).2 = .cleanup) ∨
    ∃ s' f, s.round W head = (s', .failed f) := by
  rw [textAt, round]
  simp only
  by_cases hdelim : s.matchedDelim = ';'
  · by_cases hopen : (skipBlanks head).head? = some '['
    · rw [if_pos hdelim, if_pos hopen, if_pos ⟨hdelim, hopen⟩]
      obtain ⟨result, hparse⟩ := Criteria.parse_ends W.library s.compositor (skipBlanks head)
      simp only [hparse]
      cases result with
      | error error => exact Or.inr (Or.inl ⟨rfl, by simp, rfl⟩)
      | ok ks =>
        simp only
        cases ks.getContainers W.library s.compositor with
        | error f => exact Or.inr (Or.inr ⟨_, f, rfl⟩)
        | ok containers => exact Or.inl ⟨_, _, rfl, rfl, rfl, rfl⟩
    · rw [if_pos hdelim, if_neg hopen, if_neg fun h => hopen h.2]
      exact Or.inl ⟨_, _, rfl, rfl, rfl, rfl⟩
  · rw [if_neg hdelim, if_neg fun h => hdelim h.1]
    exact Or.inl ⟨s, _, rfl, rfl, rfl, rfl⟩

/-- A command that is reached has a result. -/
lemma Tail.resList_ne_nil {s' : Exec} {flow : Flow} (h : Tail W s s' flow)
    (hflow : ∀ f, flow ≠ .failed f) : s'.resList ≠ [] := by
  cases h with
  | passed calls h _ =>
    rw [h.resList]
    simp [ExecEvent.entry]
  | stopped calls h _ =>
    rw [h.resList]
    simp [ExecEvent.entry]
  | failed calls _ _ => exact absurd rfl (hflow _)

lemma loop_next {n : ℕ} {s₁ : Exec} (hhead : s.head = some head)
    (h : s.round W head = (s₁, .next)) : loop W (n + 1) s = loop W n s₁ := by
  rw [loop, hhead]
  simp only [h]

lemma loop_last {n : ℕ} {s₁ : Exec} {flow : Flow} (hhead : s.head = some head)
    (h : s.round W head = (s₁, flow)) (hflow : flow ≠ .next) : loop W (n + 1) s = (s₁, flow) := by
  rw [loop, hhead]
  cases flow with
  | next => exact absurd rfl hflow
  | cleanup | failed => simp only [h]

/-- The list of results only grows. -/
lemma loop_resList_ne_nil {n : ℕ} (hs : ∀ t, s.head = some t → nul ∉ t ∧ t.length + 1 < n) (hn : 0 < n)
    (hres : s.resList ≠ []) : (loop W n s).1.resList ≠ [] := by
  obtain ⟨evs, -, hlist, -⟩ := loop_spec (W := W) n s hs hn
  rw [hlist]
  exact List.append_ne_nil_of_left_ne_nil hres _

/-- A text without a command in it leaves the variables as they are; otherwise there is a result,
or a call fails. -/
lemma nextCommand_result (s : Exec) {text : Str} (hnul : nul ∉ text) :
    ∃ r, IpcTools.argsep ";,".toList text = .ok r ∧ r.Cuts text ∧
      (skipBlanks r.start = [] ∧ s.nextCommand W text
          = ({ s with head := r.stringp, matchedDelim := r.matched }, .next) ∨
        skipBlanks r.start ≠ [] ∧ ((∀ f, (s.nextCommand W text).2 ≠ .failed f) →
          (s.nextCommand W text).1.resList ≠ [])) := by
  obtain ⟨r, hr, hcuts⟩ := IpcTools.argsep_spec ";,".toList text
  refine ⟨r, hr, hcuts, ?_⟩
  rw [nextCommand, hr]
  simp only
  by_cases hblank : skipBlanks r.start = []
  · exact Or.inl ⟨hblank, by rw [if_pos hblank]⟩
  · rw [if_neg hblank]
    have hsub : skipBlanks r.start ⊆ text :=
      List.Subset.trans (List.dropWhile_subset _) hcuts.start_subset
    exact Or.inr ⟨hblank, fun hflow =>
      (runCommand_tail _ hblank (fun h => hnul (hsub h)) (isSpace_skipBlanks _)).resList_ne_nil hflow⟩

/-- The text from which a command is cut is an end of the string. -/
lemma textAt_suffix {L : Library} {c : Compositor} {d : Char} {text : Str}
    (h : textAt L c d head = some text) : text <:+ head := by
  have hskip : ∀ t : Str, skipBlanks t <:+ t := fun t => List.dropWhile_suffix _
  rw [textAt] at h
  split_ifs at h
  · split at h
    · cases h
      exact (hskip _).trans ((List.drop_suffix _ _).trans (hskip head))
    · cases h
  · cases h
    exact hskip head

lemma noCommand_iff {L : Library} {c : Compositor} {d : Char} {text : Str} {r : IpcTools.Argsep}
    (htext : textAt L c d head = some text) (hcut : IpcTools.argsep ";,".toList text = .ok r) :
    NoCommand L c d head ↔ skipBlanks r.start = [] ∧
      ∀ rest, r.stringp = some rest → NoCommand L c r.matched rest := by
  constructor
  · rintro ⟨htext', hcut', hblank, hrest⟩
    cases htext.symm.trans htext'
    cases hcut.symm.trans hcut'
    exact ⟨hblank, hrest⟩
  · rintro ⟨hblank, hrest⟩
    exact .skip htext hcut hblank hrest

/-- A round that leaves a result is the last one, or the loop keeps the result. -/
lemma loop_resList_of_round {n : ℕ} (hhead : s.head = some head) (hnul : nul ∉ head)
    (hn : head.length + 1 < n + 1) (hflow : (loop W (n + 1) s).2 = .cleanup)
    (hresult : (∀ f, (s.round W head).2 ≠ .failed f) → (s.round W head).1.resList ≠ []) :
    (loop W (n + 1) s).1.resList ≠ [] := by
  obtain ⟨-, hsub, hshort⟩ := round_spec (W := W) s hnul
  rcases hr : s.round W head with ⟨s₁, flow⟩
  rw [hr] at hresult hsub hshort
  by_cases hnext : flow = .next
  · subst hnext
    rw [loop_next hhead hr]
    refine loop_resList_ne_nil (fun t ht => ⟨fun h => hnul (hsub rfl t ht h), ?_⟩) (by omega)
      (hresult fun f => by simp)
    have := hshort rfl t ht
    omega
  · rw [loop_last hhead hr hnext] at hflow ⊢
    refine hresult fun f => ?_
    rw [show flow = .cleanup from hflow]
    simp

/-- The loop ends without a result if and only if there is no command left. -/
lemma loop_resList_eq_nil_iff : ∀ (n : ℕ) (s : Exec) {head : Str}, s.head = some head → nul ∉ head →
    head.length + 1 < n → s.resList = [] → (loop W n s).2 = .cleanup →
      ((loop W n s).1.resList = [] ↔ NoCommand W.library s.compositor s.matchedDelim head) := by
  intro n
  induction n with
  | zero => intro s head _ _ hn; omega
  | succ n ih =>
    intro s head hhead hnul hn hres hflow
    rcases round_text (W := W) s head with ⟨s', text, htext, hround, hres', hc⟩ |
      ⟨htext, hne, -⟩ | ⟨s', f, hround⟩
    · have hsuffix := textAt_suffix htext
      obtain ⟨r, hr, hcuts, hcase⟩ := nextCommand_result (W := W) s'
        (fun h => hnul (hsuffix.subset h))
      rw [noCommand_iff htext hr]
      rcases hcase with ⟨hblank, hnext⟩ | ⟨hblank, hresult⟩
      · -- the round is skipped
        have hskip : loop W (n + 1) s
            = loop W n { s' with head := r.stringp, matchedDelim := r.matched } :=
          loop_next hhead (hround.trans hnext)
        rw [hskip] at hflow ⊢
        rw [and_iff_right hblank]
        cases hrest : r.stringp with
        | none =>
          obtain ⟨n, rfl⟩ : ∃ m, n = m + 1 := ⟨n - 1, by omega⟩
          refine iff_of_true ?_ fun rest h => by cases h
          exact hres'.trans hres
        | some rest =>
          have hshort := hcuts.rest_short rest hrest
          have hlen := hsuffix.length_le
          rw [hrest] at hflow
          have hiff := ih { s' with head := some rest, matchedDelim := r.matched } rfl
            (fun h => hnul (hsuffix.subset (hcuts.rest_subset rest hrest h))) (by omega)
            (hres'.trans hres) hflow
          rw [hiff, hc]
          simp only [Option.some.injEq, forall_eq']
      · -- there is a command
        refine iff_of_false ?_ fun h => hblank h.1
        rw [← hround] at hresult
        exact loop_resList_of_round hhead hnul hn hflow hresult
    · -- the criteria block does not parse
      refine iff_of_false (loop_resList_of_round hhead hnul hn hflow fun _ => hne) ?_
      rintro ⟨htext', -⟩
      rw [htext] at htext'
      cases htext'
    · rw [loop_last hhead hround (by simp)] at hflow
      cases hflow

end Exec

/-- If `execute_command` returns, its list is empty exactly when there is no command in the
string. -/
theorem executeCommand_resList_eq_nil_iff {W : Commands} {exec : Str} {c : Compositor}
    (hflow : (executeCommand W exec c).2 = .cleanup) :
    (executeCommand W exec c).1.resList = [] ↔ Exec.NoCommand W.library c ';' (cStr exec) :=
  Exec.loop_resList_eq_nil_iff _ (Exec.init exec c) rfl (Exec.nul_not_mem_cStr exec) (by omega) rfl
    hflow

end WayfireIpc
