/-
# The command `workspace`

The handler of `workspace` and the search for a workspace by its number, with what each of
them returns.  A word of the command is compared with the keywords, and what is no keyword is
read by `std::stoi`.
-/
import WayfireIpc.Compositor.Tree
import WayfireIpc.Command.Handlers

namespace WayfireIpc

/-- `INVALID_WORKSPACE`. -/
def invalidWorkspace : Point := ⟨-1, -1⟩

/-- The value of an `int` expression. -/
def intValue (v : ℤ) : Except Failure ℤ :=
  if -2 ^ 31 ≤ v ∧ v < 2 ^ 31 then .ok v else .error .overflow

/-- `ipc_tools::join_args`. -/
def joinArgs (argv : List Str) : Str := [' '].intercalate argv

namespace Compositor

variable (c : Compositor)

/-- The loops of `get_workspace_at_index`, over points of the grid. -/
def searchIndex (index : ℤ) (o : OutputRef) : List Point → Except Failure Point
  | [] => .ok invalidWorkspace
  | point :: points => do
    let i ← c.getWorkspaceIndex point o
    if i = index then return point else searchIndex index o points

/-- `ipc_tools::get_workspace_at_index`. -/
def getWorkspaceAtIndex (index : ℤ) (o : OutputRef) : Except Failure Point :=
  c.searchIndex index o (c.gridPoints o)

/-- `workspace_by_number`; the output is asserted to be there. -/
def workspaceByNumber (index : ℤ) (output : Option OutputRef) : Except Failure Point :=
  match output with
  | none => .error .assertion
  | some o => c.getWorkspaceAtIndex index o

/-- `workspace_prev`. -/
def workspacePrev (index : ℤ) (current : Point) (o : OutputRef) : Except Failure Point := do
  let before ← intValue (index - 1)
  let prev ← c.getWorkspaceAtIndex before o
  return if prev ≠ invalidWorkspace then prev else current

/-- `workspace_next`. -/
def workspaceNext (index : ℤ) (current : Point) (o : OutputRef) : Except Failure Point := do
  let after ← intValue (index + 1)
  let next ← c.getWorkspaceAtIndex after o
  return if next ≠ invalidWorkspace then next else current

/-- `workspace_by_name`. -/
def workspaceByName (name : Str) (output : Option OutputRef) : Except Failure Point :=
  match output with
  | none => .error .nullPointer
  | some o =>
    let current := (c.output o).currentWorkspace
    if name = "prev".toList then do
      let workspaceIndex ← c.getWorkspaceIndex current o
      c.workspacePrev workspaceIndex current o
    else if name = "prev_on_output".toList then .ok current
    else if name = "next".toList then do
      let workspaceIndex ← c.getWorkspaceIndex current o
      c.workspaceNext workspaceIndex current o
    else if name = "next_on_output".toList then .ok current
    else if name = "current".toList then .ok current
    else if eqIgnoringCase name "back_and_forth".toList then .ok current
    else do
      let workspaceIndex ← stoi name
      c.workspaceByNumber workspaceIndex.toInt output

/-- `workspace_switch`; `request_workspace` makes the workspace the current one. -/
def workspaceSwitch (ws : Point) (o : OutputRef) : Compositor :=
  { c with output := Function.update c.output o { c.output o with currentWorkspace := ws } }

/-- The end of `workspace_handler`. -/
def switchIfValid (ws : Point) (output : Option OutputRef) :
    Except Failure (CommandResult × Compositor) :=
  match output with
  | none => .error .nullPointer
  | some o =>
    if ¬ c.IsWorkspaceValid o ws then
      .ok (⟨.aborted, some "No workspace to switch to".toList⟩, c)
    else .ok (⟨.success, none⟩, c.workspaceSwitch ws o)

end Compositor

/-- The keywords that `workspace_handler` passes on as they are written. -/
def workspaceKeywords : List Str :=
  ["next", "prev", "next_on_output", "prev_on_output", "current"].map String.toList

open IpcCommand

/-- `workspace_handler`. -/
def workspaceHandler : CommandHandler := fun argv _ c =>
  match checkarg argv.length "workspace".toList .atLeast 1 with
  | some error => .ok (error, c)
  | none =>
    let output := c.activeOutput
    let first := argv.headD []
    if eqIgnoringCase first "number".toList then
      match argv[1]? with
      | none => .ok (⟨.invalidParameter, some "Expected workspace number".toList⟩, c)
      | some number =>
        if ¬ (charAt number 0).isDigit then
          .ok (⟨.invalidParameter, some ("Invalid workspace number ".toList ++ number)⟩, c)
        else do
          let index ← stoi number
          let ws ← c.workspaceByNumber index.toInt output
          c.switchIfValid ws output
    else if workspaceKeywords.any fun t => eqIgnoringCase first t then do
      let ws ← c.workspaceByName first output
      c.switchIfValid ws output
    else do
      let ws ← c.workspaceByName (joinArgs argv) output
      c.switchIfValid ws output

namespace Compositor

variable {c : Compositor} {o : OutputRef}

/-! ## The search for a number -/

/-- The number of a workspace is compared as an `int`. -/
def HasNumber (c : Compositor) (o : OutputRef) (index : ℤ) (p : Point) : Bool :=
  (c.workspaceIndex o p : ℤ) = index

lemma searchIndex_eq {index : ℤ} (hindex : index < 2 ^ 31) {points : List Point}
    (hvalid : ∀ p ∈ points, c.IsWorkspaceValid o p) : c.searchIndex index o points =
      if ∀ p ∈ points.takeWhile fun p => !c.HasNumber o index p, c.workspaceIndex o p < 2 ^ 31
      then .ok ((points.find? (c.HasNumber o index)).getD invalidWorkspace)
      else .error .overflow := by
  induction points with
  | nil => rfl
  | cons p points ih =>
    have hp := hvalid p List.mem_cons_self
    rw [searchIndex, getWorkspaceIndex_eq hp]
    by_cases hnumber : c.HasNumber o index p
    · have heq : (c.workspaceIndex o p : ℤ) = index := of_decide_eq_true hnumber
      have hlt : c.workspaceIndex o p < 2 ^ 31 := by omega
      rw [if_pos hlt, Machine.ok_bind, if_pos heq, List.takeWhile_cons_of_neg (by simp [hnumber]),
        List.find?_cons_of_pos hnumber, if_pos (by simp)]
      rfl
    · have hne : (c.workspaceIndex o p : ℤ) ≠ index := fun h => hnumber (decide_eq_true h)
      rw [List.takeWhile_cons_of_pos (by simp [hnumber]),
        List.find?_cons_of_neg (by simp [hnumber])]
      by_cases hlt : c.workspaceIndex o p < 2 ^ 31
      · rw [if_pos hlt, Machine.ok_bind, if_neg hne,
          ih fun q hq => hvalid q (List.mem_cons_of_mem p hq)]
        simp only [List.mem_cons, forall_eq_or_imp, hlt, true_and]
      · rw [if_neg hlt, if_neg fun h => hlt (h p List.mem_cons_self)]
        rfl

variable (c o) in
/-- No workspace that the search for a number meets has a number above the range of `int`. -/
def SearchFits (index : ℤ) : Prop :=
  ∀ p ∈ (c.gridPoints o).takeWhile fun p => !c.HasNumber o index p, c.workspaceIndex o p < 2 ^ 31

instance (index : ℤ) : Decidable (c.SearchFits o index) :=
  inferInstanceAs (Decidable (∀ p ∈ _, _))

lemma getWorkspaceAtIndex_eq {index : ℤ} (hindex : index < 2 ^ 31) (h : c.SearchFits o index) :
    c.getWorkspaceAtIndex index o
      = .ok (((c.gridPoints o).find? (c.HasNumber o index)).getD invalidWorkspace) := by
  rw [getWorkspaceAtIndex, searchIndex_eq hindex fun p hp => mem_gridPoints.mp hp]
  exact if_pos h

lemma getWorkspaceAtIndex_ok_iff {index : ℤ} (hindex : index < 2 ^ 31) :
    (∃ p, c.getWorkspaceAtIndex index o = .ok p) ↔ c.SearchFits o index := by
  refine ⟨fun ⟨p, hp⟩ => ?_, fun h => ⟨_, getWorkspaceAtIndex_eq hindex h⟩⟩
  rw [getWorkspaceAtIndex, searchIndex_eq hindex fun p hp => mem_gridPoints.mp hp] at hp
  by_contra hfits
  rw [SearchFits] at hfits
  rw [if_neg hfits] at hp
  cases hp

lemma not_valid_invalidWorkspace : ¬ c.IsWorkspaceValid o invalidWorkspace := fun h =>
  absurd h.1 (by decide)

/-- The search returns the workspace with the number, or `INVALID_WORKSPACE` if there is none. -/
lemma getWorkspaceAtIndex_spec {index : ℤ} (hindex : index < 2 ^ 31) {p : Point}
    (h : c.getWorkspaceAtIndex index o = .ok p) :
    (c.IsWorkspaceValid o p ∧ (c.workspaceIndex o p : ℤ) = index) ∨
      (p = invalidWorkspace ∧
        ∀ q, c.IsWorkspaceValid o q → (c.workspaceIndex o q : ℤ) ≠ index) := by
  rw [getWorkspaceAtIndex_eq hindex ((getWorkspaceAtIndex_ok_iff hindex).mp ⟨p, h⟩)] at h
  obtain rfl := Except.ok.inj h
  cases hfind : (c.gridPoints o).find? (c.HasNumber o index) with
  | none =>
    refine Or.inr ⟨rfl, fun q hq heq => ?_⟩
    have hnot := List.find?_eq_none.mp hfind q (mem_gridPoints.mpr hq)
    exact hnot (decide_eq_true heq)
  | some p =>
    refine Or.inl ⟨mem_gridPoints.mp (List.mem_of_find?_eq_some hfind), ?_⟩
    have hnumber := List.find?_some hfind
    exact of_decide_eq_true hnumber

lemma switchIfValid_of_valid {ws : Point} (h : c.IsWorkspaceValid o ws) :
    c.switchIfValid ws (some o) = .ok (⟨.success, none⟩, c.workspaceSwitch ws o) :=
  if_neg (not_not.mpr h)

lemma switchIfValid_of_not_valid {ws : Point} (h : ¬ c.IsWorkspaceValid o ws) :
    c.switchIfValid ws (some o) = .ok (⟨.aborted, some "No workspace to switch to".toList⟩, c) :=
  if_pos h

/-- Switching to a workspace returns a result. -/
lemma switchIfValid_ok (ws : Point) : ∃ r c', c.switchIfValid ws (some o) = .ok (r, c') := by
  by_cases h : c.IsWorkspaceValid o ws
  · exact ⟨_, _, switchIfValid_of_valid h⟩
  · exact ⟨_, _, switchIfValid_of_not_valid h⟩

end Compositor

/-! ## Words and numbers -/

/-- A decimal number, with an optional sign, within the range of `int`. -/
inductive IsInt : Str → Prop
  | unsigned {digits : Str} : digits ≠ [] → (∀ ch ∈ digits, ch.isDigit = true) →
      Nat.ofDigitChars 10 digits 0 < 2 ^ 31 → IsInt digits
  | plus {digits : Str} : digits ≠ [] → (∀ ch ∈ digits, ch.isDigit = true) →
      Nat.ofDigitChars 10 digits 0 < 2 ^ 31 → IsInt ('+' :: digits)
  | minus {digits : Str} : digits ≠ [] → (∀ ch ∈ digits, ch.isDigit = true) →
      Nat.ofDigitChars 10 digits 0 ≤ 2 ^ 31 → IsInt ('-' :: digits)

/-- A text that starts with a letter is no number. -/
lemma stoi_of_not_numeral {ch : Char} {t : Str} (hspace : isSpace ch = false)
    (hminus : ch ≠ '-') (hplus : ch ≠ '+') (hdigit : ch.isDigit = false) :
    stoi (ch :: t) = .error .invalidArgument := by
  have hskip : skipBlanks (ch :: t) = ch :: t := List.dropWhile_cons_of_neg (by simp [hspace])
  have hnone : numeral (ch :: t) = none := by
    simp only [numeral, hskip, List.head?_cons, Option.some.injEq, hminus, hplus, or_self, if_false,
      List.takeWhile_cons_of_neg (by simpa using hdigit : ¬ ch.isDigit = true), if_true]
  rw [stoi, hnone]

lemma toLower_of_isDigit {ch : Char} (h : ch.isDigit = true) : ch.toLower = ch := by
  rw [Char.toLower]
  split
  · rename_i hupper
    simp only [Char.isDigit, Bool.and_eq_true, decide_eq_true_eq] at h
    have hle : ch.val ≤ '9'.val := h.2
    have hge : 'A'.val ≤ '9'.val := UInt32.le_trans hupper.1 hle
    exact absurd hge (by decide)
  · rfl

/-- A text that is a keyword up to letter case is read by `std::stoi` in vain. -/
lemma stoi_of_eqIgnoringCase {s t : Str} (ht : t ∈ workspaceKeywords) (h : eqIgnoringCase s t) :
    stoi s = .error .invalidArgument := by
  have hmap : s.map Char.toLower = t := of_decide_eq_true h
  obtain ⟨ch, hch, u, rfl⟩ : ∃ ch, (ch.toLower = 'n' ∨ ch.toLower = 'p' ∨ ch.toLower = 'c') ∧
      ∃ u, s = ch :: u := by
    cases s with
    | nil =>
      rw [List.map_nil] at hmap
      exact absurd (hmap ▸ ht) (by decide)
    | cons ch u =>
      refine ⟨ch, ?_, u, rfl⟩
      rw [List.map_cons] at hmap
      have hhead : ∀ t ∈ workspaceKeywords, t.head? = some 'n' ∨ t.head? = some 'p' ∨
          t.head? = some 'c' := by decide
      have hcases := hhead t ht
      rw [← hmap] at hcases
      simpa using hcases
  -- a character that is in lower case is one of the three
  have hlower : ch.toLower = ch → ch = 'n' ∨ ch = 'p' ∨ ch = 'c' := fun h => h ▸ hch
  have hother : ∀ ch', ch'.toLower = ch' → ¬ (ch' = 'n' ∨ ch' = 'p' ∨ ch' = 'c') → ch ≠ ch' := by
    rintro ch' hself hnot rfl
    exact hnot (hlower hself)
  refine stoi_of_not_numeral ?_ (hother _ (by decide) (by decide))
    (hother _ (by decide) (by decide)) ?_
  · by_contra hspace
    rw [Bool.not_eq_false, isSpace, List.contains_iff_mem] at hspace
    simp only [whitespace, List.mem_cons, List.not_mem_nil, or_false] at hspace
    rcases hspace with h | h | h | h | h | h <;> exact hother _ (by decide) (by decide) h
  · by_contra hdigit
    rw [Bool.not_eq_false] at hdigit
    refine hother ch (toLower_of_isDigit hdigit) ?_ rfl
    rintro (h | h | h) <;> rw [h] at hdigit <;> exact absurd hdigit (by decide)

/-! ## What the handler answers -/

/-- The words name a keyword, in any letter case, or a number. -/
def SupportedWorkspace (argv : List Str) : Prop :=
  if eqIgnoringCase (argv.headD []) "number".toList then
    ∃ number, argv[1]? = some number ∧ IsInt number
  else
    (workspaceKeywords.any fun t => eqIgnoringCase (argv.headD []) t) = true ∨
      eqIgnoringCase (joinArgs argv) "back_and_forth".toList = true ∨ IsInt (joinArgs argv)

/-- The handler returns a result, and on other words this is a failure and the workspace stays. -/
def WorkspaceAnswered (c : Compositor) (o : OutputRef) (argv : List Str)
    (ctx : CommandHandlerContext) : Prop :=
  ∃ r c', workspaceHandler argv ctx c = .ok (r, c') ∧
    (¬ SupportedWorkspace argv → r.status ≠ .success ∧
      (c'.output o).currentWorkspace = (c.output o).currentWorkspace)

namespace Compositor

variable {c : Compositor} {o : OutputRef}

/-- `std::stoi` reads a number at the start of the text, the search for it ends, and the text is
nothing but the number, or the number is that of no workspace. -/
def ReadsNumber (c : Compositor) (o : OutputRef) (text : Str) : Prop :=
  ∃ n, stoi text = .ok n ∧ c.SearchFits o n.toInt ∧
    (IsInt text ∨ ∀ p, c.IsWorkspaceValid o p → (c.workspaceIndex o p : ℤ) ≠ n.toInt)

/-- The conditions under which `workspace_handler` answers as it should. -/
def Understood (c : Compositor) (o : OutputRef) (argv : List Str) : Prop :=
  let first := argv.headD []
  let index := c.workspaceIndex o (c.output o).currentWorkspace
  if eqIgnoringCase first "number".toList then
    ∀ number, argv[1]? = some number → (charAt number 0).isDigit → c.ReadsNumber o number
  else if workspaceKeywords.any fun t => eqIgnoringCase first t then
    -- the letter case is that of the keyword
    first ∈ workspaceKeywords ∧
      (first = "prev".toList → index < 2 ^ 31 ∧ c.SearchFits o (index - 1)) ∧
      (first = "next".toList → index + 1 < 2 ^ 31 ∧ c.SearchFits o (index + 1))
  else eqIgnoringCase (joinArgs argv) "back_and_forth".toList = true ∨
    c.ReadsNumber o (joinArgs argv)

lemma number_answered_iff (text : Str) {supported : Prop} (hsupported : supported ↔ IsInt text) :
    (∃ r c', (do
        let index ← stoi text
        let ws ← c.workspaceByNumber index.toInt (some o)
        c.switchIfValid ws (some o)) = .ok (r, c') ∧
      (¬ supported → r.status ≠ .success ∧
        (c'.output o).currentWorkspace = (c.output o).currentWorkspace)) ↔
      c.ReadsNumber o text := by
  constructor
  · rintro ⟨r, c', hok, hfail⟩
    obtain ⟨n, hn, hok⟩ := Machine.bind_ok_iff.mp hok
    obtain ⟨ws, hws, hok⟩ := Machine.bind_ok_iff.mp hok
    have hlt : n.toInt < 2 ^ 31 := n.toInt_lt
    refine ⟨n, hn, (getWorkspaceAtIndex_ok_iff hlt).mp ⟨ws, hws⟩, ?_⟩
    rcases getWorkspaceAtIndex_spec hlt hws with ⟨hvalid, -⟩ | ⟨-, hnone⟩
    · -- the workspace is switched to, so the name must be a number
      refine Or.inl (hsupported.mp ?_)
      by_contra hnot
      rw [switchIfValid_of_valid hvalid] at hok
      cases hok
      exact (hfail hnot).1 rfl
    · exact Or.inr hnone
  · rintro ⟨n, hn, hfits, hor⟩
    have hlt : n.toInt < 2 ^ 31 := n.toInt_lt
    obtain ⟨ws, hws⟩ := (getWorkspaceAtIndex_ok_iff hlt).mpr hfits
    rw [hn, Machine.ok_bind, workspaceByNumber, hws, Machine.ok_bind]
    rcases hor with hint | hnone
    · -- the name is a number
      obtain ⟨r, c', hok⟩ := switchIfValid_ok (c := c) (o := o) ws
      exact ⟨r, c', hok, fun hnot => absurd (hsupported.mpr hint) hnot⟩
    · -- no workspace has the number
      have hnot : ¬ c.IsWorkspaceValid o ws := by
        intro hvalid
        rcases getWorkspaceAtIndex_spec hlt hws with ⟨-, hnumber⟩ | ⟨rfl, -⟩
        · exact hnone ws hvalid hnumber
        · exact not_valid_invalidWorkspace hvalid
      exact ⟨_, _, switchIfValid_of_not_valid hnot, fun _ => ⟨nofun, rfl⟩⟩

/-- Joining words gives a text without blanks only if there is one word. -/
lemma headD_of_joinArgs {argv : List Str} {t : Str} (hne : argv ≠ []) (h : joinArgs argv = t)
    (ht : ' ' ∉ t) : argv.headD [] = t := by
  match argv with
  | [a] => simpa [joinArgs, List.intercalate] using h
  | a :: b :: rest =>
    rw [← h] at ht
    exact absurd (by simp [joinArgs, List.intercalate, List.intersperse]) ht

lemma joinArgs_not_keyword {argv : List Str} (hne : argv ≠ [])
    (h : (workspaceKeywords.any fun t => eqIgnoringCase (argv.headD []) t) = false) :
    ∀ t ∈ workspaceKeywords, joinArgs argv ≠ t := by
  intro t ht heq
  have hblank : ∀ t ∈ workspaceKeywords, ' ' ∉ t := by decide
  have hlower : ∀ t ∈ workspaceKeywords, eqIgnoringCase t t = true := by decide
  have hhead := headD_of_joinArgs hne heq (hblank t ht)
  have hany : (workspaceKeywords.any fun t => eqIgnoringCase (argv.headD []) t) = true :=
    List.any_eq_true.mpr ⟨t, ht, by rw [hhead]; exact hlower t ht⟩
  rw [h] at hany
  cases hany

/-! ## Keywords -/

lemma intValue_of_fits {v : ℤ} (hneg : -2 ^ 31 ≤ v) (hlt : v < 2 ^ 31) : intValue v = .ok v :=
  if_pos ⟨hneg, hlt⟩

lemma workspacePrev_ok_iff {index : ℤ} {current : Point} (hpos : 0 < index)
    (hlt : index < 2 ^ 31) :
    (∃ ws, c.workspacePrev index current o = .ok ws) ↔ c.SearchFits o (index - 1) := by
  rw [workspacePrev, intValue_of_fits (by omega) (by omega), Machine.ok_bind,
    ← getWorkspaceAtIndex_ok_iff (by omega)]
  constructor
  · rintro ⟨ws, hws⟩
    obtain ⟨prev, hprev, -⟩ := Machine.bind_ok_iff.mp hws
    exact ⟨prev, hprev⟩
  · rintro ⟨prev, hprev⟩
    exact ⟨_, by rw [hprev, Machine.ok_bind]; rfl⟩

lemma workspaceNext_ok_iff {index : ℤ} {current : Point} (hpos : 0 < index)
    (hlt : index < 2 ^ 31) : (∃ ws, c.workspaceNext index current o = .ok ws) ↔
      index + 1 < 2 ^ 31 ∧ c.SearchFits o (index + 1) := by
  rw [workspaceNext]
  by_cases hafter : index + 1 < 2 ^ 31
  · rw [intValue_of_fits (by omega) hafter, Machine.ok_bind, and_iff_right hafter,
      ← getWorkspaceAtIndex_ok_iff hafter]
    constructor
    · rintro ⟨ws, hws⟩
      obtain ⟨next, hnext, -⟩ := Machine.bind_ok_iff.mp hws
      exact ⟨next, hnext⟩
    · rintro ⟨next, hnext⟩
      exact ⟨_, by rw [hnext, Machine.ok_bind]; rfl⟩
  · refine iff_of_false ?_ fun h => hafter h.1
    rintro ⟨ws, hws⟩
    rw [intValue, if_neg fun h => hafter h.2] at hws
    cases hws

/-- With the number of the current workspace a keyword goes on exactly if this is an `int`. -/
lemma getWorkspaceIndex_bind_ok_iff {p : Point} (hp : c.IsWorkspaceValid o p)
    {go : ℤ → Except Failure Point} :
    (∃ ws, (c.getWorkspaceIndex p o >>= go) = .ok ws) ↔
      c.workspaceIndex o p < 2 ^ 31 ∧ ∃ ws, go (c.workspaceIndex o p) = .ok ws := by
  rw [getWorkspaceIndex_eq hp]
  by_cases hlt : c.workspaceIndex o p < 2 ^ 31
  · rw [if_pos hlt, Machine.ok_bind, and_iff_right hlt]
  · rw [if_neg hlt]
    refine iff_of_false ?_ fun h => hlt h.1
    rintro ⟨ws, hws⟩
    cases hws

/-- A text that is no keyword is read as a number. -/
lemma workspaceByName_of_not_keyword {name : Str} (h : ∀ t ∈ workspaceKeywords, name ≠ t)
    (hback : eqIgnoringCase name "back_and_forth".toList = false) :
    c.workspaceByName name (some o)
      = stoi name >>= fun index => c.workspaceByNumber index.toInt (some o) := by
  have hne : ∀ t : String, t.toList ∈ workspaceKeywords → name ≠ t.toList := fun t => h t.toList
  rw [workspaceByName, if_neg (hne "prev" (by decide)), if_neg (hne "prev_on_output" (by decide)),
    if_neg (hne "next" (by decide)), if_neg (hne "next_on_output" (by decide)),
    if_neg (hne "current" (by decide)), if_neg (by rw [hback]; nofun)]

lemma workspaceByName_keyword_ok_iff (hcurrent : c.IsWorkspaceValid o (c.output o).currentWorkspace)
    {name : Str} (h : (workspaceKeywords.any fun t => eqIgnoringCase name t) = true) :
    (∃ ws, c.workspaceByName name (some o) = .ok ws) ↔ name ∈ workspaceKeywords ∧
      (name = "prev".toList → c.workspaceIndex o (c.output o).currentWorkspace < 2 ^ 31 ∧
        c.SearchFits o (c.workspaceIndex o (c.output o).currentWorkspace - 1)) ∧
      (name = "next".toList → c.workspaceIndex o (c.output o).currentWorkspace + 1 < 2 ^ 31 ∧
        c.SearchFits o (c.workspaceIndex o (c.output o).currentWorkspace + 1)) := by
  have hpos := workspaceIndex_pos hcurrent
  by_cases hname : name ∈ workspaceKeywords
  · rw [and_iff_right hname]
    have hcases : name = "next".toList ∨ name = "prev".toList ∨ name = "next_on_output".toList ∨
        name = "prev_on_output".toList ∨ name = "current".toList := by
      simpa [workspaceKeywords] using hname
    rcases hcases with rfl | rfl | rfl | rfl | rfl
    · -- the next workspace is searched from its number on
      show (∃ ws, (c.getWorkspaceIndex _ o >>= fun index => c.workspaceNext index _ o) = .ok ws) ↔ _
      rw [getWorkspaceIndex_bind_ok_iff hcurrent]
      constructor
      · rintro ⟨hlt, hok⟩
        refine ⟨nofun, fun _ => ?_⟩
        have hnext := (workspaceNext_ok_iff (by omega) (by omega)).mp hok
        exact ⟨by omega, hnext.2⟩
      · rintro ⟨-, hnext⟩
        obtain ⟨hlt, hfits⟩ := hnext rfl
        exact ⟨by omega, (workspaceNext_ok_iff (by omega) (by omega)).mpr ⟨by omega, hfits⟩⟩
    · -- and the previous one
      show (∃ ws, (c.getWorkspaceIndex _ o >>= fun index => c.workspacePrev index _ o) = .ok ws) ↔ _
      rw [getWorkspaceIndex_bind_ok_iff hcurrent]
      constructor
      · rintro ⟨hlt, hok⟩
        exact ⟨fun _ => ⟨hlt, (workspacePrev_ok_iff (by omega) (by omega)).mp hok⟩, nofun⟩
      · rintro ⟨hprev, -⟩
        obtain ⟨hlt, hfits⟩ := hprev rfl
        exact ⟨hlt, (workspacePrev_ok_iff (by omega) (by omega)).mpr hfits⟩
    · -- the other keywords need no number
      exact iff_of_true ⟨_, rfl⟩ ⟨nofun, nofun⟩
    · exact iff_of_true ⟨_, rfl⟩ ⟨nofun, nofun⟩
    · exact iff_of_true ⟨_, rfl⟩ ⟨nofun, nofun⟩
  · -- a keyword in another case is read as a number, which it is not
    obtain ⟨t, ht, heq⟩ := List.any_eq_true.mp h
    have hback : eqIgnoringCase name "back_and_forth".toList = false := by
      refine decide_eq_false fun hmap => ?_
      rw [of_decide_eq_true heq] at hmap
      have hnot : ∀ t ∈ workspaceKeywords, t ≠ "back_and_forth".toList := by decide
      exact hnot t ht hmap
    have hne : ∀ t ∈ workspaceKeywords, name ≠ t := fun t ht heq => hname (heq ▸ ht)
    rw [workspaceByName_of_not_keyword hne hback, stoi_of_eqIgnoringCase ht heq]
    refine iff_of_false ?_ fun h => hname h.1
    rintro ⟨ws, hws⟩
    cases hws

/-! ## The handler -/

/-- `workspace` returns a result, and a failure on words that are neither a keyword nor a number,
exactly under these conditions. -/
theorem workspaceHandler_answered_iff {argv : List Str} (hne : argv ≠ [])
    (hactive : c.activeOutput = some o)
    (hcurrent : c.IsWorkspaceValid o (c.output o).currentWorkspace)
    (ctx : CommandHandlerContext) : WorkspaceAnswered c o argv ctx ↔ c.Understood o argv := by
  have hlength : ¬ argv.length < 1 := by
    have := List.length_pos_iff.mpr hne
    omega
  have hcheck : checkarg argv.length "workspace".toList .atLeast 1 = none := by
    simp only [checkarg, if_neg hlength, Option.map_none]
  rw [WorkspaceAnswered, SupportedWorkspace, Understood, workspaceHandler, hcheck, hactive]
  simp only
  by_cases hnumber : eqIgnoringCase (argv.headD []) "number".toList = true
  · -- "number" and the word behind it
    simp only [if_pos hnumber]
    cases hword : argv[1]? with
    | none => exact iff_of_true ⟨_, _, rfl, fun _ => ⟨nofun, rfl⟩⟩ nofun
    | some number =>
      by_cases hdigit : (charAt number 0).isDigit = true
      · simp only [hdigit, not_true_eq_false, if_false]
        refine (number_answered_iff number ?_).trans ?_
        · simp
        · simp [hdigit]
      · simp only [hdigit]
        refine iff_of_true ⟨_, _, rfl, fun _ => ⟨nofun, rfl⟩⟩ ?_
        rintro text ⟨⟩ h
        exact absurd h hdigit
  · simp only [if_neg hnumber]
    by_cases hkey : (workspaceKeywords.any fun t => eqIgnoringCase (argv.headD []) t) = true
    · -- a keyword
      simp only [if_pos hkey]
      rw [← workspaceByName_keyword_ok_iff hcurrent hkey]
      constructor
      · rintro ⟨r, c', hok, -⟩
        obtain ⟨ws, hws, -⟩ := Machine.bind_ok_iff.mp hok
        exact ⟨ws, hws⟩
      · rintro ⟨ws, hws⟩
        obtain ⟨r, c', hok⟩ := switchIfValid_ok (c := c) (o := o) ws
        exact ⟨r, c', by rw [hws, Machine.ok_bind, hok], fun hnot => absurd (Or.inl hkey) hnot⟩
    · simp only [if_neg hkey]
      rw [Bool.not_eq_true] at hkey
      cases hback : eqIgnoringCase (joinArgs argv) "back_and_forth".toList with
      | true =>
        -- "back_and_forth" stands for the current workspace
        have hname : c.workspaceByName (joinArgs argv) (some o)
            = .ok (c.output o).currentWorkspace := by
          have hdiffer : ∀ t : String, t.toList ∈ workspaceKeywords → joinArgs argv ≠ t.toList :=
            fun t => joinArgs_not_keyword hne hkey t.toList
          rw [workspaceByName, if_neg (hdiffer "prev" (by decide)),
            if_neg (hdiffer "prev_on_output" (by decide)), if_neg (hdiffer "next" (by decide)),
            if_neg (hdiffer "next_on_output" (by decide)), if_neg (hdiffer "current" (by decide)),
            if_pos hback]
        have hswitch := switchIfValid_of_valid hcurrent
        refine iff_of_true ⟨⟨.success, none⟩,
          c.workspaceSwitch (c.output o).currentWorkspace o, ?_, fun hnot => ?_⟩ (Or.inl rfl)
        · rw [hname, Machine.ok_bind]
          exact hswitch
        · exact absurd (Or.inr (Or.inl rfl)) hnot
      | false =>
        -- any other name is read as a number
        rw [workspaceByName_of_not_keyword (joinArgs_not_keyword hne hkey) hback, bind_assoc]
        refine (number_answered_iff (joinArgs argv) ?_).trans ?_
        · rw [hkey]
          simp
        · simp

/-- An output with two workspaces, one beside the other. -/
def twoWorkspaces : Compositor := .flat [⟨1, "A".toList, 2, 1, ⟨0, 0⟩⟩] [] none

/-- The number of the second workspace is answered. -/
theorem secondWorkspace_answered : WorkspaceAnswered twoWorkspaces 0 ["2".toList] {} := by
  refine (workspaceHandler_answered_iff (by simp) rfl (by decide) {}).mpr (Or.inr ⟨2, rfl, ?_, ?_⟩)
  · decide
  · refine Or.inl (.unsigned (by decide) (List.forall_mem_singleton.mpr rfl) ?_)
    show 2 < 2 ^ 31
    norm_num

/-- A name ends in an exception. -/
theorem name_not_answered : ¬ ∀ (c : Compositor) (o : OutputRef) (argv : List Str)
    (ctx : CommandHandlerContext), argv ≠ [] → c.activeOutput = some o →
      c.IsWorkspaceValid o (c.output o).currentWorkspace → WorkspaceAnswered c o argv ctx := by
  intro h
  obtain ⟨r, c', hok, -⟩ := h twoWorkspaces 0 ["www".toList] {} (by simp) rfl (by decide)
  have hthrown : workspaceHandler ["www".toList] {} twoWorkspaces = .error .invalidArgument := rfl
  rw [hthrown] at hok
  cases hok

end Compositor
end WayfireIpc
