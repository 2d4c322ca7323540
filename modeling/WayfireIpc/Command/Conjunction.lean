/-
# Criteria that are written together

A criteria block that has the tokens of two others, which name no token in common, selects the
views that both of them select.  Other containers are selected by their id only, so that for them
one of the two is enough.
-/
import WayfireIpc.Command.Written
import WayfireIpc.Command.Selection
import WayfireIpc.Command.Once

namespace WayfireIpc
namespace Criteria

/-! ## Members of two criteria -/

/-- The members that are set in one of two criteria. -/
def meet (A B : Criteria) : Criteria where
  raw := A.raw ++ B.raw
  title := A.title.or B.title
  shell := A.shell.or B.shell
  appId := A.appId.or B.appId
  conMark := A.conMark.or B.conMark
  conId := if A.conId = 0 then B.conId else A.conId
  all := A.all || B.all
  floating := A.floating || B.floating
  tiling := A.tiling || B.tiling
  urgent := A.urgent.or B.urgent
  workspace := A.workspace.or B.workspace
  pid := if A.pid = 0 then B.pid else A.pid

/-- The member of a token is not set. -/
def Unset (ks : Criteria) : CriteriaToken → Prop
  | .all => ks.all = false
  | .title => ks.title = none
  | .shell => ks.shell = none
  | .appId => ks.appId = none
  | .conId => ks.conId = 0
  | .conMark => ks.conMark = none
  | .floating => ks.floating = false
  | .tiling => ks.tiling = false
  | .urgent => ks.urgent = none
  | .workspace => ks.workspace = none
  | .pid => ks.pid = 0

/-- No member is set in both criteria. -/
def Apart (A B : Criteria) : Prop := ∀ token, A.Unset token ∨ B.Unset token

variable {W : Library} {c : Compositor} {A B ks ks' : Criteria}

lemma unset_empty (token : CriteriaToken) : ({} : Criteria).Unset token := by
  cases token <;> rfl

@[simp] lemma meet_empty (A : Criteria) : A.meet {} = A := by
  have hid : (if A.conId = 0 then 0 else A.conId) = A.conId := ite_eq_right_iff.mpr Eq.symm
  have hpid : (if A.pid = 0 then 0 else A.pid) = A.pid := ite_eq_right_iff.mpr Eq.symm
  simp only [meet, List.append_nil, Option.or_none, Bool.or_false, hid, hpid]

lemma setToken_unset {value : Str} {token other : CriteriaToken}
    (h : setToken W c ks value token = .ok ks') (hne : other ≠ token) (hother : ks.Unset other) :
    ks'.Unset other := by
  rcases token with _ | _ | _ | _ | _ | _ | _ | _ | _ | _ | _
  case all | floating | tiling =>
    cases h
    cases other <;> first | exact absurd rfl hne | exact hother
  all_goals
    obtain ⟨p, -, rfl⟩ := Machine.map_ok_iff.mp h
    cases other <;> first | exact absurd rfl hne | exact hother

/-- A token whose member is not set in `A` sets it next to `A`. -/
lemma setToken_meet {value : Str} {token : CriteriaToken} (hA : A.Unset token)
    (h : setToken W c ks value token = .ok ks') :
    setToken W c (A.meet ks) value token = .ok (A.meet ks') := by
  rcases token with _ | _ | _ | _ | _ | _ | _ | _ | _ | _ | _
  case all | floating | tiling =>
    cases h
    simp [setToken, meet]
  all_goals
    obtain ⟨p, hp, rfl⟩ := Machine.map_ok_iff.mp h
    refine Machine.map_ok_iff.mpr ⟨p, hp, ?_⟩
    rw [Unset] at hA
    simp [meet, hA]

lemma parseToken_unset {name : Str} {value : Option Str} {other : CriteriaToken}
    (h : parseToken W c ks name value = .ok ks') (hne : name ≠ tokenText other)
    (hother : ks.Unset other) : ks'.Unset other := by
  obtain ⟨token, v, htoken, hset, -⟩ := setToken_of_parseToken h
  refine setToken_unset hset ?_ hother
  rintro rfl
  exact hne (eq_of_tokenFromName htoken)

lemma parseToken_meet {name : Str} {value : Option Str}
    (hA : ∀ token, name = tokenText token → A.Unset token)
    (h : parseToken W c ks name value = .ok ks') :
    parseToken W c (A.meet ks) name value = .ok (A.meet ks') := by
  rw [parseToken] at h ⊢
  rcases htoken : tokenFromName name with _ | token
  · rw [htoken] at h
    cases h
  · have hunset := hA token (eq_of_tokenFromName htoken)
    rw [htoken] at h
    rcases value with _ | value
    · dsimp only at h ⊢
      split_ifs at h ⊢
      exact setToken_meet hunset h
    · exact setToken_meet hunset h

/-! ## Tokens of two blocks -/

variable (W c) in
/-- The members after some tokens. -/
def setAll (ks : Criteria) (written : List WrittenToken) : Except Str Criteria :=
  written.foldlM (fun ks token => parseToken W c ks token.name token.value) ks

lemma setAll_append (ks : Criteria) (written written' : List WrittenToken) :
    setAll W c ks (written ++ written') = (setAll W c ks written >>= fun ks => setAll W c ks written') :=
  List.foldlM_append

/-- A member that no token names is not set. -/
lemma setAll_unset {written : List WrittenToken} {other : CriteriaToken}
    (h : setAll W c ks written = .ok ks') (hne : ∀ token ∈ written, token.name ≠ tokenText other)
    (hother : ks.Unset other) : ks'.Unset other := by
  induction written generalizing ks with
  | nil =>
    cases h
    exact hother
  | cons token written ih =>
    rw [setAll, List.foldlM_cons] at h
    obtain ⟨ks₁, hparse, h⟩ := Machine.bind_ok_iff.mp h
    obtain ⟨hfirst, hrest⟩ := List.forall_mem_cons.mp hne
    exact ih h hrest (parseToken_unset hparse hfirst hother)

lemma setAll_meet {written : List WrittenToken}
    (hA : ∀ token ∈ written, ∀ t, token.name = tokenText t → A.Unset t)
    (h : setAll W c ks written = .ok ks') : setAll W c (A.meet ks) written = .ok (A.meet ks') := by
  induction written generalizing ks with
  | nil =>
    cases h
    rfl
  | cons token written ih =>
    rw [setAll, List.foldlM_cons] at h ⊢
    obtain ⟨ks₁, hparse, h⟩ := Machine.bind_ok_iff.mp h
    obtain ⟨hfirst, hrest⟩ := List.forall_mem_cons.mp hA
    rw [parseToken_meet hfirst hparse, Machine.ok_bind]
    exact ih hrest h

/-- What a block sets, next to its own text. -/
lemma setAll_of_parse {raw : Str} (h : parse W c raw = .ok (.ok ks)) :
    ∃ ks₀, setAll W c {} (tokens raw) = .ok ks₀ ∧ ks = { ks₀ with raw := ks.raw } := by
  obtain ⟨ks₀, rest, -, hloop, -, rfl⟩ := exists_of_parse h
  exact ⟨ks₀, foldlM_of_parseLoop _ hloop, rfl⟩

/-- Blocks without a common name set members apart, and a block with the tokens of both sets what
they set. -/
lemma setAll_together {written written' : List WrittenToken}
    (hnames : ∀ token ∈ written, ∀ token' ∈ written', token.name ≠ token'.name)
    (hA : setAll W c {} written = .ok A) (hB : setAll W c {} written' = .ok B) :
    A.Apart B ∧ setAll W c {} (written ++ written') = .ok (A.meet B) := by
  have hunset : ∀ token' ∈ written', ∀ t, token'.name = tokenText t → A.Unset t :=
    fun token' htoken' t ht => setAll_unset hA
      (fun token htoken => ht ▸ hnames token htoken token' htoken') (unset_empty t)
  constructor
  · intro t
    by_cases hnamed : ∃ token' ∈ written', token'.name = tokenText t
    · obtain ⟨token', htoken', ht⟩ := hnamed
      exact Or.inl (hunset token' htoken' t ht)
    · refine Or.inr (setAll_unset hB (fun token' htoken' ht => ?_) (unset_empty t))
      exact hnamed ⟨token', htoken', ht⟩
  · rw [setAll_append, hA, Machine.ok_bind]
    simpa using setAll_meet hunset hB

/-! ## What is selected -/

lemma all_or {α : Type*} {a b : Option α} {p : α → Bool} (hab : a = none ∨ b = none) :
    (a.or b).all p = (a.all p && b.all p) := by
  rcases hab with rfl | rfl
  · simp
  · simp

section Matches

variable (h : A.Apart B) (m : Node)

include h

lemma matchesContainer_meet : (A.meet B).matchesContainer m
    = (A.matchesContainer m && B.matchesContainer m) := by
  rcases h .conId with hA | hB
  · rw [Unset] at hA
    simp [matchesContainer, meet, hA]
  · rw [Unset] at hB
    by_cases hA : A.conId = 0 <;> simp [matchesContainer, meet, hA, hB]

lemma matchesPid_meet : (A.meet B).matchesPid m = (A.matchesPid m && B.matchesPid m) := by
  rcases h .pid with hA | hB
  · rw [Unset] at hA
    simp [matchesPid, meet, hA]
  · rw [Unset] at hB
    by_cases hA : A.pid = 0 <;> simp [matchesPid, meet, hA, hB]

lemma matchesMembers_meet : (A.meet B).matchesMembers W c m
    = (A.matchesMembers W c m && B.matchesMembers W c m) := by
  have htitle : (A.meet B).title.all (matchesTitle W c m) = _ := all_or (h .title)
  have hshell : (A.meet B).shell.all (matchesShell W c m) = _ := all_or (h .shell)
  have happId : (A.meet B).appId.all (matchesAppId W c m) = _ := all_or (h .appId)
  have hfloating : (A.meet B).floating = (A.floating || B.floating) := rfl
  have htiling : (A.meet B).tiling = (A.tiling || B.tiling) := rfl
  rw [matchesMembers, htitle, hshell, happId, matchesContainer_meet h, hfloating, htiling,
    matchesMembers, matchesMembers, Bool.not_or, Bool.or_and_distrib_right, Bool.not_or]
  ac_rfl

/-- A test of which only one criteria object makes any. -/
lemma testUrgent_meet {a b : Bool} (ha : A.testUrgent W c m = .ok a) (hb : B.testUrgent W c m = .ok b) :
    (A.meet B).testUrgent W c m = .ok (a && b) := by
  rcases h .urgent with hA | hB
  · rw [Unset] at hA
    have hmeet : (A.meet B).testUrgent W c m = B.testUrgent W c m := by
      simp [testUrgent, meet, hA]
    rw [testUrgent, hA] at ha
    cases ha
    rw [hmeet, hb, Bool.true_and]
  · rw [Unset] at hB
    have hmeet : (A.meet B).testUrgent W c m = A.testUrgent W c m := by
      simp [testUrgent, meet, hB]
    rw [testUrgent, hB] at hb
    cases hb
    rw [hmeet, ha, Bool.and_true]

lemma testWorkspace_meet {a b : Bool} (ha : A.testWorkspace W c m = .ok a)
    (hb : B.testWorkspace W c m = .ok b) : (A.meet B).testWorkspace W c m = .ok (a && b) := by
  rcases h .workspace with hA | hB
  · rw [Unset] at hA
    have hmeet : (A.meet B).testWorkspace W c m = B.testWorkspace W c m := by
      simp [testWorkspace, meet, hA]
    rw [testWorkspace, hA] at ha
    cases ha
    rw [hmeet, hb, Bool.true_and]
  · rw [Unset] at hB
    have hmeet : (A.meet B).testWorkspace W c m = A.testWorkspace W c m := by
      simp [testWorkspace, meet, hB]
    rw [testWorkspace, hB] at hb
    cases hb
    rw [hmeet, ha, Bool.and_true]

/-- Where both tests of a view return, that of all the members does. -/
lemma matchesView_meet {a b : Bool} (ha : A.matchesView W c m = .ok a) (hb : B.matchesView W c m = .ok b) :
    (A.meet B).matchesView W c m = .ok (a && b) := by
  rw [matchesView, matchesMembers_meet h]
  rw [matchesView] at ha hb
  cases hmembersA : A.matchesMembers W c m with
  | false =>
    rw [hmembersA] at ha
    cases ha
    rfl
  | true =>
    cases hmembersB : B.matchesMembers W c m with
    | false =>
      rw [hmembersB] at hb
      cases hb
      rw [Bool.and_false, Bool.and_false]
      rfl
    | true =>
      rw [hmembersA, if_pos rfl] at ha
      rw [hmembersB, if_pos rfl] at hb
      obtain ⟨ua, hua, ha⟩ := Machine.bind_ok_iff.mp ha
      obtain ⟨ub, hub, hb⟩ := Machine.bind_ok_iff.mp hb
      rw [Bool.and_self, if_pos rfl, testUrgent_meet h m hua hub, Machine.ok_bind]
      -- the tests of the workspace come behind those of the urgency
      cases ua with
      | false =>
        cases ha
        rfl
      | true =>
        cases ub with
        | false =>
          cases hb
          rw [Bool.and_false, Bool.and_false]
          rfl
        | true =>
          obtain ⟨wa, hwa, ha⟩ := Machine.bind_ok_iff.mp ha
          obtain ⟨wb, hwb, hb⟩ := Machine.bind_ok_iff.mp hb
          cases ha
          cases hb
          rw [Bool.and_self, if_pos rfl, testWorkspace_meet h m hwa hwb, Machine.ok_bind,
            matchesPid_meet h]
          refine congrArg Except.ok ?_
          ac_rfl

lemma matchesNode_meet {a b : Bool} (ha : A.matchesNode W c m = .ok a) (hb : B.matchesNode W c m = .ok b) :
    (A.meet B).matchesNode W c m = .ok (if m.attr.type = .con ∨ m.attr.type = .floatingCon then a && b
      else a || b) := by
  rw [matchesNode] at ha hb ⊢
  split_ifs at ha hb ⊢
  · exact matchesView_meet h m ha hb
  · cases ha
    cases hb
    refine congrArg Except.ok ?_
    rcases h .conId with hA | hB
    · rw [Unset] at hA
      simp [hasContainer, matchesContainer, meet, hA]
    · rw [Unset] at hB
      by_cases hA : A.conId = 0 <;> simp [hasContainer, matchesContainer, meet, hA, hB]

end Matches

variable (W c) in
/-- The test of a container succeeds. -/
def Keeps (ks : Criteria) (m : Node) : Bool := (ks.matchesNode W c m).toOption.getD false

lemma matchesNode_of_matchesOf {containers ms : List Node} (h : ks.matchesOf W c containers = .ok ms) :
    (∀ m ∈ containers, ks.matchesNode W c m = .ok (ks.Keeps W c m)) ∧
      ms = containers.filter (ks.Keeps W c) := by
  induction containers generalizing ms with
  | nil =>
    cases h
    exact ⟨fun m hm => absurd hm List.not_mem_nil, rfl⟩
  | cons container containers ih =>
    obtain ⟨b, hb, h⟩ := Machine.bind_ok_iff.mp h
    obtain ⟨rest, hrest, h⟩ := Machine.bind_ok_iff.mp h
    obtain ⟨hall, rfl⟩ := ih hrest
    have hkeeps : ks.Keeps W c container = b := by
      rw [Keeps, hb]
      rfl
    cases h
    refine ⟨List.forall_mem_cons.mpr ⟨by rw [hkeeps, hb], hall⟩, ?_⟩
    rw [List.filter_cons, hkeeps]

/-- If a criteria block has the tokens of two others, those of the second behind those of the first,
which name no token in common, and if those two select containers, it selects the views that both
select, and the other containers that one of them does. -/
theorem getContainers_together {raw raw₁ raw₂ : Str} {ms₁ ms₂ : List Node}
    (hraw : parse W c raw = .ok (.ok ks)) (hraw₁ : parse W c raw₁ = .ok (.ok A))
    (hraw₂ : parse W c raw₂ = .ok (.ok B)) (htokens : tokens raw = tokens raw₁ ++ tokens raw₂)
    (hnames : ∀ token ∈ tokens raw₁, ∀ token' ∈ tokens raw₂, token.name ≠ token'.name)
    (hms₁ : A.getContainers W c = .ok ms₁) (hms₂ : B.getContainers W c = .ok ms₂) :
    ∃ (root : Option Node) (p q : Node → Bool), c.getTree = .ok root ∧
      ms₁ = (root.elim [] Node.containers).filter p ∧ ms₂ = (root.elim [] Node.containers).filter q ∧
      ks.getContainers W c = .ok ((root.elim [] Node.containers).filter fun m =>
        if m.attr.type = .con ∨ m.attr.type = .floatingCon then p m && q m else p m || q m) := by
  obtain ⟨A₀, hA₀, hA⟩ := setAll_of_parse hraw₁
  obtain ⟨B₀, hB₀, hB⟩ := setAll_of_parse hraw₂
  obtain ⟨ks₀, hks₀, hks⟩ := setAll_of_parse hraw
  obtain ⟨hapart, htogether⟩ := setAll_together hnames hA₀ hB₀
  rw [htokens, htogether] at hks₀
  cases hks₀
  obtain ⟨root, hroot, hms₁⟩ := Machine.bind_ok_iff.mp hms₁
  obtain ⟨root', hroot', hms₂⟩ := Machine.bind_ok_iff.mp hms₂
  rw [hroot] at hroot'
  cases hroot'
  obtain ⟨hall₁, hfilter₁⟩ := matchesNode_of_matchesOf hms₁
  obtain ⟨hall₂, hfilter₂⟩ := matchesNode_of_matchesOf hms₂
  refine ⟨root, A.Keeps W c, B.Keeps W c, hroot, hfilter₁, hfilter₂, ?_⟩
  rw [getContainers, hroot, Machine.ok_bind, getContainersFrom]
  refine matchesOf_eq_filter fun m hm => ?_
  -- the text of a block plays no part in the test
  have htext : ∀ {ks ks₀ : Criteria}, ks = { ks₀ with raw := ks.raw } →
      ks₀.matchesNode W c m = ks.matchesNode W c m := by
    intro ks ks₀ h
    rw [h]
    rfl
  rw [← htext hks]
  exact matchesNode_meet hapart m ((htext hA).trans (hall₁ m hm)) ((htext hB).trans (hall₂ m hm))

/-- Criteria for an id, for a shell and for both. -/
def seven : Criteria where
  raw := "[con_id=7]".toList
  conId := 7

def xdgShell : Criteria where
  raw := "[shell=xdg_shell]".toList
  shell := some (.pcre2 "xdg_shell".toList)

def sevenShell : Criteria where
  raw := "[con_id=7 shell=xdg_shell]".toList
  conId := 7
  shell := some (.pcre2 "xdg_shell".toList)

theorem oneWindow_together : ∃ (ms₁ ms₂ : List Node) (root : Option Node) (p q : Node → Bool),
    oneWindow.getTree = .ok root ∧ ms₁ = (root.elim [] Node.containers).filter p ∧
      ms₂ = (root.elim [] Node.containers).filter q ∧
      sevenShell.getContainers equalTexts oneWindow = .ok ((root.elim [] Node.containers).filter fun m =>
        if m.attr.type = .con ∨ m.attr.type = .floatingCon then p m && q m else p m || q m) := by
  have hids₁ : (seven.getContainers equalTexts oneWindow).map (List.map Node.id) = .ok [7] := by
    decide +kernel
  have hids₂ : (xdgShell.getContainers equalTexts oneWindow).map (List.map Node.id) = .ok [7] := by
    decide +kernel
  obtain ⟨ms₁, hms₁, -⟩ := Machine.map_ok_iff.mp hids₁
  obtain ⟨ms₂, hms₂, -⟩ := Machine.map_ok_iff.mp hids₂
  have hraw : parse equalTexts oneWindow sevenShell.raw = .ok (.ok sevenShell) := rfl
  have hraw₁ : parse equalTexts oneWindow seven.raw = .ok (.ok seven) := rfl
  have hraw₂ : parse equalTexts oneWindow xdgShell.raw = .ok (.ok xdgShell) := rfl
  exact ⟨ms₁, ms₂, getContainers_together hraw hraw₁ hraw₂ (by decide +kernel) (by decide +kernel) hms₁
    hms₂⟩

end Criteria
end WayfireIpc
