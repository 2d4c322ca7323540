/-
# Which entries a setter touches

A setter of `output` or of the power plugin should change one field of the entry of its
output.  The loop of the subcommands does so exactly when it comes to that entry and on the
way to no output that is missing; the loop of the power plugin visits all entries.
-/
import WayfireIpc.Output.Config

namespace WayfireIpc

/-- `find_output` gives the output for an entry. -/
def Power.Queries.isEntryOf (q : Power.Queries) (output : OutputRef) (e : OutputEntry) : Bool :=
  (q.findOutput e.output).any fun o => (q.compositor.output o).id = (q.compositor.output output).id

/-- The six setters, with what they set; those of the power plugin in their form by name. -/
inductive SetCommand
  | mode (mode : OutputMode)
  | scale (scale : CFloat)
  | transform (transform : Transform)
  | position (position : OutputPosition)
  | stateOff (nameOrId : Str)
  | stateOn (nameOrId : Str)
deriving DecidableEq, Repr

namespace SetCommand

variable (q : Power.Queries)

/-- What becomes of the entry of the output. -/
def change : SetCommand → OutputEntry → OutputEntry
  | .mode m, e => { e with mode := m }
  | .scale s, e => { e with scale := s }
  | .transform t, e => { e with transform := t }
  | .position p, e => { e with position := p }
  | .stateOff _, e => { e with source := .dpms }
  | .stateOn _, e => { e with source := .self }

def run (output : OutputRef) : SetCommand → OutputLayout → Except Failure OutputLayout
  | .mode m, L => Prod.snd <$> L.setMode q m output
  | .scale s, L => Prod.snd <$> L.setScale q s output
  | .transform t, L => Prod.snd <$> L.setTransform q t output
  | .position p, L => Prod.snd <$> L.setPosition q p output
  | .stateOff nameOrId, L => L.setStateOff q nameOrId
  | .stateOn nameOrId, L => L.setStateOn q nameOrId

/-- A name is that of the output. -/
def Names (output : OutputRef) : SetCommand → Prop
  | stateOff nameOrId | stateOn nameOrId => nameOrId ≠ ipcAnyTocken.toList ∧
      q.compositor.allOutputByNameOrId (cStr nameOrId) = some output
  | _ => True

/-- The loop comes to the entry of the output, and to no output that is missing. -/
def Unhindered (output : OutputRef) (L : OutputLayout) : SetCommand → Prop
  | stateOff _ | stateOn _ => ∀ e ∈ L.config, q.findOutput e.output ≠ none
  | _ => ∃ before e after, L.config = before ++ e :: after ∧ q.isEntryOf output e ∧
      ∀ e' ∈ before, q.findOutput e'.output ≠ none

end SetCommand

namespace OutputLayout

variable {q : Power.Queries} {output : OutputRef} {change : OutputEntry → OutputEntry}
  {L L' : OutputLayout} {dst : OutputImageSource}

variable (q output change) in
/-- Only entries of the output have changed, by `change`, and a configuration has been applied only
if there is one. -/
structure Confined (L L' : OutputLayout) : Prop where
  entries : List.Forall₂ (fun e e' => e' = e ∨ (q.isEntryOf output e ∧ e' = change e))
    L.config L'.config
  applied : L' = L ∨ ((∃ e ∈ L.config, q.isEntryOf output e) ∧ L' = L.apply L'.config)
  effect : (∃ e ∈ L.config, q.isEntryOf output e) →
    ∃ e ∈ L.config, q.isEntryOf output e ∧ change e ∈ L'.config

/-! ## The setters of the subcommands -/

variable (q output change) in
/-- The first entry of the output has changed, and `b` is true, or there is no such entry. -/
def FirstChanged (found : Bool) (entries : List OutputEntry) (b : Bool)
    (entries' : List OutputEntry) : Prop :=
  (∃ before e after, entries = before ++ e :: after ∧ q.isEntryOf output e ∧
    (∀ e' ∈ before, q.findOutput e'.output ≠ none ∧ ¬ q.isEntryOf output e') ∧
    b = true ∧ entries' = before ++ change e :: after) ∨
  ((∀ e' ∈ entries, q.findOutput e'.output ≠ none ∧ ¬ q.isEntryOf output e') ∧
    b = found ∧ entries' = entries)

section FirstChanged

variable {found b : Bool} {entry : OutputEntry} {entries entries' : List OutputEntry}

lemma firstChanged_nil :
    FirstChanged q output change found [] b entries' ↔ b = found ∧ entries' = [] := by
  constructor
  · rintro (⟨before, e, after, h, -⟩ | ⟨-, rfl, rfl⟩)
    · cases before <;> cases h
    · exact ⟨rfl, rfl⟩
  · exact fun h => Or.inr ⟨fun _ h => absurd h List.not_mem_nil, h⟩

/-- Nothing comes behind a missing output. -/
lemma not_firstChanged_cons (hfind : q.findOutput entry.output = none) :
    ¬ FirstChanged q output change found (entry :: entries) b entries' := by
  rintro (⟨before, e, after, h, hentry, hbefore, -⟩ | ⟨hall, -⟩)
  · cases before with
    | nil =>
      cases h
      rw [Power.Queries.isEntryOf, hfind] at hentry
      cases hentry
    | cons e' before =>
      cases h
      exact (hbefore entry List.mem_cons_self).1 hfind
  · exact (hall entry List.mem_cons_self).1 hfind

lemma firstChanged_cons_of_entry (hentry : q.isEntryOf output entry) :
    FirstChanged q output change found (entry :: entries) b entries' ↔
      b = true ∧ entries' = change entry :: entries := by
  constructor
  · rintro (⟨before, e, after, h, -, hbefore, rfl, rfl⟩ | ⟨hall, -⟩)
    · cases before with
      | nil =>
        cases h
        exact ⟨rfl, rfl⟩
      | cons e' before =>
        cases h
        exact absurd hentry (hbefore entry List.mem_cons_self).2
    · exact absurd hentry (hall entry List.mem_cons_self).2
  · exact fun h => Or.inl
      ⟨[], entry, entries, rfl, hentry, fun _ h => absurd h List.not_mem_nil, h⟩

lemma firstChanged_cons_of_other
    (hentry : q.findOutput entry.output ≠ none ∧ ¬ q.isEntryOf output entry) :
    FirstChanged q output change found (entry :: entries) b entries' ↔
      ∃ rest, FirstChanged q output change found entries b rest ∧ entries' = entry :: rest := by
  constructor
  · rintro (⟨before, e, after, h, he, hbefore, rfl, rfl⟩ | ⟨hall, rfl, rfl⟩)
    · cases before with
      | nil =>
        cases h
        exact absurd he hentry.2
      | cons e' before =>
        cases h
        exact ⟨_, Or.inl ⟨before, e, after, rfl, he, (List.forall_mem_cons.mp hbefore).2, rfl,
          rfl⟩, rfl⟩
    · exact ⟨entries, Or.inr ⟨(List.forall_mem_cons.mp hall).2, rfl, rfl⟩, rfl⟩
  · rintro ⟨rest, ⟨before, e, after, rfl, he, hbefore, rfl, rfl⟩ | ⟨hall, rfl, rfl⟩, rfl⟩
    · exact Or.inl ⟨entry :: before, e, after, rfl, he, List.forall_mem_cons.mpr ⟨hentry, hbefore⟩,
        rfl, rfl⟩
    · exact Or.inr ⟨List.forall_mem_cons.mpr ⟨hentry, hall⟩, rfl, rfl⟩

/-- The loop changes the first entry of the output, or it comes to the end without one. -/
lemma setEntry_ok_iff : setEntry q output change found entries = .ok (b, entries') ↔
    FirstChanged q output change found entries b entries' := by
  induction entries generalizing entries' with
  | nil =>
    rw [setEntry, firstChanged_nil, Except.ok.injEq, Prod.mk.injEq, eq_comm, eq_comm (a := [])]
  | cons entry entries ih =>
    rw [setEntry]
    cases hfind : q.findOutput entry.output with
    | none => exact iff_of_false nofun (not_firstChanged_cons hfind)
    | some o =>
      have hentryOf : q.isEntryOf output entry
          = decide ((q.compositor.output o).id = (q.compositor.output output).id) := by
        rw [Power.Queries.isEntryOf, hfind, Option.any_some]
      simp only
      by_cases hid : (q.compositor.output o).id = (q.compositor.output output).id
      · rw [decide_eq_true hid] at hentryOf
        rw [if_pos hid, firstChanged_cons_of_entry hentryOf, Except.ok.injEq, Prod.mk.injEq,
          eq_comm, eq_comm (b := entries')]
      · rw [decide_eq_false hid] at hentryOf
        rw [if_neg hid, firstChanged_cons_of_other
          ⟨by rw [hfind]; nofun, by rw [hentryOf]; nofun⟩, Machine.bind_ok_iff]
        constructor
        · rintro ⟨⟨b', rest⟩, hrest, h⟩
          cases h
          exact ⟨rest, ih.mp hrest, rfl⟩
        · rintro ⟨rest, hrest, rfl⟩
          exact ⟨(b, rest), ih.mpr hrest, rfl⟩

end FirstChanged

/-- Before some entry of the output, which comes behind no missing output, is the first one. -/
lemma exists_first_entry {e : OutputEntry} (after : List OutputEntry)
    (he : q.isEntryOf output e) : ∀ {before : List OutputEntry},
      (∀ e' ∈ before, q.findOutput e'.output ≠ none) → ∃ before' e' after',
        before ++ e :: after = before' ++ e' :: after' ∧ q.isEntryOf output e' ∧
        ∀ e' ∈ before', q.findOutput e'.output ≠ none ∧ ¬ q.isEntryOf output e' := by
  intro before
  induction before with
  | nil => exact fun _ => ⟨[], e, after, rfl, he, fun _ h => absurd h List.not_mem_nil⟩
  | cons b before ih =>
    intro hbefore
    obtain ⟨hb, hbefore⟩ := List.forall_mem_cons.mp hbefore
    by_cases hentry : q.isEntryOf output b
    · exact ⟨[], b, before ++ e :: after, rfl, hentry, fun _ h => absurd h List.not_mem_nil⟩
    · obtain ⟨before', e', after', heq, he', hfirst⟩ := ih hbefore
      exact ⟨b :: before', e', after', by rw [List.cons_append, heq]; rfl, he',
        List.forall_mem_cons.mpr ⟨⟨hb, hentry⟩, hfirst⟩⟩

lemma apply_ne (L : OutputLayout) (config : List OutputEntry) : L.apply config ≠ L := fun h =>
  List.cons_ne_self _ _ (congrArg OutputLayout.applied h)

lemma setField_ok_iff {r : ReturnStatus × OutputLayout} :
    L.setField q output change = .ok r ↔ ∃ found config,
      setEntry q output change true L.config = .ok (found, config) ∧
      r = (.success, if found then L.apply config else L) := by
  rw [setField, Machine.bind_ok_iff, Prod.exists]
  refine exists₂_congr fun found config => and_congr_right fun _ => ?_
  exact ⟨fun h => (Except.ok.inj h).symm, fun h => congrArg Except.ok h.symm⟩

/-- A setter of a subcommand keeps to the entry of its output exactly when its loop comes to it. -/
lemma setField_confined_iff :
    (∃ r, L.setField q output change = .ok r ∧ Confined q output change L r.2) ↔
      ∃ before e after, L.config = before ++ e :: after ∧ q.isEntryOf output e ∧
        ∀ e' ∈ before, q.findOutput e'.output ≠ none := by
  constructor
  · rintro ⟨r, h, hconfined⟩
    obtain ⟨found, config, hloop, rfl⟩ := setField_ok_iff.mp h
    rcases setEntry_ok_iff.mp hloop with ⟨before, e, after, hsplit, he, hbefore, -⟩ |
      ⟨hall, rfl, rfl⟩
    · exact ⟨before, e, after, hsplit, he, fun e' he' => (hbefore e' he').1⟩
    · -- the configuration is applied although there is no entry
      rcases hconfined.applied with h | ⟨⟨e, hmem, he⟩, -⟩
      · exact absurd h (apply_ne L _)
      · exact absurd he (hall e hmem).2
  · rintro ⟨before, e, after, hsplit, he, hbefore⟩
    obtain ⟨before', e', after', heq, he', hfirst⟩ := exists_first_entry after he hbefore
    rw [heq] at hsplit
    have hloop : setEntry q output change true L.config
        = .ok (true, before' ++ change e' :: after') :=
      setEntry_ok_iff.mpr (Or.inl ⟨before', e', after', hsplit, he', hfirst, rfl, rfl⟩)
    refine ⟨_, setField_ok_iff.mpr ⟨_, _, hloop, rfl⟩, ?_⟩
    have hmem : e' ∈ L.config := by
      rw [hsplit]
      simp
    constructor
    case entries =>
      rw [if_pos rfl, hsplit]
      have hrefl : ∀ es : List OutputEntry, List.Forall₂
          (fun e e' => e' = e ∨ (q.isEntryOf output e ∧ e' = change e)) es es := fun es =>
        List.forall₂_same.mpr fun _ _ => Or.inl rfl
      exact List.rel_append (hrefl before') (.cons (Or.inr ⟨he', rfl⟩) (hrefl after'))
    case applied => exact Or.inr ⟨⟨e', hmem, he'⟩, rfl⟩
    case effect =>
      refine fun _ => ⟨e', hmem, he', ?_⟩
      show change e' ∈ before' ++ change e' :: after'
      simp

/-! ## The setters of the power plugin -/

/-- An entry with a source, as a setter of the power plugin leaves it. -/
def switched (dst : OutputImageSource) (e : OutputEntry) : OutputEntry := { e with source := dst }

lemma switchEntry_eq {e : OutputEntry} (h : q.findOutput e.output ≠ none) :
    switchEntry q dst (some output) e =
      .ok (q.isEntryOf output e && e.source ≠ dst,
        if q.isEntryOf output e then switched dst e else e) := by
  obtain ⟨o, ho⟩ := Option.ne_none_iff_exists'.mp h
  rw [switchEntry, ho, Power.Queries.isEntryOf, ho, Option.any_some]
  simp only
  by_cases hid : (q.compositor.output o).id = (q.compositor.output output).id
  · rw [if_neg (not_not.mpr hid), decide_eq_true hid]
    by_cases hsource : e.source = dst
    · rw [if_neg (not_not.mpr hsource), switched, ← hsource]
      simp
    · rw [if_pos hsource, if_pos rfl]
      simp [hsource, switched]
  · rw [if_pos hid, decide_eq_false hid]
    rfl

lemma switchEntry_none {e : OutputEntry} (h : q.findOutput e.output = none) :
    switchEntry q dst (some output) e = .error .nullPointer := by
  rw [switchEntry, h]

lemma switchEntries_eq (h : ∀ e ∈ L.config, q.findOutput e.output ≠ none) :
    L.switchEntries q dst (some output) =
      .ok (if L.config.any fun e => q.isEntryOf output e && e.source ≠ dst then
          L.apply (L.config.map fun e => if q.isEntryOf output e then switched dst e else e)
        else L) := by
  rw [switchEntries, Machine.mapM_eq_map fun e he => switchEntry_eq (h e he), Machine.ok_bind,
    List.any_map, List.map_map]
  rfl

/-- A setter of the power plugin keeps to the entry of its output exactly when no output is
missing. -/
lemma switchEntries_confined_iff :
    (∃ L', L.switchEntries q dst (some output) = .ok L' ∧
      Confined q output (switched dst) L L') ↔ ∀ e ∈ L.config, q.findOutput e.output ≠ none := by
  constructor
  · rintro ⟨L', h, -⟩ e he hnone
    obtain ⟨visited, hvisited, -⟩ := Machine.bind_ok_iff.mp h
    obtain ⟨r, hr⟩ := Machine.ok_of_mapM hvisited e he
    rw [switchEntry_none hnone] at hr
    cases hr
  · intro h
    refine ⟨_, switchEntries_eq h, ?_⟩
    by_cases hany : (L.config.any fun e => q.isEntryOf output e && e.source ≠ dst) = true
    · rw [if_pos hany]
      obtain ⟨e₀, he₀, hentry₀⟩ := List.any_eq_true.mp hany
      rw [Bool.and_eq_true] at hentry₀
      constructor
      case entries =>
        refine List.forall₂_map_right_iff.mpr (List.forall₂_same.mpr fun e _ => ?_)
        by_cases hentry : q.isEntryOf output e = true
        · exact Or.inr ⟨hentry, if_pos hentry⟩
        · exact Or.inl (if_neg hentry)
      case applied => exact Or.inr ⟨⟨e₀, he₀, hentry₀.1⟩, rfl⟩
      case effect =>
        exact fun _ => ⟨e₀, he₀, hentry₀.1, List.mem_map.mpr ⟨e₀, he₀, if_pos hentry₀.1⟩⟩
    · rw [if_neg hany]
      constructor
      case entries => exact List.forall₂_same.mpr fun _ _ => Or.inl rfl
      case applied => exact Or.inl rfl
      case effect =>
        rintro ⟨e, he, hentry⟩
        -- the entry has the source already
        have hsource : e.source = dst := by
          by_contra hne
          exact hany (List.any_eq_true.mpr ⟨e, he, by simp [hentry, hne]⟩)
        refine ⟨e, he, hentry, ?_⟩
        have hsame : switched dst e = e := by rw [switched, ← hsource]
        rwa [hsame]

lemma switchNamed_of_names {nameOrId : Str} (hany : nameOrId ≠ ipcAnyTocken.toList)
    (hname : q.compositor.allOutputByNameOrId (cStr nameOrId) = some output) :
    L.switchNamed q dst nameOrId = L.switchEntries q dst (some output) := by
  rw [switchNamed, if_neg hany, hname]

/-! ## The power plugin on whole entries -/

/-- The body of the loop does to the source what the model of the power plugin does. -/
lemma visitEntry_of_switchEntry {target : Option OutputRef} {e : OutputEntry}
    {r : Bool × OutputEntry} (h : switchEntry q dst target e = .ok r) :
    (∃ reached, Power.visitEntry q target dst e.toOutputState = .ok (r.2.toOutputState, reached)) ∧
      (r.1 = false → r.2 = e) := by
  have hswitched : ∀ {r : Bool × OutputEntry},
      (if e.source ≠ dst then (true, { e with source := dst }) else (false, e)) = r →
      (if (true && decide (e.source ≠ dst)) = true then
        { e.toOutputState with source := dst } else e.toOutputState) = r.2.toOutputState ∧
      (r.1 = false → r.2 = e) := by
    rintro r rfl
    by_cases hsource : e.source = dst <;> simp [hsource]
  cases target with
  | none =>
    obtain ⟨hentry, hsame⟩ := hswitched (Except.ok.inj h)
    exact ⟨⟨true, congrArg (fun s => Except.ok (s, true)) hentry⟩, hsame⟩
  | some output =>
    simp only [switchEntry] at h
    cases hfind : q.findOutput e.output with
    | none =>
      rw [hfind] at h
      cases h
    | some o =>
      rw [hfind] at h
      simp only at h
      by_cases hid : (q.compositor.output o).id = (q.compositor.output output).id
      · -- the entry of the target
        rw [if_neg (not_not.mpr hid)] at h
        obtain ⟨hentry, hsame⟩ := hswitched (Except.ok.inj h)
        have hreaches : Power.reaches q (some output) e.toOutputState = .ok true := by
          rw [Power.reaches, hfind]
          exact congrArg Except.ok (decide_eq_true hid)
        refine ⟨⟨true, ?_⟩, hsame⟩
        rw [Power.visitEntry, hreaches, Machine.ok_bind, ← hentry]
        rfl
      · -- the entry of another output
        rw [if_pos hid] at h
        cases h
        have hreaches : Power.reaches q (some output) e.toOutputState = .ok false := by
          rw [Power.reaches, hfind]
          exact congrArg Except.ok (decide_eq_false hid)
        refine ⟨⟨false, ?_⟩, fun _ => rfl⟩
        rw [Power.visitEntry, hreaches, Machine.ok_bind]
        rfl

lemma visitEntries_of_switchEntries {target : Option OutputRef} :
    ∀ {entries : List OutputEntry} {visited : List (Bool × OutputEntry)},
      entries.mapM (switchEntry q dst target) = .ok visited →
      (∃ visited', (entries.map OutputEntry.toOutputState).mapM (Power.visitEntry q target dst)
        = .ok visited' ∧
        visited'.map Prod.fst = visited.map fun r => r.2.toOutputState) ∧
      (visited.any Prod.fst = false → visited.map Prod.snd = entries) := by
  intro entries
  induction entries with
  | nil =>
    intro visited h
    cases h
    exact ⟨⟨[], rfl, rfl⟩, fun _ => rfl⟩
  | cons e entries ih =>
    intro visited h
    rw [List.mapM_cons] at h
    obtain ⟨r, hr, h⟩ := Machine.bind_ok_iff.mp h
    obtain ⟨rest, hrest, h⟩ := Machine.bind_ok_iff.mp h
    cases h
    obtain ⟨⟨reached, hvisit⟩, hsame⟩ := visitEntry_of_switchEntry hr
    obtain ⟨⟨visited', hvisited, hmap⟩, hsames⟩ := ih hrest
    refine ⟨⟨(r.2.toOutputState, reached) :: visited', ?_, ?_⟩, fun hany => ?_⟩
    · rw [List.map_cons, List.mapM_cons, hvisit, Machine.ok_bind, hvisited]
      rfl
    · rw [List.map_cons, List.map_cons, hmap]
    · rw [List.any_cons, Bool.or_eq_false_iff] at hany
      rw [List.map_cons, hsame hany.1, hsames hany.2]

lemma switchTo_of_switchEntries {target : Option OutputRef} {p : Power}
    (hp : p.config = L.sources) (h : L.switchEntries q dst target = .ok L') :
    ∃ p', Power.switchTo q dst target p = .ok p' ∧ p'.config = L'.sources := by
  obtain ⟨visited, hvisited, h⟩ := Machine.bind_ok_iff.mp h
  obtain ⟨⟨visited', hvisited', hmap⟩, hsame⟩ := visitEntries_of_switchEntries hvisited
  refine ⟨_, by rw [Power.switchTo, hp, sources, hvisited']; rfl, ?_⟩
  cases h
  show visited'.map Prod.fst = _
  rw [hmap]
  cases hany : visited.any Prod.fst with
  | true =>
    rw [if_pos rfl, sources, apply, List.map_map]
    rfl
  | false =>
    rw [if_neg (by simp), sources, ← hsame hany, List.map_map]
    rfl

lemma ofList_eq_iff {w : Str} {t : String} : String.ofList w = t ↔ w = t.toList :=
  ⟨fun h => by rw [← h, String.toList_ofList], fun h => by rw [h, String.ofList_toList]⟩

lemma switchNamed_sources {nameOrId : Str} {p : Power} (hp : p.config = L.sources)
    (h : L.switchNamed q dst nameOrId = .ok L') :
    ∃ p', Power.switchNamed q dst (.str (String.ofList nameOrId)) p = .ok p' ∧
      p'.config = L'.sources := by
  rw [switchNamed] at h
  rw [Power.switchNamed]
  have hisAny : Power.isAny (.str (String.ofList nameOrId)) = true ↔
      nameOrId = ipcAnyTocken.toList := by
    rw [Power.isAny, decide_eq_true_iff, ofList_eq_iff]
  by_cases hany : nameOrId = ipcAnyTocken.toList
  · rw [if_pos hany] at h
    rw [if_pos (hisAny.mpr hany)]
    exact switchTo_of_switchEntries hp h
  · rw [if_neg hany] at h
    rw [if_neg fun h => hany (hisAny.mp h), Json.asString, Machine.ok_bind, String.toList_ofList]
    cases htarget : q.compositor.allOutputByNameOrId (cStr nameOrId) with
    | none =>
      rw [htarget] at h
      cases h
      exact ⟨p, rfl, hp⟩
    | some output =>
      rw [htarget] at h
      exact switchTo_of_switchEntries hp h

/-- A power command does to the sources what the model of the power plugin does. -/
theorem onPowerCommand_sources {argv : List Str} {p : Power} (hp : p.config = L.sources)
    (h : L.onPowerCommand q argv = .ok L') :
    ∃ p', Power.onPowerCommand q (argv.map fun w => .str (String.ofList w)) p = .ok p' ∧
      p'.config = L'.sources := by
  have hget : ∀ i (t : String),
      (argv.map fun w => Json.str (String.ofList w)).getD i (.str t)
        = .str (String.ofList (argv.getD i t.toList)) := by
    intro i t
    rw [List.getD_eq_getElem?_getD, List.getD_eq_getElem?_getD, List.getElem?_map]
    cases argv[i]? <;> simp
  rw [Power.onPowerCommand, hget, hget]
  rw [onPowerCommand] at h
  cases hactivate : q.canActivate with
  | false =>
    rw [hactivate] at h
    cases h
    exact ⟨p, rfl, hp⟩
  | true =>
    rw [hactivate] at h
    simp only [Bool.not_true, Bool.false_eq_true, if_false] at h
    simp only [Bool.not_true, Bool.false_eq_true, if_false, Json.isString, Json.empty, Bool.or_self,
      Json.asString, Machine.ok_bind, ofList_eq_iff]
    by_cases hoff : argv.getD 3 ipcOnTocken.toList = ipcOffTocken.toList
    · rw [if_pos hoff] at h ⊢
      exact switchNamed_sources hp h
    · rw [if_neg hoff] at h ⊢
      exact switchNamed_sources hp h

end OutputLayout

open OutputLayout

/-- The six setters keep to the entry of their output under these conditions, and under no
others. -/
theorem setCommand_confined_iff {q : Power.Queries} {output : OutputRef} (cmd : SetCommand)
    (hnames : cmd.Names q output) (L : OutputLayout) :
    (∃ L', cmd.run q output L = .ok L' ∧ Confined q output cmd.change L L') ↔
      cmd.Unhindered q output L := by
  have hset : ∀ change : OutputEntry → OutputEntry,
      (∃ L', Prod.snd <$> L.setField q output change = .ok L' ∧ Confined q output change L L') ↔
        ∃ before e after, L.config = before ++ e :: after ∧ q.isEntryOf output e ∧
          ∀ e' ∈ before, q.findOutput e'.output ≠ none := by
    intro change
    rw [← setField_confined_iff]
    constructor
    · rintro ⟨L', h, hconfined⟩
      obtain ⟨r, hr, rfl⟩ := Machine.map_ok_iff.mp h
      exact ⟨r, hr, hconfined⟩
    · rintro ⟨r, hr, hconfined⟩
      exact ⟨r.2, Machine.map_ok_iff.mpr ⟨r, hr, rfl⟩, hconfined⟩
  cases cmd with
  | mode m => exact hset _
  | scale s => exact hset _
  | transform t => exact hset _
  | position p => exact hset _
  | stateOff nameOrId =>
    have hrun : L.switchNamed q .dpms nameOrId = _ := switchNamed_of_names hnames.1 hnames.2
    rw [SetCommand.run, setStateOff, hrun]
    exact switchEntries_confined_iff
  | stateOn nameOrId =>
    have hrun : L.switchNamed q .self nameOrId = _ := switchNamed_of_names hnames.1 hnames.2
    rw [SetCommand.run, setStateOn, hrun]
    exact switchEntries_confined_iff

/-- One output that is there, behind the entry of one that is not. -/
def mirroredFirst : Power.Queries where
  compositor := .flat [⟨1, "A".toList, 1, 1, ⟨0, 0⟩⟩] [] none
  findOutput w := if w = 1 then some 0 else none
  canActivate := true

/-- The entry of an output. -/
def plainEntry (output : WlrOutput) : OutputEntry :=
  ⟨⟨output, .self⟩, ⟨0, 0, 0, false⟩, .automatic, .finite 1, .normal⟩

/-- Alone in the configuration, the entry of the output gets its scale. -/
theorem loneEntry_confined :
    ∃ L', (SetCommand.scale (.finite 2)).run mirroredFirst 0 ⟨[plainEntry 1], []⟩ = .ok L' ∧
      Confined mirroredFirst 0 (SetCommand.scale (.finite 2)).change ⟨[plainEntry 1], []⟩ L' :=
  (setCommand_confined_iff (.scale (.finite 2)) trivial ⟨[plainEntry 1], []⟩).mpr
    ⟨[], plainEntry 1, [], rfl, rfl, nofun⟩

/-- Behind the entry of a missing output the loop ends in a null pointer. -/
theorem mirroredFirst_not_confined : ¬ ∀ (q : Power.Queries) (output : OutputRef)
    (cmd : SetCommand) (L : OutputLayout), cmd.Names q output →
      ∃ L', cmd.run q output L = .ok L' ∧ Confined q output cmd.change L L' := by
  intro h
  obtain ⟨L', hrun, -⟩ := h mirroredFirst 0 (.scale (.finite 2)) ⟨[plainEntry 2, plainEntry 1], []⟩
    trivial
  cases hrun

end WayfireIpc
