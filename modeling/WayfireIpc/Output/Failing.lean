/-
# A command line that fails

Each subcommand applies its change at once, and nothing takes it back.  A command line that
fails leaves the configuration that the subcommands before the failing one have set.
-/
import WayfireIpc.Output.Bounds
import WayfireIpc.Output.Confined

namespace WayfireIpc

variable {E : OutputEnv} {name : Str} {layout layout' : OutputLayout} {r : CommandResult}

namespace Subcommand

/-- What a setter gives has the status of the setter. -/
lemma set_status {setter : OutputLayout → Except Failure (ReturnStatus × OutputLayout)}
    (hsetter : ∀ p, setter layout = .ok p → p.1 = .success)
    (h : set setter layout = .ok (r, layout')) : r.status = .success := by
  obtain ⟨p, hp, h⟩ := Machine.bind_ok_iff.mp h
  cases h
  exact hsetter p hp

lemma setField_status {q : Power.Queries} {output : OutputRef}
    {change : OutputEntry → OutputEntry} {p : ReturnStatus × OutputLayout}
    (h : layout.setField q output change = .ok p) : p.1 = .success := by
  obtain ⟨found, config, -, rfl⟩ := OutputLayout.setField_ok_iff.mp h
  rfl

/-- A subcommand that fails leaves the layout as it is. -/
lemma exec_failed {sub : Subcommand} (h : sub.exec E name layout = .ok (r, layout'))
    (hfail : r.status ≠ .success) : layout' = layout := by
  cases sub with
  | power options =>
    simp only [exec] at h
    split at h
    · cases h
    · split_ifs at h
      · refine absurd (set_status (fun p hp => ?_) h) hfail
        obtain ⟨L, -, rfl⟩ := Machine.map_ok_iff.mp hp
        rfl
      · cases h
        exact absurd rfl hfail
  | scale value =>
    simp only [exec] at h
    split at h
    · cases h
      rfl
    · exact absurd (set_status (fun _ => setField_status) h) hfail
  | transform value anticlockwise =>
    simp only [exec] at h
    split at h
    · cases h
      rfl
    · split at h
      · cases h
        rfl
      · exact absurd (set_status (fun _ => setField_status) h) hfail
  | position x y =>
    simp only [exec] at h
    split at h
    · cases h
      rfl
    · exact absurd (set_status (fun _ => setField_status) h) hfail
  | mode useCustomMode width height rate =>
    simp only [exec] at h
    split at h
    · cases h
      rfl
    · obtain ⟨selected, -, h⟩ := Machine.bind_ok_iff.mp h
      cases selected with
      | error result =>
        cases h
        rfl
      | ok value => exact absurd (set_status (fun _ => setField_status) h) hfail

end Subcommand

/-- The first subcommand of some words is not accepted, or it fails and changes nothing. -/
def Refuses (E : OutputEnv) (name : Str) (layout : OutputLayout) (ws : List Str)
    (r : CommandResult) : Prop :=
  parseSubcommand E.strtof ws = .refused r ∨
    ∃ sub rest, parseSubcommand E.strtof ws = .subcommand sub rest ∧
      sub.exec E name layout = .ok (r, layout)

/-- A command line that fails leaves the layout as the subcommands before the failing one have left
it. -/
theorem outputHandler_failed (E : OutputEnv) (argv : List Str) (layout : OutputLayout)
    (h : (outputHandler E argv (.start layout)).1 = .ok r) (hfail : r.status ≠ .success) :
    let layout' := (outputHandler E argv (.start layout)).2.layout
    (argv = [] ∧ layout' = layout) ∨ ∃ name ws ws', argv = name :: ws ∧
      Succeeds E name layout ws layout' ws' ∧ Refuses E name layout' ws' r := by
  intro layout'
  cases argv with
  | nil => exact Or.inl ⟨rfl, rfl⟩
  | cons name ws =>
    obtain ⟨layout₁, ws', r', hsucceeds, hends, hres, hlayout, -⟩ :=
      outputHandler_ends E name ws layout
    rw [hres] at h
    have hsame : layout' = r'.2.layout := hlayout
    refine Or.inr ⟨name, ws, ws', rfl, ?_⟩
    rw [hsame]
    cases hends with
    | done =>
      cases h
      exact absurd rfl hfail
    | fault => cases h
    | refused _ hparse _ heq _ =>
      cases h
      exact ⟨heq ▸ hsucceeds, Or.inl hparse⟩
    | failed hparse hexec hstatus _ =>
      cases h
      have heq := Subcommand.exec_failed hexec hstatus
      rw [heq] at hexec ⊢
      exact ⟨hsucceeds, Or.inr ⟨_, _, hparse, hexec⟩⟩
    | thrown => cases h

/-- A compositor with one output, which has two modes. -/
def oneOutputEnv : OutputEnv where
  strtof s :=
    match numeral s with
    | none => (.finite 0, s)
    | some (negative, digits, rest) =>
      (.finite (if negative then -(Nat.ofDigitChars 10 digits 0) else Nat.ofDigitChars 10 digits 0),
        rest)
  compose t _ := t
  world _ := {
    compositor := .flat [⟨1, "A".toList, 1, 1, ⟨0, 0⟩⟩] [] none
    findOutput := fun w => if w = 1 then some 0 else none
    canActivate := true
    handle := fun _ => some ⟨[⟨1920, 1080, 60000, true⟩, ⟨1280, 720, 0, false⟩], .normal⟩
    power := fun _ => true }

/-- `output A scale 2 bogus`. -/
def scaleThenBogus : List Str := ["A".toList, "scale".toList, "2".toList, "bogus".toList]

theorem scaleThenBogus_failed :
    let layout' :=
      (outputHandler oneOutputEnv scaleThenBogus (.start ⟨[plainEntry 1], []⟩)).2.layout
    (scaleThenBogus = [] ∧ layout' = ⟨[plainEntry 1], []⟩) ∨
      ∃ name ws ws', scaleThenBogus = name :: ws ∧
        Succeeds oneOutputEnv name ⟨[plainEntry 1], []⟩ ws layout' ws' ∧
        Refuses oneOutputEnv name layout' ws' ⟨.notFound, none⟩ :=
  outputHandler_failed oneOutputEnv scaleThenBogus ⟨[plainEntry 1], []⟩ rfl (by decide)

/-- The scale stays set although the next word is no subcommand. -/
theorem scale_stays_set : ¬ ∀ (E : OutputEnv) (argv : List Str) (layout : OutputLayout)
    (r : CommandResult), (outputHandler E argv (.start layout)).1 = .ok r → r.status ≠ .success →
      (outputHandler E argv (.start layout)).2.layout.config = layout.config := by
  intro h
  have hsame := h oneOutputEnv scaleThenBogus ⟨[plainEntry 1], []⟩ ⟨.notFound, none⟩ rfl (by decide)
  have hscale := congrArg (List.map OutputEntry.scale) hsame
  exact absurd hscale (by decide)

end WayfireIpc
