/-
# Waking up

The timer is never armed while the outputs are idle, and while they are not idle no output
that the timer has switched off is still off.  An activity therefore wakes the outputs
exactly when it is noticed and the option is positive: with the option at 0, or with an
inhibitor in force, the outputs stay dark.
-/
import WayfireIpc.Power.State

namespace WayfireIpc

namespace Power

variable {p p' : Power} {q : Queries} {e : OutputState} {o : WlrOutput} {v : ℤ}
  {src dst : OutputImageSource} {target : Option OutputRef} {config : OutputConfiguration}

/-- The outputs are not idle, and none is off because the timer has switched it off. -/
def Awake (p : Power) : Prop :=
  p.isIdle = false ∧ ∀ e ∈ p.config, e.output ∈ p.darkened → e.source ≠ .dpms

instance (p : Power) : Decidable p.Awake := inferInstanceAs (Decidable (_ ∧ _))

/-- What holds of the plugin between two callbacks. -/
structure Inv (p : Power) : Prop where
  unarmed : p.isIdle = true → p.timeoutPower = none
  awake : p.isIdle = false → p.Awake

/-! ## What the callbacks do -/

lemma source_ne_of_switchSource (hne : dst ≠ src) (h : e ∈ switchSource src dst config) :
    e.source ≠ src := by
  obtain ⟨e₀, -, rfl⟩ := List.mem_map.mp h
  by_cases hsrc : e₀.source = src
  · rw [if_pos hsrc]
    exact hne
  · rwa [if_neg hsrc]

/-- With a positive option `create_power_timeout` wakes the outputs. -/
lemma createPowerTimeout_awake (hp : p.Inv) (hpos : 0 < p.powerTimeout) :
    p.createPowerTimeout.Awake := by
  rw [createPowerTimeout, if_neg (not_le.mpr hpos)]
  cases hidle : p.isIdle with
  | true =>
    rw [if_pos (by simp [hp.unarmed hidle])]
    exact ⟨rfl, fun e he _ => source_ne_of_switchSource (by decide) he⟩
  | false =>
    rw [if_neg (by simp)]
    exact ⟨rfl, (hp.awake hidle).2⟩

/-- Otherwise it leaves everything but the timer as it is. -/
lemma createPowerTimeout_of_le (hle : p.powerTimeout ≤ 0) :
    p.createPowerTimeout = { p with timeoutPower := none } := by
  rw [createPowerTimeout, if_pos hle]

lemma createPowerTimeout_inv (hp : p.Inv) : p.createPowerTimeout.Inv := by
  by_cases hpos : 0 < p.powerTimeout
  · have hawake := createPowerTimeout_awake hp hpos
    exact ⟨fun hidle => absurd (hawake.1.symm.trans hidle) (by simp), fun _ => hawake⟩
  · rw [createPowerTimeout_of_le (not_lt.mp hpos)]
    exact ⟨fun _ => rfl, hp.awake⟩

/-- What a command does: outside the outputs that it reaches, nothing. -/
structure Commanded (p p' : Power) : Prop where
  isIdle_eq : p'.isIdle = p.isIdle
  timeoutPower_eq : p'.timeoutPower = p.timeoutPower
  untouched : ∀ e ∈ p'.config, e.output ∈ p'.darkened → e ∈ p.config ∧ e.output ∈ p.darkened

lemma Commanded.refl : Commanded p p := ⟨rfl, rfl, fun _ he ho => ⟨he, ho⟩⟩

lemma switchTo_commanded (h : switchTo q dst target p = .ok p') : Commanded p p' := by
  obtain ⟨visited, hvisited, h⟩ := Machine.bind_ok_iff.mp h
  cases h
  refine ⟨rfl, rfl, fun e he hdark => ?_⟩
  obtain ⟨hdark, huntouched⟩ := List.mem_filter.mp hdark
  obtain ⟨⟨e₁, reached⟩, hmem, rfl⟩ := List.mem_map.mp he
  obtain ⟨e₀, he₀, hvisit⟩ := Machine.exists_of_mem_mapM hvisited _ hmem
  obtain ⟨reached₀, -, hvisit⟩ := Machine.bind_ok_iff.mp hvisit
  cases hvisit
  cases reached with
  | true =>
    -- the entry of an output that the command reaches is not darkened any more
    have hkept := List.mem_filter (p := Prod.snd).mpr ⟨hmem, rfl⟩
    exact absurd (List.mem_map.mpr ⟨_, hkept, rfl⟩) (of_decide_eq_true huntouched)
  | false => exact ⟨he₀, hdark⟩

lemma switchNamed_commanded {nameOrId : Json} (h : switchNamed q dst nameOrId p = .ok p') :
    Commanded p p' := by
  rw [switchNamed] at h
  split_ifs at h with hany
  · exact switchTo_commanded h
  · obtain ⟨s, -, h⟩ := Machine.bind_ok_iff.mp h
    cases houtput : q.compositor.allOutputByNameOrId (cStr s.toList) with
    | none =>
      rw [houtput] at h
      cases h
      exact .refl
    | some output =>
      rw [houtput] at h
      exact switchTo_commanded h

lemma onPowerCommand_commanded {argv : List Json} (h : p.onPowerCommand q argv = .ok p') :
    Commanded p p' := by
  rw [onPowerCommand] at h
  simp only at h
  split_ifs at h
  · cases h
    exact .refl
  · cases h
    exact .refl
  · obtain ⟨state, -, h⟩ := Machine.bind_ok_iff.mp h
    simp only [setStateOff, setStateOn] at h
    split_ifs at h <;> exact switchNamed_commanded h

lemma Commanded.inv (h : Commanded p p') (hp : p.Inv) : p'.Inv := by
  refine ⟨fun hidle => ?_, fun hidle => ⟨hidle, fun e he hdark => ?_⟩⟩
  · rw [h.timeoutPower_eq]
    exact hp.unarmed (h.isIdle_eq ▸ hidle)
  · obtain ⟨he, hdark⟩ := h.untouched e he hdark
    exact (hp.awake (h.isIdle_eq ▸ hidle)).2 e he hdark

/-! ## Runs -/

lemma step_inv {i : Input} (hp : p.Inv) (h : step p i = .ok p') : p'.Inv := by
  cases i with
  | activity =>
    cases h
    split_ifs
    · exact createPowerTimeout_inv hp
    · exact hp
  | timerExpires =>
    cases h
    split_ifs
    · exact ⟨fun _ => rfl, fun hidle => absurd hidle (by simp [timerFired, setState])⟩
    · exact hp
  | setPowerTimeout v =>
    cases h
    exact createPowerTimeout_inv ⟨hp.unarmed, hp.awake⟩
  | inhibitChanged inhibit =>
    cases h
    cases inhibit with
    | true => exact ⟨fun _ => rfl, hp.awake⟩
    | false => exact createPowerTimeout_inv ⟨hp.unarmed, hp.awake⟩
  | command q argv => exact (onPowerCommand_commanded h).inv hp

lemma start_inv (v : ℤ) (config : OutputConfiguration) : (start v config).Inv := by
  have hinv : Inv ⟨v, false, false, none, config, []⟩ :=
    ⟨fun _ => rfl, fun _ => ⟨rfl, fun e _ h => absurd h List.not_mem_nil⟩⟩
  have := createPowerTimeout_inv hinv
  exact ⟨this.unarmed, this.awake⟩

lemma run_inv {is : List Input} (hrun : Machine.run step (start v config) is = .ok p) : p.Inv :=
  Machine.run_invariant step (fun _ _ _ hp h => step_inv hp h) (start_inv v config) hrun

/-- After any run, an activity leaves the outputs awake if and only if they were not idle, or the
activity is noticed and the option is positive. -/
theorem awake_after_activity_iff {is : List Input}
    (hrun : Machine.run step (start v config) is = .ok p) :
    (∃ p', step p .activity = .ok p' ∧ p'.Awake) ↔
      p.isIdle = false ∨ p.onSeatActivity = true ∧ 0 < p.powerTimeout := by
  have hp := run_inv hrun
  rw [step]
  constructor
  · rintro ⟨p', h, hidle, -⟩
    cases h
    -- a look at what wakes idle outputs
    by_contra hcon
    obtain ⟨hdark, hdeaf⟩ := not_or.mp hcon
    split_ifs at hidle with hnoticed
    · rw [createPowerTimeout_of_le (not_lt.mp fun hpos => hdeaf ⟨hnoticed, hpos⟩)] at hidle
      exact hdark hidle
    · exact hdark hidle
  · intro h
    refine ⟨_, rfl, ?_⟩
    by_cases hnoticed : p.onSeatActivity = true
    · rw [if_pos hnoticed]
      by_cases hpos : 0 < p.powerTimeout
      · exact createPowerTimeout_awake hp hpos
      · have hbright : p.isIdle = false := h.resolve_right fun hpos' => hpos hpos'.2
        rw [createPowerTimeout_of_le (not_lt.mp hpos)]
        exact hp.awake hbright
    · rw [if_neg hnoticed]
      exact hp.awake (h.resolve_right fun hnoticed' => hnoticed hnoticed'.1)

/-- An output that shows its own image, with a timeout of ten seconds. -/
def oneOutput : Power := start 10 [⟨0, .self⟩]

/-- While the outputs are idle the option is set to 0, or an inhibitor is put up; then comes an
activity. -/
theorem idle_stays_dark :
    (∃ p, Machine.run step oneOutput [.timerExpires, .setPowerTimeout 0, .activity] = .ok p ∧
      p.isIdle = true ∧ p.darkened = [0] ∧ p.config = [⟨0, .dpms⟩]) ∧
    (∃ p, Machine.run step oneOutput [.timerExpires, .inhibitChanged true, .activity] = .ok p ∧
      p.isIdle = true ∧ p.darkened = [0] ∧ p.config = [⟨0, .dpms⟩]) :=
  ⟨⟨_, rfl, rfl, rfl, rfl⟩, ⟨_, rfl, rfl, rfl, rfl⟩⟩

/-- Without either, the activity wakes the output. -/
theorem idle_wakes : ∃ p p', Machine.run step oneOutput [.timerExpires] = .ok p ∧
    step p .activity = .ok p' ∧ p'.Awake := by
  have hrun : Machine.run step oneOutput [.timerExpires]
      = .ok { oneOutput.timerFired with timeoutPower := none } := rfl
  obtain ⟨p', h, hawake⟩ := (awake_after_activity_iff hrun).mpr (Or.inr ⟨rfl, by decide⟩)
  exact ⟨_, p', hrun, h, hawake⟩

end Power

end WayfireIpc
