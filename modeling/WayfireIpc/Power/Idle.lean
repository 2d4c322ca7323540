/-
# The idle timer

The timer is armed whenever the outputs are awake, the option is positive and nothing
inhibits idling, unless the outputs have just been woken: the branch of
`create_power_timeout` that wakes them returns before it arms the timer.  Being switched
off and on again, the outputs that were off beforehand come back on.
-/
import WayfireIpc.Power.Wake

namespace WayfireIpc

namespace Power

variable {p p' p₁ : Power} {q : Queries} {v : ℤ} {config : OutputConfiguration} {i : Input}

/-! ## The timer -/

/-- If the option is positive and activities are noticed, the outputs are idle or the timer is
armed. -/
def Armed (p : Power) : Prop :=
  0 < p.powerTimeout → p.onSeatActivity = true → p.isIdle = true ∨ p.timeoutPower.isSome = true

instance (p : Power) : Decidable p.Armed := inferInstanceAs (Decidable (_ → _))

/-- The step does not wake idle outputs while activities are noticed. -/
def LeavesAsleep (p : Power) : Input → Prop
  | .activity => p.isIdle = true → p.onSeatActivity = true → p.powerTimeout ≤ 0
  | .setPowerTimeout v => p.isIdle = true → p.onSeatActivity = true → v ≤ 0
  | .inhibitChanged false => p.isIdle = true → p.powerTimeout ≤ 0
  | _ => True

instance (p : Power) : DecidablePred p.LeavesAsleep
  | .activity | .setPowerTimeout _ | .inhibitChanged false => inferInstanceAs (Decidable (_ → _))
  | .inhibitChanged true | .timerExpires | .command _ _ => isTrue trivial

/-- `create_power_timeout` arms the timer unless it wakes the outputs. -/
lemma armed_createPowerTimeout (hp : p.Inv) : p.createPowerTimeout.Armed ↔
    (p.isIdle = true → p.onSeatActivity = true → p.powerTimeout ≤ 0) := by
  by_cases hpos : 0 < p.powerTimeout
  swap
  · rw [createPowerTimeout_of_le (not_lt.mp hpos)]
    exact iff_of_true (fun hpos' => absurd hpos' hpos) fun _ _ => not_lt.mp hpos
  rw [createPowerTimeout, if_neg (not_le.mpr hpos)]
  cases hidle : p.isIdle with
  | true =>
    rw [if_pos (by simp [hp.unarmed hidle])]
    constructor
    · intro harmed _ hnoticed
      rcases harmed hpos hnoticed with hdark | hsome
      · cases hdark
      · have hnone : p.timeoutPower.isSome = true := hsome
        rw [hp.unarmed hidle] at hnone
        cases hnone
    · exact fun h _ hnoticed => absurd (h rfl hnoticed) (not_le.mpr hpos)
  | false =>
    rw [if_neg (by simp)]
    exact iff_of_true (fun _ _ => Or.inr rfl) fun hdark => absurd hdark (by simp)

/-- A command changes neither the option nor the connections. -/
lemma onPowerCommand_connections {argv : List Json} (h : p.onPowerCommand q argv = .ok p') :
    p'.powerTimeout = p.powerTimeout ∧ p'.onSeatActivity = p.onSeatActivity := by
  have hswitchTo : ∀ {dst target}, switchTo q dst target p = .ok p' →
      p'.powerTimeout = p.powerTimeout ∧ p'.onSeatActivity = p.onSeatActivity := by
    intro dst target h
    obtain ⟨visited, -, h⟩ := Machine.bind_ok_iff.mp h
    cases h
    exact ⟨rfl, rfl⟩
  have hnamed : ∀ {dst nameOrId}, switchNamed q dst nameOrId p = .ok p' →
      p'.powerTimeout = p.powerTimeout ∧ p'.onSeatActivity = p.onSeatActivity := by
    intro dst nameOrId h
    rw [switchNamed] at h
    split_ifs at h
    · exact hswitchTo h
    · obtain ⟨s, -, h⟩ := Machine.bind_ok_iff.mp h
      split at h
      · cases h
        exact ⟨rfl, rfl⟩
      · exact hswitchTo h
  rw [onPowerCommand] at h
  simp only at h
  split_ifs at h
  · cases h
    exact ⟨rfl, rfl⟩
  · cases h
    exact ⟨rfl, rfl⟩
  · obtain ⟨state, -, h⟩ := Machine.bind_ok_iff.mp h
    simp only [setStateOff, setStateOn] at h
    split_ifs at h <;> exact hnamed h

/-- A step from an armed state leads to an armed state if and only if it leaves the outputs
asleep. -/
lemma step_armed_iff (hp : p.Inv) (harmed : p.Armed) :
    (∀ p', step p i = .ok p' → p'.Armed) ↔ p.LeavesAsleep i := by
  cases i with
  | activity =>
    have hiff : (∀ p', step p .activity = .ok p' → p'.Armed) ↔
        (if p.onSeatActivity then p.createPowerTimeout else p).Armed := by simp [step]
    rw [hiff, LeavesAsleep]
    split_ifs with hnoticed
    · rw [armed_createPowerTimeout hp]
    · exact iff_of_true harmed fun _ hcon => absurd hcon hnoticed
  | timerExpires =>
    refine iff_of_true (fun p' h => ?_) trivial
    cases h
    split_ifs
    · exact fun _ _ => Or.inl rfl
    · exact harmed
  | setPowerTimeout v =>
    have hiff : (∀ p', step p (.setPowerTimeout v) = .ok p' → p'.Armed) ↔
        { p with powerTimeout := v }.createPowerTimeout.Armed := by simp [step]
    exact hiff.trans (armed_createPowerTimeout ⟨hp.unarmed, hp.awake⟩)
  | inhibitChanged inhibit =>
    cases inhibit with
    | true =>
      refine iff_of_true (fun p' h => ?_) trivial
      cases h
      exact fun _ hnoticed => absurd hnoticed (by simp [inhibitChanged])
    | false =>
      have hiff : (∀ p', step p (.inhibitChanged false) = .ok p' → p'.Armed) ↔
          { p with onSeatActivity := true }.createPowerTimeout.Armed := by
        simp [step, inhibitChanged]
      refine (hiff.trans (armed_createPowerTimeout ⟨hp.unarmed, hp.awake⟩)).trans ?_
      exact forall_congr' fun _ => ⟨fun h => h rfl, fun h _ => h⟩
  | command q argv =>
    refine iff_of_true (fun p' h => ?_) trivial
    obtain ⟨hoption, hnoticed⟩ := onPowerCommand_connections h
    have hcommanded := onPowerCommand_commanded h
    rw [Armed, hoption, hnoticed, hcommanded.isIdle_eq, hcommanded.timeoutPower_eq]
    exact harmed

lemma start_armed (v : ℤ) (config : OutputConfiguration) : (start v config).Armed := by
  have hinv : Inv ⟨v, false, false, none, config, []⟩ :=
    ⟨fun _ => rfl, fun _ => ⟨rfl, fun e _ h => absurd h List.not_mem_nil⟩⟩
  intro hpos _
  refine Or.inr ?_
  rw [start, createPowerTimeout]
  by_cases hv : v ≤ 0
  · rw [start, createPowerTimeout, if_pos hv] at hpos
    exact absurd hv (not_le.mpr hpos)
  · rw [if_neg hv, if_neg (by simp)]
    rfl

/-- The timer is armed where it should be in the first state; and in a run it is behind each step if
and only if no step wakes idle outputs while activities are noticed. -/
theorem allSteps_armed_iff (v : ℤ) (config : OutputConfiguration) (is : List Input) :
    (start v config).Armed ∧
    (Machine.AllSteps step (fun p i => ∀ p', step p i = .ok p' → p'.Armed) (start v config) is ↔
      Machine.AllSteps step LeavesAsleep (start v config) is) :=
  ⟨start_armed v config, Machine.allSteps_good_iff step (fun _ _ _ hp h => step_inv hp h)
    (fun _ _ hp harmed => step_armed_iff hp harmed) (start_inv v config) (start_armed v config) is⟩

/-- The activity that wakes the output leaves it awake with no timer. -/
theorem woken_unarmed : ∃ p, Machine.run step oneOutput [.timerExpires, .activity] = .ok p ∧
    0 < p.powerTimeout ∧ p.onSeatActivity = true ∧ p.isIdle = false ∧ p.timeoutPower = none ∧
      ¬ p.Armed :=
  ⟨_, rfl, by decide, by decide, by decide, by decide, by decide⟩

/-! ## The configuration -/

/-- The timer switches off what is on. -/
def dark (config : OutputConfiguration) : OutputConfiguration := switchSource .self .dpms config

/-- The wake-up switches on what is off. -/
def lit (config : OutputConfiguration) : OutputConfiguration := switchSource .dpms .self config

lemma switchSource_switchSource (src dst : OutputImageSource) (config : OutputConfiguration) :
    switchSource dst src (switchSource src dst config) = switchSource dst src config := by
  simp only [switchSource, List.map_map]
  refine List.map_congr_left fun e _ => ?_
  obtain ⟨output, source⟩ := e
  by_cases hsrc : source = src
  · subst hsrc
    by_cases hdst : source = dst <;> simp [hdst]
  · simp [hsrc]

lemma lit_eq_self_iff : lit config = config ↔ ∀ e ∈ config, e.source ≠ .dpms := by
  constructor
  · intro h e he
    rw [← h] at he
    exact source_ne_of_switchSource (by decide) he
  · intro h
    rw [lit, switchSource, List.map_congr_left fun e he => if_neg (h e he), List.map_id']

/-- The configuration shows whether the outputs are idle, when it was `config` beforehand. -/
def Shows (config : OutputConfiguration) (p : Power) : Prop :=
  p.config = if p.isIdle then dark config else lit config

lemma createPowerTimeout_shows (h : p.Shows config) : p.createPowerTimeout.Shows config := by
  rw [createPowerTimeout]
  split_ifs with hpos hwake
  · exact h
  · obtain ⟨-, hidle⟩ := Bool.and_eq_true_iff.mp hwake
    rw [Shows, if_pos hidle] at h
    show switchSource .dpms .self p.config = lit config
    rw [h]
    exact switchSource_switchSource .self .dpms config
  · exact h

/-- What is not a command keeps the configuration in step with `is_idle`. -/
lemma step_shows (hp : p.Inv) (h : p.Shows config) (hi : ∀ q argv, i ≠ .command q argv)
    (hstep : step p i = .ok p') : p'.Shows config := by
  cases i with
  | activity =>
    cases hstep
    split_ifs
    · exact createPowerTimeout_shows h
    · exact h
  | timerExpires =>
    cases hstep
    split_ifs with hsome
    · -- the timer is armed only while the outputs are awake
      have hidle : ¬ p.isIdle = true := fun hidle => by
        rw [hp.unarmed hidle] at hsome
        cases hsome
      rw [Shows, if_neg hidle] at h
      show switchSource .self .dpms p.config = dark config
      rw [h]
      exact switchSource_switchSource .dpms .self config
    · exact h
  | setPowerTimeout v =>
    cases hstep
    exact createPowerTimeout_shows h
  | inhibitChanged inhibit =>
    cases hstep
    cases inhibit with
    | true => exact h
    | false => exact createPowerTimeout_shows h
  | command q argv => exact absurd rfl (hi q argv)

/-- The timer is armed only with a positive option. -/
def Timed (p : Power) : Prop := p.timeoutPower.isSome = true → 0 < p.powerTimeout

lemma createPowerTimeout_timed : p.createPowerTimeout.Timed := by
  rw [createPowerTimeout]
  split_ifs with hpos hwake
  · rintro ⟨⟩
  · intro _
    exact not_le.mp hpos
  · intro _
    exact not_le.mp hpos

lemma step_timed (h : p.Timed) (hstep : step p i = .ok p') : p'.Timed := by
  cases i with
  | activity =>
    cases hstep
    split_ifs
    · exact createPowerTimeout_timed
    · exact h
  | timerExpires =>
    cases hstep
    split_ifs
    · exact nofun
    · exact h
  | setPowerTimeout v =>
    cases hstep
    exact createPowerTimeout_timed
  | inhibitChanged inhibit =>
    cases hstep
    cases inhibit with
    | true => exact nofun
    | false => exact createPowerTimeout_timed
  | command q argv =>
    rw [Timed, (onPowerCommand_connections hstep).1, (onPowerCommand_commanded hstep).timeoutPower_eq]
    exact h

lemma start_timed (v : ℤ) (config : OutputConfiguration) : (start v config).Timed := by
  have h := createPowerTimeout_timed (p := ⟨v, false, false, none, config, []⟩)
  exact h

lemma run_timed {is : List Input} (hrun : Machine.run step (start v config) is = .ok p) :
    p.Timed :=
  Machine.run_invariant step (fun _ _ _ hp h => step_timed hp h) (start_timed v config)
    hrun

/-- When the timer has expired, an activity that is noticed wakes the outputs; and whatever wakes
them, with no command in between, every output that was off beforehand is on, and nothing else
has changed. -/
theorem woken_config {is₀ : List Input} (hrun : Machine.run step (start v config) is₀ = .ok p)
    (harmed : p.timeoutPower.isSome = true) :
    (p.onSeatActivity = true →
      ∃ p', Machine.run step p [.timerExpires, .activity] = .ok p' ∧ p'.isIdle = false) ∧
    ∀ is p', Machine.run step p (.timerExpires :: is) = .ok p' →
      (∀ i ∈ is, ∀ q argv, i ≠ .command q argv) → p'.isIdle = false →
      p'.config = lit p.config ∧ (p'.config = p.config ↔ ∀ e ∈ p.config, e.source ≠ .dpms) := by
  have hp := run_inv hrun
  have hfired : step p .timerExpires = .ok p.timerFired := by rw [step, if_pos harmed]
  have hshows : p.timerFired.Shows p.config := rfl
  constructor
  · intro hnoticed
    -- the timer is armed, so the timeout is positive, and activity lights the outputs
    have hpos := run_timed hrun harmed
    obtain ⟨p', h, hawake⟩ : ∃ p', step p.timerFired .activity = .ok p' ∧ p'.Awake := by
      refine ⟨_, rfl, ?_⟩
      have hnoticed : p.timerFired.onSeatActivity = true := hnoticed
      rw [if_pos hnoticed]
      exact createPowerTimeout_awake (step_inv hp hfired) hpos
    refine ⟨p', ?_, hawake.1⟩
    rw [Machine.run_cons, hfired, Machine.ok_bind, Machine.run_cons, h]
    rfl
  · intro is p' hrun' hno hawake
    rw [Machine.run_cons, hfired, Machine.ok_bind] at hrun'
    -- as long as no command is run, the entries show the configuration from before
    have hshows' : p'.Inv ∧ p'.Shows p.config := by
      clear hawake
      have hinv := step_inv hp hfired
      generalize p.timerFired = p₁ at hrun' hshows hinv
      induction is generalizing p₁ with
      | nil =>
        cases hrun'
        exact ⟨hinv, hshows⟩
      | cons i is ih =>
        obtain ⟨p₂, hstep, hrest⟩ := Machine.bind_ok_iff.mp hrun'
        exact ih (fun j hj => hno j (List.mem_cons_of_mem i hj)) p₂ hrest
          (step_shows hinv hshows (hno i List.mem_cons_self) hstep) (step_inv hinv hstep)
    have hconfig : p'.config = lit p.config := by
      rw [hshows'.2, hawake]
      rfl
    exact ⟨hconfig, by rw [hconfig, lit_eq_self_iff]⟩

/-- Two outputs, of which a command has switched the second off. -/
def oneOff : Power := start 10 [⟨0, .self⟩, ⟨1, .dpms⟩]

/-- The second output is on behind the timeout and the wake-up. -/
theorem commanded_off_comes_back : ∃ p, Machine.run step oneOff [.timerExpires, .activity] = .ok p ∧
    p.isIdle = false ∧ p.config = [⟨0, .self⟩, ⟨1, .self⟩] ∧ p.config ≠ oneOff.config :=
  ⟨_, rfl, by decide, by decide, by decide⟩

/-- A single output gets its source back. -/
theorem oneOutput_restored : ∃ p, Machine.run step oneOutput [.timerExpires, .activity] = .ok p ∧
    p.config = oneOutput.config := by
  have hrun₀ : Machine.run step (start 10 [⟨0, .self⟩]) [] = .ok oneOutput := rfl
  have hwoken := woken_config hrun₀ (by decide)
  obtain ⟨p', hrun, hawake⟩ := hwoken.1 (by decide)
  exact ⟨p', hrun, (hwoken.2 [.activity] p' hrun (by simp) hawake).2.mpr (by decide)⟩

end Power

end WayfireIpc
