/-
# Machines with faults

A deterministic machine whose step may fault: a step function `σ → ι → Except ε σ`.
This file has the runs of such a machine, the rule that carries an invariant along a
run, and the criterion that a run is free of faults exactly when each of its steps
meets a condition on the state in which it is taken.
-/
import Mathlib

namespace WayfireIpc
namespace Machine

universe u

variable {σ ι ε : Type*} {α β : Type u}

/-! ## Sequencing -/

lemma bind_ok_iff {x : Except ε α} {f : α → Except ε β} {b : β} :
    (x >>= f) = .ok b ↔ ∃ a, x = .ok a ∧ f a = .ok b := by
  cases x with
  | error e => exact ⟨fun h => absurd h (by simp [bind, Except.bind]), by rintro ⟨a, h, -⟩; cases h⟩
  | ok a => exact ⟨fun h => ⟨a, rfl, h⟩, by rintro ⟨a', h, hf⟩; cases h; exact hf⟩

lemma map_ok_iff {x : Except ε α} {f : α → β} {b : β} :
    (f <$> x) = .ok b ↔ ∃ a, x = .ok a ∧ f a = b := by
  cases x with
  | error e =>
    refine ⟨fun h => absurd h (by simp [Functor.map, Except.map]), ?_⟩
    rintro ⟨a, h, -⟩
    cases h
  | ok a =>
    constructor
    · intro h
      exact ⟨a, rfl, Except.ok.inj h⟩
    · rintro ⟨a', h, rfl⟩
      cases h
      rfl

@[simp] lemma ok_bind (a : α) (f : α → Except ε β) : (Except.ok a >>= f) = f a := rfl

@[simp] lemma error_bind (e : ε) (f : α → Except ε β) : (Except.error e >>= f) = .error e := rfl

@[simp] lemma map_ok (f : α → β) (a : α) : (f <$> (Except.ok a : Except ε α)) = .ok (f a) := rfl

@[simp] lemma map_error (f : α → β) (e : ε) :
    (f <$> (Except.error e : Except ε α)) = .error e := rfl

lemma mapM_eq_map {f : α → Except ε β} {g : α → β} : ∀ {l : List α},
    (∀ a ∈ l, f a = .ok (g a)) → l.mapM f = .ok (l.map g) := by
  intro l
  induction l with
  | nil => exact fun _ => rfl
  | cons a l ih =>
    intro h
    rw [List.mapM_cons, h a List.mem_cons_self, ok_bind,
      ih fun b hb => h b (List.mem_cons_of_mem a hb)]
    rfl

lemma ok_of_mapM {f : α → Except ε β} : ∀ {l : List α} {bs : List β}, l.mapM f = .ok bs →
    ∀ a ∈ l, ∃ b, f a = .ok b := by
  intro l
  induction l with
  | nil => exact fun _ a ha => absurd ha List.not_mem_nil
  | cons a l ih =>
    intro bs h
    rw [List.mapM_cons] at h
    obtain ⟨b, hb, h⟩ := bind_ok_iff.mp h
    obtain ⟨bs', hbs, -⟩ := bind_ok_iff.mp h
    rintro x (_ | ⟨_, hx⟩)
    · exact ⟨b, hb⟩
    · exact ih hbs x hx

lemma exists_of_mem_mapM {f : α → Except ε β} : ∀ {l : List α} {bs : List β}, l.mapM f = .ok bs →
    ∀ b ∈ bs, ∃ a ∈ l, f a = .ok b := by
  intro l
  induction l with
  | nil =>
    rintro bs h b hb
    cases h
    cases hb
  | cons a l ih =>
    intro bs h b hb
    rw [List.mapM_cons] at h
    obtain ⟨b₁, hb₁, h⟩ := bind_ok_iff.mp h
    obtain ⟨bs₁, hbs₁, h⟩ := bind_ok_iff.mp h
    cases h
    rcases List.mem_cons.mp hb with rfl | hb
    · exact ⟨a, List.mem_cons_self, hb₁⟩
    · obtain ⟨a', ha', hf⟩ := ih hbs₁ b hb
      exact ⟨a', List.mem_cons_of_mem a ha', hf⟩

lemma mem_of_mapM {f : α → Except ε β} {l : List α} {bs : List β} (h : l.mapM f = .ok bs) :
    ∀ a ∈ l, ∃ b ∈ bs, f a = .ok b := by
  induction l generalizing bs with
  | nil => exact fun a ha => absurd ha List.not_mem_nil
  | cons a l ih =>
    rw [List.mapM_cons] at h
    obtain ⟨b, hb, h⟩ := bind_ok_iff.mp h
    obtain ⟨bs', hbs, h⟩ := bind_ok_iff.mp h
    cases h
    rintro x (_ | ⟨_, hx⟩)
    · exact ⟨b, List.mem_cons_self, hb⟩
    · obtain ⟨b', hb', hx⟩ := ih hbs x hx
      exact ⟨b', List.mem_cons_of_mem b hb', hx⟩

lemma mapM_eq_nil_iff {f : α → Except ε β} {l : List α} {bs : List β} (h : l.mapM f = .ok bs) :
    bs = [] ↔ l = [] := by
  constructor
  · rintro rfl
    refine List.eq_nil_iff_forall_not_mem.mpr fun a ha => ?_
    obtain ⟨b, hb, -⟩ := mem_of_mapM h a ha
    cases hb
  · rintro rfl
    cases h
    rfl

/-- A loop that overwrites its variable leaves the value of the last element in it. -/
lemma foldlM_overwrite {f : α → Except ε β} {g : α → β} : ∀ {l : List α} (b : Option β),
    (∀ a ∈ l, f a = .ok (g a)) →
      l.foldlM (fun _ a => some <$> f a) b = .ok ((l.getLast?.map g).or b) := by
  intro l
  induction l with
  | nil => exact fun _ _ => rfl
  | cons a l ih =>
    intro b h
    rw [List.foldlM_cons, h a List.mem_cons_self, map_ok, ok_bind,
      ih _ fun a' ha' => h a' (List.mem_cons_of_mem a ha'), List.getLast?_cons]
    cases l.getLast? <;> rfl

lemma ok_of_foldlM_overwrite {f : α → Except ε β} : ∀ {l : List α} {b r : Option β},
    l.foldlM (fun _ a => some <$> f a) b = .ok r → ∀ a ∈ l, ∃ b, f a = .ok b := by
  intro l
  induction l with
  | nil => exact fun _ a ha => absurd ha List.not_mem_nil
  | cons a l ih =>
    intro b r h
    rw [List.foldlM_cons] at h
    obtain ⟨b₁, hb₁, h⟩ := bind_ok_iff.mp h
    obtain ⟨b₂, hb₂, -⟩ := map_ok_iff.mp hb₁
    rintro x (_ | ⟨_, hx⟩)
    · exact ⟨b₂, hb₂⟩
    · exact ih h x hx

/-! ## Runs -/

variable (step : σ → ι → Except ε σ)

/-- The run of a machine on a list of inputs, up to the first fault. -/
def run : σ → List ι → Except ε σ
  | s, [] => .ok s
  | s, e :: es => step s e >>= fun s' => run s' es

@[simp] lemma run_nil (s : σ) : run step s [] = .ok s := rfl

@[simp] lemma run_cons (s : σ) (e : ι) (es : List ι) :
    run step s (e :: es) = (step s e >>= fun s' => run step s' es) := rfl

lemma run_append (s : σ) (es es' : List ι) :
    run step s (es ++ es') = (run step s es >>= fun s' => run step s' es') := by
  induction es generalizing s with
  | nil => rfl
  | cons e es ih =>
    rw [List.cons_append, run_cons, run_cons]
    cases step s e with
    | error f => rfl
    | ok s' => exact ih s'

lemma run_append_ok {s s₂ : σ} {es es' : List ι} :
    run step s (es ++ es') = .ok s₂ ↔ ∃ s₁, run step s es = .ok s₁ ∧ run step s₁ es' = .ok s₂ := by
  rw [run_append, bind_ok_iff]

/-- The state at the end of a run, for runs that succeed. -/
def final (s : σ) (es : List ι) : σ :=
  match run step s es with
  | .ok s' => s'
  | .error _ => s

lemma run_final {s : σ} {es : List ι} (h : (run step s es).isOk = true) :
    run step s es = .ok (final step s es) := by
  rw [final]
  cases hrun : run step s es with
  | ok s' => rfl
  | error f =>
    rw [hrun] at h
    cases h

/-- What every step preserves holds at the end of every run. -/
theorem run_invariant {I : σ → Prop} (hstep : ∀ s e s', I s → step s e = .ok s' → I s')
    {s s' : σ} {es : List ι} (hs : I s) (h : run step s es = .ok s') : I s' := by
  induction es generalizing s with
  | nil => exact (Except.ok.inj h) ▸ hs
  | cons e es ih =>
    obtain ⟨s₁, h₁, h₂⟩ := bind_ok_iff.mp h
    exact ih (hstep s e s₁ hs h₁) h₂

/-- Every step of the run of the inputs meets the condition `P` in the state in which it
is taken. -/
def AllSteps (P : σ → ι → Prop) : σ → List ι → Prop
  | _, [] => True
  | s, e :: es => P s e ∧ ∀ s', step s e = .ok s' → AllSteps P s' es

lemma AllSteps.append {P : σ → ι → Prop} {s s' : σ} {es es' : List ι}
    (h : AllSteps step P s (es ++ es')) (hrun : run step s es = .ok s') :
    AllSteps step P s es ∧ AllSteps step P s' es' := by
  induction es generalizing s with
  | nil => exact ⟨trivial, Except.ok.inj hrun ▸ h⟩
  | cons e es ih =>
    obtain ⟨s₁, h₁, h₂⟩ := bind_ok_iff.mp hrun
    obtain ⟨hes, hes'⟩ := ih (h.2 s₁ h₁) h₂
    refine ⟨⟨h.1, fun s₂ hs₂ => ?_⟩, hes'⟩
    cases h₁.symm.trans hs₂
    exact hes

/-- What every step that meets the condition preserves holds at the end of every run whose steps
all meet it. -/
theorem run_invariant_of_allSteps {I : σ → Prop} {P : σ → ι → Prop}
    (hstep : ∀ s e s', I s → P s e → step s e = .ok s' → I s') {s s' : σ} {es : List ι} (hs : I s)
    (hall : AllSteps step P s es) (h : run step s es = .ok s') : I s' := by
  induction es generalizing s with
  | nil => exact (Except.ok.inj h) ▸ hs
  | cons e es ih =>
    obtain ⟨s₁, h₁, h₂⟩ := bind_ok_iff.mp h
    exact ih (hstep s e s₁ hs hall.1 h₁) (hall.2 s₁ h₁) h₂

/-- Two conditions that agree wherever an invariant holds are met along the same runs. -/
theorem allSteps_congr {I : σ → Prop} {P Q : σ → ι → Prop}
    (hinv : ∀ s e s', I s → step s e = .ok s' → I s') (hiff : ∀ s e, I s → (P s e ↔ Q s e))
    {s : σ} (hs : I s) (es : List ι) : AllSteps step P s es ↔ AllSteps step Q s es := by
  induction es generalizing s with
  | nil => exact Iff.rfl
  | cons e es ih =>
    refine and_congr (hiff s e hs) (forall_congr' fun s' => forall_congr' fun hstep => ?_)
    exact ih (hinv s e s' hs hstep)

/-- If, from a good state, a step leads to a good state exactly when it meets the condition, then a
run stays good exactly as long as its steps meet the condition. -/
theorem allSteps_good_iff {I G : σ → Prop} {P : σ → ι → Prop}
    (hinv : ∀ s e s', I s → step s e = .ok s' → I s')
    (hiff : ∀ s e, I s → G s → ((∀ s', step s e = .ok s' → G s') ↔ P s e))
    {s : σ} (hs : I s) (hG : G s) (es : List ι) :
    AllSteps step (fun s e => ∀ s', step s e = .ok s' → G s') s es ↔ AllSteps step P s es := by
  induction es generalizing s with
  | nil => exact Iff.rfl
  | cons e es ih =>
    constructor
    · rintro ⟨hgood, hrest⟩
      refine ⟨(hiff s e hs hG).mp hgood, fun s' hstep => ?_⟩
      exact (ih (hinv s e s' hs hstep) (hgood s' hstep)).mp (hrest s' hstep)
    · rintro ⟨hP, hrest⟩
      have hgood := (hiff s e hs hG).mpr hP
      refine ⟨hgood, fun s' hstep => ?_⟩
      exact (ih (hinv s e s' hs hstep) (hgood s' hstep)).mpr (hrest s' hstep)

/-- A step that does not meet the condition spoils the state for good: then the state at the end of
a run, whose steps all meet the assumption `A`, is good or spoilt, according to whether all of them meet
the condition. -/
theorem run_dichotomy {I G B : σ → Prop} {A P : σ → ι → Prop}
    (hinv : ∀ s e s', I s → step s e = .ok s' → I s')
    (hgood : ∀ s e s', I s → G s → A s e → P s e → step s e = .ok s' → G s')
    (hspoil : ∀ s e s', I s → G s → ¬ P s e → step s e = .ok s' → B s')
    (hbad : ∀ s e s', I s → B s → step s e = .ok s' → B s')
    {s s' : σ} {es : List ι} (hs : I s) (hG : G s) (hA : AllSteps step A s es)
    (h : run step s es = .ok s') :
    (AllSteps step P s es ∧ G s') ∨ (¬ AllSteps step P s es ∧ B s') := by
  induction es generalizing s with
  | nil => exact Or.inl ⟨trivial, (Except.ok.inj h) ▸ hG⟩
  | cons e es ih =>
    obtain ⟨s₁, h₁, h₂⟩ := bind_ok_iff.mp h
    have hs₁ := hinv s e s₁ hs h₁
    by_cases hP : P s e
    · have hall : AllSteps step P s (e :: es) ↔ AllSteps step P s₁ es := by
        constructor
        · exact fun hall => hall.2 s₁ h₁
        · refine fun hall => ⟨hP, fun s₂ hs₂ => ?_⟩
          cases h₁.symm.trans hs₂
          exact hall
      rw [hall]
      exact ih hs₁ (hgood s e s₁ hs hG hA.1 hP h₁) (hA.2 s₁ h₁) h₂
    · refine Or.inr ⟨fun hall => hP hall.1, ?_⟩
      -- what is spoilt stays so along the rest of the run
      exact (run_invariant (I := fun s => I s ∧ B s) step
        (fun s e s' hs hstep => ⟨hinv s e s' hs.1 hstep, hbad s e s' hs.1 hs.2 hstep⟩)
        ⟨hs₁, hspoil s e s₁ hs hG hP h₁⟩ h₂).2

instance AllSteps.decidable {P : σ → ι → Prop} [∀ s e, Decidable (P s e)] :
    ∀ (es : List ι) (s : σ), Decidable (AllSteps step P s es)
  | [], _ => isTrue trivial
  | e :: es, s =>
    match h : step s e with
    | .ok s' =>
      have := AllSteps.decidable (P := P) es s'
      decidable_of_iff (P s e ∧ AllSteps step P s' es) (by simp [AllSteps, h])
    | .error f => decidable_of_iff (P s e) (by simp [AllSteps, h])

/-- If, under an invariant, a step succeeds exactly when it meets `P`, then a run succeeds
exactly when all of its steps meet `P`. -/
theorem run_ok_iff_allSteps {I : σ → Prop} {P : σ → ι → Prop}
    (hinv : ∀ s e s', I s → step s e = .ok s' → I s')
    (hok : ∀ s e, I s → ((∃ s', step s e = .ok s') ↔ P s e))
    {s : σ} (hs : I s) (es : List ι) :
    (∃ s', run step s es = .ok s') ↔ AllSteps step P s es := by
  induction es generalizing s with
  | nil => exact ⟨fun _ => trivial, fun _ => ⟨s, rfl⟩⟩
  | cons e es ih =>
    constructor
    · rintro ⟨s₂, h⟩
      obtain ⟨s₁, h₁, h₂⟩ := bind_ok_iff.mp h
      refine ⟨(hok s e hs).mp ⟨s₁, h₁⟩, fun s' hs' => ?_⟩
      rw [h₁] at hs'
      cases hs'
      exact (ih (hinv s e s₁ hs h₁)).mp ⟨s₂, h₂⟩
    · rintro ⟨hP, hrest⟩
      obtain ⟨s₁, h₁⟩ := (hok s e hs).mpr hP
      obtain ⟨s₂, h₂⟩ := (ih (hinv s e s₁ hs h₁)).mpr (hrest s₁ h₁)
      exact ⟨s₂, bind_ok_iff.mpr ⟨s₁, h₁, h₂⟩⟩

/-- If, under an invariant, a step can only fault in the way `F`, a run can only fault in
the way `F`. -/
theorem run_error_of {I : σ → Prop} {F : ε → Prop}
    (hinv : ∀ s e s', I s → step s e = .ok s' → I s')
    (herr : ∀ s e f, I s → step s e = .error f → F f)
    {s : σ} (hs : I s) {es : List ι} {f : ε} (h : run step s es = .error f) : F f := by
  induction es generalizing s with
  | nil => cases h
  | cons e es ih =>
    rw [run_cons] at h
    cases hse : step s e with
    | error f' =>
      rw [hse] at h
      cases h
      exact herr s e f hs hse
    | ok s' =>
      rw [hse] at h
      exact ih (hinv s e s' hs hse) h

end Machine
end WayfireIpc
