/-
# The rate of a mode

A listed mode has its rate in mHz, and `mode` is given a rate in Hz.  The two numbers are
compared as they are, so a mode is found by the rate that is shown for it only if both are
zero.
-/
import WayfireIpc.Output.Failing

namespace WayfireIpc

/-! ## Numbers -/

lemma strtol_toString10 {n : ℕ} {ch : Char} {rest : Str} (hn : n < 2 ^ 63)
    (hch : ch.isDigit = false) : strtol (toString10 n ++ ch :: rest) = ((n : ℤ), ch :: rest) := by
  have hnum : numeral (toString10 n ++ ch :: rest) = some (false, toString10 n, ch :: rest) :=
    numeral_append Nat.toDigits_ne_nil (fun ch hch => isDigit_of_mem_toString10 hch)
      (by rintro x ⟨⟩; exact hch)
  have hvalue : Nat.ofDigitChars 10 (toString10 n) 0 = n := Nat.ofDigitChars_ten_toDigits
  rw [strtol, hnum]
  refine Prod.ext ?_ rfl
  show max (-2 ^ 63) (min (2 ^ 63 - 1) ((Nat.ofDigitChars 10 (toString10 n) 0 : ℕ) : ℤ)) = n
  rw [hvalue]
  omega

/-- Rounding to a `float` loses at most half of a number. -/
lemma natAbs_le_two_mul_roundInt (n : ℤ) : n.natAbs ≤ 2 * (CFloat.roundInt n).natAbs := by
  rcases eq_or_ne n 0 with rfl | hne
  · exact Nat.zero_le _
  · have hpos : 0 < n.natAbs := Int.natAbs_pos.mpr hne
    have hone : 0 < 2 ^ (n.natAbs.log2 - 23) := by positivity
    have hstep : 2 ^ (n.natAbs.log2 - 23) ≤ n.natAbs :=
      (Nat.pow_le_pow_right (by norm_num) (Nat.sub_le _ _)).trans (Nat.log2_self_le hpos.ne')
    have hdiv := Nat.div_add_mod' n.natAbs (2 ^ (n.natAbs.log2 - 23))
    have hmod := Nat.mod_lt n.natAbs hone
    have hlow : 2 ^ (n.natAbs.log2 - 23)
        ≤ n.natAbs / 2 ^ (n.natAbs.log2 - 23) * 2 ^ (n.natAbs.log2 - 23) :=
      Nat.le_mul_of_pos_left _ (Nat.div_pos hstep hone)
    simp only [CFloat.roundInt, Int.natAbs_mul, Int.natAbs_natCast, Int.natAbs_sign_of_ne_zero hne,
      one_mul]
    have hup := Nat.add_one_mul (n.natAbs / 2 ^ (n.natAbs.log2 - 23)) (2 ^ (n.natAbs.log2 - 23))
    split_ifs <;> omega

/-- A number in the range of a type is the value of one element. -/
lemma int32_eq_iff {n : ℕ} (hn : n < 2 ^ 31) {i : Int32} : i = .ofInt n ↔ i.toInt = n := by
  rw [← Int32.toInt_inj, toInt_ofInt_of_lt hn]

variable {E : OutputEnv} {name : Str} {layout layout' : OutputLayout} {sub : Subcommand}
  {ws : List Str} {q : Power.Queries} {output : OutputRef} {handle : WlrHandle} {w h k : ℕ}

/-! ## A command line with one subcommand -/

/-- The result of a command line with one subcommand. -/
lemma outputHandler_single (hparse : parseSubcommand E.strtof ws = .subcommand sub []) :
    (∃ r, (outputHandler E (name :: ws) (.start layout)).1 = .ok r ∧ r.status = .success ∧
        (outputHandler E (name :: ws) (.start layout)).2.layout = layout') ↔
      ∃ r, sub.exec E name layout = .ok (r, layout') ∧ r.status = .success := by
  obtain ⟨layout₁, ws₁, res, hsucceeds, hends, hres, hlayout, -⟩ :=
    outputHandler_ends E name ws layout
  rw [hres, hlayout]
  constructor
  · rintro ⟨r, hr, hstatus, hfinal⟩
    cases hends with
    | done heq =>
      cases hsucceeds with
      | refl => cases hparse
      | step hparse' hexec hstatus' hrest =>
        rw [hparse] at hparse'
        cases hparse'
        cases hrest with
        | refl => exact ⟨_, by rw [hexec, ← hfinal, heq], hstatus'⟩
        | step hparse'' => cases hparse''
    | fault => cases hr
    | refused _ _ hnot =>
      cases hr
      exact absurd hstatus hnot
    | failed _ _ hnot =>
      cases hr
      exact absurd hstatus hnot
    | thrown => cases hr
  · rintro ⟨r, hexec, hstatus⟩
    have hall : Succeeds E name layout ws layout' [] := .step hparse hexec hstatus .refl
    have hstuck : Stuck E name layout' [] := by
      intro sub rest res layout'' h
      cases h
    obtain ⟨rfl, rfl⟩ := hsucceeds.unique hends.stuck hall hstuck
    cases hends with
    | done heq => exact ⟨_, rfl, rfl, heq⟩
    | fault h => cases h
    | refused hne => exact absurd rfl hne
    | failed h => cases h
    | thrown h => cases h

/-! ## The words of a mode -/

/-- A size with a rate in Hz, as a mode is shown. -/
def modeText (w h k : ℕ) : Str :=
  toString10 w ++ 'x' :: (toString10 h ++ '@' :: (toString10 k ++ "Hz".toList))

/-- The words of a `mode` subcommand. -/
def modeWords (useCustomMode : Bool) (w h k : ℕ) : List Str :=
  "mode".toList :: ((if useCustomMode then ["--custom".toList] else []) ++ [modeText w h k])

/-- `strtof` reads the digits of a number, up to "Hz". -/
def ReadsRate (strtof : Str → CFloat × Str) (k : ℕ) : Prop :=
  strtof (toString10 k ++ "Hz".toList) = (.finite k, "Hz".toList)

lemma modeWord_modeText {strtof : Str → CFloat × Str} (hrate : ReadsRate strtof k)
    (hw : w < 2 ^ 31) (hh : h < 2 ^ 31) :
    modeWord strtof (modeText w h k) = .complete (.ofInt w, .ofInt h, .finite k) := by
  have hwidth : strtol (modeText w h k)
      = ((w : ℤ), 'x' :: (toString10 h ++ '@' :: (toString10 k ++ "Hz".toList))) :=
    strtol_toString10 (by omega) (by decide)
  have hheight : strtol (toString10 h ++ '@' :: (toString10 k ++ "Hz".toList))
      = ((h : ℤ), '@' :: (toString10 k ++ "Hz".toList)) :=
    strtol_toString10 (by omega) (by decide)
  rw [modeWord, hwidth]
  simp only [ne_eq, not_true_eq_false, if_false]
  rw [hheight]
  simp only [not_true_eq_false, if_false]
  rw [hrate]
  rfl

lemma modeText_ne_custom : modeText w h k ≠ "--custom".toList := by
  intro heq
  obtain ⟨d, ds, hcons⟩ := List.exists_cons_of_ne_nil (Nat.toDigits_ne_nil (n := w) (b := 10))
  have hd : d.isDigit = true := isDigit_of_mem_toString10 (i := w) (by
    rw [toString10, hcons]
    exact List.mem_cons_self)
  rw [modeText, toString10, hcons, List.cons_append] at heq
  have hminus : d = '-' := (List.cons.inj heq).1
  rw [hminus] at hd
  exact absurd hd (by decide)

lemma parseSubcommand_modeWords {useCustomMode : Bool} (hrate : ReadsRate E.strtof k)
    (hw : w < 2 ^ 31) (hh : h < 2 ^ 31) :
    parseSubcommand E.strtof (modeWords useCustomMode w h k)
      = .subcommand (.mode useCustomMode (.ofInt w) (.ofInt h) (.finite k)) [] := by
  have hsize : ∀ b, parseSize E.strtof b (modeText w h k) []
      = .subcommand (.mode b (.ofInt w) (.ofInt h) (.finite k)) [] := by
    intro b
    rw [parseSize, modeWord_modeText hrate hw hh]
  have hmode : ∀ ws, parseSubcommand E.strtof ("mode".toList :: ws) = parseMode E.strtof ws :=
    fun _ => rfl
  rw [modeWords, hmode]
  cases useCustomMode with
  | true => exact hsize true
  | false =>
    show parseMode E.strtof [modeText w h k] = _
    simp only [parseMode, if_neg modeText_ne_custom]
    exact hsize false

/-! ## The entry of the output -/

lemma find?_split {p : OutputEntry → Bool} {before after : List OutputEntry} {e : OutputEntry}
    (hbefore : ∀ e' ∈ before, ¬ p e') (he : p e) : (before ++ e :: after).find? p = some e := by
  rw [List.find?_append, List.find?_eq_none.mpr hbefore, Option.none_or, List.find?_cons_of_pos he]

/-- After a setter the entry of the output is the one that has been changed. -/
lemma setField_find?_iff (change : OutputEntry → OutputEntry) {e : OutputEntry}
    (hchange : ∀ e, (change e).output = e.output) :
    (∃ p, layout.setField q output change = .ok p ∧
        p.2.config.find? (q.isEntryOf output) = some e) ↔
      ∃ before e₀ after, layout.config = before ++ e₀ :: after ∧ q.isEntryOf output e₀ ∧
        (∀ e' ∈ before, q.findOutput e'.output ≠ none ∧ ¬ q.isEntryOf output e') ∧
        e = change e₀ := by
  have hentry : ∀ e, q.isEntryOf output (change e) = q.isEntryOf output e := fun e => by
    rw [Power.Queries.isEntryOf, Power.Queries.isEntryOf, hchange]
  constructor
  · rintro ⟨p, hp, hfind⟩
    obtain ⟨found, config, hloop, rfl⟩ := OutputLayout.setField_ok_iff.mp hp
    rcases OutputLayout.setEntry_ok_iff.mp hloop with
      ⟨before, e₀, after, hsplit, he₀, hbefore, rfl, rfl⟩ | ⟨hall, rfl, rfl⟩
    · refine ⟨before, e₀, after, hsplit, he₀, hbefore, ?_⟩
      rw [if_pos rfl] at hfind
      exact Option.some.inj (hfind.symm.trans
        (find?_split (fun e' he' => (hbefore e' he').2) ((hentry e₀).trans he₀)))
    · rw [if_pos rfl] at hfind
      have hnone := List.find?_eq_none.mpr fun e' he' => (hall e' he').2
      rw [OutputLayout.apply, hnone] at hfind
      cases hfind
  · rintro ⟨before, e₀, after, hsplit, he₀, hbefore, rfl⟩
    have hloop : OutputLayout.setEntry q output change true layout.config
        = .ok (true, before ++ change e₀ :: after) :=
      OutputLayout.setEntry_ok_iff.mpr
        (Or.inl ⟨before, e₀, after, hsplit, he₀, hbefore, rfl, rfl⟩)
    exact ⟨_, OutputLayout.setField_ok_iff.mpr ⟨_, _, hloop, rfl⟩,
      find?_split (fun e' he' => (hbefore e' he').2) ((hentry e₀).trans he₀)⟩

/-! ## Which mode is set -/

/-- A `mode` subcommand succeeds, and the entry of the output has the mode that is asked for. -/
def ModeSet (E : OutputEnv) (name : Str) (layout : OutputLayout) (output : OutputRef)
    (handle : WlrHandle) (w h k : ℕ) (useCustomMode : Bool) : Prop :=
  let run := outputHandler E (name :: modeWords useCustomMode w h k) (.start layout)
  ∃ r e, run.1 = .ok r ∧ r.status = .success ∧
    run.2.layout.config.find? ((E.world layout.config).isEntryOf output) = some e ∧
    e.mode.width.toInt = w ∧ e.mode.height.toInt = h ∧ e.mode.refresh.toInt = 1000 * k ∧
    (useCustomMode = false → e.mode ∈ handle.modes)

/-- Setting the mode of the entry of the output. -/
lemma set_mode_iff {p : OutputEntry → Prop} (mode : OutputMode) :
    (∃ r L e, Subcommand.set (fun layout' => layout'.setMode q mode output) layout = .ok (r, L) ∧
        r.status = .success ∧ L.config.find? (q.isEntryOf output) = some e ∧ p e) ↔
      ∃ before e₀ after, layout.config = before ++ e₀ :: after ∧ q.isEntryOf output e₀ ∧
        (∀ e' ∈ before, q.findOutput e'.output ≠ none ∧ ¬ q.isEntryOf output e') ∧
        p { e₀ with mode := mode } := by
  let change := fun entry : OutputEntry => { entry with mode := mode }
  constructor
  · rintro ⟨r, L, e, hset, -, hfind, he⟩
    obtain ⟨p', hp, h⟩ := Machine.bind_ok_iff.mp hset
    cases h
    obtain ⟨before, e₀, after, hsplit, he₀, hbefore, rfl⟩ :=
      (setField_find?_iff change fun _ => rfl).mp ⟨p', hp, hfind⟩
    exact ⟨before, e₀, after, hsplit, he₀, hbefore, he⟩
  · rintro ⟨before, e₀, after, hsplit, he₀, hbefore, he⟩
    obtain ⟨p', hp, hfind⟩ :=
      (setField_find?_iff change fun _ => rfl).mpr ⟨before, e₀, after, hsplit, he₀, hbefore, rfl⟩
    refine ⟨⟨p'.1, none⟩, p'.2, _, ?_, Subcommand.setField_status hp, hfind, he⟩
    rw [Subcommand.set, OutputLayout.setMode, hp]
    rfl

/-- The mode that a `mode` subcommand selects. -/
lemma exec_mode_iff {b : Bool} {width height : Int32} {rate : CFloat} {p : OutputEntry → Prop}
    (hname : (E.world layout.config).compositor.allOutputByNameOrId name = some output)
    (hhandle : (E.world layout.config).handle output = some handle) :
    (∃ r L e, Subcommand.exec E name layout (.mode b width height rate) = .ok (r, L) ∧
        r.status = .success ∧
        L.config.find? ((E.world layout.config).isEntryOf output) = some e ∧ p e) ↔
      ∃ mode before e₀ after,
        (if b then customMode width height rate = .ok mode
          else selectMode handle.modes width height rate = some mode) ∧
        layout.config = before ++ e₀ :: after ∧
        (E.world layout.config).isEntryOf output e₀ ∧
        (∀ e' ∈ before, (E.world layout.config).findOutput e'.output ≠ none ∧
          ¬ (E.world layout.config).isEntryOf output e') ∧ p { e₀ with mode := mode } := by
  cases b with
  | true =>
    simp only [Subcommand.exec, hname, Subcommand.modeOf, hhandle, if_true]
    cases hmode : customMode width height rate with
    | error f =>
      refine iff_of_false ?_ ?_
      · rintro ⟨r, L, e, h, -⟩
        cases h
      · rintro ⟨mode, before, e₀, after, h, -⟩
        cases h
    | ok selected =>
      refine (set_mode_iff selected).trans ⟨?_, ?_⟩
      · rintro ⟨before, e₀, after, h⟩
        exact ⟨selected, before, e₀, after, rfl, h⟩
      · rintro ⟨mode, before, e₀, after, heq, h⟩
        cases heq
        exact ⟨before, e₀, after, h⟩
  | false =>
    simp only [Subcommand.exec, hname, Subcommand.modeOf, hhandle, Bool.false_eq_true, if_false]
    cases hmode : selectMode handle.modes width height rate with
    | none =>
      refine iff_of_false ?_ ?_
      · rintro ⟨r, L, e, h, hstatus, -⟩
        cases h
        cases hstatus
      · rintro ⟨mode, before, e₀, after, h, -⟩
        cases h
    | some selected =>
      refine (set_mode_iff selected).trans ⟨?_, ?_⟩
      · rintro ⟨before, e₀, after, h⟩
        exact ⟨selected, before, e₀, after, rfl, h⟩
      · rintro ⟨mode, before, e₀, after, heq, h⟩
        cases heq
        exact ⟨before, e₀, after, h⟩

lemma equal_finite_iff {p p' : ℚ} : (CFloat.finite p).equal (.finite p') = true ↔ p = p' := by
  rw [CFloat.equal, decide_eq_true_iff]

/-- The comparison of a rate with the one of a listed mode. -/
lemma equal_ofInt32_iff {i : Int32} :
    (CFloat.finite (k : ℚ)).equal (.ofInt32 i) = true ↔ CFloat.roundInt i.toInt = k := by
  rw [CFloat.ofInt32, equal_finite_iff]
  constructor
  · intro heq
    exact_mod_cast heq.symm
  · intro hround
    rw [hround, Int.cast_natCast]

/-- A rate is equal to a thousand times the rate only if it is 0. -/
lemma eq_zero_of_equal {i : Int32} (hi : i.toInt = 1000 * k)
    (h : (CFloat.finite (k : ℚ)).equal (.ofInt32 i) = true) : k = 0 := by
  have hle := natAbs_le_two_mul_roundInt i.toInt
  rw [equal_ofInt32_iff.mp h, hi] at hle
  omega

lemma equal_zero_iff {i : Int32} :
    (CFloat.finite ((0 : ℕ) : ℚ)).equal (.ofInt32 i) = true ↔ i.toInt = 0 := by
  rw [equal_ofInt32_iff]
  constructor
  · intro h
    have hle := natAbs_le_two_mul_roundInt i.toInt
    rw [h] at hle
    omega
  · intro h
    rw [h]
    rfl

/-- A rate that is given is not -1. -/
lemma equal_minusOne : (CFloat.finite (k : ℚ)).equal (.finite (-1)) = false := by
  rw [← Bool.not_eq_true, equal_finite_iff]
  have hpos : (0 : ℚ) ≤ k := Nat.cast_nonneg k
  intro h
  rw [h] at hpos
  norm_num at hpos

/-- The modes that can be selected with a rate. -/
lemma selects_iff {width height : Int32} {mode : OutputMode} :
    (((CFloat.finite (k : ℚ)).equal (.finite (-1)) ||
      (CFloat.finite (k : ℚ)).equal (.ofInt32 mode.refresh)) &&
      mode.height = height && mode.width = width) = true ↔
    (CFloat.finite (k : ℚ)).equal (.ofInt32 mode.refresh) = true ∧ mode.height = height ∧
      mode.width = width := by
  rw [equal_minusOne, Bool.false_or, Bool.and_eq_true, Bool.and_eq_true, decide_eq_true_iff,
    decide_eq_true_iff, and_assoc]

lemma selectMode_some {modes : List OutputMode} {width height : Int32} {mode : OutputMode}
    (h : selectMode modes width height (.finite k) = some mode) :
    mode ∈ modes ∧ (CFloat.finite (k : ℚ)).equal (.ofInt32 mode.refresh) = true ∧
      mode.height = height ∧ mode.width = width := by
  rw [selectMode] at h
  have hfound := List.find?_some h
  exact ⟨List.mem_of_find?_eq_some h, selects_iff.mp hfound⟩

lemma exists_selectMode {modes : List OutputMode} {mode : OutputMode} (hmode : mode ∈ modes)
    (hequal : (CFloat.finite (k : ℚ)).equal (.ofInt32 mode.refresh) = true) :
    ∃ selected, selectMode modes mode.width mode.height (.finite k) = some selected := by
  refine Option.isSome_iff_exists.mp (List.find?_isSome.mpr ⟨mode, hmode, ?_⟩)
  exact selects_iff.mpr ⟨hequal, rfl, rfl⟩

/-- A mode that is forced has the rate in mHz. -/
lemma customMode_eq {width height : Int32} (hk : k < 2 ^ 31) :
    customMode width height (.finite k) = .ok ⟨width, height, .ofInt k, true⟩ := by
  have hnonneg : ¬ ((k : ℚ) < 0) := not_lt.mpr (Nat.cast_nonneg k)
  rw [customMode, CFloat.toInt32, if_neg hnonneg, Int.floor_natCast, if_pos (by omega)]
  rfl

/-- With the rate 0 a mode of the list is found, and the forced mode has this rate. -/
lemma exists_mode_zero {modes : List OutputMode} {mode : OutputMode} (useCustomMode : Bool)
    (hmode : mode ∈ modes) (hwidth : mode.width.toInt = w) (hheight : mode.height.toInt = h)
    (hrefresh : mode.refresh.toInt = 1000 * (0 : ℕ)) : ∃ selected : OutputMode,
      (if useCustomMode then customMode (.ofInt w) (.ofInt h) (.finite (0 : ℕ)) = .ok selected
        else selectMode modes (.ofInt w) (.ofInt h) (.finite (0 : ℕ)) = some selected) ∧
      selected.width.toInt = w ∧ selected.height.toInt = h ∧
      selected.refresh.toInt = 1000 * (0 : ℕ) ∧ (useCustomMode = false → selected ∈ modes) := by
  have hw : w < 2 ^ 31 := by have := mode.width.toInt_lt; omega
  have hh : h < 2 ^ 31 := by have := mode.height.toInt_lt; omega
  have hwidth' : mode.width = .ofInt w := (int32_eq_iff hw).mpr hwidth
  have hheight' : mode.height = .ofInt h := (int32_eq_iff hh).mpr hheight
  cases useCustomMode with
  | true =>
    refine ⟨⟨.ofInt w, .ofInt h, .ofInt (0 : ℕ), true⟩, customMode_eq (by norm_num), ?_, ?_, rfl,
      by simp⟩
    · exact (int32_eq_iff hw).mp rfl
    · exact (int32_eq_iff hh).mp rfl
  | false =>
    obtain ⟨selected, hselected⟩ := exists_selectMode (k := 0) hmode
      (equal_zero_iff.mpr (hrefresh.trans (by norm_num)))
    rw [hwidth', hheight'] at hselected
    obtain ⟨hmem, hequal, hheight₀, hwidth₀⟩ := selectMode_some hselected
    refine ⟨selected, hselected, (int32_eq_iff hw).mp hwidth₀, (int32_eq_iff hh).mp hheight₀, ?_,
      fun _ => hmem⟩
    rw [equal_zero_iff.mp hequal]
    norm_num

/-- A mode that is set by its rate has the rate 0. -/
lemma unhindered_of_modeSet (mode : OutputMode) {useCustomMode : Bool}
    (hname : (E.world layout.config).compositor.allOutputByNameOrId name = some output)
    (hhandle : (E.world layout.config).handle output = some handle) (hw : w < 2 ^ 31)
    (hh : h < 2 ^ 31) (hk : k < 2 ^ 31) (hrate : ReadsRate E.strtof k)
    (hset : ModeSet E name layout output handle w h k useCustomMode) : k = 0 ∧
      (SetCommand.mode mode).Unhindered (E.world layout.config).toQueries output layout := by
  obtain ⟨r, e, hr, hstatus, hfind, he⟩ := hset
  obtain ⟨r', hexec, hstatus'⟩ :=
    (outputHandler_single (parseSubcommand_modeWords hrate hw hh)).mp ⟨r, hr, hstatus, rfl⟩
  obtain ⟨selected, before, e₀, after, hselected, hsplit, he₀, hbefore, hrefresh⟩ :=
    (exec_mode_iff (p := fun e => e.mode.refresh.toInt = 1000 * k) hname hhandle).mp
      ⟨r', _, e, hexec, hstatus', hfind, he.2.2.1⟩
  refine ⟨?_, before, e₀, after, hsplit, he₀, fun e' he' => (hbefore e' he').1⟩
  cases useCustomMode with
  | true =>
    rw [if_pos rfl, customMode_eq hk] at hselected
    cases hselected
    have hvalue : (Int32.ofInt (k : ℤ)).toInt = k := toInt_ofInt_of_lt hk
    rw [hvalue] at hrefresh
    omega
  | false =>
    rw [if_neg (by simp)] at hselected
    exact eq_zero_of_equal hrefresh (selectMode_some hselected).2.1

/-- A mode is set by the rate that is shown for it exactly when this rate is 0 and the loop over
the configuration comes to the entry of the output. -/
theorem modeSet_iff {mode : OutputMode} (useCustomMode : Bool)
    (hname : (E.world layout.config).compositor.allOutputByNameOrId name = some output)
    (hhandle : (E.world layout.config).handle output = some handle) (hmode : mode ∈ handle.modes)
    (hwidth : mode.width.toInt = w) (hheight : mode.height.toInt = h)
    (hrefresh : mode.refresh.toInt = 1000 * k) (hrate : ReadsRate E.strtof k) :
    ModeSet E name layout output handle w h k useCustomMode ↔ k = 0 ∧
      (SetCommand.mode mode).Unhindered (E.world layout.config).toQueries output layout := by
  have hw : w < 2 ^ 31 := by have := mode.width.toInt_lt; omega
  have hh : h < 2 ^ 31 := by have := mode.height.toInt_lt; omega
  have hk : k < 2 ^ 31 := by have := mode.refresh.toInt_lt; omega
  refine ⟨unhindered_of_modeSet mode hname hhandle hw hh hk hrate, ?_⟩
  rintro ⟨rfl, before, e, after, hsplit, he, hbefore⟩
  obtain ⟨before', e₀, after', heq, he₀, hfirst⟩ :=
    OutputLayout.exists_first_entry after he hbefore
  rw [heq] at hsplit
  obtain ⟨selected, hselected, hset₀⟩ :=
    exists_mode_zero useCustomMode hmode hwidth hheight hrefresh
  obtain ⟨r, L, e', hexec, hstatus, hfind, hset⟩ := (exec_mode_iff
    (p := fun e => e.mode.width.toInt = w ∧ e.mode.height.toInt = h ∧
      e.mode.refresh.toInt = 1000 * (0 : ℕ) ∧ (useCustomMode = false → e.mode ∈ handle.modes))
    hname hhandle).mpr ⟨selected, before', e₀, after', hselected, hsplit, he₀, hfirst, hset₀⟩
  obtain ⟨r', hr', hstatus', hlayout⟩ :=
    (outputHandler_single (parseSubcommand_modeWords hrate hw hh)).mpr ⟨r, hexec, hstatus⟩
  exact ⟨r', e', hr', hstatus', by rw [hlayout]; exact hfind, hset⟩

/-- The listed mode with the rate 0 is set. -/
theorem zeroMode_set : ModeSet oneOutputEnv "A".toList ⟨[plainEntry 1], []⟩ 0
    ⟨[⟨1920, 1080, 60000, true⟩, ⟨1280, 720, 0, false⟩], .normal⟩ 1280 720 0 false :=
  (modeSet_iff false rfl rfl (show (⟨1280, 720, 0, false⟩ : OutputMode) ∈ _ by decide) rfl rfl rfl
    (show ReadsRate oneOutputEnv.strtof 0 from rfl)).mpr
    ⟨rfl, [], plainEntry 1, [], rfl, rfl, nofun⟩

/-- The mode that is shown as 1920x1080 @ 60.000 Hz is not set by this rate. -/
theorem shownMode_not_set : ¬ ∀ (E : OutputEnv) (name : Str) (layout : OutputLayout)
    (output : OutputRef) (handle : WlrHandle) (mode : OutputMode) (w h k : ℕ),
    (E.world layout.config).compositor.allOutputByNameOrId name = some output →
    (E.world layout.config).handle output = some handle → mode ∈ handle.modes →
    mode.width.toInt = w → mode.height.toInt = h → mode.refresh.toInt = 1000 * k →
    ReadsRate E.strtof k →
    ModeSet E name layout output handle w h k false ∧
      ModeSet E name layout output handle w h k true := by
  intro hall
  have hrate : ReadsRate oneOutputEnv.strtof 60 := rfl
  obtain ⟨hset, -⟩ := hall oneOutputEnv "A".toList ⟨[plainEntry 1], []⟩ 0
    ⟨[⟨1920, 1080, 60000, true⟩, ⟨1280, 720, 0, false⟩], .normal⟩ ⟨1920, 1080, 60000, true⟩
    1920 1080 60 rfl rfl (by decide) rfl rfl rfl hrate
  have hzero := unhindered_of_modeSet ⟨1920, 1080, 60000, true⟩ rfl rfl (by norm_num)
    (by norm_num) (by norm_num) hrate hset
  exact absurd hzero.1 (by norm_num)

end WayfireIpc
