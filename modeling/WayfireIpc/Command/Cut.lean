/-
# Cutting at the first delimiter

`argsep` skips the delimiters at the start and cuts the text at the first delimiter outside
quotes that is not escaped.  What is escaped it finds out by jumping from one interesting
character to the next; on a text without backslashes nothing is.
-/
import WayfireIpc.Command.Tools

namespace WayfireIpc

/-- The quotes that are open at some place of a text. -/
inductive Quote
  | none | double | single
deriving DecidableEq, Repr

namespace Quote

/-- The quotes that are open behind a character. -/
def next (q : Quote) (ch : Char) : Quote :=
  match q with
  | none => if ch = doubleQuote then double else if ch = singleQuote then single else none
  | double => if ch = doubleQuote then none else double
  | single => if ch = singleQuote then none else single

def inString (q : Quote) : Bool := q = double

def inChar (q : Quote) : Bool := q = single

/-- A character that is no quote leaves the quotes as they are. -/
lemma next_of_ne {q : Quote} {ch : Char} (hd : ch ≠ doubleQuote) (hs : ch ≠ singleQuote) :
    q.next ch = q := by
  cases q <;> simp [next, hd, hs]

end Quote

namespace IpcTools

/-- The delimiters of commands. -/
def separators : Str := [';', ',']

lemma separators_eq : separators = ";,".toList := rfl

def isSeparator (ch : Char) : Bool := separators.contains ch

lemma isSeparator_iff {ch : Char} : isSeparator ch = true ↔ ch = ';' ∨ ch = ',' := by
  simp [isSeparator, separators]

/-- The text up to the first delimiter outside quotes, that delimiter and the rest. -/
def cut : Quote → Str → Option (Str × Char × Str)
  | _, [] => none
  | q, ch :: s =>
    if q = .none ∧ isSeparator ch then some ([], ch, s)
    else (cut (q.next ch) s).map fun r => (ch :: r.1, r.2)

lemma eq_of_cut {q : Quote} {s piece rest : Str} {d : Char}
    (h : cut q s = some (piece, d, rest)) : s = piece ++ d :: rest ∧ isSeparator d := by
  induction s generalizing q piece with
  | nil => cases h
  | cons ch s ih =>
    rw [cut] at h
    split_ifs at h with hsep
    · cases h
      exact ⟨rfl, hsep.2⟩
    · obtain ⟨⟨piece', r⟩, hcut, hr⟩ := Option.map_eq_some_iff.mp h
      cases hr
      obtain ⟨hs, hd⟩ := ih hcut
      exact ⟨by rw [hs, List.cons_append], hd⟩

/-! ## Interesting characters -/

/-- The characters at which `argsep` stops. -/
def isInteresting (ch : Char) : Bool :=
  [doubleQuote, singleQuote, backslash].contains ch || isSeparator ch

lemma argsepNextInteresting_eq (src : Str) :
    argsepNextInteresting src separators = src.findIdx? isInteresting := by
  induction src with
  | nil => rfl
  | cons ch src ih =>
    rw [argsepNextInteresting] at ih
    rw [argsepNextInteresting, List.findIdx?_cons, List.findIdx?_cons, List.findIdx?_cons, ← ih]
    by_cases hspecial : [doubleQuote, singleQuote, backslash].contains ch = true
    · have hnot : separators.contains ch = false := by
        simp only [List.contains_iff_mem, List.mem_cons, List.not_mem_nil, or_false] at hspecial
        rcases hspecial with rfl | rfl | rfl <;> decide
      simp only [hspecial, hnot, isInteresting, if_true, Bool.true_or, Bool.false_eq_true, if_false]
      cases src.findIdx? separators.contains <;> simp
    · by_cases hsep : separators.contains ch = true
      · simp only [hspecial, hsep, isInteresting, isSeparator, if_true, Bool.or_true]
        cases src.findIdx? [doubleQuote, singleQuote, backslash].contains <;> simp
      · simp only [hspecial, hsep, isInteresting, isSeparator, Bool.or_false]
        cases src.findIdx? [doubleQuote, singleQuote, backslash].contains <;>
          cases src.findIdx? separators.contains <;> simp
        rename_i i j
        split_ifs <;> omega

lemma isInteresting_iff {ch : Char} : isInteresting ch = true ↔
    ch = doubleQuote ∨ ch = singleQuote ∨ ch = backslash ∨ isSeparator ch = true := by
  simp [isInteresting, or_assoc]

/-- A character at which `argsep` does not stop leaves the quotes as they are. -/
lemma next_of_not_interesting {q : Quote} {ch : Char} (h : isInteresting ch = false) :
    q.next ch = q ∧ isSeparator ch = false := by
  simp only [isInteresting, Bool.or_eq_false_iff, List.contains_eq_mem, decide_eq_false_iff_not,
    List.mem_cons, List.not_mem_nil, or_false, not_or] at h
  exact ⟨Quote.next_of_ne h.1.1 h.1.2.1, h.2⟩

/-! ## The loop -/

/-- What `argsep` returns when it has read `w` and `s` is cut like this. -/
def Argsep.ofCut (w s : Str) : Option (Str × Char × Str) → Argsep
  | none => ⟨w ++ s, none, nul⟩
  | some (piece, d, rest) => ⟨w ++ piece, some rest, d⟩

lemma Argsep.ofCut_map (w u s : Str) (r : Option (Str × Char × Str)) :
    Argsep.ofCut w (u ++ s) (r.map fun r => (u ++ r.1, r.2)) = Argsep.ofCut (w ++ u) s r := by
  cases r <;> simp [ofCut]

lemma exists_interesting (s : Str) : (∀ ch ∈ s, isInteresting ch = false) ∨
    ∃ u ch v, s = u ++ ch :: v ∧ (∀ x ∈ u, isInteresting x = false) ∧ isInteresting ch = true := by
  induction s with
  | nil => exact Or.inl fun _ h => absurd h List.not_mem_nil
  | cons x s ih =>
    cases hx : isInteresting x with
    | true => exact Or.inr ⟨[], x, s, rfl, fun _ h => absurd h List.not_mem_nil, hx⟩
    | false =>
      rcases ih with hall | ⟨u, ch, v, rfl, hu, hch⟩
      · exact Or.inl (List.forall_mem_cons.mpr ⟨hx, hall⟩)
      · exact Or.inr ⟨x :: u, ch, v, rfl, List.forall_mem_cons.mpr ⟨hx, hu⟩, hch⟩

lemma charAt_append (u : Str) (ch : Char) (v : Str) : charAt (u ++ ch :: v) u.length = ch := by
  simp [charAt]

/-- The flag `escaped` behind a character: an interesting one that is escaped does not clear it. -/
def sticky (escaped : Bool) (ch : Char) : Bool :=
  if ch = backslash then !escaped else escaped && isInteresting ch

/-- The text up to the delimiter at which `argsep` cuts, that delimiter and the rest. -/
def argsepCut : Quote → Bool → Str → Option (Str × Char × Str)
  | _, _, [] => none
  | q, escaped, ch :: s =>
    if q = .none ∧ escaped = false ∧ isSeparator ch then some ([], ch, s)
    else (argsepCut (if escaped then q else q.next ch) (sticky escaped ch) s).map fun r =>
      (ch :: r.1, r.2)

/-- Without backslashes nothing is escaped. -/
lemma argsepCut_eq_cut {q : Quote} {s : Str} (h : backslash ∉ s) : argsepCut q false s = cut q s := by
  induction s generalizing q with
  | nil => rfl
  | cons ch s ih =>
    rw [List.mem_cons, not_or] at h
    have hsticky : sticky false ch = false := by simp [sticky, Ne.symm h.1]
    rw [argsepCut, cut, hsticky, ih h.2]
    simp

lemma argsepCut_skip {q : Quote} {escaped : Bool} {u : Str}
    (hu : ∀ ch ∈ u, isInteresting ch = false) (v : Str) : argsepCut q escaped (u ++ v)
      = (argsepCut q (escaped && u.isEmpty) v).map fun r => (u ++ r.1, r.2) := by
  induction u generalizing escaped with
  | nil => simp
  | cons ch u ih =>
    have hch := hu ch List.mem_cons_self
    obtain ⟨hnext, hsep⟩ := next_of_not_interesting (q := q) hch
    have hsticky : sticky escaped ch = false := by
      have hne : ch ≠ backslash := by
        rintro rfl
        exact absurd hch (by decide)
      rw [sticky, if_neg hne, hch, Bool.and_false]
    rw [List.cons_append, argsepCut, if_neg (by simp [hsep]), hnext, ite_self, hsticky,
      ih fun x hx => hu x (List.mem_cons_of_mem ch hx), Option.map_map]
    simp [Function.comp_def]

/-- The round of the loop at an interesting character behind `w ++ u`, in the state of the
quotes there. -/
lemma argsepLoop_succ {n : ℕ} {w u v : Str} {ch : Char} {q : Quote} {escaped : Bool}
    (hu : ∀ x ∈ u, isInteresting x = false) (hch : isInteresting ch = true) :
    argsepLoop separators (n + 1) (w ++ (u ++ ch :: v)) w.length q.inString q.inChar escaped =
      if q = .none ∧ (escaped && u.isEmpty) = false ∧ isSeparator ch then
        if w ++ u ≠ [] then .ok ⟨w ++ u, some v, ch⟩
        else argsepLoop separators n v 0 q.inString q.inChar false
      else if ch = backslash then
        argsepLoop separators n (w ++ (u ++ ch :: v)) (w.length + u.length + 1) q.inString q.inChar
          (!(escaped && u.isEmpty))
      else if (escaped && u.isEmpty) = true ∨ isSeparator ch ∨ q.next ch = q then
        argsepLoop separators n (w ++ (u ++ ch :: v)) (w.length + 1) q.inString q.inChar
          (escaped && u.isEmpty)
      else
        argsepLoop separators n (w ++ (u ++ ch :: v)) (w.length + u.length + 1)
          (q.next ch).inString (q.next ch).inChar false := by
  have hnext : argsepNextInteresting ((w ++ (u ++ ch :: v)).drop w.length) separators
      = some u.length := by
    rw [argsepNextInteresting_eq, List.drop_left, List.findIdx?_append,
      List.findIdx?_eq_none_iff.mpr hu, List.findIdx?_cons, if_pos hch]
    simp
  have hchar : charAt (w ++ (u ++ ch :: v)) (w.length + u.length) = ch := by
    rw [← List.append_assoc, ← List.length_append]
    exact charAt_append _ _ _
  have hadjacent : (escaped && decide (w.length + u.length = w.length)) = (escaped && u.isEmpty) := by
    cases u <;> simp
  rw [argsepLoop, hnext]
  simp only [hchar, hadjacent]
  generalize (escaped && u.isEmpty) = escaped
  have hquote : doubleQuote ≠ singleQuote := by decide
  have hdqbs : doubleQuote ≠ backslash := by decide
  have hsqbs : singleQuote ≠ backslash := by decide
  rcases isInteresting_iff.mp hch with rfl | rfl | rfl | hsep
  · -- the double quote
    have hsep : isSeparator doubleQuote = false := by decide
    cases q <;> cases escaped <;>
      simp [hsep, hquote, hdqbs, Quote.inString, Quote.inChar, Quote.next]
  · -- the single quote
    have hsep : isSeparator singleQuote = false := by decide
    cases q <;> cases escaped <;>
      simp [hsep, hquote.symm, hsqbs, Quote.inString, Quote.inChar, Quote.next]
  · -- the backslash
    have hsep : isSeparator backslash = false := by decide
    simp [hsep, hdqbs.symm, hsqbs.symm]
  · -- a separator
    have hne : ch ≠ doubleQuote ∧ ch ≠ singleQuote ∧ ch ≠ backslash := by
      refine ⟨?_, ?_, ?_⟩ <;> rintro rfl <;> exact absurd hsep (by decide)
    obtain ⟨hdq, hsq, hbs⟩ := hne
    rw [if_neg (by simp [hdq]), if_neg (by simp [hsq]), if_neg hbs]
    cases q with
    | none =>
      cases escaped with
      | true => simp [hsep, hbs]
      | false =>
        have htake : (w ++ (u ++ ch :: v)).take (w.length + u.length) = w ++ u := by
          rw [← List.append_assoc, ← List.length_append, List.take_left]
        have hdrop : (w ++ (u ++ ch :: v)).drop (w.length + u.length + 1) = v := by
          rw [← List.append_assoc, ← List.length_append, ← List.singleton_append (x := ch),
            ← List.append_assoc]
          exact List.drop_left' (by rw [List.length_append, List.length_append, List.length_singleton])
        by_cases hempty : w ++ u = []
        · obtain ⟨rfl, rfl⟩ := List.append_eq_nil_iff.mp hempty
          simp [hsep, Quote.inString, Quote.inChar]
        · have hpos : w.length + u.length ≠ 0 := by
            rw [← List.length_append]
            exact fun h => hempty (List.length_eq_zero_iff.mp h)
          have hsepn : Quote.none = Quote.none ∧ false = false ∧ isSeparator ch = true :=
            ⟨rfl, rfl, hsep⟩
          rw [if_pos (by simp [Quote.inString, Quote.inChar]), if_pos hpos, if_pos hsepn,
            if_pos hempty, htake, hdrop]
    | double => simp [hbs, hsep, Quote.inString, Quote.inChar]
    | single => simp [hbs, hsep, Quote.inString, Quote.inChar]

/-- The cut lies behind an interesting character that is no delimiter. -/
lemma argsepCut_past {q : Quote} {escaped : Bool} {u v : Str} {ch : Char}
    (hu : ∀ x ∈ u, isInteresting x = false)
    (hsep : ¬ (q = .none ∧ (escaped && u.isEmpty) = false ∧ isSeparator ch = true)) :
    argsepCut q escaped (u ++ ch :: v)
      = (argsepCut (if (escaped && u.isEmpty) then q else q.next ch)
        (sticky (escaped && u.isEmpty) ch) v).map fun r => ((u ++ [ch]) ++ r.1, r.2) := by
  rw [argsepCut_skip hu, argsepCut, if_neg hsep, Option.map_map]
  simp [Function.comp_def]

/-- It lies behind the first character if the interesting one leaves the quotes as they are. -/
lemma argsepCut_stay {q : Quote} {escaped : Bool} {u v : Str} {ch : Char}
    (hu : ∀ x ∈ u, isInteresting x = false) (hch : isInteresting ch = true) (hbs : ch ≠ backslash)
    (hsep : ¬ (q = .none ∧ (escaped && u.isEmpty) = false ∧ isSeparator ch = true))
    (hstay : (escaped && u.isEmpty) = true ∨ isSeparator ch ∨ q.next ch = q) :
    ∃ x s', u ++ ch :: v = x :: s' ∧ argsepCut q escaped (u ++ ch :: v)
      = (argsepCut q (escaped && u.isEmpty) s').map fun r => ([x] ++ r.1, r.2) := by
  have hsepnext : ∀ {x : Char}, isSeparator x = true → q.next x = q := by
    intro x hx
    refine Quote.next_of_ne ?_ ?_ <;> rintro rfl <;> exact absurd hx (by decide)
  have hstep : ∀ {x : Char} {s' : Str}, ¬ (q = .none ∧ escaped = false ∧ isSeparator x = true) →
      (if escaped then q else q.next x) = q → sticky escaped x = (escaped && u.isEmpty) →
      argsepCut q escaped (x :: s')
        = (argsepCut q (escaped && u.isEmpty) s').map fun r => ([x] ++ r.1, r.2) := by
    intro x s' hnot hx hsticky
    rw [argsepCut, if_neg hnot, hx, hsticky]
    rfl
  cases u with
  | nil =>
    rw [List.isEmpty_nil, Bool.and_true] at hsep hstay
    refine ⟨ch, v, rfl, hstep hsep ?_ (by simp [sticky, hbs, hch])⟩
    rcases hstay with hescaped | hstay | hstay
    · rw [hescaped, if_pos rfl]
    · rw [hsepnext hstay, ite_self]
    · rw [hstay, ite_self]
  | cons x u =>
    have hxu := hu x List.mem_cons_self
    obtain ⟨hnext, hnot⟩ := next_of_not_interesting (q := q) hxu
    have hxbs : x ≠ backslash := by
      rintro rfl
      exact absurd hxu (by decide)
    exact ⟨x, u ++ ch :: v, rfl,
      hstep (by simp [hnot]) (by rw [hnext, ite_self]) (by simp [sticky, hxbs, hxu])⟩

/-- From a place where no separator stands at the very start, the loop cuts at the first
separator that is outside quotes and not escaped. -/
lemma argsepLoop_eq : ∀ (n : ℕ) (w s : Str) (q : Quote) (escaped : Bool), s.length < n →
    (w = [] → q = .none → escaped = false → ∀ ch ∈ s.head?, isSeparator ch = false) →
    argsepLoop separators n (w ++ s) w.length q.inString q.inChar escaped
      = .ok (Argsep.ofCut w s (argsepCut q escaped s)) := by
  intro n
  induction n with
  | zero => intro w s q escaped hn; omega
  | succ n ih =>
    intro w s q escaped hn hhead
    rcases exists_interesting s with hall | ⟨u, ch, v, rfl, hu, hch⟩
    · have hnext : argsepNextInteresting ((w ++ s).drop w.length) separators = none := by
        rw [argsepNextInteresting_eq, List.drop_left]
        exact List.findIdx?_eq_none_iff.mpr hall
      have hcut : argsepCut q escaped s = none := by
        rw [← List.append_nil s, argsepCut_skip hall, argsepCut, Option.map_none]
      rw [argsepLoop, hnext, hcut]
      rfl
    -- a round that moves `end` behind the interesting character
    have hrec : ∀ (q' : Quote) (escaped' : Bool), (if (escaped && u.isEmpty) then q else q.next ch) = q' →
        sticky (escaped && u.isEmpty) ch = escaped' →
        ¬ (q = .none ∧ (escaped && u.isEmpty) = false ∧ isSeparator ch = true) →
        argsepLoop separators n (w ++ (u ++ ch :: v)) (w.length + u.length + 1) q'.inString q'.inChar
            escaped'
          = .ok (Argsep.ofCut w (u ++ ch :: v) (argsepCut q escaped (u ++ ch :: v))) := by
      rintro q' escaped' rfl rfl hsep
      have hloop := ih (w ++ (u ++ [ch])) v (if (escaped && u.isEmpty) then q else q.next ch)
        (sticky (escaped && u.isEmpty) ch)
        (by rw [List.length_append, List.length_cons] at hn; omega) (by simp)
      have hs : u ++ ch :: v = (u ++ [ch]) ++ v := by simp
      rw [argsepCut_past hu hsep, hs, Argsep.ofCut_map, ← hloop, ← List.append_assoc, List.length_append,
        List.length_append, List.length_singleton]
      rfl
    rw [argsepLoop_succ hu hch]
    split_ifs with hsep hempty hbs hstay
    · rw [argsepCut_skip hu, argsepCut, if_pos hsep]
      simp [Argsep.ofCut]
    · -- the separator stands at the very start
      obtain ⟨rfl, rfl⟩ := List.append_eq_nil_iff.mp (not_not.mp hempty)
      have := hhead rfl hsep.1 (by simpa using hsep.2.1) ch rfl
      rw [hsep.2.2] at this
      cases this
    · subst hbs
      have hnext : q.next backslash = q := Quote.next_of_ne (by decide) (by decide)
      exact hrec q _ (by rw [hnext, ite_self]) (by rw [sticky, if_pos rfl]) hsep
    · -- `end` moves on by one character, which leaves the quotes as they are
      obtain ⟨x, s', hs, hcut⟩ := argsepCut_stay (v := v) hu hch hbs hsep hstay
      have hloop := ih (w ++ [x]) s' q (escaped && u.isEmpty)
        (by rw [hs, List.length_cons] at hn; omega) (by simp)
      rw [hcut, hs, ← List.singleton_append (x := x), Argsep.ofCut_map, ← hloop,
        List.append_assoc, List.length_append, List.length_singleton]
    · -- a quote is opened or closed
      rw [not_or, Bool.not_eq_true] at hstay
      have hescaped : sticky (escaped && u.isEmpty) ch = false := by
        rw [hstay.1, sticky, if_neg hbs, Bool.false_and]
      exact hrec (q.next ch) false (by rw [hstay.1]; rfl) hescaped hsep

/-- `argsep` skips the separators at the start and cuts the rest. -/
theorem argsep_cut (s : Str) : argsep separators s
    = .ok (Argsep.ofCut [] (s.dropWhile isSeparator)
      (argsepCut .none false (s.dropWhile isSeparator))) := by
  have hloop : ∀ (n : ℕ) (s : Str), s.length < n →
      argsepLoop separators n s 0 false false false
        = .ok (Argsep.ofCut [] (s.dropWhile isSeparator)
          (argsepCut .none false (s.dropWhile isSeparator))) := by
    intro n
    induction n with
    | zero => intro s hn; omega
    | succ n ih =>
      intro s hn
      by_cases hhead : ∃ ch t, s = ch :: t ∧ isSeparator ch = true
      · obtain ⟨ch, t, rfl, hsep⟩ := hhead
        have hch : isInteresting ch = true :=
          isInteresting_iff.mpr (Or.inr (Or.inr (Or.inr hsep)))
        have hstep : argsepLoop separators (n + 1) ([] ++ ([] ++ ch :: t)) _ _ _ false = _ :=
          argsepLoop_succ (q := .none) (fun _ hx => absurd hx List.not_mem_nil) hch
        rw [if_pos ⟨rfl, rfl, hsep⟩, if_neg (by simp)] at hstep
        rw [List.dropWhile_cons_of_pos hsep]
        exact hstep.trans (ih t (by rw [List.length_cons] at hn; omega))
      · have hdrop : s.dropWhile isSeparator = s := by
          cases s with
          | nil => rfl
          | cons ch t => exact List.dropWhile_cons_of_neg fun hsep => hhead ⟨ch, t, rfl, hsep⟩
        rw [hdrop]
        refine argsepLoop_eq (n + 1) [] s .none false hn fun _ _ _ ch hch => ?_
        cases s with
        | nil => cases hch
        | cons x t =>
          cases hch
          exact Bool.eq_false_iff.mpr fun hsep => hhead ⟨_, t, rfl, hsep⟩
  exact hloop _ s (Nat.lt_succ_self _)

/-- Without backslashes `argsep` skips the separators at the start and cuts the rest. -/
theorem argsep_eq {s : Str} (h : backslash ∉ s) : argsep separators s
    = .ok (Argsep.ofCut [] (s.dropWhile isSeparator) (cut .none (s.dropWhile isSeparator))) := by
  rw [argsep_cut, argsepCut_eq_cut fun hmem => h (List.dropWhile_subset _ hmem)]

end IpcTools
end WayfireIpc
