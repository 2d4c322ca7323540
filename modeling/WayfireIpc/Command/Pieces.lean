/-
# The pieces of a string with backslashes

Repeated calls of `argsep` cut a string into pieces.  They should cut it at the delimiters outside
quotes that are not escaped, where a character is escaped by an odd number of backslashes directly
before it; `argsep` counts the backslashes among all interesting characters that stand together.

The text before a character is read backwards, from that character on.
-/
import WayfireIpc.Command.Cut

namespace WayfireIpc
namespace IpcTools

/-- The calls of `argsep` until the string is used up: the pieces, with what `matched` reports. -/
def argsepAll : ℕ → Str → Except Failure (List (Str × Char))
  | 0, _ => .error .diverges
  | n + 1, s => do
    let r ← argsep separators s
    match r.stringp with
    | none => return [(r.start, r.matched)]
    | some rest => return (r.start, r.matched) :: (← argsepAll n rest)

/-- Behind this text a character is escaped. -/
def oddBackslashes (before : Str) : Bool := (before.takeWhile (· = backslash)).length % 2 = 1

/-- Behind this text `argsep` takes an interesting character for escaped. -/
def oddInRun (before : Str) : Bool := (before.takeWhile isInteresting).count backslash % 2 = 1

/-- The quotes that are open behind a text; those that are escaped do not count. -/
def quoteBehind (escaped : Str → Bool) : Str → Quote
  | [] => .none
  | ch :: before =>
    if escaped before then quoteBehind escaped before else (quoteBehind escaped before).next ch

/-- A delimiter behind this text is outside quotes and not escaped. -/
def free (escaped : Str → Bool) (before : Str) : Bool :=
  quoteBehind escaped before = .none && !escaped before

/-- The pieces of a text behind another, of which `piece` has been read: the text is cut at the
free delimiters, except where a piece would be empty. -/
def pieces (escaped : Str → Bool) : Str → Str → Str → List (Str × Char)
  | _, piece, [] => [(piece, nul)]
  | before, piece, ch :: s =>
    if isSeparator ch && free escaped before then
      if piece = [] then pieces escaped (ch :: before) [] s
      else (piece, ch) :: pieces escaped (ch :: before) [] s
    else pieces escaped (ch :: before) (piece ++ [ch]) s

/-! ## What `argsep` cuts -/

lemma oddInRun_cons (ch : Char) (before : Str) :
    oddInRun (ch :: before) = sticky (oddInRun before) ch := by
  by_cases hbs : ch = backslash
  · subst hbs
    have hinteresting : isInteresting backslash = true := by decide
    rw [oddInRun, List.takeWhile_cons_of_pos hinteresting, List.count_cons_self, sticky, if_pos rfl,
      oddInRun]
    generalize (before.takeWhile isInteresting).count backslash = k
    rcases Nat.mod_two_eq_zero_or_one k with hk | hk <;> simp [Nat.add_mod, hk]
  · rw [sticky, if_neg hbs]
    cases hch : isInteresting ch with
    | true =>
      rw [oddInRun, List.takeWhile_cons_of_pos hch, List.count_cons_of_ne hbs, ← oddInRun,
        Bool.and_true]
    | false => simp [oddInRun, hch]

/-- Behind a free delimiter everything is as at the start. -/
lemma behind_separator {ch : Char} {before : Str} (hsep : isSeparator ch = true)
    (hfree : free oddInRun before = true) :
    quoteBehind oddInRun (ch :: before) = .none ∧ oddInRun (ch :: before) = false := by
  rw [free, Bool.and_eq_true, decide_eq_true_eq, Bool.not_eq_true'] at hfree
  have hne : ch ≠ doubleQuote ∧ ch ≠ singleQuote ∧ ch ≠ backslash := by
    refine ⟨?_, ?_, ?_⟩ <;> rintro rfl <;> exact absurd hsep (by decide)
  constructor
  · rw [quoteBehind, hfree.2, hfree.1, if_neg Bool.false_ne_true]
    exact Quote.next_of_ne hne.1 hne.2.1
  · rw [oddInRun_cons, hfree.2, sticky, if_neg hne.2.2, Bool.false_and]

/-- Where it cuts depends on the text before only through the quotes and the flag. -/
lemma pieces_congr {before before' : Str} (hquote : quoteBehind oddInRun before = quoteBehind oddInRun before')
    (hodd : oddInRun before = oddInRun before') (piece s : Str) :
    pieces oddInRun before piece s = pieces oddInRun before' piece s := by
  induction s generalizing before before' piece with
  | nil => rfl
  | cons ch s ih =>
    have hfree : free oddInRun before = free oddInRun before' := by rw [free, free, hquote, hodd]
    have hnext : ∀ piece, pieces oddInRun (ch :: before) piece s
        = pieces oddInRun (ch :: before') piece s := fun piece =>
      ih (by rw [quoteBehind, quoteBehind, hquote, hodd]) (by rw [oddInRun_cons, oddInRun_cons, hodd])
        piece
    simp only [pieces, hfree, hnext]

/-- The first piece is the one that `argsepCut` finds. -/
lemma pieces_cut (before piece s : Str) : pieces oddInRun before piece s
    = match argsepCut (quoteBehind oddInRun before) (oddInRun before) s with
      | none => [(piece ++ s, nul)]
      | some (p, d, rest) =>
        if piece ++ p = [] then pieces oddInRun [] [] rest
        else (piece ++ p, d) :: pieces oddInRun [] [] rest := by
  induction s generalizing before piece with
  | nil => simp [pieces, argsepCut]
  | cons ch s ih =>
    rw [pieces, argsepCut]
    by_cases hcut : isSeparator ch = true ∧ free oddInRun before = true
    · obtain ⟨hquote, hodd⟩ := behind_separator hcut.1 hcut.2
      have hstart : _ = pieces oddInRun [] [] s := pieces_congr hquote hodd [] s
      have hstate : quoteBehind oddInRun before = .none ∧ oddInRun before = false ∧
          isSeparator ch = true := by
        simpa [free, and_assoc, hcut.1] using hcut.2
      rw [if_pos (by rw [hcut.1, hcut.2]; rfl), if_pos hstate, hstart]
      simp
    · have hstate : ¬ (quoteBehind oddInRun before = .none ∧ oddInRun before = false ∧
          isSeparator ch = true) := by
        rintro ⟨hquote, hodd, hsep⟩
        exact hcut ⟨hsep, by simp [free, hquote, hodd]⟩
      rw [if_neg (by simpa using hcut), if_neg hstate, ih, oddInRun_cons]
      simp only [quoteBehind]
      cases argsepCut (if oddInRun before = true then quoteBehind oddInRun before
          else (quoteBehind oddInRun before).next ch) (sticky (oddInRun before) ch) s with
      | none => simp
      | some r => simp

/-- The delimiters at the start are skipped. -/
lemma pieces_dropWhile (s : Str) :
    pieces oddInRun [] [] s = pieces oddInRun [] [] (s.dropWhile isSeparator) := by
  induction s with
  | nil => rfl
  | cons ch s ih =>
    cases hsep : isSeparator ch with
    | true =>
      have hfree : free oddInRun [] = true := rfl
      obtain ⟨hquote, hodd⟩ := behind_separator hsep hfree
      have hstart : _ = pieces oddInRun [] [] s := pieces_congr hquote hodd [] s
      rw [List.dropWhile_cons_of_pos hsep, pieces, hsep, hfree, Bool.and_true, if_pos rfl, if_pos rfl,
        hstart, ih]
    | false => rw [List.dropWhile_cons_of_neg (by simp [hsep])]

/-- The calls of `argsep` end, and cut at the delimiters that are free by its count. -/
lemma argsepAll_eq : ∀ (n : ℕ) (s : Str), s.length < n →
    argsepAll n s = .ok (pieces oddInRun [] [] s) := by
  intro n
  induction n with
  | zero => intro s hn; omega
  | succ n ih =>
    intro s hn
    obtain ⟨r, hr, hshort⟩ := argsep_spec separators s
    -- behind the separators at the start the first piece is not empty
    have hstart : ∀ d rest, argsepCut .none false (s.dropWhile isSeparator) ≠ some ([], d, rest) := by
      intro d rest hcut
      have hhead := List.head?_dropWhile_not isSeparator s
      cases ht : s.dropWhile isSeparator with
      | nil =>
        rw [ht] at hcut
        cases hcut
      | cons ch t =>
        rw [ht] at hcut hhead
        have hsep : isSeparator ch = false := by simpa using hhead
        rw [argsepCut, if_neg (by simp [hsep])] at hcut
        obtain ⟨x, -, hx⟩ := Option.map_eq_some_iff.mp hcut
        cases hx
    have hcall := argsep_cut s
    rw [argsepAll, hcall, Machine.ok_bind, pieces_dropWhile, pieces_cut]
    change _ = Except.ok (match argsepCut .none false (s.dropWhile isSeparator) with
      | none => _
      | some (p, d, rest) => _)
    cases hcut : argsepCut .none false (s.dropWhile isSeparator) with
    | none => rfl
    | some x =>
      obtain ⟨p, d, rest⟩ := x
      have hp : p ≠ [] := by
        rintro rfl
        exact hstart d rest hcut
      have hrest : rest.length < s.length := by
        rw [hcut, hr] at hcall
        cases hcall
        exact hshort.rest_short rest rfl
      simp only [Argsep.ofCut, List.nil_append, if_neg hp, ih rest (by omega), Machine.ok_bind]
      rfl

/-! ## Where it should cut -/

/-- A piece that has been begun is the beginning of the next one. -/
lemma pieces_head (escaped : Str → Bool) (s : Str) : ∀ (before : Str) {piece : Str}, piece ≠ [] →
    ∃ t d ps, pieces escaped before piece s = (piece ++ t, d) :: ps := by
  induction s with
  | nil => exact fun _ piece _ => ⟨[], nul, [], by rw [pieces, List.append_nil]⟩
  | cons ch s ih =>
    intro before piece hne
    rw [pieces]
    split_ifs
    · exact ⟨[], ch, _, by rw [List.append_nil]⟩
    · obtain ⟨t, d, ps, h⟩ := ih (ch :: before) (List.append_ne_nil_of_left_ne_nil hne [ch])
      exact ⟨ch :: t, d, ps, by rw [h, List.append_assoc, List.singleton_append]⟩

/-- A piece that ends here is not the one that goes on. -/
lemma pieces_ne {escaped : Str → Bool} {before piece s : Str} {ch : Char} {ps : List (Str × Char)} :
    (piece, ch) :: ps ≠ pieces escaped before (piece ++ [ch]) s := by
  intro h
  obtain ⟨t, d, ps', hhead⟩ := pieces_head escaped s before
    (List.append_ne_nil_of_right_ne_nil piece (List.cons_ne_nil ch []))
  rw [hhead] at h
  have hlen := congrArg (List.length ∘ Prod.fst) (List.cons.inj h).1
  simp at hlen

/-- Behind a delimiter at which both cut, both are as at the start. -/
lemma free_behind {ch : Char} {before : Str} (hsep : isSeparator ch = true)
    (hrun : free oddInRun before = true) (hodd : free oddBackslashes before = true) :
    free oddInRun (ch :: before) = true ∧ free oddBackslashes (ch :: before) = true := by
  obtain ⟨hquote, hflag⟩ := behind_separator hsep hrun
  refine ⟨by simp [free, hquote, hflag], ?_⟩
  have hne : ch ≠ doubleQuote ∧ ch ≠ singleQuote ∧ ch ≠ backslash := by
    refine ⟨?_, ?_, ?_⟩ <;> rintro rfl <;> exact absurd hsep (by decide)
  rw [free, Bool.and_eq_true, decide_eq_true_eq, Bool.not_eq_true'] at hodd
  have hend : oddBackslashes (ch :: before) = false := by simp [oddBackslashes, hne.2.2]
  rw [free, quoteBehind, hodd.2, hodd.1, if_neg Bool.false_ne_true, Quote.next_of_ne hne.1 hne.2.1,
    hend]
  rfl

/-- While the cuts so far have been the same, the pieces are the same exactly if all further cuts
are: at the first difference the piece that goes on is longer. -/
lemma pieces_eq_iff (s : Str) : ∀ {before piece : Str},
    (piece = [] → free oddInRun before = true ∧ free oddBackslashes before = true) →
    (pieces oddInRun before piece s = pieces oddBackslashes before piece s ↔
      ∀ u d v, s = u ++ d :: v → isSeparator d = true →
        free oddInRun (u.reverse ++ before) = free oddBackslashes (u.reverse ++ before)) := by
  induction s with
  | nil =>
    intro before piece _
    refine iff_of_true rfl fun u d v h => ?_
    simp at h
  | cons ch s ih =>
    intro before piece hstart
    -- the cuts behind `ch`
    have hbehind : (∀ u d v, ch :: s = u ++ d :: v → isSeparator d = true →
          free oddInRun (u.reverse ++ before) = free oddBackslashes (u.reverse ++ before)) ↔
        (isSeparator ch = true → free oddInRun before = free oddBackslashes before) ∧
        ∀ u d v, s = u ++ d :: v → isSeparator d = true →
          free oddInRun (u.reverse ++ ch :: before) = free oddBackslashes (u.reverse ++ ch :: before) := by
      constructor
      · intro h
        refine ⟨h [] ch s rfl, fun u d v hs hd => ?_⟩
        have := h (ch :: u) d v (by rw [hs, List.cons_append]) hd
        rwa [List.reverse_cons, List.append_assoc, List.singleton_append] at this
      · rintro ⟨hch, h⟩ u d v hs hd
        cases u with
        | nil =>
          cases hs
          exact hch hd
        | cons x u =>
          cases hs
          rw [List.reverse_cons, List.append_assoc, List.singleton_append]
          exact h u d v rfl hd
    have hgoes : pieces oddInRun (ch :: before) (piece ++ [ch]) s = _ ↔ _ := ih (by simp)
    rw [hbehind, pieces, pieces]
    cases hsep : isSeparator ch with
    | false => simpa using hgoes
    | true =>
      cases hrun : free oddInRun before <;> cases hodd : free oddBackslashes before
      · simpa using hgoes
      · -- only the backslashes directly before it let the delimiter cut
        have hne : piece ≠ [] := fun h => by simp [hrun] at hstart; exact hstart h
        simpa [hne] using Ne.symm pieces_ne
      · have hne : piece ≠ [] := fun h => by simp [hodd] at hstart; exact hstart h
        simpa [hne] using pieces_ne
      · have hcut : pieces oddInRun (ch :: before) [] s = _ ↔ _ :=
          ih fun _ => free_behind hsep hrun hodd
        by_cases hempty : piece = [] <;> simpa [hempty] using hcut

/-- Repeated calls of `argsep` cut a text as they should if and only if each of its delimiters that
is free by the backslashes directly before it, and by those before the quotes, is also free by the
backslashes among all adjacent interesting characters, and the other way round. -/
theorem argsepAll_iff (s : Str) :
    argsepAll (s.length + 1) s = .ok (pieces oddBackslashes [] [] s) ↔
      ∀ before d rest, s = before ++ d :: rest → isSeparator d = true →
        free oddInRun before.reverse = free oddBackslashes before.reverse := by
  rw [argsepAll_eq _ s (Nat.lt_succ_self _), Except.ok.injEq, pieces_eq_iff s fun _ => ⟨rfl, rfl⟩]
  simp only [List.append_nil]

/-- Behind an escaped delimiter the next one does not cut. -/
theorem escapedSeparator_uncut :
    argsepAll 5 "\\;;a".toList = .ok [("\\;;a".toList, nul)] ∧
      pieces oddBackslashes [] [] "\\;;a".toList = [("\\;".toList, ';'), ("a".toList, nul)] ∧
      argsepAll 5 "\\;;a".toList ≠ .ok (pieces oddBackslashes [] [] "\\;;a".toList) := by
  have hcode : argsepAll 5 "\\;;a".toList = .ok [("\\;;a".toList, nul)] := rfl
  have hspec : pieces oddBackslashes [] [] "\\;;a".toList = [("\\;".toList, ';'), ("a".toList, nul)] := by
    decide +kernel
  refine ⟨hcode, hspec, ?_⟩
  rw [hcode, hspec]
  simp

end IpcTools
end WayfireIpc
