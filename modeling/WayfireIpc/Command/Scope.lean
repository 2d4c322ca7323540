/-
# The scope of a criteria block

A command string consists of segments, which end at the semicolons outside quotes and
criteria blocks.  A block at the beginning of a segment holds for the commands of this
segment.  `Scope` reads a string in this way, character by character, without regard to
how `execute_command` does it.
-/
import WayfireIpc.Command.Cut
import WayfireIpc.Command.Criteria

namespace WayfireIpc

/-! ## Reading a command string -/

/-- The places inside a criteria block: in front of or in a name, behind the sign `=`, in a
value in quotes and in one without. -/
inductive BlockPart
  | name | value | quoted | bare
deriving DecidableEq, Repr

def BlockPart.next (part : BlockPart) (ch : Char) : BlockPart :=
  match part with
  | name => if ch = '=' then value else name
  | value => if ch = ' ' then value else if ch = doubleQuote then quoted else bare
  | quoted => if ch = doubleQuote then name else quoted
  | bare => if ch = ' ' then name else bare

/-- The places of a command string. -/
inductive Place
  /-- At the beginning of a segment, where only blanks have been read. -/
  | fresh
  /-- In a criteria block, of which `raw` has been read. -/
  | criteria (raw : Str) (part : BlockPart)
  /-- Behind the block, if there is one. -/
  | body (q : Quote)
deriving DecidableEq, Repr

/-- What is known at some place of a command string. -/
structure Scope where
  /-- The criteria block of the segment, once it has been read. -/
  block : Option Str
  place : Place
deriving DecidableEq, Repr

namespace Scope

/-- At the beginning of a segment. -/
def fresh : Scope := ⟨none, .fresh⟩

def next (σ : Scope) (ch : Char) : Scope :=
  match σ.place with
  | .fresh =>
    if isSpace ch ∨ ch = ';' then fresh
    else if ch = '[' then ⟨none, .criteria [ch] .name⟩
    else ⟨none, .body (Quote.none.next ch)⟩
  | .criteria raw part =>
    if ch = ']' ∧ part ≠ .quoted then ⟨some (raw ++ [ch]), .body .none⟩
    else ⟨none, .criteria (raw ++ [ch]) (part.next ch)⟩
  | .body q => if ch = ';' ∧ q = .none then fresh else ⟨σ.block, .body (q.next ch)⟩

/-- What is known behind a text. -/
def after (σ : Scope) (s : Str) : Scope := s.foldl next σ

@[simp] lemma after_nil (σ : Scope) : σ.after [] = σ := rfl

@[simp] lemma after_cons (σ : Scope) (ch : Char) (s : Str) :
    σ.after (ch :: s) = (σ.next ch).after s := rfl

lemma after_append (σ : Scope) (s t : Str) : σ.after (s ++ t) = (σ.after s).after t :=
  List.foldl_append

/-! ## Blanks and separators -/

lemma ne_of_isSpace {ch : Char} (h : isSpace ch = true) :
    ch ≠ ';' ∧ ch ≠ ',' ∧ ch ≠ '[' ∧ ch ≠ doubleQuote ∧ ch ≠ singleQuote := by
  refine ⟨?_, ?_, ?_, ?_, ?_⟩ <;> rintro rfl <;> exact absurd h (by decide)

/-- Outside quotes and criteria blocks. -/
def Plain (σ : Scope) : Prop := σ = fresh ∨ σ.place = .body .none

lemma Plain.next_blank {σ : Scope} (hσ : σ.Plain) {ch : Char} (h : isSpace ch = true) :
    σ.next ch = σ := by
  obtain ⟨hsemi, -, -, hd, hs⟩ := ne_of_isSpace h
  rcases hσ with rfl | hbody
  · simp [next, fresh, h]
  · obtain ⟨block, place⟩ := σ
    cases hbody
    simp [next, hsemi, Quote.next_of_ne hd hs]

lemma Plain.after_blanks {σ : Scope} (hσ : σ.Plain) {s : Str} (h : ∀ ch ∈ s, isSpace ch = true) :
    σ.after s = σ := by
  induction s with
  | nil => rfl
  | cons ch s ih =>
    rw [after_cons, hσ.next_blank (h ch List.mem_cons_self)]
    exact ih fun x hx => h x (List.mem_cons_of_mem ch hx)

/-- What is known behind a separator. -/
def separated (σ : Scope) (ch : Char) : Scope := if ch = ';' then fresh else ⟨σ.block, .body .none⟩

lemma Plain.next_separator {σ : Scope} (hσ : σ.Plain) {ch : Char}
    (h : IpcTools.isSeparator ch = true) : σ.next ch = σ.separated ch := by
  rcases IpcTools.isSeparator_iff.mp h with rfl | rfl
  · rcases hσ with rfl | hbody
    · rfl
    · obtain ⟨block, place⟩ := σ
      cases hbody
      rfl
  · rcases hσ with rfl | hbody
    · rfl
    · obtain ⟨block, place⟩ := σ
      cases hbody
      rfl

lemma plain_separated (σ : Scope) (ch : Char) : (σ.separated ch).Plain := by
  rw [separated]
  split_ifs
  · exact Or.inl rfl
  · exact Or.inr rfl

/-- What is known behind separators. -/
lemma Plain.after_separators {σ : Scope} (hσ : σ.Plain) {s : Str}
    (h : ∀ ch ∈ s, IpcTools.isSeparator ch = true) :
    (σ.after s).Plain ∧ (σ.after s).block = (if ';' ∈ s then none else σ.block) ∧
      ((σ.after s).place = .fresh ↔ s.getLast? = some ';' ∨ s = [] ∧ σ.place = .fresh) := by
  induction s using List.reverseRecOn with
  | nil => exact ⟨hσ, by simp, by simp⟩
  | append_singleton s ch ih =>
    obtain ⟨hplain, hblock, -⟩ := ih fun x hx => h x (List.mem_append_left _ hx)
    have hch := h ch (by simp)
    rw [after_append, after_cons, after_nil, hplain.next_separator hch]
    refine ⟨plain_separated _ _, ?_, ?_⟩
    · rcases IpcTools.isSeparator_iff.mp hch with rfl | rfl
      · simp [separated, fresh]
      · simp [separated, hblock]
    · rcases IpcTools.isSeparator_iff.mp hch with rfl | rfl
      · simp [separated, fresh]
      · simp [separated]

/-! ## Pieces -/

/-- The text of a command leaves the block as it is. -/
lemma after_cut {q : Quote} {s piece rest : Str} {d : Char} (b : Option Str)
    (h : IpcTools.cut q s = some (piece, d, rest)) :
    after ⟨b, .body q⟩ piece = ⟨b, .body .none⟩ := by
  induction s generalizing q piece with
  | nil => cases h
  | cons ch s ih =>
    rw [IpcTools.cut] at h
    split_ifs at h with hsep
    · cases h
      rw [hsep.1, after_nil]
    · obtain ⟨⟨piece', r⟩, hcut, hr⟩ := Option.map_eq_some_iff.mp h
      cases hr
      have hsemi : ¬ (ch = ';' ∧ q = .none) := by
        rintro ⟨rfl, rfl⟩
        exact hsep ⟨rfl, by decide⟩
      rw [after_cons, next]
      simp only [if_neg hsemi]
      exact ih hcut

/-- At the beginning of a segment the same holds if the text does not begin with a block; a blank
text leaves the segment at its beginning. -/
lemma after_cut_fresh {s piece rest : Str} {d : Char}
    (h : IpcTools.cut .none s = some (piece, d, rest)) (hblock : (skipBlanks s).head? ≠ some '[') :
    fresh.after piece = if skipBlanks piece = [] then fresh else ⟨none, .body .none⟩ := by
  induction s generalizing piece with
  | nil => cases h
  | cons ch s ih =>
    rw [IpcTools.cut] at h
    split_ifs at h with hsep
    · cases h
      rfl
    · obtain ⟨⟨piece', r⟩, hcut, hr⟩ := Option.map_eq_some_iff.mp h
      cases hr
      by_cases hspace : isSpace ch = true
      · obtain ⟨-, -, -, hd, hs⟩ := ne_of_isSpace hspace
        have hskip : ∀ t, skipBlanks (ch :: t) = skipBlanks t := fun t =>
          List.dropWhile_cons_of_pos hspace
        rw [Quote.next_of_ne hd hs] at hcut
        rw [hskip] at hblock
        rw [hskip, after_cons, Plain.next_blank (Or.inl rfl) hspace]
        exact ih hcut hblock
      · have hskip : ∀ t, skipBlanks (ch :: t) = ch :: t := fun t =>
          List.dropWhile_cons_of_neg hspace
        have hsemi : ch ≠ ';' := by
          rintro rfl
          exact hsep ⟨rfl, by decide⟩
        have hbracket : ch ≠ '[' := by
          rintro rfl
          exact hblock (by rw [hskip]; rfl)
        have hstart : fresh.next ch = ⟨none, .body (Quote.none.next ch)⟩ := by
          simp [next, fresh, hspace, hsemi, hbracket]
        rw [hskip, if_neg (List.cons_ne_nil _ _), after_cons, hstart]
        exact after_cut none hcut

/-! ## Criteria blocks -/

/-- In a block, behind characters of which none closes it. -/
lemma after_inside {raw : Str} {p q : BlockPart} {s : Str}
    (h : ∀ ch ∈ s.head?, (ch ≠ ']' ∨ p = .quoted) ∧ p.next ch = q) (hne : s ≠ [])
    (h' : ∀ ch ∈ s.tail, (ch ≠ ']' ∨ q = .quoted) ∧ q.next ch = q) :
    after ⟨none, .criteria raw p⟩ s = ⟨none, .criteria (raw ++ s) q⟩ := by
  have hstep : ∀ {raw part part' ch}, (ch ≠ ']' ∨ part = .quoted) ∧ part.next ch = part' →
      next ⟨none, .criteria raw part⟩ ch = ⟨none, .criteria (raw ++ [ch]) part'⟩ := by
    rintro raw part part' ch ⟨hch, rfl⟩
    have hclose : ¬ (ch = ']' ∧ part ≠ .quoted) := by tauto
    simp only [next, if_neg hclose]
  have hstay : ∀ (s raw : Str), (∀ ch ∈ s, (ch ≠ ']' ∨ q = .quoted) ∧ q.next ch = q) →
      after ⟨none, .criteria raw q⟩ s = ⟨none, .criteria (raw ++ s) q⟩ := by
    intro s
    induction s with
    | nil => exact fun raw _ => by simp
    | cons ch s ih =>
      intro raw hs
      rw [after_cons, hstep (hs ch List.mem_cons_self),
        ih _ fun x hx => hs x (List.mem_cons_of_mem ch hx), List.append_assoc]
      rfl
  obtain ⟨ch, s, rfl⟩ := List.exists_cons_of_ne_nil hne
  rw [after_cons, hstep (h ch rfl), hstay s _ h', List.append_assoc]
  rfl

/-- The same if the place stays the same. -/
lemma after_same {raw : Str} {part : BlockPart} {s : Str}
    (h : ∀ ch ∈ s, (ch ≠ ']' ∨ part = .quoted) ∧ part.next ch = part) :
    after ⟨none, .criteria raw part⟩ s = ⟨none, .criteria (raw ++ s) part⟩ := by
  cases s with
  | nil => simp
  | cons ch s =>
    exact after_inside (fun x hx => h x (List.mem_of_mem_head? hx)) (List.cons_ne_nil _ _)
      fun x hx => h x (List.mem_cons_of_mem ch hx)

end Scope

namespace Criteria

open Scope

/-- Spaces in front of a name, or behind the sign `=`. -/
lemma spaces_same {part : BlockPart} (hpart : part = .name ∨ part = .value) {s : Str}
    (h : ∀ ch ∈ s, ch = ' ') : ∀ ch ∈ s, (ch ≠ ']' ∨ part = .quoted) ∧ part.next ch = part := by
  intro ch hch
  rw [h ch hch]
  rcases hpart with rfl | rfl <;> decide

lemma exists_skipSpaces (head : Str) :
    ∃ sp, head = sp ++ skipSpaces head ∧ ∀ ch ∈ sp, ch = ' ' :=
  ⟨head.takeWhile (· = ' '), List.takeWhile_append_dropWhile.symm, fun ch hch => by
    simpa using List.mem_takeWhile_imp hch⟩

lemma quotedValue_spec : ∀ {prev : Char} {head : Str}, backslash ∉ head → prev ≠ backslash →
    head = (quotedValue prev head).1 ++ (quotedValue prev head).2 ∧
      (∀ ch ∈ (quotedValue prev head).1, ch ≠ doubleQuote) ∧
      ∀ ch t, (quotedValue prev head).2 = ch :: t → ch = doubleQuote := by
  intro prev head
  induction head generalizing prev with
  | nil => exact fun _ _ => ⟨rfl, fun _ h => absurd h List.not_mem_nil, fun _ _ h => by cases h⟩
  | cons ch head ih =>
    intro hbs hprev
    have hch : ch ≠ backslash := fun h => hbs (h ▸ List.mem_cons_self)
    obtain ⟨hsplit, hvalue, hrest⟩ := ih (fun h => hbs (List.mem_cons_of_mem ch h)) hch
    rw [quotedValue]
    split_ifs with hquote
    · refine ⟨congrArg (ch :: ·) hsplit, ?_, hrest⟩
      rintro x (_ | ⟨_, hx⟩)
      · exact hquote.resolve_right hprev
      · exact hvalue x hx
    · rw [not_or, not_not] at hquote
      refine ⟨rfl, fun _ h => absurd h List.not_mem_nil, ?_⟩
      rintro x t ⟨⟩
      exact hquote.1

lemma ne_space_of_skipSpaces {head : Str} : ∀ ch ∈ (skipSpaces head).head?, ch ≠ ' ' := by
  intro ch hch
  have hnot := List.head?_dropWhile_not (· = ' ') head
  rw [← skipSpaces, Option.mem_def.mp hch] at hnot
  simpa using hnot

/-- A value in quotes is read to the closing quote. -/
lemma after_quotedValue {v : Str} (hv : ∀ ch ∈ v, ch ≠ doubleQuote) (raw : Str) :
    after ⟨none, .criteria raw .value⟩ (doubleQuote :: (v ++ [doubleQuote]))
      = ⟨none, .criteria (raw ++ doubleQuote :: (v ++ [doubleQuote])) .name⟩ := by
  have hin : ∀ ch ∈ v, (ch ≠ ']' ∨ BlockPart.quoted = .quoted) ∧
      BlockPart.quoted.next ch = .quoted := fun ch hch =>
    ⟨Or.inr rfl, by simp [BlockPart.next, hv ch hch]⟩
  have hopen : Scope.next ⟨none, .criteria raw .value⟩ doubleQuote
      = ⟨none, .criteria (raw ++ [doubleQuote]) .quoted⟩ := rfl
  have hend : ∀ raw, Scope.next ⟨none, .criteria raw .quoted⟩ doubleQuote
      = ⟨none, .criteria (raw ++ [doubleQuote]) .name⟩ := fun raw => rfl
  rw [after_cons, hopen, after_append, after_same hin, after_cons, hend, after_nil]
  simp

/-- A value without quotes is read to a space or to the end of the block. -/
lemma after_bareValue {x : Char} {v : Str} (hx : x ≠ doubleQuote)
    (hv : ∀ ch ∈ x :: v, ch ≠ ' ' ∧ ch ≠ ']') (raw : Str) :
    after ⟨none, .criteria raw .value⟩ (x :: v) = ⟨none, .criteria (raw ++ x :: v) .bare⟩ := by
  refine after_inside ?_ (List.cons_ne_nil _ _) fun ch hch => ?_
  · rintro ch ⟨⟩
    obtain ⟨hspace, hbracket⟩ := hv x List.mem_cons_self
    exact ⟨Or.inl hbracket, by simp [BlockPart.next, hspace, hx]⟩
  · obtain ⟨hspace, hbracket⟩ := hv ch (List.mem_cons_of_mem x hch)
    exact ⟨Or.inl hbracket, by simp [BlockPart.next, hspace]⟩

/-- A value is read to its end; what follows a value without quotes is a space or the end of
the block. -/
lemma parseValue_scope {head value rest : Str} (h : parseValue head = .ok (value, rest))
    (hbs : backslash ∉ head) : ∃ u part, head = u ++ rest ∧
      (part = .name ∨ part = .value ∨ part = .bare) ∧
      (part ≠ .name → ∀ ch ∈ rest.head?, ch = ']' ∨ ch = ' ' ∧ part = .bare) ∧
      ∀ raw, after ⟨none, .criteria raw .value⟩ u = ⟨none, .criteria (raw ++ u) part⟩ := by
  obtain ⟨sp, hsp, hspaces⟩ := exists_skipSpaces head
  have hfirst : ∀ ch ∈ (skipSpaces head).head?, ch ≠ ' ' := ne_space_of_skipSpaces
  rw [parseValue] at h
  dsimp only at h
  generalize skipSpaces head = head' at h hsp hfirst
  have hbs' : backslash ∉ head' := fun h => hbs (by rw [hsp]; exact List.mem_append_right _ h)
  by_cases hquote : head'.head? = some doubleQuote
  · -- a value in quotes
    rw [if_pos hquote] at h
    obtain ⟨t, rfl⟩ := List.head?_eq_some_iff.mp hquote
    have hbst : backslash ∉ t := fun h => hbs' (List.mem_cons_of_mem _ h)
    have hquote_ne : doubleQuote ≠ backslash := by decide
    obtain ⟨hsplit, hvalue, hclose⟩ := quotedValue_spec hbst hquote_ne
    rw [List.tail_cons] at h
    rcases hq : quotedValue doubleQuote t with ⟨v, _ | ⟨q, r⟩⟩
    · rw [hq] at h
      cases h
    · rw [hq] at h hsplit hvalue hclose
      cases h
      obtain rfl : q = doubleQuote := hclose q rest rfl
      refine ⟨sp ++ doubleQuote :: (v ++ [doubleQuote]), .name, ?_, Or.inl rfl,
        fun h => absurd rfl h, fun raw => ?_⟩
      · rw [hsp, hsplit]
        simp
      · rw [after_append, after_same (spaces_same (Or.inr rfl) hspaces), after_quotedValue hvalue,
          List.append_assoc]
  · -- a value without quotes
    rw [if_neg hquote] at h
    cases h
    have hin : ∀ ch ∈ head'.takeWhile (fun ch => ch ≠ ' ' && ch ≠ ']'), ch ≠ ' ' ∧ ch ≠ ']' :=
      fun ch hch => by simpa using List.mem_takeWhile_imp hch
    have hrest : ∀ ch ∈ (head'.dropWhile (fun ch => ch ≠ ' ' && ch ≠ ']')).head?,
        ch = ' ' ∨ ch = ']' := by
      intro ch hch
      have hnot := List.head?_dropWhile_not (fun ch => ch ≠ ' ' && ch ≠ ']') head'
      rw [Option.mem_def.mp hch] at hnot
      simp at hnot
      tauto
    have hsplit := List.takeWhile_append_dropWhile (p := fun ch => ch ≠ ' ' && ch ≠ ']') (l := head')
    generalize head'.takeWhile (fun ch => ch ≠ ' ' && ch ≠ ']') = v at *
    generalize head'.dropWhile (fun ch => ch ≠ ' ' && ch ≠ ']') = r at *
    cases v with
    | nil =>
      obtain rfl : r = head' := hsplit
      refine ⟨sp, .value, hsp, Or.inr (Or.inl rfl), fun _ ch hch => ?_,
        fun raw => after_same (spaces_same (Or.inr rfl) hspaces)⟩
      exact Or.inl ((hrest ch hch).resolve_left (hfirst ch hch))
    | cons x v =>
      subst hsplit
      refine ⟨sp ++ x :: v, .bare, by rw [hsp, List.append_assoc], Or.inr (Or.inr rfl),
        fun _ ch hch => ?_, fun raw => ?_⟩
      · exact (hrest ch hch).symm.imp_right fun h => ⟨h, rfl⟩
      · rw [after_append, after_same (spaces_same (Or.inr rfl) hspaces),
          after_bareValue (fun h => hquote (congrArg some h)) hin, List.append_assoc]

/-- The spaces in front of a name, the name and the spaces behind it. -/
lemma name_scope (head : Str) : ∃ w, head = w ++ skipSpaces ((skipSpaces head).dropWhile isNameChar) ∧
    ∀ raw, after ⟨none, .criteria raw .name⟩ w = ⟨none, .criteria (raw ++ w) .name⟩ := by
  obtain ⟨sp, hsp, hspaces⟩ := exists_skipSpaces head
  obtain ⟨sp', hsp', hspaces'⟩ := exists_skipSpaces ((skipSpaces head).dropWhile isNameChar)
  have hsplit := List.takeWhile_append_dropWhile (p := isNameChar) (l := skipSpaces head)
  have hname : ∀ ch ∈ (skipSpaces head).takeWhile isNameChar,
      (ch ≠ ']' ∨ BlockPart.name = .quoted) ∧ BlockPart.name.next ch = .name := by
    intro ch hch
    have hchar : isNameChar ch = true := List.mem_takeWhile_imp hch
    have hne : ch ≠ ']' ∧ ch ≠ '=' := by
      constructor <;> rintro rfl <;> exact absurd hchar (by decide)
    exact ⟨Or.inl hne.1, by simp [BlockPart.next, hne.2]⟩
  refine ⟨sp ++ ((skipSpaces head).takeWhile isNameChar ++ sp'), ?_, fun raw => ?_⟩
  · rw [List.append_assoc, List.append_assoc, ← hsp', hsplit, ← hsp]
  · rw [after_append, after_same (spaces_same (Or.inl rfl) hspaces), after_append, after_same hname,
      after_same (spaces_same (Or.inl rfl) hspaces'), List.append_assoc, List.append_assoc]

/-- The spaces behind a value: the first one ends a value without quotes. -/
lemma spaces_scope {part : BlockPart} {r : Str} (hpart : part ≠ .quoted)
    (hend : part ≠ .name → ∀ ch ∈ r.head?, ch = ']' ∨ ch = ' ' ∧ part = .bare) :
    ∃ sp part', r = sp ++ skipSpaces r ∧ part' ≠ .quoted ∧
      (part' ≠ .name → ∀ ch ∈ (skipSpaces r).head?, ch = ']') ∧
      ∀ raw, after ⟨none, .criteria raw part⟩ sp = ⟨none, .criteria (raw ++ sp) part'⟩ := by
  obtain ⟨sp, hsp, hspaces⟩ := exists_skipSpaces r
  cases sp with
  | nil =>
    have hskip : skipSpaces r = r := hsp.symm
    refine ⟨[], part, hsp, hpart, fun hne ch hch => ?_, fun raw => by simp⟩
    rcases hend hne ch (hskip ▸ hch) with hch' | ⟨hch', -⟩
    · exact hch'
    · exact absurd hch' (ne_space_of_skipSpaces ch hch)
  | cons x sp =>
    obtain rfl : x = ' ' := hspaces x List.mem_cons_self
    refine ⟨' ' :: sp, .name, hsp, by decide, fun h => absurd rfl h, fun raw => ?_⟩
    by_cases hname : part = .name
    · rw [hname, after_same (spaces_same (Or.inl rfl) hspaces)]
    · obtain ⟨-, rfl⟩ := (hend hname ' ' (by rw [hsp]; rfl)).resolve_left (by decide)
      exact after_inside (by rintro ch ⟨⟩; decide) (List.cons_ne_nil _ _)
        (spaces_same (Or.inl rfl) fun ch hch => hspaces ch (List.mem_cons_of_mem _ hch))

/-- A round of the loop of `parse` reads whole names and values. -/
lemma parsePair_scope {W : Library} {c : Compositor} {ks ks' : Criteria} {head rest : Str}
    (h : parsePair W c ks head = .ok (ks', rest)) (hbs : backslash ∉ head) : ∃ u part,
      head = u ++ rest ∧ part ≠ .quoted ∧ (part ≠ .name → ∀ ch ∈ rest.head?, ch = ']') ∧
      ∀ raw, after ⟨none, .criteria raw .name⟩ u = ⟨none, .criteria (raw ++ u) part⟩ := by
  obtain ⟨w, hhead, hname⟩ := name_scope head
  simp only [parsePair] at h
  generalize skipSpaces ((skipSpaces head).dropWhile isNameChar) = t at h hhead
  by_cases hequals : t.head? = some '='
  · -- a name with a value
    rw [if_pos hequals] at h
    obtain ⟨t, rfl⟩ := List.head?_eq_some_iff.mp hequals
    obtain ⟨⟨value, r⟩, hvalue, h⟩ := Machine.bind_ok_iff.mp h
    obtain ⟨ks₁, -, h⟩ := Machine.bind_ok_iff.mp h
    cases h
    obtain ⟨u, part, hu, hpart, hend, hafter⟩ := parseValue_scope hvalue fun h =>
      hbs (by rw [hhead]; exact List.mem_append_right _ (List.mem_cons_of_mem _ h))
    obtain ⟨sp, part', hr, hpart', hend', hspaces⟩ :=
      spaces_scope (by rcases hpart with rfl | rfl | rfl <;> decide) hend
    have hequal : ∀ raw, Scope.next ⟨none, .criteria raw .name⟩ '='
        = ⟨none, .criteria (raw ++ ['=']) .value⟩ := fun raw => rfl
    rw [List.tail_cons] at hu
    refine ⟨w ++ '=' :: (u ++ sp), part', ?_, hpart', hend', fun raw => ?_⟩
    · rw [hhead, hu, List.append_assoc, List.cons_append, List.append_assoc, ← hr]
    · rw [after_append, hname, after_cons, hequal, after_append, hafter, hspaces]
      simp
  · -- a name without a value
    rw [if_neg hequals] at h
    obtain ⟨ks₁, -, h⟩ := Machine.bind_ok_iff.mp h
    cases h
    have hend : BlockPart.name ≠ .name → ∀ ch ∈ t.head?, ch = ']' ∨ ch = ' ' ∧ BlockPart.name = .bare :=
      fun h => absurd rfl h
    obtain ⟨sp, part', hr, hpart', hend', hspaces⟩ := spaces_scope (by decide) hend
    refine ⟨w ++ sp, part', by rw [List.append_assoc, ← hr, ← hhead], hpart', hend', fun raw => ?_⟩
    rw [after_append, hname, hspaces, List.append_assoc]

lemma parseLoop_scope {W : Library} {c : Compositor} : ∀ (n : ℕ) {ks ks' : Criteria} {head rest : Str},
    parseLoop W c n ks head = .ok (.ok (ks', rest)) → backslash ∉ head → ∃ u part,
      head = u ++ rest ∧ part ≠ .quoted ∧ (rest = [] ∨ rest.head? = some ']') ∧
      ∀ raw, after ⟨none, .criteria raw .name⟩ u = ⟨none, .criteria (raw ++ u) part⟩ := by
  intro n
  induction n with
  | zero => intro ks ks' head rest h; cases h
  | succ n ih =>
    intro ks ks' head rest h hbs
    rw [parseLoop] at h
    split_ifs at h with hend
    · cases h
      exact ⟨[], .name, rfl, by decide, hend, fun raw => by simp⟩
    · split at h
      · cases h
      · rename_i ks₁ head₁ hpair
        obtain ⟨u, part, hu, hpart, hlast, hafter⟩ := parsePair_scope hpair hbs
        obtain ⟨u', part', hu', hpart', hend', hafter'⟩ :=
          ih h fun h => hbs (by rw [hu]; exact List.mem_append_right _ h)
        by_cases hname : part = .name
        · subst hname
          refine ⟨u ++ u', part', by rw [List.append_assoc, ← hu', ← hu], hpart', hend',
            fun raw => ?_⟩
          rw [after_append, hafter, hafter', List.append_assoc]
        · -- nothing is read any more
          have hnil : u' = [] ∧ rest = head₁ := by
            cases n with
            | zero => cases h
            | succ n =>
              have hend₁ : head₁ = [] ∨ head₁.head? = some ']' := by
                cases head₁ with
                | nil => exact Or.inl rfl
                | cons ch t => exact Or.inr (congrArg some (hlast hname ch rfl))
              rw [parseLoop, if_pos hend₁] at h
              cases h
              exact ⟨List.append_cancel_right (hu'.symm.trans (List.nil_append _).symm), rfl⟩
          obtain ⟨rfl, rfl⟩ := hnil
          exact ⟨u, part, hu, hpart, hend', hafter⟩

/-- A criteria block that parses is read as one block. -/
theorem parse_scope {W : Library} {c : Compositor} {s : Str} {ks : Criteria}
    (h : parse W c s = .ok (.ok ks)) (hs : s.head? = some '[') (hbs : backslash ∉ s) :
    ∃ rest, s = ks.raw ++ rest ∧ Scope.fresh.after ks.raw = ⟨some ks.raw, .body .none⟩ := by
  obtain ⟨t, rfl⟩ := List.head?_eq_some_iff.mp hs
  have hskip : skipSpaces ('[' :: t) = '[' :: t := List.dropWhile_cons_of_neg (by decide)
  obtain ⟨ks₀, rest, -, hloop, -, rfl⟩ := exists_of_parse h
  rw [hskip, List.tail_cons] at hloop
  obtain ⟨u, part, hu, hpart, -, hafter⟩ :=
    parseLoop_scope _ hloop fun h => hbs (List.mem_cons_of_mem _ h)
  have hsplit : '[' :: t = ('[' :: (u ++ [']'])) ++ rest := by
    rw [hu]
    simp
  have hraw : ('[' :: t).take (('[' :: t).length - rest.length) = '[' :: (u ++ [']']) := by
    rw [hsplit, List.length_append, Nat.add_sub_cancel, List.take_left]
  have hopen : Scope.fresh.next '[' = ⟨none, .criteria ['['] .name⟩ := rfl
  refine ⟨rest, by simp only [hraw]; exact hsplit, ?_⟩
  simp only [hraw]
  rw [after_cons, hopen, after_append, hafter, after_cons, after_nil, Scope.next]
  simp only [hpart, ne_eq, not_false_eq_true, and_self, if_true]
  rfl

end Criteria
end WayfireIpc
