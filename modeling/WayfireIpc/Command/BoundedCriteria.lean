/-
# Parsing criteria in memory

`criteria::parse` and `unescape` as they go through the memory of a command string.  On a
NUL-terminated string `parse` does what parsing the text does, so it ends, and it reads nothing
behind the terminating NUL; what it reads in front of `head` is the quote or a character of a value.
-/
import WayfireIpc.Command.Criteria
import WayfireIpc.Command.BoundedTools

namespace WayfireIpc

open Terminated

namespace Bounded

/-! ## `unescape` -/

/-- The slash in front of a quote is skipped. -/
def skipSlash (value : List Char) (readhead : ℕ) : Except Trap ℕ := do
  let ch ← load value readhead
  if ch = backslash then
    let next ← load value (readhead + 1)
    return if next = doubleQuote then readhead + 1 else readhead
  else return readhead

/-- The loop of `unescape`. -/
def unescapeLoop (value : List Char) : ℕ → ℕ → List Char → ℕ → Except Trap (List Char)
  | 0, _, _, _ => .error .diverges
  | n + 1, readhead, copied, writehead => do
    let ch ← load value readhead
    if ch = nul then return copied
    else
      let readhead ← skipSlash value readhead
      let ch ← load value readhead
      let copied ← store copied writehead ch
      unescapeLoop value n (readhead + 1) copied (writehead + 1)

/-- `strcpy(dst, src)`. -/
def strcpy (dst src : List Char) : Except Trap (List Char) := do
  let len ← scan (· ≠ nul) src 0
  let text ← copy src 0 (len + 1)
  if len + 1 ≤ dst.length then return Bytes.splice dst 0 text else .error .outside

/-- `unescape`: what the block holds afterwards. -/
def unescape (value : List Char) : Except Trap (List Char) := do
  let slash ← strpbrk value 0 [backslash]
  if slash = none then return value
  else
    let len ← scan (· ≠ nul) value 0
    let copied ← unescapeLoop value value.length 0 (List.replicate (len + 1) nul) 0
    strcpy value copied

/-! ## `parse` -/

/-- `*(head - 1)`. -/
def loadBefore (block : List Char) : ℕ → Except Trap Char
  | 0 => .error .outside
  | head + 1 => load block head

/-- `skip_spaces`. -/
def skipSpaces (block : List Char) (head : ℕ) : Except Trap ℕ := scan (· = ' ') block head

/-- The loop over a value in quotes. -/
def quotedEnd (block : List Char) : ℕ → ℕ → Except Trap ℕ
  | 0, _ => .error .diverges
  | n + 1, head => do
    let ch ← load block head
    if ch = nul then return head
    else if ch ≠ doubleQuote then quotedEnd block n (head + 1)
    else
      let prev ← loadBefore block head
      if prev = backslash then quotedEnd block n (head + 1) else return head

/-- The part of the loop of `parse` behind the sign `=`: the value and `head`. -/
def parseValue (block : List Char) (head : ℕ) : Except Trap (Except Str (Str × ℕ)) := do
  let head ← skipSpaces block head
  let ch ← load block head
  if ch = doubleQuote then
    let valuestart := head + 1
    let head ← quotedEnd block block.length valuestart
    let ch ← load block head
    if ch = nul then return .error "Quote mismatch in criteria".toList
    else
      let value ← copy block valuestart (head - valuestart)
      let value ← unescape (cells nul value)
      return .ok (cStr value, head + 1)
  else
    let valuestart := head
    let head ← scan (fun ch => ch ≠ nul && (ch ≠ ' ' && ch ≠ ']')) block head
    let value ← copy block valuestart (head - valuestart)
    let value ← unescape (cells nul value)
    return .ok (cStr value, head)

variable (W : Library) (c : Compositor)

/-- `parse_token` with the spaces behind it. -/
def finishPair (block : List Char) (ks : Criteria) (name : Str) (value : Option Str) (head : ℕ) :
    Except Trap (Except Str (Criteria × ℕ)) :=
  match Criteria.parseToken W c ks name value with
  | .error error => return .error error
  | .ok ks => do
    let head ← skipSpaces block head
    return .ok (ks, head)

/-- One round of the loop of `parse`. -/
def parsePair (block : List Char) (ks : Criteria) (head : ℕ) :
    Except Trap (Except Str (Criteria × ℕ)) := do
  let namestart ← skipSpaces block head
  let head ← scan Criteria.isNameChar block namestart
  let name ← copy block namestart (head - namestart)
  let head ← skipSpaces block head
  let ch ← load block head
  if ch = '=' then
    match ← parseValue block (head + 1) with
    | .error error => return .error error
    | .ok (value, head) => finishPair W c block ks name (some value) head
  else finishPair W c block ks name none head

/-- The loop of `parse`. -/
def parseLoop (block : List Char) : ℕ → Criteria → ℕ →
    Except Trap (Except Str (Criteria × ℕ))
  | 0, _, _ => .error .diverges
  | n + 1, ks, head => do
    let ch ← load block head
    if ch = nul ∨ ch = ']' then return .ok (ks, head)
    else
      match ← parsePair W c block ks head with
      | .error error => return .error error
      | .ok (ks, head) => parseLoop block n ks head

/-- `criteria::parse`, or the error that it reports. -/
def parse (block : List Char) : Except Trap (Except Str Criteria) := do
  let head ← skipSpaces block 0
  let ch ← load block head
  if ch ≠ '[' then return .error "No criteria".toList
  else
    match ← parseLoop W c block (block.length - head) {} (head + 1) with
    | .error error => return .error error
    | .ok (ks, head) => do
      let ch ← load block head
      if ch ≠ ']' then return .error "No closing brace found in criteria".toList
      else if ks.isEmpty then return .error "Criteria is empty".toList
      else
        let raw ← copy block 0 (head + 1)
        return .ok { ks with raw := raw }

/-! ## Values -/

variable {W c} {s t rest : Str} {p : ℕ} {ch : Char}

lemma skipSlash_cells (h : At s p (ch :: t)) : skipSlash (cells nul s) p
    = .ok (if ch = backslash ∧ t.head? = some doubleQuote then p + 1 else p) := by
  rw [skipSlash, h.load, Machine.ok_bind, List.headD_cons]
  by_cases hch : ch = backslash
  · rw [if_pos hch, h.next.load, Machine.ok_bind]
    cases t with
    | nil =>
      have hne : nul ≠ doubleQuote := by decide
      simp [hne, pure, Except.pure]
    | cons ch' t => simp [hch, pure, Except.pure]
  · rw [if_neg hch, if_neg fun h => hch h.1]
    rfl

lemma length_unescape_le (s : Str) : (Criteria.unescape s).length ≤ s.length := by
  induction s using Criteria.unescape.induct with
  | case1 => exact le_rfl
  | case2 ch => exact le_rfl
  | case3 ch ch' s h ih =>
    rw [Criteria.unescape, if_pos h]
    simp only [List.length_cons]
    omega
  | case4 ch ch' s h ih =>
    rw [Criteria.unescape, if_neg h]
    simp only [List.length_cons] at ih ⊢
    omega

/-- What has been read is in the copy, which is long enough for the rest and a NUL. -/
lemma unescapeLoop_cells (hnul : nul ∉ s) : ∀ (n p : ℕ) (t copied : Str) (k : ℕ), At s p t →
    t.length < n → t.length < k → ∃ room,
      unescapeLoop (cells nul s) n p (copied ++ List.replicate k nul) copied.length
        = .ok (copied ++ Criteria.unescape t ++ nul :: room) := by
  intro n
  induction n with
  | zero => exact fun _ _ _ _ _ h => absurd h (Nat.not_lt_zero _)
  | succ n ih =>
    intro p t copied k hat hn hk
    obtain ⟨k, rfl⟩ := Nat.exists_eq_succ_of_ne_zero (by omega : k ≠ 0)
    rw [unescapeLoop, hat.load, Machine.ok_bind]
    cases t with
    | nil =>
      refine ⟨List.replicate k nul, ?_⟩
      rw [List.headD_nil, if_pos rfl, Criteria.unescape, List.append_nil, List.replicate_succ]
      rfl
    | cons ch t =>
      have hch := ne_nul hnul hat
      -- one character is written
      have hwrite : ∀ ch, store (copied ++ List.replicate (k + 1) nul) copied.length ch
          = .ok ((copied ++ [ch]) ++ List.replicate k nul) := by
        intro ch
        rw [List.replicate_succ, store_append, List.append_assoc]
        rfl
      have hlen : ∀ ch : Char, (copied ++ [ch]).length = copied.length + 1 := by simp
      simp only [List.length_cons] at hn hk
      rw [List.headD_cons, if_neg hch, skipSlash_cells hat, Machine.ok_bind]
      by_cases hslash : ch = backslash ∧ t.head? = some doubleQuote
      · obtain ⟨rfl, hhead⟩ := hslash
        obtain ⟨t, rfl⟩ := List.head?_eq_some_iff.mp hhead
        rw [List.length_cons] at hn hk
        obtain ⟨room, hloop⟩ := ih (p + 1 + 1) t (copied ++ [doubleQuote]) k hat.next.next
          (by omega) (by omega)
        refine ⟨room, ?_⟩
        rw [if_pos ⟨rfl, hhead⟩, hat.next.load, Machine.ok_bind, List.headD_cons, hwrite,
          Machine.ok_bind, ← hlen doubleQuote, hloop, Criteria.unescape, if_pos ⟨rfl, rfl⟩]
        simp
      · obtain ⟨room, hloop⟩ := ih (p + 1) t (copied ++ [ch]) k hat.next (by omega) (by omega)
        refine ⟨room, ?_⟩
        have hcons : Criteria.unescape (ch :: t) = ch :: Criteria.unescape t :=
          Criteria.unescape_cons fun h hhead => hslash ⟨h, hhead⟩
        rw [if_neg hslash, hat.load, Machine.ok_bind, List.headD_cons, hwrite, Machine.ok_bind,
          ← hlen ch, hloop, hcons]
        simp

lemma nul_notMem_unescape (hnul : nul ∉ s) : nul ∉ Criteria.unescape s := by
  induction s using Criteria.unescape.induct with
  | case1 => exact hnul
  | case2 ch => exact hnul
  | case3 ch ch' s h ih =>
    rw [Criteria.unescape, if_pos h]
    simp only [List.mem_cons, not_or] at hnul ⊢
    exact ⟨by decide, ih hnul.2.2⟩
  | case4 ch ch' s h ih =>
    rw [Criteria.unescape, if_neg h]
    simp only [List.mem_cons, not_or] at hnul ⊢
    exact ⟨hnul.1, ih (by simp only [List.mem_cons, not_or]; exact hnul.2)⟩

lemma unescape_of_notMem (h : backslash ∉ s) : Criteria.unescape s = s := by
  induction s with
  | nil => rfl
  | cons ch s ih =>
    obtain ⟨hch, hs⟩ := not_or.mp (List.mem_cons.not.mp h)
    rw [Criteria.unescape_cons fun heq => absurd heq.symm hch, ih hs]

/-- `strcpy` to a block that is long enough. -/
lemma strcpy_cells (hnul : nul ∉ s) (room : List Char) {dst : List Char} (h : s.length < dst.length) :
    strcpy dst (cells nul s ++ room) = .ok (cells nul s ++ dst.drop (s.length + 1)) := by
  have hcopy : copy (cells nul s) 0 (s.length + 1) = .ok (cells nul s) := by
    rw [copy, if_pos (by rw [length_cells]; omega), Bytes.slice, List.drop_zero,
      ← length_cells nul, List.take_length]
  rw [strcpy, scan_append (strlen_cells hnul), Machine.ok_bind, copy_append hcopy, Machine.ok_bind,
    if_pos (by omega), Bytes.splice, List.take_zero, Nat.zero_add, length_cells]
  rfl

/-- The string in a block that a value was copied to. -/
lemma unescape_cells (hnul : nul ∉ s) : ∃ block, unescape (cells nul s) = .ok block ∧
    cStr block = Criteria.unescape s := by
  rw [unescape, strpbrk_cells (.zero s) hnul, Machine.ok_bind]
  by_cases hslash : backslash ∈ s
  · have hfound : (s.findIdx? [backslash].contains).map (0 + ·) ≠ none := by
      rw [Ne, Option.map_eq_none_iff, List.findIdx?_eq_none_iff, not_forall]
      exact ⟨backslash, by simp [hslash]⟩
    obtain ⟨room, hloop⟩ := unescapeLoop_cells hnul (cells nul s).length 0 s [] (s.length + 1)
      (.zero s) (by simp) (Nat.lt_succ_self _)
    have hno := nul_notMem_unescape hnul
    have hle := length_unescape_le s
    have hcopied : [] ++ Criteria.unescape s ++ nul :: room
        = cells nul (Criteria.unescape s) ++ room := by simp [cells]
    rw [hcopied] at hloop
    refine ⟨_, ?_, cStr_append hno (((cells nul s).drop ((Criteria.unescape s).length + 1)))⟩
    rw [if_neg hfound, strlen_cells hnul, Machine.ok_bind]
    change (unescapeLoop _ _ _ ([] ++ List.replicate (s.length + 1) nul) ([] : Str).length >>= _) = _
    rw [hloop, Machine.ok_bind, strcpy_cells hno room (by rw [length_cells]; omega), cells,
      List.append_assoc]
    rfl
  · have hnone : s.findIdx? [backslash].contains = none := by
      rw [List.findIdx?_eq_none_iff]
      intro ch hch
      rw [List.contains_eq_mem, decide_eq_false_iff_not, List.mem_singleton]
      rintro rfl
      exact hslash hch
    rw [hnone, unescape_of_notMem hslash]
    exact ⟨cells nul s, rfl, cStr_append hnul []⟩

/-! ## Pairs -/

/-- What is read in the memory of a string is what is read in the text, and `head` is at what is
left. -/
inductive ReadsTo {β : Type} (s : Str) :
    Except Trap (Except Str (β × ℕ)) → Except Str (β × Str) → Prop
  | error (error : Str) : ReadsTo s (.ok (.error error)) (.error error)
  | ok (b : β) {p : ℕ} {t : Str} (h : At s p t) : ReadsTo s (.ok (.ok (b, p))) (.ok (b, t))

lemma skipSpaces_cells (h : At s p t) : ∃ p', skipSpaces (cells nul s) p = .ok p' ∧
    At s p' (Criteria.skipSpaces t) := by
  obtain ⟨p', hscan, hat, -⟩ := h.scan (z := nul) (q := (· = ' ')) (by decide)
  exact ⟨p', hscan, hat⟩

/-- The character at a pointer is a certain one. -/
lemma headD_eq_iff (hch : ch ≠ nul) : t.headD nul = ch ↔ t.head? = some ch := by
  cases t with
  | nil => exact iff_of_false (Ne.symm hch) (by simp)
  | cons ch' t => simp

lemma headD_eq_nul_iff (hnul : nul ∉ t) : t.headD nul = nul ↔ t = [] := by
  cases t with
  | nil => simp
  | cons ch t =>
    refine iff_of_false ?_ (List.cons_ne_nil _ _)
    rintro rfl
    exact hnul List.mem_cons_self

lemma quotedEnd_cells (hnul : nul ∉ s) : ∀ (n p : ℕ) (t : Str) (prev : Char), At s p t →
    loadBefore (cells nul s) p = .ok prev → t.length < n →
    ∃ p', quotedEnd (cells nul s) n p = .ok p' ∧ At s p' (Criteria.quotedValue prev t).2 ∧
      (Criteria.quotedValue prev t).1 ++ (Criteria.quotedValue prev t).2 = t := by
  intro n
  induction n with
  | zero => exact fun _ _ _ _ _ h => absurd h (Nat.not_lt_zero _)
  | succ n ih =>
    intro p t prev hat hprev hn
    rw [quotedEnd, hat.load, Machine.ok_bind]
    cases t with
    | nil => exact ⟨p, rfl, hat, rfl⟩
    | cons ch t =>
      have hch := ne_nul hnul hat
      have hbefore : loadBefore (cells nul s) (p + 1) = .ok ch := hat.load
      rw [List.length_cons] at hn
      obtain ⟨p', hloop, hat', happend⟩ := ih (p + 1) t ch hat.next hbefore (by omega)
      rw [List.headD_cons, if_neg hch, Criteria.quotedValue]
      by_cases hquote : ch = doubleQuote
      · rw [if_neg (not_not.mpr hquote), hprev, Machine.ok_bind]
        by_cases hslash : prev = backslash
        · rw [if_pos hslash, if_pos (Or.inr hslash)]
          exact ⟨p', hloop, hat', congrArg (ch :: ·) happend⟩
        · rw [if_neg hslash, if_neg (by simp [hquote, hslash])]
          exact ⟨p, rfl, hat, rfl⟩
      · rw [if_pos hquote, if_pos (Or.inl hquote)]
        exact ⟨p', hloop, hat', congrArg (ch :: ·) happend⟩

/-- Without a NUL in the text it need not be looked for. -/
lemma while_and_of_notMem {q : Char → Bool} (hnul : nul ∉ t) :
    (t.takeWhile fun ch => ch ≠ nul && q ch) = t.takeWhile q ∧
      (t.dropWhile fun ch => ch ≠ nul && q ch) = t.dropWhile q := by
  induction t with
  | nil => exact ⟨rfl, rfl⟩
  | cons ch t ih =>
    obtain ⟨hch, ht⟩ := not_or.mp (List.mem_cons.not.mp hnul)
    obtain ⟨htake, hdrop⟩ := ih ht
    have hne : decide (ch ≠ nul) = true := decide_eq_true (Ne.symm hch)
    rw [List.takeWhile_cons, List.takeWhile_cons, List.dropWhile_cons, List.dropWhile_cons, htake,
      hdrop, hne, Bool.true_and]
    exact ⟨rfl, rfl⟩

lemma parseValue_cells (hnul : nul ∉ s) (h : At s p t) :
    ReadsTo s (parseValue (cells nul s) p) (Criteria.parseValue t) := by
  obtain ⟨head, hskip, hat⟩ := skipSpaces_cells h
  set t₁ := Criteria.skipSpaces t with ht₁
  have hnul₁ : nul ∉ t₁ := fun h => hnul (hat.subset h)
  rw [parseValue, hskip, Machine.ok_bind, hat.load, Machine.ok_bind, Criteria.parseValue]
  simp only [← ht₁]
  by_cases hquote : t₁.head? = some doubleQuote
  · -- a value in quotes
    rw [if_pos ((headD_eq_iff (by decide)).mpr hquote), if_pos hquote]
    obtain ⟨t₂, heq⟩ := List.head?_eq_some_iff.mp hquote
    rw [heq] at hat hnul₁ ⊢
    have hlen := hat.next.add_length
    have hbefore : loadBefore (cells nul s) (head + 1) = .ok doubleQuote := hat.load
    obtain ⟨e, hend, hate, happend⟩ := quotedEnd_cells hnul (cells nul s).length (head + 1) t₂
      doubleQuote hat.next hbefore (by rw [length_cells]; omega)
    rw [hend, Machine.ok_bind, hate.load, Machine.ok_bind, List.tail_cons]
    rcases hvalue : Criteria.quotedValue doubleQuote t₂ with ⟨v, _ | ⟨ch, rest⟩⟩
    · exact .error _
    · rw [hvalue] at hate happend
      have hnulv : nul ∉ v := fun h =>
        hnul₁ (List.mem_cons_of_mem _ (happend ▸ List.mem_append_left _ h))
      have hch := ne_nul hnul hate
      have hcopy := At.copy_between (z := nul) (happend.symm ▸ hat.next) hate
      obtain ⟨block, hblock, hcstr⟩ := unescape_cells hnulv
      rw [List.headD_cons, if_neg hch, hcopy, Machine.ok_bind, hblock, Machine.ok_bind, hcstr]
      exact .ok _ hate.next
  · rw [if_neg fun h => hquote ((headD_eq_iff (by decide)).mp h), if_neg hquote]
    obtain ⟨e, hscan, hate, hcopy⟩ := hat.scan (z := nul)
      (q := fun ch => ch ≠ nul && (ch ≠ ' ' && ch ≠ ']')) (by simp)
    obtain ⟨htake, hdrop⟩ := while_and_of_notMem (q := fun ch => ch ≠ ' ' && ch ≠ ']') hnul₁
    rw [htake] at hcopy
    rw [hdrop] at hate
    have hnulv : nul ∉ t₁.takeWhile fun ch => ch ≠ ' ' && ch ≠ ']' := fun h =>
      hnul₁ ((List.takeWhile_prefix _).subset h)
    obtain ⟨block, hblock, hcstr⟩ := unescape_cells hnulv
    rw [hscan, Machine.ok_bind, hcopy, Machine.ok_bind, hblock, Machine.ok_bind, hcstr]
    exact .ok _ hate

lemma finishPair_cells (h : At s p t) (name : Str) (value : Option Str) :
    ReadsTo s (finishPair W c (cells nul s) ks name value p) (do
      let ks ← Criteria.parseToken W c ks name value
      return (ks, Criteria.skipSpaces t)) := by
  rw [finishPair]
  cases Criteria.parseToken W c ks name value with
  | error error => exact .error error
  | ok ks =>
    obtain ⟨p', hskip, hat⟩ := skipSpaces_cells h
    simp only
    rw [hskip, Machine.ok_bind]
    exact .ok ks hat

lemma parsePair_cells (ks : Criteria) (hnul : nul ∉ s) (h : At s p t) :
    ReadsTo s (parsePair W c (cells nul s) ks p) (Criteria.parsePair W c ks t) := by
  obtain ⟨namestart, hskip, hat⟩ := skipSpaces_cells h
  obtain ⟨e, hscan, hate, hcopy⟩ := hat.scan (z := nul) (q := Criteria.isNameChar) (by decide)
  obtain ⟨head, hskip', hhead⟩ := skipSpaces_cells hate
  rw [parsePair, hskip, Machine.ok_bind, hscan, Machine.ok_bind, hcopy, Machine.ok_bind, hskip',
    Machine.ok_bind, hhead.load, Machine.ok_bind, Criteria.parsePair]
  simp only
  set t₁ := Criteria.skipSpaces ((Criteria.skipSpaces t).dropWhile Criteria.isNameChar) with ht₁
  by_cases hvalue : t₁.head? = some '='
  · rw [if_pos ((headD_eq_iff (by decide)).mpr hvalue), if_pos hvalue]
    obtain ⟨t₂, heq⟩ := List.head?_eq_some_iff.mp hvalue
    rw [heq] at hhead ⊢
    rw [List.tail_cons]
    have hread := parseValue_cells hnul hhead.next
    generalize parseValue (cells nul s) (head + 1) = r at hread
    generalize Criteria.parseValue t₂ = r' at hread
    cases hread with
    | error error => exact .error error
    | ok value hrest => exact finishPair_cells hrest _ (some value)
  · rw [if_neg fun h => hvalue ((headD_eq_iff (by decide)).mp h), if_neg hvalue]
    exact finishPair_cells hhead _ none

/-! ## Blocks -/

lemma parseLoop_cells (hnul : nul ∉ s) : ∀ (n : ℕ) (ks : Criteria) (p : ℕ) (t : Str)
    (r : Except Str (Criteria × Str)), At s p t → Criteria.parseLoop W c n ks t = .ok r →
    ReadsTo s (parseLoop W c (cells nul s) n ks p) r := by
  intro n
  induction n with
  | zero => intro _ _ _ _ _ h; cases h
  | succ n ih =>
    intro ks p t r h hloop
    have hnult : nul ∉ t := fun hmem => hnul (h.subset hmem)
    have hstop : (t.headD nul = nul ∨ t.headD nul = ']') ↔ t = [] ∨ t.head? = some ']' := by
      rw [headD_eq_nul_iff hnult, headD_eq_iff (by decide)]
    rw [Criteria.parseLoop] at hloop
    rw [parseLoop, h.load, Machine.ok_bind]
    by_cases hend : t = [] ∨ t.head? = some ']'
    · rw [if_pos hend] at hloop
      cases hloop
      rw [if_pos (hstop.mpr hend)]
      exact .ok ks h
    · rw [if_neg hend] at hloop
      rw [if_neg fun h => hend (hstop.mp h)]
      have hread := parsePair_cells (W := W) (c := c) ks hnul h
      generalize parsePair W c (cells nul s) ks p = q at hread
      generalize Criteria.parsePair W c ks t = q' at hread hloop
      cases hread with
      | error error =>
        cases hloop
        exact .error error
      | ok ks hrest => exact ih ks _ _ r hrest hloop

/-- On a NUL-terminated string `parse` ends and reads nothing behind the NUL. -/
theorem parse_cells (W : Library) (c : Compositor) (hnul : nul ∉ s) :
    ∃ r, parse W c (cells nul s) = .ok r ∧ Criteria.parse W c s = .ok r ∧
      ∀ ks, r = .ok ks → ks.raw.length ≤ s.length := by
  obtain ⟨head, hskip, hat⟩ := skipSpaces_cells (.zero s)
  rw [parse, hskip, Machine.ok_bind, hat.load, Machine.ok_bind]
  unfold Criteria.parse
  simp only
  generalize ht₁ : Criteria.skipSpaces s = t₁ at hat ⊢
  by_cases hopen : t₁.head? = some '['
  · rw [if_neg (not_not.mpr ((headD_eq_iff (by decide)).mpr hopen)), if_neg (not_not.mpr hopen)]
    obtain ⟨t₂, rfl⟩ := List.head?_eq_some_iff.mp hopen
    have hlen := hat.add_length
    -- the loop over the text has as many rounds as the loop in memory
    have hfuel : (cells nul s).length - head = ('[' :: t₂).length + 1 := by
      rw [length_cells]
      omega
    obtain ⟨r, hloop⟩ := Criteria.parseLoop_ends W c (('[' :: t₂).length + 1) {} t₂
      (by rw [List.length_cons]; omega)
    have hread := parseLoop_cells hnul _ {} (head + 1) t₂ r hat.next hloop
    rw [hfuel, List.tail_cons, hloop, Machine.ok_bind]
    generalize parseLoop W c (cells nul s) (('[' :: t₂).length + 1) {} (head + 1) = q at hread
    cases hread with
    | error error => exact ⟨_, rfl, rfl, by rintro ks ⟨⟩⟩
    | @ok ks p t hrest =>
      rw [Machine.ok_bind]
      simp only
      rw [hrest.load, Machine.ok_bind]
      by_cases hclose : t.head? = some ']'
      · rw [if_neg (not_not.mpr ((headD_eq_iff (by decide)).mpr hclose)),
          if_neg (not_not.mpr hclose)]
        by_cases hempty : ks.isEmpty = true
        · rw [if_pos hempty, if_pos hempty]
          exact ⟨_, rfl, rfl, by rintro ks ⟨⟩⟩
        · rw [if_neg hempty, if_neg hempty]
          obtain ⟨t, rfl⟩ := List.head?_eq_some_iff.mp hclose
          have hlast := hrest.add_length
          rw [List.length_cons] at hlast
          have hraw : s.length - t.length = p + 1 := by omega
          rw [copy_cells (by omega), Machine.ok_bind, List.drop_zero, List.tail_cons, hraw]
          refine ⟨_, rfl, rfl, ?_⟩
          rintro ks ⟨⟩
          exact (List.take_prefix _ s).length_le
      · rw [if_pos fun h => hclose ((headD_eq_iff (by decide)).mp h), if_pos hclose]
        exact ⟨_, rfl, rfl, by rintro ks ⟨⟩⟩
  · rw [if_pos fun h => hopen ((headD_eq_iff (by decide)).mp h), if_pos hopen]
    exact ⟨_, rfl, rfl, by rintro ks ⟨⟩⟩

end Bounded

end WayfireIpc
