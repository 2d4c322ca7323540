/-
# Criteria written with quotes

A criteria block can be written for any texts, with each in quotes and the quotes in it escaped:
`parse` reads the texts back, and the command string goes on behind the block.
-/
import WayfireIpc.Command.Execute

namespace WayfireIpc

/-- The tokens that have a pattern. -/
inductive PatternField
  | title | shell | appId | conMark | workspace
deriving DecidableEq, Repr

/-- The name that stands for a token. -/
def PatternField.written : PatternField → Str
  | .title => "title".toList
  | .shell => "shell".toList
  | .appId => "app_id".toList
  | .conMark => "con_mark".toList
  | .workspace => "workspace".toList

def PatternField.token : PatternField → CriteriaToken
  | .title => .title
  | .shell => .shell
  | .appId => .appId
  | .conMark => .conMark
  | .workspace => .workspace

/-- A token of a block, behind some spaces. -/
structure QuotedToken where
  spaces : ℕ
  field : PatternField
  value : Str

/-- Each double quote is written with a backslash in front of it. -/
def escapeQuotes (value : Str) : Str :=
  value.flatMap fun ch => if ch = doubleQuote then [backslash, doubleQuote] else [ch]

namespace QuotedToken

/-- What stands in the block behind the spaces, with a text behind it. -/
def text (token : QuotedToken) (rest : Str) : Str :=
  token.field.written ++ '=' :: doubleQuote :: (escapeQuotes token.value ++ doubleQuote :: rest)

/-- The tokens and the bracket behind them. -/
def closing (tokens : List QuotedToken) (rest : Str) : Str :=
  tokens.foldr (fun token rest => List.replicate token.spaces ' ' ++ token.text rest) (']' :: rest)

/-- The block. -/
def block (tokens : List QuotedToken) : Str := '[' :: closing tokens []

/-- The pattern that the block has for a token. -/
def given (W : Library) (tokens : List QuotedToken) (field : PatternField) : Option Pattern :=
  (tokens.find? fun token => token.field = field).bind fun token =>
    (Criteria.patternCreate W token.value).toOption

end QuotedToken

namespace Criteria

/-- Criteria with patterns only. -/
def ofPatterns (raw : Str) (pattern : PatternField → Option Pattern) : Criteria where
  raw := raw
  title := pattern .title
  shell := pattern .shell
  appId := pattern .appId
  conMark := pattern .conMark
  workspace := pattern .workspace

variable {W : Library} {c : Compositor}

/-! ## Escaping -/

lemma head?_escapeQuotes (value : Str) : (escapeQuotes value).head? ≠ some doubleQuote := by
  cases value with
  | nil => simp [escapeQuotes]
  | cons ch value =>
    rw [escapeQuotes, List.flatMap_cons]
    split_ifs with hch
    · simp [doubleQuote, backslash]
    · simpa using hch

/-- What is escaped is read back. -/
lemma unescape_escapeQuotes (value : Str) : unescape (escapeQuotes value) = value := by
  induction value with
  | nil => rfl
  | cons ch value ih =>
    rw [escapeQuotes, List.flatMap_cons]
    split_ifs with hch
    · subst hch
      change unescape (backslash :: doubleQuote :: escapeQuotes value) = _
      rw [unescape, if_pos ⟨rfl, rfl⟩, ih]
    · change unescape (ch :: escapeQuotes value) = _
      rw [unescape_cons fun _ => head?_escapeQuotes value, ih]

/-- The value in quotes ends at the quote behind it: every other one has a backslash in front. -/
lemma quotedValue_escapeQuotes (rest : Str) : ∀ (value : Str) (prev : Char),
    (value = [] → prev ≠ backslash) → value.getLast? ≠ some backslash →
      quotedValue prev (escapeQuotes value ++ doubleQuote :: rest)
        = (escapeQuotes value, doubleQuote :: rest) := by
  intro value
  induction value with
  | nil =>
    intro prev hprev _
    change quotedValue prev (doubleQuote :: rest) = _
    rw [quotedValue, if_neg]
    · rfl
    · exact not_or.mpr ⟨not_not.mpr rfl, hprev rfl⟩
  | cons ch value ih =>
    intro prev _ hlast
    have hlast' : value.getLast? ≠ some backslash := by
      cases value with
      | nil => simp
      | cons ch' value => rwa [List.getLast?_cons_cons] at hlast
    by_cases hch : ch = doubleQuote
    · subst hch
      have hescape : escapeQuotes (doubleQuote :: value)
          = backslash :: doubleQuote :: escapeQuotes value := rfl
      rw [hescape, List.cons_append, List.cons_append, quotedValue, if_pos (Or.inl (by decide)),
        quotedValue, if_pos (Or.inr rfl), ih doubleQuote (fun _ => by decide) hlast']
    · have hescape : escapeQuotes (ch :: value) = ch :: escapeQuotes value := by
        rw [escapeQuotes, List.flatMap_cons, if_neg hch]
        rfl
      have hprev : value = [] → ch ≠ backslash := by
        rintro rfl rfl
        exact hlast rfl
      rw [hescape, List.cons_append, quotedValue, if_pos (Or.inl hch), ih ch hprev hlast']

/-! ## Reading a token -/

lemma skipSpaces_of_ne {ch : Char} (hch : ch ≠ ' ') (s : Str) : skipSpaces (ch :: s) = ch :: s :=
  List.dropWhile_cons_of_neg (by simpa using hch)

@[simp] lemma skipSpaces_replicate (n : ℕ) (s : Str) :
    skipSpaces (List.replicate n ' ' ++ s) = skipSpaces s := by
  induction n with
  | zero => rfl
  | succ n ih =>
    rw [List.replicate_succ, List.cons_append]
    exact ih

lemma parseValue_quoted {value : Str} (hlast : value.getLast? ≠ some backslash) (rest : Str) :
    parseValue (doubleQuote :: (escapeQuotes value ++ doubleQuote :: rest)) = .ok (value, rest) := by
  rw [parseValue, skipSpaces_of_ne (by decide)]
  simp only [List.head?_cons, if_true, List.tail_cons]
  rw [quotedValue_escapeQuotes rest value doubleQuote (fun _ => by decide) hlast]
  simp only [unescape_escapeQuotes]

/-- A name is read up to the sign `=`. -/
lemma name_written (field : PatternField) (s : Str) :
    (field.written ++ '=' :: s).takeWhile isNameChar = field.written ∧
      (field.written ++ '=' :: s).dropWhile isNameChar = '=' :: s := by
  have hname : ∀ ch ∈ field.written, isNameChar ch = true := by
    rw [← List.all_eq_true]
    cases field <;> rfl
  rw [List.takeWhile_append_of_pos hname, List.dropWhile_append_of_pos hname]
  exact ⟨by rw [List.takeWhile_cons_of_neg (by decide), List.append_nil],
    List.dropWhile_cons_of_neg (by decide)⟩

/-- The first character of a name is no space and does not end the block. -/
lemma exists_written (field : PatternField) :
    ∃ ch s, field.written = ch :: s ∧ ch ≠ ' ' ∧ ch ≠ ']' ∧ ch ≠ '\x00' := by
  cases field <;> exact ⟨_, _, rfl, by decide, by decide, by decide⟩

lemma tokenFromName_written (field : PatternField) :
    tokenFromName field.written = some field.token := by
  cases field <;> decide +kernel

lemma setToken_ofPatterns (raw : Str) (patterns : PatternField → Option Pattern) (value : Str)
    (field : PatternField) : setToken W c (ofPatterns raw patterns) value field.token
      = (fun p => ofPatterns raw (Function.update patterns field (some p))) <$> patternCreate W value := by
  cases field <;> rfl

/-- A token sets the pattern of its field. -/
lemma parseToken_written {field : PatternField} {value raw : Str} {pattern : Pattern}
    {patterns : PatternField → Option Pattern} (h : patternCreate W value = .ok pattern) :
    parseToken W c (ofPatterns raw patterns) field.written (some value)
      = .ok (ofPatterns raw (Function.update patterns field (some pattern))) := by
  rw [parseToken, tokenFromName_written]
  simp only [setToken_ofPatterns, h, Machine.map_ok]

/-- A round of the loop reads a token, whatever stands behind it. -/
lemma parsePair_text {token : QuotedToken} {pattern : Pattern} {raw head rest : Str}
    {patterns : PatternField → Option Pattern} (hhead : skipSpaces head = token.text rest)
    (hlast : token.value.getLast? ≠ some backslash)
    (hpattern : patternCreate W token.value = .ok pattern) :
    parsePair W c (ofPatterns raw patterns) head
      = .ok (ofPatterns raw (Function.update patterns token.field (some pattern)), skipSpaces rest) := by
  obtain ⟨hname, hbehind⟩ := name_written token.field
    (doubleQuote :: (escapeQuotes token.value ++ doubleQuote :: rest))
  have hequals : ∀ s, skipSpaces ('=' :: s) = '=' :: s := skipSpaces_of_ne (by decide)
  simp only [parsePair, hhead, QuotedToken.text, hname, hbehind, hequals, List.head?_cons,
    if_true, List.tail_cons, parseValue_quoted hlast, Machine.ok_bind,
    parseToken_written hpattern]
  rfl

/-! ## Reading the block -/

lemma skipSpaces_closing (token : QuotedToken) (tokens : List QuotedToken) (rest : Str) :
    skipSpaces (QuotedToken.closing (token :: tokens) rest)
      = token.text (QuotedToken.closing tokens rest) := by
  obtain ⟨ch, s, hwritten, hspace, -⟩ := exists_written token.field
  have htext : QuotedToken.closing (token :: tokens) rest = List.replicate token.spaces ' ' ++
      token.text (QuotedToken.closing tokens rest) := rfl
  rw [htext, skipSpaces_replicate, QuotedToken.text, hwritten, List.cons_append, skipSpaces_of_ne hspace]

/-- The block does not end in front of a token. -/
lemma closing_goes_on {token : QuotedToken} {tokens : List QuotedToken} {head rest : Str}
    (h : head = QuotedToken.closing (token :: tokens) rest ∨
      head = skipSpaces (QuotedToken.closing (token :: tokens) rest)) :
    ¬ (head = [] ∨ head.head? = some ']') := by
  obtain ⟨ch, s, hwritten, -, hbracket, -⟩ := exists_written token.field
  have htext : ∀ rest, ∃ t, token.text rest = ch :: t := fun rest =>
    ⟨_, by rw [QuotedToken.text, hwritten]; rfl⟩
  have hfirst : ∃ x t, head = x :: t ∧ x ≠ ']' := by
    rcases h with rfl | rfl
    · obtain ⟨t, ht⟩ := htext (QuotedToken.closing tokens rest)
      cases hspaces : token.spaces with
      | zero =>
        refine ⟨ch, t, ?_, hbracket⟩
        rw [QuotedToken.closing, List.foldr_cons, hspaces, ← QuotedToken.closing, ht]
        rfl
      | succ n =>
        refine ⟨' ', List.replicate n ' ' ++ token.text (QuotedToken.closing tokens rest), ?_,
          by decide⟩
        rw [QuotedToken.closing, List.foldr_cons, hspaces]
        rfl
    · rw [skipSpaces_closing]
      obtain ⟨t, ht⟩ := htext (QuotedToken.closing tokens rest)
      exact ⟨ch, t, ht, hbracket⟩
  obtain ⟨x, t, rfl, hx⟩ := hfirst
  simpa using hx

/-- The patterns of the tokens, set one after the other. -/
def setPatterns (W : Library) (tokens : List QuotedToken) (patterns : PatternField → Option Pattern) :
    PatternField → Option Pattern :=
  tokens.foldl (fun patterns token =>
    Function.update patterns token.field (patternCreate W token.value).toOption) patterns

/-- The loop reads all tokens, and stops in front of the closing bracket. -/
lemma parseLoop_closing {raw rest : Str} : ∀ {tokens : List QuotedToken} {n : ℕ} {head : Str}
    {patterns : PatternField → Option Pattern},
    (head = QuotedToken.closing tokens rest ∨ head = skipSpaces (QuotedToken.closing tokens rest)) →
    head.length < n → (∀ token ∈ tokens, token.value.getLast? ≠ some backslash ∧
      ∃ pattern, patternCreate W token.value = .ok pattern) →
    parseLoop W c n (ofPatterns raw patterns) head
      = .ok (.ok (ofPatterns raw (setPatterns W tokens patterns), ']' :: rest)) := by
  intro tokens
  induction tokens with
  | nil =>
    intro n head patterns hhead hn _
    have hclose : head = ']' :: rest := by
      rcases hhead with rfl | rfl
      · rfl
      · exact skipSpaces_of_ne (by decide) rest
    obtain ⟨n, rfl⟩ : ∃ m, n = m + 1 := ⟨n - 1, by omega⟩
    rw [parseLoop, hclose, if_pos (Or.inr List.head?_cons)]
    rfl
  | cons token tokens ih =>
    intro n head patterns hhead hn htokens
    obtain ⟨n, rfl⟩ : ∃ m, n = m + 1 := ⟨n - 1, by omega⟩
    obtain ⟨hlast, pattern, hpattern⟩ := htokens token List.mem_cons_self
    have hskip : skipSpaces head = token.text (QuotedToken.closing tokens rest) := by
      rw [← skipSpaces_closing]
      rcases hhead with rfl | rfl
      · rfl
      · exact List.dropWhile_idempotent _ _
    have hpair : parsePair W c (ofPatterns raw patterns) head = _ := parsePair_text hskip hlast hpattern
    have hshort := parsePair_lt hpair
    rw [parseLoop, if_neg (closing_goes_on hhead), hpair]
    simp only
    rw [ih (Or.inr rfl) (by omega) fun t ht => htokens t (List.mem_cons_of_mem _ ht), setPatterns,
      setPatterns, List.foldl_cons, hpattern]
    rfl

/-- With one token for each field, every field has the pattern that is written for it. -/
lemma setPatterns_eq : ∀ {tokens : List QuotedToken} {patterns : PatternField → Option Pattern},
    (tokens.map QuotedToken.field).Nodup →
    (∀ token ∈ tokens, ∃ pattern, patternCreate W token.value = .ok pattern) →
    setPatterns W tokens patterns
      = fun field => (QuotedToken.given W tokens field).or (patterns field) := by
  intro tokens
  induction tokens with
  | nil => exact fun _ _ => rfl
  | cons token tokens ih =>
    intro patterns hnodup htokens
    rw [List.map_cons, List.nodup_cons] at hnodup
    obtain ⟨pattern, hpattern⟩ := htokens token List.mem_cons_self
    rw [setPatterns, List.foldl_cons, ← setPatterns,
      ih hnodup.2 fun t ht => htokens t (List.mem_cons_of_mem _ ht)]
    ext1 field
    by_cases hfield : token.field = field
    · subst hfield
      have hnone : QuotedToken.given W tokens token.field = none := by
        rw [QuotedToken.given, List.find?_eq_none.mpr]
        · rfl
        · intro t ht heq
          exact hnodup.1 (List.mem_map.mpr ⟨t, ht, by simpa using heq⟩)
      rw [hnone, Function.update_self, QuotedToken.given, List.find?_cons_of_pos (by simp),
        Option.bind_some, hpattern]
      rfl
    · rw [Function.update_of_ne (Ne.symm hfield), QuotedToken.given, QuotedToken.given,
        List.find?_cons_of_neg (by simpa using hfield)]

/-! ## The whole block -/

lemma closing_append (tokens : List QuotedToken) (rest : Str) :
    QuotedToken.closing tokens rest = QuotedToken.closing tokens [] ++ rest := by
  induction tokens with
  | nil => rfl
  | cons token tokens ih =>
    simp only [QuotedToken.closing, List.foldr_cons, QuotedToken.text] at ih ⊢
    rw [ih]
    simp

lemma nul_not_mem_escapeQuotes {value : Str} (h : nul ∉ value) : nul ∉ escapeQuotes value := by
  intro hmem
  obtain ⟨ch, hch, hnul⟩ := List.mem_flatMap.mp hmem
  split_ifs at hnul
  · exact absurd hnul (by decide)
  · exact h (List.mem_singleton.mp hnul ▸ hch)

lemma nul_not_mem_closing {tokens : List QuotedToken} (h : ∀ token ∈ tokens, nul ∉ token.value) :
    nul ∉ QuotedToken.closing tokens [] := by
  induction tokens with
  | nil => decide
  | cons token tokens ih =>
    have hwritten : nul ∉ token.field.written := by
      cases token.field <;> decide
    have hescape := nul_not_mem_escapeQuotes (h token List.mem_cons_self)
    have hrest := ih fun t ht => h t (List.mem_cons_of_mem _ ht)
    have hconst : nul ≠ '=' ∧ nul ≠ doubleQuote ∧ nul ≠ ' ' := by decide
    rw [QuotedToken.closing, List.foldr_cons, ← QuotedToken.closing, QuotedToken.text]
    simp [hwritten, hescape, hrest, hconst]

lemma isEmpty_ofPatterns {raw : Str} {patterns : PatternField → Option Pattern} {field : PatternField}
    {pattern : Pattern} (h : patterns field = some pattern) : (ofPatterns raw patterns).isEmpty = false := by
  cases field <;> simp [isEmpty, ofPatterns, h]

/-- A block with values in quotes is accepted, if the patterns compile, and every field has the
pattern of the value that is written for it. -/
lemma parse_block (c : Compositor) {tokens : List QuotedToken} (hne : tokens ≠ [])
    (hnodup : (tokens.map QuotedToken.field).Nodup)
    (hvalues : ∀ token ∈ tokens, nul ∉ token.value ∧ token.value.getLast? ≠ some backslash)
    (hcompile : ∀ token ∈ tokens, ∃ pattern, patternCreate W token.value = .ok pattern) (rest : Str) :
    parse W c (cStr (QuotedToken.block tokens ++ rest))
        = .ok (.ok (ofPatterns (QuotedToken.block tokens) (QuotedToken.given W tokens))) ∧
      (cStr (QuotedToken.block tokens ++ rest)).drop (QuotedToken.block tokens).length = cStr rest := by
  have hnul : nul ∉ QuotedToken.block tokens := by
    rw [QuotedToken.block, List.mem_cons, not_or]
    exact ⟨by decide, nul_not_mem_closing fun t ht => (hvalues t ht).1⟩
  have hcstr : cStr (QuotedToken.block tokens ++ rest) = QuotedToken.block tokens ++ cStr rest := by
    refine List.takeWhile_append_of_pos fun ch hch => ?_
    rw [decide_eq_true_iff]
    rintro rfl
    exact hnul hch
  have hblock : QuotedToken.block tokens ++ cStr rest = '[' :: QuotedToken.closing tokens (cStr rest) := by
    rw [closing_append, QuotedToken.block, List.cons_append]
  -- the loop reads all tokens and stops at the bracket
  have hloop : parseLoop W c (('[' :: QuotedToken.closing tokens (cStr rest)).length + 1)
      (ofPatterns [] fun _ => none) (QuotedToken.closing tokens (cStr rest)) = _ :=
    parseLoop_closing (Or.inl rfl) (by rw [List.length_cons]; omega) fun t ht =>
      ⟨(hvalues t ht).2, hcompile t ht⟩
  have hpatterns : setPatterns W tokens (fun _ => none) = QuotedToken.given W tokens := by
    rw [setPatterns_eq hnodup hcompile]
    ext1 field
    rw [Option.or_none]
  -- at least one member is set
  have hempty : (ofPatterns [] (QuotedToken.given W tokens)).isEmpty = false := by
    obtain ⟨token, tokens', rfl⟩ := List.exists_cons_of_ne_nil hne
    obtain ⟨pattern, hpattern⟩ := hcompile token List.mem_cons_self
    have hgiven : QuotedToken.given W (token :: tokens') token.field = some pattern := by
      rw [QuotedToken.given, List.find?_cons_of_pos (by simp), Option.bind_some, hpattern]
      rfl
    exact isEmpty_ofPatterns hgiven
  have hraw : (QuotedToken.block tokens ++ cStr rest).take
      ((QuotedToken.block tokens ++ cStr rest).length - (cStr rest).length) = QuotedToken.block tokens := by
    rw [List.length_append, Nat.add_sub_cancel, List.take_left]
  rw [hcstr]
  refine ⟨?_, List.drop_left⟩
  rw [hpatterns] at hloop
  rw [hblock] at hraw ⊢
  have hopen : ¬ (('[' :: QuotedToken.closing tokens (cStr rest)).head? ≠ some '[') := by simp
  have hclose : ¬ ((']' :: cStr rest).head? ≠ some ']') := by simp
  have hinit : ({} : Criteria) = ofPatterns [] fun _ => none := rfl
  rw [parse, skipSpaces_of_ne (by decide)]
  simp only [hopen, if_false, List.tail_cons, hinit, hloop, Machine.ok_bind, hclose, hempty,
    Bool.false_eq_true, hraw]
  rfl

/-- A block with values in quotes is accepted, if the patterns compile: every field has the pattern
of the value that is written for it, the block itself is kept, and `execute_command` goes on with
the text behind it. -/
theorem block_readBack (K : Commands) (c : Compositor) {tokens : List QuotedToken} (hne : tokens ≠ [])
    (hnodup : (tokens.map QuotedToken.field).Nodup)
    (hvalues : ∀ token ∈ tokens, nul ∉ token.value ∧ token.value.getLast? ≠ some backslash)
    (hcompile : ∀ token ∈ tokens, ∃ pattern, patternCreate K.library token.value = .ok pattern)
    (rest : Str) :
    let ks := ofPatterns (QuotedToken.block tokens) (QuotedToken.given K.library tokens)
    parse K.library c (cStr (QuotedToken.block tokens ++ rest)) = .ok (.ok ks) ∧
      ∀ (s : Exec) (containers : List Node), s.compositor = c → s.matchedDelim = ';' →
        ks.getContainers K.library c = .ok containers →
        s.round K (cStr (QuotedToken.block tokens ++ rest))
          = Exec.nextCommand K { s with containers := containers, usingCriteria := true }
            (skipBlanks (cStr rest)) := by
  intro ks
  obtain ⟨hparse, hdrop⟩ := parse_block c hne hnodup hvalues hcompile rest
  refine ⟨hparse, fun s containers hc hdelim hcontainers => ?_⟩
  have hskip : skipBlanks (cStr (QuotedToken.block tokens ++ rest))
      = cStr (QuotedToken.block tokens ++ rest) := List.dropWhile_cons_of_neg (by decide)
  have hopen : (cStr (QuotedToken.block tokens ++ rest)).head? = some '[' := rfl
  subst hc
  rw [Exec.round]
  simp only [hskip, hdelim, if_true, hopen, hparse]
  rw [hcontainers]
  exact congrArg (Exec.nextCommand K _) (congrArg skipBlanks hdrop)

/-- A title with brackets, quotes and backslashes in front of a command. -/
theorem title_readBack :
    let title : QuotedToken := ⟨0, .title, "a] \\\"b\\ [".toList⟩
    let K : Commands := ⟨⟨fun _ => none, fun _ _ => false, fun _ views => views⟩,
      fun _ _ _ c => .ok (⟨.success, none⟩, c)⟩
    parse K.library (.flat [] [] none) (cStr "[title=\"a] \\\\\"b\\ [\"] kill".toList)
      = .ok (.ok { raw := "[title=\"a] \\\\\"b\\ [\"]".toList, title := some (.pcre2 title.value) }) := by
  intro title K
  have hvalues : ∀ token ∈ [title], nul ∉ token.value ∧ token.value.getLast? ≠ some backslash := by
    simp only [List.forall_mem_singleton]
    decide +kernel
  have hcompile : ∀ token ∈ [title], ∃ pattern, patternCreate K.library token.value = .ok pattern := by
    simp only [List.forall_mem_singleton]
    exact ⟨.pcre2 title.value, by decide +kernel⟩
  exact (block_readBack K (.flat [] [] none) (List.cons_ne_nil title []) (List.nodup_singleton _)
    hvalues hcompile " kill".toList).1

end Criteria
end WayfireIpc
