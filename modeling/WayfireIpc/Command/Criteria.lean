/-
# Criteria

The criteria block before a command, as `criteria::parse` reads it.  PCRE2 is outside the
repository; `Library` says which patterns compile and which texts a pattern matches.
-/
import WayfireIpc.Command.Tools
import WayfireIpc.Compositor.Describe

namespace WayfireIpc

/-- The libraries that the criteria use. -/
structure Library where
  /-- `pcre2_compile`: the error message for a pattern that does not compile. -/
  compile : Str → Option Str
  /-- Whether `pcre2_match` of a pattern on a text gives no negative result. -/
  isMatch : Str → Str → Bool
  /-- `std::sort` with a comparison that need not be an order, so that it may put the
  elements in any order. -/
  sort : (ViewRef → ViewRef → Bool) → List ViewRef → List ViewRef

/-- `pattern`; a compiled pattern is named by its text. -/
inductive Pattern
  | pcre2 (value : Str)
  | focused
deriving DecidableEq, Repr

/-- The member `urgent`: 'l' for latest, 'o' for oldest. -/
inductive UrgentOrder
  | latest | oldest
deriving DecidableEq, Repr

/-- `criteria`; a member that is not set is `none`, `false` or 0. -/
structure Criteria where
  /-- The whole block, brackets inclusive. -/
  raw : Str := []
  title : Option Pattern := none
  shell : Option Pattern := none
  appId : Option Pattern := none
  conMark : Option Pattern := none
  conId : UInt32 := 0
  all : Bool := false
  floating : Bool := false
  tiling : Bool := false
  urgent : Option UrgentOrder := none
  workspace : Option Pattern := none
  pid : Int32 := 0
deriving DecidableEq, Repr

/-- `criteria_token`. -/
inductive CriteriaToken
  | all | appId | conId | conMark | floating | shell | tiling | title | urgent | workspace | pid
deriving DecidableEq, Repr

namespace Criteria

/-! ## Parsing -/

/-- `is_empty`. -/
def isEmpty (ks : Criteria) : Bool :=
  ks.title = none && ks.shell = none && !ks.all && ks.appId = none && ks.conMark = none
    && ks.conId = 0 && !ks.floating && !ks.tiling && ks.urgent = none && ks.workspace = none
    && ks.pid = 0

/-- `pattern_create`, or the error that `generate_regex` leaves. -/
def patternCreate (W : Library) (value : Str) : Except Str Pattern :=
  if value = "__focused__".toList then .ok .focused
  else
    match W.compile value with
    | none => .ok (.pcre2 value)
    | some message =>
      .error ("Regex compilation for '".toList ++ value ++ "' failed: ".toList ++ message)

/-- `token_from_name`; `none` for `T_INVALID`. -/
def tokenFromName (name : Str) : Option CriteriaToken :=
  if name = "all".toList then some .all
  else if name = "app_id".toList then some .appId
  else if name = "con_id".toList then some .conId
  else if name = "con_mark".toList then some .conMark
  else if name = "shell".toList then some .shell
  else if name = "title".toList then some .title
  else if name = "urgent".toList then some .urgent
  else if name = "workspace".toList then some .workspace
  else if name = "tiling".toList then some .tiling
  else if name = "floating".toList then some .floating
  else if name = "pid".toList then some .pid
  else none

/-- The value of `con_id`. -/
def parseConId (c : Compositor) (value : Str) : Except Str UInt32 :=
  if value = "__focused__".toList then
    .ok (match c.focused with
      | some view => (c.view view).id
      | none => 0)
  else
    let (id, endptr) := strtoul value
    if endptr ≠ [] then
      .error "The value for 'con_id' should be '__focused__' or numeric".toList
    else .ok id.toUInt32

/-- The value of `urgent`. -/
def parseUrgent (value : Str) : Except Str UrgentOrder :=
  if value = "latest".toList ∨ value = "newest".toList ∨ value = "last".toList
      ∨ value = "recent".toList then .ok .latest
  else if value = "oldest".toList ∨ value = "first".toList then .ok .oldest
  else .error ("The value for 'urgent' must be 'first', 'last', ".toList ++
    "'latest', 'newest', 'oldest' or 'recent'".toList)

/-- The value of `pid`, cast to `pid_t`. -/
def parsePid (value : Str) : Except Str Int32 :=
  let (pid, endptr) := strtoul value
  if endptr ≠ [] then .error "The value for 'pid' should be numeric".toList
  else .ok pid.toUInt32.toInt32

/-- The part of `parse_token` that sets a member. -/
def setToken (W : Library) (c : Compositor) (ks : Criteria) (value : Str) :
    CriteriaToken → Except Str Criteria
  | .all => .ok { ks with all := true }
  | .title => (fun p => { ks with title := some p }) <$> patternCreate W value
  | .shell => (fun p => { ks with shell := some p }) <$> patternCreate W value
  | .appId => (fun p => { ks with appId := some p }) <$> patternCreate W value
  | .conId => (fun id => { ks with conId := id }) <$> parseConId c value
  | .conMark => (fun p => { ks with conMark := some p }) <$> patternCreate W value
  | .floating => .ok { ks with floating := true }
  | .tiling => .ok { ks with tiling := true }
  | .urgent => (fun u => { ks with urgent := some u }) <$> parseUrgent value
  | .workspace => (fun p => { ks with workspace := some p }) <$> patternCreate W value
  | .pid => (fun pid => { ks with pid := pid }) <$> parsePid value

/-- `parse_token`, or the error that it leaves. -/
def parseToken (W : Library) (c : Compositor) (ks : Criteria) (name : Str) (value : Option Str) :
    Except Str Criteria :=
  match tokenFromName name with
  | none => .error ("Token '".toList ++ name ++ "' is not recognized".toList)
  | some token =>
    match value with
    | none =>
      if token ≠ .all ∧ token ≠ .floating ∧ token ≠ .tiling then
        .error ("Token '".toList ++ name ++ "' requires a value".toList)
      else setToken W c ks [] token
    | some value => setToken W c ks value token

/-- `skip_spaces`. -/
def skipSpaces (head : Str) : Str := head.dropWhile (· = ' ')

/-- `unescape`. -/
def unescape : Str → Str
  | [] => []
  | [ch] => [ch]
  | ch :: ch' :: s =>
    if ch = backslash ∧ ch' = doubleQuote then doubleQuote :: unescape s
    else ch :: unescape (ch' :: s)

lemma unescape_cons {ch : Char} {s : Str} (h : ch = backslash → s.head? ≠ some doubleQuote) :
    unescape (ch :: s) = ch :: unescape s := by
  cases s with
  | nil => rfl
  | cons ch' s =>
    rw [unescape, if_neg]
    rintro ⟨hch, rfl⟩
    exact h hch rfl

/-- The characters of a name. -/
def isNameChar (ch : Char) : Bool := 'a' ≤ ch && ch ≤ 'z' || ch = '_'

/-- The loop over a value in quotes, with the character before `head`: the value and what
is left, which begins with the closing quote. -/
def quotedValue : Char → Str → Str × Str
  | _, [] => ([], [])
  | prev, ch :: head =>
    if ch ≠ doubleQuote ∨ prev = backslash then
      let (value, rest) := quotedValue ch head
      (ch :: value, rest)
    else ([], ch :: head)

/-- The part of the loop of `parse` behind the sign `=`: the value and what is left. -/
def parseValue (head : Str) : Except Str (Str × Str) :=
  let head := skipSpaces head
  if head.head? = some doubleQuote then
    match quotedValue doubleQuote head.tail with
    | (_, []) => .error "Quote mismatch in criteria".toList
    | (value, _ :: rest) => .ok (unescape value, rest)
  else
    let inValue := fun ch => ch ≠ ' ' && ch ≠ ']'
    .ok (unescape (head.takeWhile inValue), head.dropWhile inValue)

/-- One round of the loop of `parse`: a name and possibly a value. -/
def parsePair (W : Library) (c : Compositor) (ks : Criteria) (head : Str) :
    Except Str (Criteria × Str) := do
  let head := skipSpaces head
  let name := head.takeWhile isNameChar
  let head := skipSpaces (head.dropWhile isNameChar)
  if head.head? = some '=' then
    let (value, head) ← parseValue head.tail
    let ks ← parseToken W c ks name (some value)
    return (ks, skipSpaces head)
  else
    let ks ← parseToken W c ks name none
    return (ks, skipSpaces head)

/-- The loop of `parse`; the outer failure is that it does not end. -/
def parseLoop (W : Library) (c : Compositor) : ℕ → Criteria → Str →
    Except Failure (Except Str (Criteria × Str))
  | 0, _, _ => .error .diverges
  | n + 1, ks, head =>
    if head = [] ∨ head.head? = some ']' then .ok (.ok (ks, head))
    else
      match parsePair W c ks head with
      | .error error => .ok (.error error)
      | .ok (ks, head) => parseLoop W c n ks head

/-- `criteria::parse`, or the error that it reports. -/
def parse (W : Library) (c : Compositor) (raw : Str) : Except Failure (Except Str Criteria) := do
  let head := skipSpaces raw
  if head.head? ≠ some '[' then return .error "No criteria".toList
  match ← parseLoop W c (head.length + 1) {} head.tail with
  | .error error => return .error error
  | .ok (ks, head) =>
    if head.head? ≠ some ']' then return .error "No closing brace found in criteria".toList
    if ks.isEmpty then return .error "Criteria is empty".toList
    return .ok { ks with raw := raw.take (raw.length - head.tail.length) }

/-! ## Parsing ends -/

lemma length_skipSpaces_le (head : Str) : (skipSpaces head).length ≤ head.length :=
  (List.dropWhile_suffix _).length_le

lemma length_quotedValue_le : ∀ (prev : Char) (head : Str),
    (quotedValue prev head).2.length ≤ head.length := by
  intro prev head
  induction head generalizing prev with
  | nil => simp [quotedValue]
  | cons ch head ih =>
    rw [quotedValue]
    split
    · exact (ih ch).trans (Nat.le_succ _)
    · exact le_rfl

lemma length_parseValue_le {head value rest : Str} (h : parseValue head = .ok (value, rest)) :
    rest.length ≤ head.length := by
  have hskip := length_skipSpaces_le head
  rw [parseValue] at h
  dsimp only at h
  split at h
  · have hquoted := length_quotedValue_le doubleQuote (skipSpaces head).tail
    rw [List.length_tail] at hquoted
    split at h
    · cases h
    · next value' _ rest' hq =>
      cases h
      rw [hq, List.length_cons] at hquoted
      omega
  · cases h
    exact (List.dropWhile_suffix _).length_le.trans hskip

lemma tokenFromName_nil : tokenFromName [] = none := by decide

lemma parseToken_nil (W : Library) (c : Compositor) (ks : Criteria) (value : Option Str) :
    ∃ error, parseToken W c ks [] value = .error error := by
  rw [parseToken, tokenFromName_nil]
  exact ⟨_, rfl⟩

/-- A round that does not fail reads at least the name of a token. -/
lemma parsePair_lt {W : Library} {c : Compositor} {ks ks' : Criteria} {head head' : Str}
    (h : parsePair W c ks head = .ok (ks', head')) : head'.length < head.length := by
  have hskip := length_skipSpaces_le head
  set head₁ := skipSpaces head with hhead₁
  have hsplit := congrArg List.length
    (List.takeWhile_append_dropWhile (p := isNameChar) (l := head₁))
  rw [List.length_append] at hsplit
  have hskip₂ := length_skipSpaces_le (head₁.dropWhile isNameChar)
  have hname : ∀ {value ks₁}, parseToken W c ks (head₁.takeWhile isNameChar) value = .ok ks₁ →
      0 < (head₁.takeWhile isNameChar).length := by
    intro value ks₁ hok
    refine List.length_pos_iff.mpr fun hnil => ?_
    obtain ⟨error, herror⟩ := parseToken_nil W c ks value
    rw [hnil, herror] at hok
    cases hok
  simp only [parsePair, ← hhead₁] at h
  split at h
  · obtain ⟨⟨value, rest⟩, hvalue, h⟩ := Machine.bind_ok_iff.mp h
    obtain ⟨ks₁, htoken, h⟩ := Machine.bind_ok_iff.mp h
    have hpos := hname htoken
    have hrest := length_parseValue_le hvalue
    rw [List.length_tail] at hrest
    have hlast := length_skipSpaces_le rest
    cases h
    change (skipSpaces rest).length < _
    omega
  · obtain ⟨ks₁, htoken, h⟩ := Machine.bind_ok_iff.mp h
    have hpos := hname htoken
    have hlast := length_skipSpaces_le (skipSpaces (head₁.dropWhile isNameChar))
    cases h
    omega

lemma parseLoop_ends (W : Library) (c : Compositor) : ∀ (n : ℕ) (ks : Criteria) (head : Str),
    head.length < n → ∃ r, parseLoop W c n ks head = .ok r := by
  intro n
  induction n with
  | zero => intro ks head hn; omega
  | succ n ih =>
    intro ks head hn
    rw [parseLoop]
    split_ifs
    · exact ⟨_, rfl⟩
    · cases hpair : parsePair W c ks head with
      | error error => exact ⟨_, rfl⟩
      | ok r =>
        obtain ⟨ks', head'⟩ := r
        have := parsePair_lt hpair
        exact ih ks' head' (by omega)

/-- `parse` returns. -/
theorem parse_ends (W : Library) (c : Compositor) (raw : Str) : ∃ r, parse W c raw = .ok r := by
  unfold parse
  simp only
  split_ifs
  · exact ⟨_, rfl⟩
  · have hlen : (skipSpaces raw).tail.length < (skipSpaces raw).length + 1 := by
      rw [List.length_tail]
      omega
    obtain ⟨r, hr⟩ := parseLoop_ends W c _ {} _ hlen
    simp only [hr, Machine.ok_bind]
    rcases r with error | ⟨ks, head⟩
    · exact ⟨_, rfl⟩
    · simp only
      split_ifs <;> exact ⟨_, rfl⟩

/-- What a block that parses has: its tokens, and at least one member that is set. -/
lemma exists_of_parse {W : Library} {c : Compositor} {ks : Criteria} {raw : Str}
    (h : parse W c raw = .ok (.ok ks)) : ∃ ks₀ rest, (skipSpaces raw).head? = some '[' ∧
      parseLoop W c ((skipSpaces raw).length + 1) {} (skipSpaces raw).tail
        = .ok (.ok (ks₀, ']' :: rest)) ∧
      ks₀.isEmpty = false ∧ ks = { ks₀ with raw := raw.take (raw.length - rest.length) } := by
  rw [parse] at h
  split_ifs at h with hopen
  · cases h
  · obtain ⟨r, hloop, h⟩ := Machine.bind_ok_iff.mp h
    rcases r with e | ⟨ks₀, rest⟩
    · cases h
    · simp only at h
      split_ifs at h with hclose hempty
      · cases h
      · cases h
      · obtain ⟨rest, rfl⟩ := List.head?_eq_some_iff.mp (not_not.mp hclose)
        cases h
        exact ⟨ks₀, rest, not_not.mp hopen, hloop, by simpa using hempty, rfl⟩

end Criteria
end WayfireIpc
