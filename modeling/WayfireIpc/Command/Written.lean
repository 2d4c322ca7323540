/-
# The tokens of a criteria block

The names and values that stand in a criteria block, and what becomes of those of `con_id` and
`pid`: they are numbers for `strtoul`, whose result is narrowed, and 0 stands for a member that is
not set.
-/
import WayfireIpc.Command.Criteria

namespace WayfireIpc
namespace Criteria

/-- A name, and the value behind it if there is one. -/
structure WrittenToken where
  name : Str
  value : Option Str
deriving DecidableEq, Repr

/-- What a round of the loop of `parse` reads. -/
def readPair (head : Str) : Except Str (WrittenToken × Str) :=
  let head := skipSpaces head
  let name := head.takeWhile isNameChar
  let head := skipSpaces (head.dropWhile isNameChar)
  if head.head? = some '=' then
    (fun r => (⟨name, some r.1⟩, skipSpaces r.2)) <$> parseValue head.tail
  else .ok (⟨name, none⟩, skipSpaces head)

/-- The tokens up to the end of the block. -/
def readTokens : ℕ → Str → List WrittenToken
  | 0, _ => []
  | n + 1, head =>
    if head = [] ∨ head.head? = some ']' then []
    else
      match readPair head with
      | .error _ => []
      | .ok (token, head) => token :: readTokens n head

/-- The tokens that are written in a block. -/
def tokens (raw : Str) : List WrittenToken :=
  readTokens ((skipSpaces raw).length + 1) (skipSpaces raw).tail

/-- The values that are written for a name. -/
def valuesOf (name : Str) (written : List WrittenToken) : List Str :=
  written.filterMap fun token => if token.name = name then token.value else none

/-- The number that a decimal numeral stands for. -/
def decimalValue (value : Str) : Option ℕ :=
  if value ≠ [] ∧ value.all Char.isDigit then some (Nat.ofDigitChars 10 value 0) else none

/-- The id that a value of `con_id` stands for. -/
def conIdValue (c : Compositor) (value : Str) : Option ℕ :=
  if value = "__focused__".toList then c.focused.map fun v => (c.view v).id.toNat
  else decimalValue value

/-- A member is set, to the number that is written. -/
def SetTo (number : Option ℕ) (member : ℤ) : Prop := member ≠ 0 ∧ ∃ n, number = some n ∧ member = n

/-- A token of `con_id` or `pid` is in force. -/
def InForce (c : Compositor) (ks : Criteria) (token : WrittenToken) : Prop :=
  (token.name = "con_id".toList → SetTo (token.value.bind (conIdValue c)) ks.conId.toNat) ∧
  (token.name = "pid".toList → SetTo (token.value.bind decimalValue) ks.pid.toInt)

/-- All values stand for one number, which fits and is not 0. -/
def Consistent (number : Str → Option ℕ) (bound : ℕ) (values : List Str) : Prop :=
  ∀ value ∈ values, ∃ n, number value = some n ∧ 0 < n ∧ n < bound ∧
    ∀ value' ∈ values, number value' = some n

variable {W : Library} {c : Compositor} {ks ks' : Criteria}

/-! ## What parsing makes of the tokens -/

lemma parsePair_eq (head : Str) : parsePair W c ks head = (readPair head >>= fun r =>
    (·, r.2) <$> parseToken W c ks r.1.name r.1.value) := by
  simp only [parsePair, readPair]
  split_ifs
  · cases parseValue (skipSpaces ((skipSpaces head).dropWhile isNameChar)).tail with
    | error error => rfl
    | ok r => rfl
  · rfl

/-- The members are set token by token. -/
lemma foldlM_of_parseLoop : ∀ (n : ℕ) {ks ks' : Criteria} {head rest : Str},
    parseLoop W c n ks head = .ok (.ok (ks', rest)) →
      (readTokens n head).foldlM (fun ks token => parseToken W c ks token.name token.value) ks
        = .ok ks' := by
  intro n
  induction n with
  | zero => intro ks ks' head rest h; cases h
  | succ n ih =>
    intro ks ks' head rest h
    rw [parseLoop] at h
    rw [readTokens]
    split_ifs at h ⊢ with hend
    · cases h
      rfl
    · split at h
      · cases h
      · rename_i ks₁ head₁ hpair
        rw [parsePair_eq] at hpair
        obtain ⟨⟨token, rest₁⟩, hread, hpair⟩ := Machine.bind_ok_iff.mp hpair
        obtain ⟨ks₂, htoken, heq⟩ := Machine.map_ok_iff.mp hpair
        cases heq
        rw [hread]
        simp only [List.foldlM_cons]
        exact Machine.bind_ok_iff.mpr ⟨ks₁, htoken, ih h⟩

lemma mem_valuesOf {name value : Str} {written : List WrittenToken} :
    value ∈ valuesOf name written ↔ ∃ token ∈ written, token.name = name ∧ token.value = some value := by
  simp [valuesOf]

/-- A member that only the tokens of one name set has the value of one of them, if there is any. -/
lemma member_of_foldlM {α : Type} {name : Str} {member : Criteria → α} {read : Str → Except Str α}
    (hset : ∀ ks v ks', parseToken W c ks name v = .ok ks' →
      ∃ value, v = some value ∧ read value = .ok (member ks'))
    (hother : ∀ ks name' v ks', name' ≠ name → parseToken W c ks name' v = .ok ks' →
      member ks' = member ks) : ∀ {written : List WrittenToken} {ks ks' : Criteria},
    written.foldlM (fun ks token => parseToken W c ks token.name token.value) ks = .ok ks' →
      (valuesOf name written = [] ∧ member ks' = member ks ∨
        ∃ value ∈ valuesOf name written, read value = .ok (member ks')) ∧
      ∀ token ∈ written, token.name = name → ∃ value, token.value = some value := by
  intro written
  induction written with
  | nil =>
    intro ks ks' h
    cases h
    exact ⟨Or.inl ⟨rfl, rfl⟩, fun _ ht => absurd ht List.not_mem_nil⟩
  | cons token written ih =>
    intro ks ks' h
    rw [List.foldlM_cons] at h
    obtain ⟨ks₁, hparse, h⟩ := Machine.bind_ok_iff.mp h
    obtain ⟨hlast, hall⟩ := ih h
    by_cases hname : token.name = name
    · -- a token of the name sets the member
      obtain ⟨value, hvalue, hread⟩ := hset ks _ ks₁ (hname ▸ hparse)
      have hcons : valuesOf name (token :: written) = value :: valuesOf name written := by
        rw [valuesOf, List.filterMap_cons, if_pos hname, hvalue]
        rfl
      rw [hcons]
      constructor
      · refine Or.inr ?_
        rcases hlast with ⟨-, hmember⟩ | ⟨v, hv, hread'⟩
        · exact ⟨value, List.mem_cons_self, hmember ▸ hread⟩
        · exact ⟨v, List.mem_cons_of_mem _ hv, hread'⟩
      · rintro t (_ | ⟨_, ht⟩) hname'
        · exact ⟨value, hvalue⟩
        · exact hall t ht hname'
    · -- another token leaves it
      have hcons : valuesOf name (token :: written) = valuesOf name written := by
        rw [valuesOf, List.filterMap_cons, if_neg hname]
        rfl
      rw [hcons]
      constructor
      · rcases hlast with ⟨hnil, hmember⟩ | hlast
        · exact Or.inl ⟨hnil, hmember.trans (hother ks _ _ ks₁ hname hparse)⟩
        · exact Or.inr hlast
      · rintro t (_ | ⟨_, ht⟩) hname'
        · exact absurd hname' hname
        · exact hall t ht hname'

/-! ## The tokens of `con_id` and `pid` -/

/-- The name of a token. -/
def tokenText : CriteriaToken → Str
  | .all => "all".toList
  | .appId => "app_id".toList
  | .conId => "con_id".toList
  | .conMark => "con_mark".toList
  | .shell => "shell".toList
  | .title => "title".toList
  | .urgent => "urgent".toList
  | .workspace => "workspace".toList
  | .tiling => "tiling".toList
  | .floating => "floating".toList
  | .pid => "pid".toList

lemma of_ite_eq_some {α : Type*} {p : Prop} [Decidable p] {a b : α} {o : Option α}
    (h : (if p then some a else o) = some b) : (p ∧ a = b) ∨ o = some b := by
  split at h
  · exact Or.inl ⟨‹p›, Option.some.inj h⟩
  · exact Or.inr h

lemma eq_of_tokenFromName {name : Str} {token : CriteriaToken}
    (h : tokenFromName name = some token) : name = tokenText token := by
  rw [tokenFromName] at h
  -- one test for each of the tokens
  iterate 11
    rcases of_ite_eq_some h with ⟨hname, rfl⟩ | h
    · exact hname
  cases h

/-- The members that a token other than `con_id` or `pid` leaves as they are. -/
lemma setToken_frame {value : Str} {token : CriteriaToken} (h : setToken W c ks value token = .ok ks') :
    (token ≠ .conId → ks'.conId = ks.conId) ∧ (token ≠ .pid → ks'.pid = ks.pid) := by
  cases token with
  | all | floating | tiling =>
    cases h
    exact ⟨fun _ => rfl, fun _ => rfl⟩
  | title | shell | appId | conMark | workspace | urgent =>
    obtain ⟨p, -, rfl⟩ := Machine.map_ok_iff.mp h
    exact ⟨fun _ => rfl, fun _ => rfl⟩
  | conId =>
    obtain ⟨p, -, rfl⟩ := Machine.map_ok_iff.mp h
    exact ⟨fun hne => absurd rfl hne, fun _ => rfl⟩
  | pid =>
    obtain ⟨p, -, rfl⟩ := Machine.map_ok_iff.mp h
    exact ⟨fun _ => rfl, fun hne => absurd rfl hne⟩

/-- A token that is accepted has a value unless it needs none, and sets its member. -/
lemma setToken_of_parseToken {name : Str} {v : Option Str} (h : parseToken W c ks name v = .ok ks') :
    ∃ token value, tokenFromName name = some token ∧ setToken W c ks value token = .ok ks' ∧
      (v = some value ∨ token = .all ∨ token = .floating ∨ token = .tiling) := by
  rw [parseToken] at h
  split at h
  · cases h
  · rename_i token htoken
    cases v with
    | none =>
      simp only at h
      split_ifs at h with hneeds
      refine ⟨token, [], htoken, h, Or.inr ?_⟩
      tauto
    | some value => exact ⟨token, value, htoken, h, Or.inl rfl⟩

lemma conId_parseToken {v : Option Str} (h : parseToken W c ks "con_id".toList v = .ok ks') :
    ∃ value, v = some value ∧ parseConId c value = .ok ks'.conId := by
  obtain ⟨token, value, htoken, hset, hvalue⟩ := setToken_of_parseToken h
  cases htoken
  obtain ⟨id, hid, rfl⟩ := Machine.map_ok_iff.mp hset
  exact ⟨value, by simpa using hvalue, hid⟩

lemma pid_parseToken {v : Option Str} (h : parseToken W c ks "pid".toList v = .ok ks') :
    ∃ value, v = some value ∧ parsePid value = .ok ks'.pid := by
  obtain ⟨token, value, htoken, hset, hvalue⟩ := setToken_of_parseToken h
  cases htoken
  obtain ⟨pid, hpid, rfl⟩ := Machine.map_ok_iff.mp hset
  exact ⟨value, by simpa using hvalue, hpid⟩

/-- Only the tokens of `con_id` set the id, and only those of `pid` the process. -/
lemma parseToken_frame {name : Str} {v : Option Str} (h : parseToken W c ks name v = .ok ks') :
    (name ≠ "con_id".toList → ks'.conId = ks.conId) ∧ (name ≠ "pid".toList → ks'.pid = ks.pid) := by
  obtain ⟨token, value, htoken, hset, -⟩ := setToken_of_parseToken h
  obtain ⟨hconId, hpid⟩ := setToken_frame hset
  refine ⟨fun hne => hconId ?_, fun hne => hpid ?_⟩
  · rintro rfl
    exact hne (eq_of_tokenFromName htoken)
  · rintro rfl
    exact hne (eq_of_tokenFromName htoken)

/-! ## Numerals -/

/-- What `strtoul` makes of a decimal numeral. -/
lemma strtoul_of_decimal {value : Str} {n : ℕ} (h : decimalValue value = some n) :
    strtoul value = (if 2 ^ 64 ≤ n then .ofNat (2 ^ 64 - 1) else .ofNat n, []) := by
  rw [decimalValue] at h
  split_ifs at h with hdigits
  have hnum := numeral_of_digits hdigits.1 (List.all_eq_true.mp hdigits.2)
  cases h
  simp only [strtoul, hnum]
  rfl

lemma toNat_of_parseConId {value : Str} {id : UInt32} {n : ℕ} (h : parseConId c value = .ok id)
    (hn : conIdValue c value = some n) (hlt : n < 2 ^ 32) : id.toNat = n := by
  rw [parseConId] at h
  rw [conIdValue] at hn
  split_ifs at h hn with hfocused
  · obtain ⟨v, hv, rfl⟩ := Option.map_eq_some_iff.mp hn
    rw [hv] at h
    cases h
    rfl
  · rw [strtoul_of_decimal hn, if_neg (by omega)] at h
    cases h
    simp only [UInt64.toNat_toUInt32, UInt64.toNat_ofNat']
    omega

lemma toInt_of_parsePid {value : Str} {pid : Int32} {n : ℕ} (h : parsePid value = .ok pid)
    (hn : decimalValue value = some n) (hlt : n < 2 ^ 31) : pid.toInt = n := by
  rw [parsePid, strtoul_of_decimal hn, if_neg (by omega)] at h
  cases h
  have hnat : (UInt64.ofNat n).toUInt32.toBitVec.toNat = n := by
    rw [UInt32.toNat_toBitVec, UInt64.toNat_toUInt32, UInt64.toNat_ofNat']
    omega
  calc (UInt64.ofNat n).toUInt32.toInt32.toInt
      = (UInt64.ofNat n).toUInt32.toBitVec.toInt := rfl
    _ = n := by rw [BitVec.toInt_eq_toNat_of_lt (by omega), hnat]

/-- A member with one of the values that are written has them all exactly when they agree. -/
lemma setTo_iff {number : Str → Option ℕ} {bound : ℕ} {values : List Str} {member : ℤ}
    (hbound : member < bound) (hlast : values = [] ∨
      ∃ value ∈ values, ∀ n < bound, number value = some n → member = n) :
    (∀ value ∈ values, SetTo (number value) member) ↔ Consistent number bound values := by
  constructor
  · intro hall value hvalue
    obtain ⟨hne, n, hn, hmember⟩ := hall value hvalue
    refine ⟨n, hn, by omega, by omega, fun value' hvalue' => ?_⟩
    obtain ⟨-, n', hn', hmember'⟩ := hall value' hvalue'
    rw [hn', show n' = n by omega]
  · intro hall value hvalue
    obtain ⟨n, hn, hpos, hlt, hsame⟩ := hall value hvalue
    obtain ⟨last, hmem, hread⟩ := hlast.resolve_left (List.ne_nil_of_mem hvalue)
    have hmember := hread n hlt (hsame last hmem)
    exact ⟨by omega, n, hn, hmember⟩

/-- The tokens of one name, and their values. -/
lemma forall_valuesOf {name : Str} {written : List WrittenToken} {P : Option ℕ → Prop}
    {number : Str → Option ℕ}
    (hvalue : ∀ token ∈ written, token.name = name → ∃ value, token.value = some value) :
    (∀ token ∈ written, token.name = name → P (token.value.bind number)) ↔
      ∀ value ∈ valuesOf name written, P (number value) := by
  constructor
  · intro hall value hmem
    obtain ⟨token, htoken, hname, hval⟩ := mem_valuesOf.mp hmem
    simpa only [hval, Option.bind_some] using hall token htoken hname
  · intro hall token htoken hname
    obtain ⟨value, hval⟩ := hvalue token htoken hname
    rw [hval, Option.bind_some]
    exact hall value (mem_valuesOf.mpr ⟨token, htoken, hname, hval⟩)

/-- Where a block is accepted, all its tokens of `con_id` and `pid` are in force if and only if
the values of each stand for one number other than 0 that fits: they are decimal numerals of it,
or, for `con_id`, `__focused__` where the focused view has it as its id. -/
theorem tokens_inForce_iff {raw : Str} (h : parse W c (cStr raw) = .ok (.ok ks)) :
    (∀ token ∈ tokens (cStr raw), InForce c ks token) ↔
      Consistent (conIdValue c) (2 ^ 32) (valuesOf "con_id".toList (tokens (cStr raw))) ∧
        Consistent decimalValue (2 ^ 31) (valuesOf "pid".toList (tokens (cStr raw))) := by
  obtain ⟨ks₀, rest, -, hloop, -, rfl⟩ := exists_of_parse h
  have hfold := foldlM_of_parseLoop _ hloop
  change (tokens (cStr raw)).foldlM _ _ = _ at hfold
  obtain ⟨hconId, hconIdValue⟩ := member_of_foldlM (fun _ _ _ => conId_parseToken)
    (fun _ _ _ _ hne h => (parseToken_frame h).1 hne) hfold
  obtain ⟨hpid, hpidValue⟩ := member_of_foldlM (fun _ _ _ => pid_parseToken)
    (fun _ _ _ _ hne h => (parseToken_frame h).2 hne) hfold
  have hconId_lt : (ks₀.conId.toNat : ℤ) < (2 ^ 32 : ℕ) := by
    exact_mod_cast ks₀.conId.toNat_lt
  have hpid_lt : ks₀.pid.toInt < (2 ^ 31 : ℕ) := by
    exact_mod_cast ks₀.pid.toInt_lt
  have hid := setTo_iff hconId_lt (hconId.imp (·.1) fun ⟨value, hmem, hread⟩ =>
    ⟨value, hmem, fun n hlt hn => congrArg _ (toNat_of_parseConId hread hn hlt)⟩)
  have hpd := setTo_iff hpid_lt (hpid.imp (·.1) fun ⟨value, hmem, hread⟩ =>
    ⟨value, hmem, fun n hlt hn => toInt_of_parsePid hread hn hlt⟩)
  rw [← hid, ← hpd, ← forall_valuesOf (P := (SetTo · _)) hconIdValue,
    ← forall_valuesOf (P := (SetTo · _)) hpidValue]
  exact ⟨fun hall => ⟨fun t ht => (hall t ht).1, fun t ht => (hall t ht).2⟩,
    fun hall t ht => ⟨hall.1 t ht, hall.2 t ht⟩⟩

/-- A library in which every pattern compiles, and no view. -/
def noMatch : Library := ⟨fun _ => none, fun _ _ => false, fun _ views => views⟩

/-- A numeral of 33 bits is accepted as the id 5. -/
theorem wideConId_not_inForce :
    ∃ ks, parse noMatch (.flat [] [] none) (cStr "[con_id=4294967301]".toList) = .ok (.ok ks) ∧
      ks.conId = 5 ∧
      ¬ ∀ token ∈ tokens (cStr "[con_id=4294967301]".toList),
        InForce (.flat [] [] none) ks token := by
  refine ⟨{ raw := "[con_id=4294967301]".toList, conId := 5 }, rfl, rfl, fun hall => ?_⟩
  obtain ⟨-, n, hn, hid⟩ := (hall ⟨"con_id".toList, some "4294967301".toList⟩ (by decide)).1 rfl
  have hvalue : n = 4294967301 := by
    rw [← Option.some_inj, ← hn]
    decide +kernel
  rw [hvalue] at hid
  exact absurd hid (by decide)

/-- A window given twice by the same number. -/
def sameId : Str := "[con_id=7 con_id=\"07\"]".toList

lemma parse_sameId : parse noMatch (.flat [] [] none) (cStr sameId)
    = .ok (.ok { raw := sameId, conId := 7 }) := rfl

/-- Both tokens are in force. -/
theorem sameId_inForce :
    parse noMatch (.flat [] [] none) (cStr sameId) = .ok (.ok { raw := sameId, conId := 7 }) ∧
      ∀ token ∈ tokens (cStr sameId),
        InForce (.flat [] [] none) { raw := sameId, conId := 7 } token := by
  have hconId : valuesOf "con_id".toList (tokens (cStr sameId)) = ["7".toList, "07".toList] := by
    decide +kernel
  have hpid : valuesOf "pid".toList (tokens (cStr sameId)) = [] := by
    decide +kernel
  refine ⟨parse_sameId, (tokens_inForce_iff parse_sameId).mpr ⟨?_, ?_⟩⟩
  · rw [hconId]
    have hseven : ∀ value ∈ ["7".toList, "07".toList],
        conIdValue (.flat [] [] none) value = some 7 := by decide +kernel
    exact fun value hvalue => ⟨7, hseven value hvalue, by omega, by omega, hseven⟩
  · rw [hpid]
    exact fun value hvalue => absurd hvalue List.not_mem_nil

end Criteria
end WayfireIpc
