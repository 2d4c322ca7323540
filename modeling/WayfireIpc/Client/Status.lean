/-
# The exit status of `wf-msg`

The client makes an exit status of the reply to its request: 0, or 2 if the reply tells of a
failure, or 1 if it cannot be parsed.  jsoncpp is outside the repository; `JsonCpp` says how it
writes and reads texts.
-/
import WayfireIpc.Server.Requests
import WayfireIpc.Command.Silent

namespace WayfireIpc

/-- The reader and the writer of jsoncpp. -/
structure JsonCpp where
  /-- `Json::writeString`, with the settings of `json_to_string`. -/
  writeString : Json → Buf
  /-- `Json::CharReader::parse`: whether it succeeds, and the root that it leaves.  It throws on
  values nested more deeply than its limit; such texts are left out. -/
  parse : Buf → Bool × Json

/-- The ways in which `wf-msg` can end without an exit status. -/
inductive WfMsgFault
  /-- `Json::LogicError`: a member is looked up in a value that is neither null nor an object. -/
  | jsonLogicError
deriving DecidableEq, Repr

namespace Json

/-- `Json::Value::get(key, Json::nullValue)`. -/
def get (v : Json) (key : String) : Except WfMsgFault Json :=
  match v with
  | null => .ok null
  | obj members => .ok ((members.lookup key).getD null)
  | _ => .error .jsonLogicError

end Json

namespace JsonCpp

variable (J : JsonCpp)

/-- `json::json_to_string`. -/
def jsonToString (root : Json) : Buf :=
  match root with
  | .str s => ascii s
  | .null => J.writeString (.obj [])
  | root => J.writeString root

/-- `json::string_to_json`; an error is printed, and what there is of the root is returned. -/
def stringToJson (str : Buf) : Json := if str = [] then .null else (J.parse str).2

/-- A text that `std::string(resp)` keeps as it is and that is read as the value `v`. -/
structure Reads (text : Buf) (v : Json) : Prop where
  ne_nil : text ≠ []
  nul : 0 ∉ text
  parse : J.parse text = (true, v)

variable {J}

lemma Reads.stringToJson {text : Buf} {v : Json} (h : J.Reads text v) :
    J.stringToJson text.cStr = v := by
  have hcstr : text.cStr = text := by
    refine List.takeWhile_eq_self_iff.mpr fun x hx => ?_
    rw [decide_eq_true_iff]
    rintro rfl
    exact h.nul hx
  rw [JsonCpp.stringToJson, hcstr, if_neg h.ne_nil, h.parse]

end JsonCpp

/-! ## The reply to a command string -/

/-- `command_result`; the members of an object are sorted. -/
def CommandResult.json (r : CommandResult) : Json :=
  .obj ((if r.success then [] else
      (r.error.map fun error => ("error", Json.str (String.ofList error))).toList
        ++ [("parse_error", .bool (r.status = .invalidParameter || r.status = .notFound))])
    ++ [("status", .int r.status.ctorIdx), ("success", .bool r.success)])

/-- The list that `execute_command` returns; a result is appended to a null. -/
def resListJson (resList : List CommandResult) : Json :=
  match resList with
  | [] => .null
  | resList => .arr (resList.map CommandResult.json)

/-- The run of `execute_command` for the payload of an `IPC_COMMAND`. -/
def commandRun (W : Commands) (c : Compositor) (payload : Buf) : Exec × Flow :=
  executeCommand W (Server.commandString payload).text.toList c

namespace WfMsg

/-! ## The client -/

/-- `success_object`. -/
def successObject (result : Json) : Except WfMsgFault Bool :=
  if result.isNull then .ok false
  else do
    let ret ← result.get "success"
    match ret with
    | .bool b => return b
    | _ => return true

/-- `std::any_of` in `success`. -/
def anyFailed : List Json → Except WfMsgFault Bool
  | [] => .ok false
  | result :: results => do
    if ¬ (← successObject result) then return true
    anyFailed results

/-- `success`. -/
def success (r : Json) (fallback : Bool) : Except WfMsgFault Bool :=
  match r with
  | .arr results =>
    if results = [] then .ok fallback
    else do
      let failed ← anyFailed results
      return !failed
  | .obj _ => successObject r
  | _ => .ok fallback

/-- `pretty_print_cmd`, without what it prints. -/
def prettyPrintCmd (r : Json) : Except WfMsgFault Unit :=
  if r.isNull then .ok ()
  else do
    if ¬ (← successObject r) then
      let _ ← r.get "error"
    return ()

/-- `pretty_print`, without what it prints; `printOther` stands for it on the types other than
`IPC_COMMAND`. -/
def prettyPrint (printOther : IpcPayloadType → Json → Except WfMsgFault Unit)
    (type : IpcPayloadType) (resp : Json) : Except WfMsgFault Unit :=
  match type with
  | .command => resp.elements.forM prettyPrintCmd
  | type => printOther type resp

/-- The options of `wf-msg`. -/
structure Options where
  quiet : Bool
  raw : Bool
  monitor : Bool
deriving DecidableEq, Repr

/-- The status that is left of `exit(-1)`, by which `client_abort` ends the process. -/
def abortStatus : ℕ := 255

/-- The loop over the events after a subscription, for the payloads that are received before the
connection ends.  At its end `ipc_recv_response` aborts. -/
def watch (J : JsonCpp) (monitor : Bool) : List Buf → ℕ
  | [] => abortStatus
  | payload :: payloads =>
    let obj := J.stringToJson payload.cStr
    if obj.isNull || obj.empty then 1
    else if monitor then watch J monitor payloads
    else 0

/-- Whether the reply is printed with `pretty_print`. -/
def printsPretty (opts : Options) (type : IpcPayloadType) (ret : ℕ) : Bool :=
  !opts.quiet && (type ≠ .subscribe || ret ≠ 0) && !opts.raw

/-- `main`, from the reply on. -/
def main (J : JsonCpp) (printOther : IpcPayloadType → Json → Except WfMsgFault Unit)
    (opts : Options) (type : IpcPayloadType) (resp : Buf) (events : List Buf) :
    Except WfMsgFault ℕ :=
  let result := J.stringToJson resp.cStr
  if result.isNull || result.empty then .ok 1
  else do
    let ret := if ← success result true then 0 else 2
    if printsPretty opts type ret then prettyPrint printOther type result
    return if type = .subscribe && ret = 0 then watch J opts.monitor events else ret

/-! ## Replies to commands -/

variable {J : JsonCpp} {printOther : IpcPayloadType → Json → Except WfMsgFault Unit} {opts : Options}

/-- The client finds the member `success` of a result. -/
lemma successObject_json (r : CommandResult) : successObject r.json = .ok r.success := by
  obtain ⟨status, error⟩ := r
  by_cases hstatus : status = .success
  · subst hstatus
    rfl
  · have hsuccess : CommandResult.success ⟨status, error⟩ = false := by
      simpa [CommandResult.success] using hstatus
    rw [successObject, CommandResult.json, hsuccess]
    cases error <;> rfl

lemma anyFailed_json (resList : List CommandResult) :
    anyFailed (resList.map CommandResult.json) = .ok (resList.any fun r => !r.success) := by
  induction resList with
  | nil => rfl
  | cons r resList ih =>
    rw [List.map_cons, anyFailed, successObject_json, Machine.ok_bind, ih, List.any_cons]
    cases r.success <;> rfl

lemma prettyPrintCmd_json (r : CommandResult) : prettyPrintCmd r.json = .ok () := by
  have hnull : r.json.isNull = false := rfl
  rw [prettyPrintCmd, hnull, if_neg Bool.false_ne_true, successObject_json, Machine.ok_bind]
  split_ifs
  · rfl
  · rfl

/-- The results of a command string are printed. -/
lemma prettyPrint_results (resList : List CommandResult) :
    prettyPrint printOther .command (.arr (resList.map CommandResult.json)) = .ok () := by
  show (resList.map CommandResult.json).forM prettyPrintCmd = .ok ()
  induction resList with
  | nil => rfl
  | cons r resList ih =>
    change (prettyPrintCmd r.json >>= fun _ => (resList.map CommandResult.json).forM prettyPrintCmd) = _
    rw [prettyPrintCmd_json]
    exact ih

/-- For a reply that is not empty, `main` judges it, prints it and then watches the events. -/
lemma main_of_reads {v : Json} {type : IpcPayloadType} {resp : Buf} {events : List Buf}
    (hread : J.Reads resp v) (hempty : v.empty = false) :
    main J printOther opts type resp events = (success v true >>= fun ok =>
      (if printsPretty opts type (if ok then 0 else 2) then prettyPrint printOther type v else .ok ())
        >>= fun _ => .ok (if type = .subscribe ∧ ok = true then watch J opts.monitor events
          else if ok then 0 else 2)) := by
  have hnull : v.isNull = false := by
    cases v <;> first | rfl | cases hempty
  simp only [main, hread.stringToJson, hnull, hempty, Bool.or_false, Bool.false_eq_true, if_false]
  refine congrArg _ (funext fun ok => ?_)
  have hwatch : (decide (type = .subscribe) && decide ((if ok = true then 0 else 2) = 0)) = true ↔
      type = .subscribe ∧ ok = true := by
    cases ok <;> simp
  simp only [hwatch]
  by_cases hprint : printsPretty opts type (if ok = true then 0 else 2) = true
  · rw [if_pos hprint, if_pos hprint]
    rfl
  · rw [if_neg hprint, if_neg hprint]
    rfl

lemma main_of_empty {v : Json} {type : IpcPayloadType} {resp : Buf} {events : List Buf}
    (hread : J.Reads resp v) (hempty : v.empty = true) :
    main J printOther opts type resp events = .ok 1 := by
  simp only [main, hread.stringToJson, hempty, Bool.or_true, if_true]

/-- The exit status for a list of results that is not empty. -/
lemma main_results {resList : List CommandResult} (hne : resList ≠ []) {resp : Buf} {events : List Buf}
    (hread : J.Reads resp (.arr (resList.map CommandResult.json))) :
    main J printOther opts .command resp events
      = .ok (if ∃ r ∈ resList, r.success = false then 2 else 0) := by
  have hempty : (Json.arr (resList.map CommandResult.json)).empty = false := by
    simpa [Json.empty] using hne
  have hsuccess : success (.arr (resList.map CommandResult.json)) true
      = .ok (!(resList.any fun r => !r.success)) := by
    rw [success, if_neg (by simpa using hne), anyFailed_json]
    rfl
  rw [main_of_reads hread hempty, hsuccess, Machine.ok_bind, prettyPrint_results, ite_self,
    Machine.ok_bind, if_neg (by simp)]
  by_cases hfail : ∃ r ∈ resList, r.success = false
  · simp [hfail]
  · simp [hfail]

/-! ## Other replies -/

/-- An element of a reply that tells of no failure: an object whose member `success` is not
false. -/
def Succeeds (v : Json) : Prop :=
  ∃ members, v = .obj members ∧ members.lookup "success" ≠ some (.bool false)

/-- Up to the first element that tells of a failure, only objects are looked at; that element is an
object or a null. -/
def Judgeable (results : List Json) : Prop :=
  ∀ pre x post, results = pre ++ x :: post → (∀ y ∈ pre, Succeeds y) →
    x = .null ∨ ∃ members, x = .obj members

/-- The reply tells of a failure. -/
def Fails (v : Json) : Prop :=
  match v with
  | .arr results => ∃ x ∈ results, ¬ Succeeds x
  | .obj members => ¬ Succeeds (.obj members)
  | _ => False

lemma successObject_obj (members : List (String × Json)) :
    ∃ b, successObject (.obj members) = .ok b ∧ (b = true ↔ Succeeds (.obj members)) := by
  have hlookup : Succeeds (.obj members) ↔ members.lookup "success" ≠ some (.bool false) := by
    constructor
    · rintro ⟨members', h, hne⟩
      cases h
      exact hne
    · exact fun h => ⟨members, rfl, h⟩
  rw [hlookup]
  simp only [successObject, Json.isNull, Json.get, Bool.false_eq_true, if_false, Machine.ok_bind]
  cases members.lookup "success" with
  | none => exact ⟨true, rfl, by simp⟩
  | some ret =>
    cases ret with
    | bool b => exact ⟨b, rfl, by cases b <;> simp⟩
    | null | int | real | str | arr | obj => exact ⟨true, rfl, by simp⟩

/-- The elements are judged up to the first failure, unless a lookup throws. -/
lemma anyFailed_spec (results : List Json) :
    (Judgeable results ∧ ∃ b, anyFailed results = .ok b ∧ (b = true ↔ ∃ x ∈ results, ¬ Succeeds x)) ∨
      ¬ Judgeable results ∧ anyFailed results = .error .jsonLogicError := by
  induction results with
  | nil => exact Or.inl ⟨fun pre x post h => by simp at h, false, rfl, by simp⟩
  | cons v results ih =>
    -- the elements behind one that tells of no failure
    have hcons : Succeeds v → (Judgeable (v :: results) ↔ Judgeable results) := by
      intro hv
      constructor
      · intro h pre x post hsplit hpre
        refine h (v :: pre) x post (by rw [hsplit, List.cons_append]) ?_
        exact List.forall_mem_cons.mpr ⟨hv, hpre⟩
      · rintro h (_ | ⟨y, pre⟩) x post hsplit hpre
        · cases hsplit
          obtain ⟨members, rfl, -⟩ := hv
          exact Or.inr ⟨members, rfl⟩
        · cases hsplit
          exact h pre x post rfl (List.forall_mem_cons.mp hpre).2
    have hfirst : ¬ Succeeds v → (v = .null ∨ ∃ members, v = .obj members) →
        Judgeable (v :: results) := by
      rintro hv hshape (_ | ⟨y, pre⟩) x post hsplit hpre
      · cases hsplit
        exact hshape
      · cases hsplit
        exact absurd (hpre v List.mem_cons_self) hv
    have hother : ¬ (v = .null ∨ ∃ members, v = .obj members) → ¬ Judgeable (v :: results) :=
      fun hshape h => hshape (h [] v results rfl (by simp))
    rw [anyFailed]
    cases v with
    | null =>
      have hv : ¬ Succeeds .null := by rintro ⟨members, h, -⟩; cases h
      exact Or.inl ⟨hfirst hv (Or.inl rfl), true, rfl, by simp [hv]⟩
    | obj members =>
      obtain ⟨b, hb, hiff⟩ := successObject_obj members
      rw [hb, Machine.ok_bind]
      cases b with
      | true =>
        have hv := hiff.mp rfl
        rw [hcons hv]
        simpa [hv] using ih
      | false =>
        have hv : ¬ Succeeds (.obj members) := fun h => by simpa using hiff.mpr h
        exact Or.inl ⟨hfirst hv (Or.inr ⟨members, rfl⟩), true, rfl, by simp [hv]⟩
    | bool | int | real | str | arr => exact Or.inr ⟨hother (by simp), rfl⟩

/-- The elements of an array can be judged. -/
def Judged (v : Json) : Prop :=
  match v with
  | .arr results => Judgeable results
  | _ => True

lemma success_spec {v : Json} (hempty : v.empty = false) :
    (Judged v ∧ ∃ ok, success v true = .ok ok ∧ (ok = true ↔ ¬ Fails v)) ∨
      ¬ Judged v ∧ success v true = .error .jsonLogicError := by
  cases v with
  | arr results =>
    have hne : results ≠ [] := by
      rintro rfl
      cases hempty
    rw [success, if_neg hne]
    rcases anyFailed_spec results with ⟨hjudge, b, hb, hiff⟩ | ⟨hjudge, hb⟩
    · rw [hb]
      refine Or.inl ⟨hjudge, !b, rfl, ?_⟩
      rw [Fails, ← hiff]
      cases b <;> simp
    · rw [hb]
      exact Or.inr ⟨hjudge, rfl⟩
  | obj members =>
    obtain ⟨b, hb, hiff⟩ := successObject_obj members
    exact Or.inl ⟨trivial, b, hb, by rw [hiff, Fails, not_not]⟩
  | null | bool | int | real | str => exact Or.inl ⟨trivial, true, rfl, by simp [Fails]⟩

/-- After a subscription the exit status is 0 or 2 exactly if only one event is waited for, one comes,
and it is not empty. -/
lemma watch_iff (monitor : Bool) {payloads : List Buf} {events : List Json}
    (h : List.Forall₂ J.Reads payloads events) :
    (watch J monitor payloads = 0 ∨ watch J monitor payloads = 2) ↔
      monitor = false ∧ ∃ e ∈ events.head?, e.empty = false := by
  induction h with
  | nil => simp [watch, abortStatus]
  | @cons payload event payloads events hread hrest ih =>
    have hnull : (event.isNull || event.empty) = event.empty := by cases event <;> rfl
    simp only [watch, hread.stringToJson, hnull]
    cases hempty : event.empty with
    | true => simp [hempty]
    | false =>
      rw [if_neg Bool.false_ne_true]
      cases monitor with
      | true =>
        rw [if_pos rfl, ih]
        simp
      | false => simp [hempty]

/-- A reply for which the client exits with 0 or 2: it is not empty and can be judged, it can be
printed if it is printed, and after a subscription one event is waited for, which comes and is not
empty. -/
structure Answerable (printOther : IpcPayloadType → Json → Except WfMsgFault Unit) (opts : Options)
    (type : IpcPayloadType) (v : Json) (events : List Json) : Prop where
  nonempty : v.empty = false
  judged : Judged v
  printed : opts.quiet = false → opts.raw = false → (type = .subscribe → Fails v) →
    printOther type v = .ok ()
  watched : type = .subscribe → ¬ Fails v →
    opts.monitor = false ∧ ∃ e ∈ events.head?, e.empty = false

/-- For a reply to another request, the exit status is 0 or 2 exactly if it is answerable. -/
lemma main_other_iff {v : Json} {type : IpcPayloadType} (htype : type ≠ .command) {resp : Buf}
    {payloads : List Buf} {events : List Json} (hread : J.Reads resp v)
    (hevents : List.Forall₂ J.Reads payloads events) :
    (main J printOther opts type resp payloads = .ok 0 ∨ main J printOther opts type resp payloads = .ok 2)
      ↔ Answerable printOther opts type v events := by
  cases hempty : v.empty with
  | true =>
    -- an empty answer fails
    rw [main_of_empty hread hempty]
    refine iff_of_false (by simp) fun h => ?_
    rw [h.nonempty] at hempty
    cases hempty
  | false =>
    have hprint : prettyPrint printOther type v = printOther type v := by
      cases type <;> first | rfl | exact absurd rfl htype
    rw [main_of_reads hread hempty, hprint]
    rcases success_spec hempty with ⟨hjudged, ok, hok, hfails⟩ | ⟨hjudged, herror⟩
    · have hfail : Fails v ↔ ok = false := by rw [← Bool.not_eq_true, hfails, not_not]
      have hpretty : printsPretty opts type (if ok = true then 0 else 2) = true ↔
          opts.quiet = false ∧ opts.raw = false ∧ (type = .subscribe → Fails v) := by
        rw [hfail]
        cases ok <;> simp [printsPretty, and_right_comm, and_assoc]
      -- the exit status, with or without events
      have hret : ((if type = .subscribe ∧ ok = true then watch J opts.monitor payloads
            else if ok = true then 0 else 2) = 0 ∨
          (if type = .subscribe ∧ ok = true then watch J opts.monitor payloads
            else if ok = true then 0 else 2) = 2) ↔
          (type = .subscribe → ¬ Fails v →
            opts.monitor = false ∧ ∃ e ∈ events.head?, e.empty = false) := by
        rw [hfail, ← watch_iff opts.monitor hevents]
        by_cases hsubscribe : type = .subscribe <;> cases ok <;> simp [hsubscribe]
      have hiff : Answerable printOther opts type v events ↔
          (opts.quiet = false ∧ opts.raw = false ∧ (type = .subscribe → Fails v) →
            printOther type v = .ok ()) ∧
          (type = .subscribe → ¬ Fails v →
            opts.monitor = false ∧ ∃ e ∈ events.head?, e.empty = false) :=
        ⟨fun h => ⟨fun hp => h.printed hp.1 hp.2.1 hp.2.2, h.watched⟩,
          fun h => ⟨hempty, hjudged, fun hq hr hs => h.1 ⟨hq, hr, hs⟩, h.2⟩⟩
      rw [hok, Machine.ok_bind, hiff, ← hpretty]
      by_cases hp : printsPretty opts type (if ok = true then 0 else 2) = true
      · rw [if_pos hp]
        cases hprinted : printOther type v with
        | error f => exact iff_of_false (by simp) fun h => by simpa using h.1 hp
        | ok u => simpa [hp] using hret
      · rw [if_neg hp]
        simpa [hp] using hret
    · -- the answer cannot be judged
      rw [herror]
      exact iff_of_false (by simp) fun h => hjudged h.judged

/-- For a command string the exit status is 0 or 2 according to the results exactly if there is a
command in the string; for a reply to another request it is 0 or 2 exactly if the reply is
answerable. -/
theorem exitStatus_iff (J : JsonCpp) (printOther : IpcPayloadType → Json → Except WfMsgFault Unit)
    (opts : Options) :
    (∀ (W : Commands) (c : Compositor) (payload : Buf) (events : List Buf),
      (commandRun W c payload).2 = .cleanup → J.Reads (J.writeString (.obj [])) (.obj []) →
      J.Reads (J.writeString (.arr ((commandRun W c payload).1.resList.map CommandResult.json)))
        (.arr ((commandRun W c payload).1.resList.map CommandResult.json)) →
      (main J printOther opts .command
          (J.jsonToString (resListJson (commandRun W c payload).1.resList)) events
        = .ok (if ∃ r ∈ (commandRun W c payload).1.resList, r.success = false then 2 else 0) ↔
        ¬ Exec.NoCommand W.library c ';' (cStr (Server.commandString payload).text.toList))) ∧
    ∀ (type : IpcPayloadType) (v : Json) (resp : Buf) (events : List Json) (payloads : List Buf),
      type ≠ .command → J.Reads resp v → List.Forall₂ J.Reads payloads events →
      ((main J printOther opts type resp payloads = .ok 0 ∨
          main J printOther opts type resp payloads = .ok 2) ↔
        Answerable printOther opts type v events) := by
  refine ⟨fun W c payload events hflow hnull hlist => ?_, fun type v resp events payloads htype hread
    hevents => main_other_iff htype hread hevents⟩
  rw [← executeCommand_resList_eq_nil_iff hflow]
  change _ ↔ ¬ (commandRun W c payload).1.resList = []
  cases hres : (commandRun W c payload).1.resList with
  | nil =>
    have hone : main J printOther opts .command (J.jsonToString (resListJson [])) events = .ok 1 :=
      main_of_empty hnull rfl
    rw [hone]
    simp
  | cons r rest =>
    rw [hres] at hlist
    exact iff_of_true (main_results (List.cons_ne_nil r rest) hlist) (List.cons_ne_nil r rest)

/-- jsoncpp, of whose texts those of an empty object, an empty array and one other value are read. -/
def jsonCppOn (v : Json) : JsonCpp where
  writeString := Json.writeString
  parse t := (true, if t = ascii "\x7b\x7d" then .obj [] else if t = ascii "[]" then .arr [] else v)

/-- Handlers that do nothing. -/
def idleCommands : Commands where
  library := ⟨fun _ => none, fun _ _ => false, fun _ views => views⟩
  handler := fun _ _ _ c => .ok (⟨.success, none⟩, c)

/-- A message without a command, and a list of outputs without an output, make the client exit
with 1. -/
theorem nothing_exits_with_one :
    let J := jsonCppOn .null
    let c := Compositor.flat [] [] none
    (commandRun idleCommands c []).2 = .cleanup ∧ (commandRun idleCommands c []).1.resList = [] ∧
      main J (fun _ _ => .ok ()) ⟨true, false, false⟩ .command
        (J.jsonToString (resListJson (commandRun idleCommands c []).1.resList)) [] = .ok 1 ∧
      J.Reads (ascii "[]") (.arr []) ∧
      main J (fun _ _ => .ok ()) ⟨true, false, false⟩ .getOutputs (ascii "[]") [] = .ok 1 := by
  intro J c
  have hres : (commandRun idleCommands c []).1.resList = [] := rfl
  refine ⟨rfl, hres, ?_, ⟨by decide, by decide, rfl⟩, rfl⟩
  rw [hres]
  rfl

/-- The reply to a command under criteria that select nothing. -/
def unmatchedReply : Json := .arr [CommandResult.json .noMatchingNode]

def unmatchedText : Buf := ascii
  "[\n  \x7b\n    \"error\": \"No matching node.\",\n    \"parse_error\": false,\n    \"status\": 19,\n    \"success\": false\n  \x7d\n]"

/-- A command under criteria that select nothing makes the client exit with 2, and so does the same
reply to another request. -/
theorem unmatched_exits_with_two :
    let J := jsonCppOn unmatchedReply
    let c := Compositor.flat [] [] none
    main J (fun _ _ => .ok ()) ⟨false, false, false⟩ .command
        (J.jsonToString (resListJson (commandRun idleCommands c (ascii "[con_id=1] kill")).1.resList)) []
      = .ok 2 ∧
    (main J (fun _ _ => .ok ()) ⟨false, false, false⟩ .getMarks unmatchedText [] = .ok 0 ∨
      main J (fun _ _ => .ok ()) ⟨false, false, false⟩ .getMarks unmatchedText [] = .ok 2) := by
  intro J c
  have hres : (commandRun idleCommands c (ascii "[con_id=1] kill")).1.resList = [.noMatchingNode] := by
    decide +kernel
  have hflow : (commandRun idleCommands c (ascii "[con_id=1] kill")).2 = .cleanup := by
    decide +kernel
  have hreads : J.Reads unmatchedText unmatchedReply := ⟨by decide, by decide, rfl⟩
  have hcommand := (exitStatus_iff J (fun _ _ => .ok ()) ⟨false, false, false⟩).1 idleCommands c
    (ascii "[con_id=1] kill") [] hflow ⟨by decide, by decide, rfl⟩ (by rw [hres]; exact hreads)
  have hother := (exitStatus_iff J (fun _ _ => .ok ()) ⟨false, false, false⟩).2 .getMarks
    unmatchedReply unmatchedText [] [] (by decide) hreads .nil
  have hne : ¬ Exec.NoCommand idleCommands.library c ';'
      (cStr (Server.commandString (ascii "[con_id=1] kill")).text.toList) := by
    rw [← executeCommand_resList_eq_nil_iff hflow]
    change ¬ (commandRun idleCommands c (ascii "[con_id=1] kill")).1.resList = []
    rw [hres]
    simp
  refine ⟨(hcommand.mpr hne).trans (by rw [hres]; rfl),
    hother.mpr ⟨rfl, ?_, fun _ _ _ => rfl, by rintro ⟨⟩⟩⟩
  rintro (_ | ⟨y, pre⟩) x post hsplit -
  · cases hsplit
    exact Or.inr ⟨_, rfl⟩
  · simp at hsplit

end WfMsg
end WayfireIpc
