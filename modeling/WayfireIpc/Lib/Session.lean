/-
# Sessions

A client makes requests, one at a time, and the server answers each of them; in between the server
may send notices of what the client has asked to hear about.  `SessionRules.next` follows such a session and
stops at the first entry that breaks its rules.
-/
import Mathlib.Data.List.Forall2
import WayfireIpc.Lib.Machine

namespace WayfireIpc

/-- An entry of a session, with requests in `ρ` and messages in `μ`. -/
inductive Talk (ρ μ : Type*)
  | request (r : ρ)
  | message (m : μ)
deriving DecidableEq, Repr

namespace Talk

variable {ρ μ : Type*}

/-- The requests of a session. -/
def requests (l : List (Talk ρ μ)) : List ρ :=
  l.filterMap fun
    | request r => some r
    | message _ => none

/-- The messages of a session. -/
def messages (l : List (Talk ρ μ)) : List μ :=
  l.filterMap fun
    | request _ => none
    | message m => some m

@[simp] lemma requests_append (l l' : List (Talk ρ μ)) : requests (l ++ l') = requests l ++ requests l' :=
  List.filterMap_append

@[simp] lemma messages_append (l l' : List (Talk ρ μ)) : messages (l ++ l') = messages l ++ messages l' :=
  List.filterMap_append

@[simp] lemma requests_request (r : ρ) : requests [(request r : Talk ρ μ)] = [r] := rfl

@[simp] lemma requests_message (m : μ) : requests [(message m : Talk ρ μ)] = [] := rfl

@[simp] lemma messages_request (r : ρ) : messages [(request r : Talk ρ μ)] = [] := rfl

@[simp] lemma messages_message (m : μ) : messages [(message m : Talk ρ μ)] = [m] := rfl

lemma eq_map_message {l : List (Talk ρ μ)} (h : requests l = []) :
    l = (messages l).map message := by
  induction l with
  | nil => rfl
  | cons t l ih =>
    cases t with
    | request r => cases h
    | message m => exact congrArg (message m :: ·) (ih h)

lemma eq_map_request {l : List (Talk ρ μ)} (h : messages l = []) :
    l = (requests l).map request := by
  induction l with
  | nil => rfl
  | cons t l ih =>
    cases t with
    | request r => exact congrArg (request r :: ·) (ih h)
    | message m => cases h

end Talk

/-- The rules of a session: what the client has asked to hear about is a value of `σ`. -/
structure SessionRules (ρ μ σ : Type*) where
  init : σ
  /-- What the client has asked for when a request has been answered. -/
  after : σ → ρ → σ
  answers : ρ → μ → Bool
  notice : σ → μ → Bool

/-- Where a session stands: what the client hears about, and the request it waits for. -/
structure SessionState (ρ σ : Type*) where
  topic : σ
  owed : Option ρ
deriving DecidableEq, Repr

/-- The ways to break the rules. -/
inductive Breach
  /-- A request while another one is not answered. -/
  | early
  /-- A message that is neither the answer that is due nor a notice the client has asked for. -/
  | unasked
deriving DecidableEq, Repr

namespace SessionRules

variable {ρ μ σ : Type*} (R : SessionRules ρ μ σ)

def start : SessionState ρ σ := ⟨R.init, none⟩

/-- The session after a message. -/
def hear (q : SessionState ρ σ) (m : μ) : Except Breach (SessionState ρ σ) :=
  match q.owed.filter (R.answers · m) with
  | some r => .ok ⟨R.after q.topic r, none⟩
  | none => if R.notice q.topic m then .ok q else .error .unasked

/-- The session after an entry. -/
def next (q : SessionState ρ σ) : Talk ρ μ → Except Breach (SessionState ρ σ)
  | .request r => if q.owed.isSome then .error .early else .ok ⟨q.topic, some r⟩
  | .message m => R.hear q m

/-- The session after a list of entries. -/
def follow (q : SessionState ρ σ) (l : List (Talk ρ μ)) : Except Breach (SessionState ρ σ) :=
  Machine.run R.next q l

variable {R} {q q₁ q₂ : SessionState ρ σ} {l l' : List (Talk ρ μ)} {r : ρ} {m : μ}

lemma follow_append : R.follow q (l ++ l') = .ok q₂ ↔
    ∃ q₁, R.follow q l = .ok q₁ ∧ R.follow q₁ l' = .ok q₂ := Machine.run_append_ok R.next

lemma follow_one {t : Talk ρ μ} : R.follow q [t] = R.next q t := by
  rw [follow, Machine.run_cons]
  cases R.next q t <;> rfl

/-- What a message of a session is. -/
lemma hear_ok_iff : R.hear q m = .ok q₁ ↔
    (∃ r, q.owed = some r ∧ R.answers r m = true ∧ q₁ = ⟨R.after q.topic r, none⟩) ∨
      ((∀ r, q.owed = some r → R.answers r m = false) ∧ R.notice q.topic m = true ∧ q₁ = q) := by
  rw [hear]
  cases howed : q.owed with
  | none => cases hn : R.notice q.topic m <;> simp [@eq_comm _ q₁]
  | some r =>
    cases hanswers : R.answers r m <;> cases hn : R.notice q.topic m <;>
      simp [Option.filter, hanswers, @eq_comm _ q₁]

/-- A notice that is not taken for the answer that is due. -/
lemma hear_notice (hnot : ∀ r, q.owed = some r → R.answers r m = false)
    (hm : R.notice q.topic m = true) : R.hear q m = .ok q :=
  hear_ok_iff.mpr (Or.inr ⟨hnot, hm, rfl⟩)

lemma hear_answer (howed : q.owed = some r) (hm : R.answers r m = true) :
    R.hear q m = .ok ⟨R.after q.topic r, none⟩ :=
  hear_ok_iff.mpr (Or.inl ⟨r, howed, hm, rfl⟩)

/-- Notices leave the session where it stands. -/
lemma follow_notices {ms : List μ} (hnot : ∀ m ∈ ms, ∀ r, q.owed = some r → R.answers r m = false)
    (hms : ∀ m ∈ ms, R.notice q.topic m = true) : R.follow q (ms.map .message) = .ok q := by
  induction ms with
  | nil => rfl
  | cons m ms ih =>
    obtain ⟨hnot₁, hnot⟩ := List.forall_mem_cons.mp hnot
    obtain ⟨hm, hms⟩ := List.forall_mem_cons.mp hms
    rw [List.map_cons, follow, Machine.run_cons, next, hear_notice hnot₁ hm, Machine.ok_bind]
    exact ih hnot hms

/-! ## What the rules give -/

/-- What a session has come to. -/
structure Kept (R : SessionRules ρ μ σ) (l : List (Talk ρ μ)) (q : SessionState ρ σ)
    (done : List ρ) : Prop where
  requests_eq : Talk.requests l = done ++ q.owed.toList
  topic_eq : q.topic = done.foldl R.after R.init
  /-- The answers stand for the answered requests one by one, in their order. -/
  answered : ∃ replies, replies.Sublist (Talk.messages l) ∧
    List.Forall₂ (fun r m => R.answers r m = true) done replies

lemma Kept.start : R.Kept [] R.start [] := ⟨rfl, rfl, [], .slnil, .nil⟩

lemma Kept.next {done : List ρ} {t : Talk ρ μ} (h : R.Kept l q done)
    (hnext : R.next q t = .ok q₁) : ∃ done', R.Kept (l ++ [t]) q₁ done' := by
  obtain ⟨hreqs, htopic, replies, hsub, hall⟩ := h
  cases t with
  | request r =>
    rw [SessionRules.next] at hnext
    split_ifs at hnext with howed
    cases hnext
    have hnone : q.owed = none := by simpa using howed
    refine ⟨done, ⟨?_, htopic, replies, ?_, hall⟩⟩
    · rw [Talk.requests_append, hreqs, hnone]
      simp
    · simpa using hsub
  | message m =>
    rcases hear_ok_iff.mp hnext with ⟨r, howed, hm, rfl⟩ | ⟨-, -, rfl⟩
    · -- the answer settles the request that is due
      refine ⟨done ++ [r], ⟨?_, ?_, replies ++ [m], ?_, List.rel_append hall (.cons hm .nil)⟩⟩
      · rw [Talk.requests_append, hreqs, howed]
        simp
      · rw [List.foldl_append, ← htopic]
        rfl
      · rw [Talk.messages_append]
        exact hsub.append (List.Sublist.refl _)
    · refine ⟨done, ⟨?_, htopic, replies, ?_, hall⟩⟩
      · rw [Talk.requests_append, hreqs]
        simp
      · rw [Talk.messages_append]
        exact hsub.trans (List.sublist_append_left _ _)

/-- A session that keeps the rules. -/
theorem kept_of_follow (h : R.follow R.start l = .ok q) : ∃ done, R.Kept l q done := by
  induction l using List.reverseRecOn generalizing q with
  | nil =>
    cases h
    exact ⟨[], .start⟩
  | append_singleton l t ih =>
    obtain ⟨q₁, h₁, ht⟩ := follow_append.mp h
    obtain ⟨done, hkept⟩ := ih h₁
    exact hkept.next (follow_one.symm.trans ht)

/-- Every message of a session is the answer to the request before it or a notice. -/
theorem message_of_follow {pre post : List (Talk ρ μ)}
    (h : R.follow R.start (pre ++ .message m :: post) = .ok q) :
    ∃ q₁ done, R.follow R.start pre = .ok q₁ ∧ R.Kept pre q₁ done ∧
      ((∃ r, q₁.owed = some r ∧ R.answers r m = true) ∨ R.notice q₁.topic m = true) := by
  obtain ⟨q₁, h₁, hrest⟩ := follow_append.mp h
  obtain ⟨done, hkept⟩ := kept_of_follow h₁
  obtain ⟨q₂, h₂, -⟩ := Machine.bind_ok_iff.mp hrest
  refine ⟨q₁, done, h₁, hkept, ?_⟩
  rcases hear_ok_iff.mp h₂ with ⟨r, howed, hm, -⟩ | ⟨-, hm, -⟩
  · exact Or.inl ⟨r, howed, hm⟩
  · exact Or.inr hm

/-- The messages after some point answer the request that is due there, or they are notices. -/
theorem answer_or_notice {ms : List μ} (h : R.follow q (ms.map .message) = .ok q₁) :
    ∀ m ∈ ms, (∃ r, q.owed = some r ∧ R.answers r m = true) ∨ ∃ topic, R.notice topic m = true := by
  induction ms generalizing q with
  | nil => simp
  | cons n ms ih =>
    obtain ⟨q₂, hn, hms⟩ := Machine.bind_ok_iff.mp h
    intro m hm
    rcases List.mem_cons.mp hm with rfl | hm
    · rcases hear_ok_iff.mp hn with ⟨r, howed, hr, -⟩ | ⟨-, hr, -⟩
      · exact Or.inl ⟨r, howed, hr⟩
      · exact Or.inr ⟨_, hr⟩
    · rcases hear_ok_iff.mp hn with ⟨r, -, -, rfl⟩ | ⟨-, -, rfl⟩
      · rcases ih hms m hm with ⟨r', hnone, -⟩ | hnotice
        · cases hnone
        · exact Or.inr hnotice
      · exact ih hms m hm

/-- In a session with one request, the first message answers it, as long as nothing is heard before
anything has been asked for, and the other messages are notices of what it asks for. -/
theorem messages_of_one (hquiet : ∀ m, R.notice R.init m = false)
    (h : R.follow R.start l = .ok q) (hone : Talk.requests l <+: [r]) :
    (Talk.messages l = [] ∧ q.topic = R.init ∧ Talk.requests l = q.owed.toList) ∨
      ∃ m ms, Talk.messages l = m :: ms ∧ R.answers r m = true ∧
        (∀ n ∈ ms, R.notice (R.after R.init r) n = true) ∧ Talk.requests l = [r] ∧
        q = ⟨R.after R.init r, none⟩ := by
  induction l using List.reverseRecOn generalizing q with
  | nil =>
    cases h
    exact Or.inl ⟨rfl, rfl, rfl⟩
  | append_singleton l t ih =>
    obtain ⟨q₁, h₁, ht⟩ := follow_append.mp h
    rw [follow_one] at ht
    rw [Talk.requests_append] at hone
    have hprefix : Talk.requests l <+: [r] := (List.prefix_append _ _).trans hone
    cases t with
    | request r' =>
      -- there is room for one request
      rw [next] at ht
      split_ifs at ht with howed
      cases ht
      rcases ih h₁ hprefix with ⟨hmsgs, htopic, hreqs⟩ | ⟨-, -, -, -, -, hreqs, -⟩
      · have hnone : q₁.owed = none := by simpa using howed
        exact Or.inl ⟨by simp [hmsgs], htopic, by simp [hreqs, hnone]⟩
      · have := hone.length_le
        simp [hreqs] at this
    | message m =>
      change R.hear q₁ m = .ok q at ht
      rcases ih h₁ hprefix with ⟨hmsgs, htopic, hreqs⟩ | ⟨m₀, ms, hmsgs, hm₀, hms, hreqs, rfl⟩
      · rcases hear_ok_iff.mp ht with ⟨r', howed, hm, rfl⟩ | ⟨-, hn, -⟩
        · obtain rfl : r' = r := by
            rw [hreqs, howed] at hprefix
            simpa using hprefix
          refine Or.inr ⟨m, [], by simp [hmsgs], hm, by simp, by simp [hreqs, howed], ?_⟩
          rw [htopic]
        · rw [htopic, hquiet] at hn
          cases hn
      · rcases hear_ok_iff.mp ht with ⟨r', howed, -, -⟩ | ⟨-, hn, rfl⟩
        · cases howed
        · refine Or.inr ⟨m₀, ms ++ [m], by simp [hmsgs], hm₀, fun n hmem => ?_, by simpa using hreqs,
            rfl⟩
          rcases List.mem_append.mp hmem with hmem | hmem
          · exact hms n hmem
          · rwa [List.mem_singleton.mp hmem]

end SessionRules

end WayfireIpc
