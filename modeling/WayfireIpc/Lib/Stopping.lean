/-
# Steps that may stop

A step changes a state, and then the next step is taken or everything stops for a reason.  This file
has the sequences of such steps, their laws, and what two sequences have in common.
-/
import Mathlib.Data.List.Basic

namespace WayfireIpc

/-- A step on states in `σ` that may stop for a reason in `ε`. -/
abbrev Stopping (σ ε : Type*) := σ → σ × Option ε

namespace Stopping

variable {σ τ ε α : Type*} {a b : Stopping σ ε} {s s' : σ} {e : ε}

/-- Nothing happens. -/
def skip : Stopping σ ε := fun s => (s, none)

/-- The first step, and the second one unless the first has stopped. -/
def seq (a b : Stopping σ ε) : Stopping σ ε := fun s =>
  match a s with
  | (s', none) => b s'
  | r => r

/-- The steps of a list one after the other. -/
def all (as : List (Stopping σ ε)) : Stopping σ ε := as.foldr seq skip

lemma seq_of_none (h : a s = (s', none)) : seq a b s = b s' := by rw [seq, h]

lemma seq_of_some (h : a s = (s', some e)) : seq a b s = (s', some e) := by rw [seq, h]

lemma seq_assoc (a b c : Stopping σ ε) : seq (seq a b) c = seq a (seq b c) := by
  funext s
  rcases h : a s with ⟨s', _ | e⟩
  · rw [seq, seq_of_none h, seq_of_none h]
    rfl
  · rw [seq_of_some (seq_of_some h), seq_of_some h]

@[simp] lemma seq_skip (a : Stopping σ ε) : seq a skip = a := by
  funext s
  rcases h : a s with ⟨s', _ | e⟩
  · rw [seq_of_none h]
    rfl
  · rw [seq_of_some h]

@[simp] lemma all_nil : all ([] : List (Stopping σ ε)) = skip := rfl

@[simp] lemma all_cons (a : Stopping σ ε) (as : List (Stopping σ ε)) :
    all (a :: as) = seq a (all as) := rfl

lemma all_append (as bs : List (Stopping σ ε)) : all (as ++ bs) = seq (all as) (all bs) := by
  induction as with
  | nil => rfl
  | cons a as ih => rw [List.cons_append, all_cons, all_cons, ih, seq_assoc]

/-! ## Steps that do the same -/

/-- From related states, the steps lead to related states and stop for the same reason. -/
def Alike (R : σ → τ → Prop) (a : Stopping σ ε) (b : Stopping τ ε) : Prop :=
  ∀ s t, R s t → R (a s).1 (b t).1 ∧ (a s).2 = (b t).2

variable {R : σ → τ → Prop} {a' b' : Stopping τ ε}

lemma Alike.skip : Alike R (skip : Stopping σ ε) (skip : Stopping τ ε) := fun _ _ h => ⟨h, rfl⟩

lemma Alike.seq (ha : Alike R a a') (hb : Alike R b b') : Alike R (seq a b) (seq a' b') := by
  intro s t hst
  obtain ⟨hnext, hstop⟩ := ha s t hst
  rcases hs : a s with ⟨s₁, e⟩
  rcases ht : a' t with ⟨t₁, e'⟩
  rw [hs, ht] at hnext hstop
  dsimp only at hnext hstop
  subst hstop
  cases e with
  | none =>
    rw [seq_of_none hs, seq_of_none ht]
    exact hb s₁ t₁ hnext
  | some e =>
    rw [seq_of_some hs, seq_of_some ht]
    exact ⟨hnext, rfl⟩

lemma Alike.all {f : α → Stopping σ ε} {g : α → Stopping τ ε} {l : List α}
    (h : ∀ x ∈ l, Alike R (f x) (g x)) : Alike R (all (l.map f)) (all (l.map g)) := by
  induction l with
  | nil => exact .skip
  | cons x l ih =>
    obtain ⟨hx, hl⟩ := List.forall_mem_cons.mp h
    exact hx.seq (ih hl)

end Stopping

end WayfireIpc
