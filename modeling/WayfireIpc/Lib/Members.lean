/-
# Maps as sorted lists

A map is the list of its entries in the order of their keys, each key once.  This file has the
setting of a key, and the map that a sequence of settings makes.
-/
import Mathlib.Data.List.Basic

namespace WayfireIpc.Members

variable {κ α : Type*} [DecidableEq κ] [LT κ] [DecidableLT κ]

/-- The entry of a key is replaced, or put in its place. -/
def set (k : κ) (x : α) : List (κ × α) → List (κ × α)
  | [] => [(k, x)]
  | (k', y) :: ms =>
    if k = k' then (k, x) :: ms
    else if k < k' then (k, x) :: (k', y) :: ms
    else (k', y) :: set k x ms

/-- The map after some settings. -/
def setAll (as : List (κ × α)) (ms : List (κ × α)) : List (κ × α) :=
  as.foldl (fun ms a => set a.1 a.2 ms) ms

omit [LT κ] [DecidableLT κ] in
lemma lookup_entry (k k' : κ) (x : α) (ms : List (κ × α)) :
    ((k, x) :: ms).lookup k' = if k' = k then some x else ms.lookup k' := by
  rw [List.lookup_cons]
  by_cases h : k' = k
  · rw [if_pos h, h, beq_self_eq_true]
  · rw [if_neg h, beq_eq_false_iff_ne.mpr h]

lemma lookup_set (k k' : κ) (x : α) (ms : List (κ × α)) :
    (set k x ms).lookup k' = if k' = k then some x else ms.lookup k' := by
  induction ms with
  | nil => exact lookup_entry k k' x []
  | cons m ms ih =>
    obtain ⟨k₁, y⟩ := m
    rw [set]
    by_cases heq : k = k₁
    · rw [if_pos heq, lookup_entry, lookup_entry, ← heq]
      split_ifs <;> rfl
    · rw [if_neg heq]
      by_cases hlt : k < k₁
      · rw [if_pos hlt, lookup_entry]
      · rw [if_neg hlt, lookup_entry, ih, lookup_entry]
        by_cases hk : k' = k
        · rw [if_pos hk, if_pos hk, if_neg fun h => heq (hk.symm.trans h)]
        · rw [if_neg hk, if_neg hk]

/-- The last value that a key is set to. -/
def last (k : κ) (as : List (κ × α)) : Option α := as.reverse.lookup k

omit [LT κ] [DecidableLT κ]

@[simp] lemma last_nil (k : κ) : last k ([] : List (κ × α)) = none := rfl

@[simp] lemma last_append (k : κ) (as bs : List (κ × α)) :
    last k (as ++ bs) = (last k bs).or (last k as) := by
  rw [last, List.reverse_append, List.lookup_append]
  rfl

@[simp] lemma last_cons (k k' : κ) (x : α) (as : List (κ × α)) :
    last k ((k', x) :: as) = (last k as).or (if k = k' then some x else none) := by
  have hone : last k [(k', x)] = if k = k' then some x else none := lookup_entry k' k x []
  rw [← hone, ← last_append]
  rfl

/-- After some settings, the last one of a key counts. -/
lemma lookup_setAll [LT κ] [DecidableLT κ] (k : κ) (as ms : List (κ × α)) :
    (setAll as ms).lookup k = (last k as).or (ms.lookup k) := by
  induction as generalizing ms with
  | nil => rfl
  | cons a as ih =>
    have hstep : setAll (a :: as) ms = setAll as (set a.1 a.2 ms) := rfl
    rw [hstep, ih, lookup_set, last_cons, Option.or_assoc]
    congr 1
    split_ifs <;> rfl

end WayfireIpc.Members
