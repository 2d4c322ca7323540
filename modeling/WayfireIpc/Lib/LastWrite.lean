/-
# The last write wins

A register that is updated by a list of operations, of which some write a value to it and
the others leave it as it is, holds the value of the last write.
-/
import Mathlib

namespace WayfireIpc
namespace LastWrite

variable {σ α β : Type*} {t : α → Bool} {v : α → β} {f : σ → α → σ} {g : σ → β}

/-- The value of the last operation that writes, or `b` if there is none. -/
def lastWrite (t : α → Bool) (v : α → β) (b : β) (ops : List α) : β :=
  ((ops.reverse.find? t).map v).getD b

@[simp] lemma lastWrite_nil (b : β) : lastWrite t v b [] = b := rfl

lemma lastWrite_concat (b : β) (ops : List α) (a : α) :
    lastWrite t v b (ops ++ [a]) = if t a then v a else lastWrite t v b ops := by
  rw [lastWrite, lastWrite, List.reverse_append, List.reverse_singleton, List.singleton_append,
    List.find?_cons]
  cases t a <;> rfl

theorem get_foldl (h : ∀ s a, g (f s a) = if t a then v a else g s) (s : σ)
    (ops : List α) : g (ops.foldl f s) = lastWrite t v (g s) ops := by
  induction ops using List.reverseRecOn with
  | nil => rfl
  | append_singleton ops a ih =>
    rw [List.foldl_append, List.foldl_cons, List.foldl_nil, h, ih, lastWrite_concat]

lemma lastWrite_const (v b : β) (ops : List α) :
    lastWrite t (fun _ => v) b ops = if ops.any t then v else b := by
  induction ops using List.reverseRecOn with
  | nil => rfl
  | append_singleton ops a ih =>
    rw [lastWrite_concat, ih, List.any_append, List.any_cons, List.any_nil, Bool.or_false]
    cases t a <;> simp

/-- Operations that write the same thing can be replaced by others that write together. -/
lemma lastWrite_congr {u : α → Bool} {ops : List α} (h : ∀ a ∈ ops, t a = u a)
    (b : β) : lastWrite t v b ops = lastWrite u v b ops := by
  have : ops.reverse.find? t = ops.reverse.find? u := by
    refine List.find?_congr fun a ha => h a (List.mem_reverse.mp ha)
  rw [lastWrite, lastWrite, this]

/-- With fewer writes that all include the ones of `true`, a last write of `true` stays. -/
lemma lastWrite_mono {v : α → Bool} {u : α → Bool} {ops : List α}
    (hsub : ∀ a ∈ ops, u a = true → t a = true)
    (htrue : ∀ a ∈ ops, t a = true → v a = true → u a = true)
    (h : lastWrite t v false ops = true) : lastWrite u v false ops = true := by
  induction ops using List.reverseRecOn with
  | nil => exact h
  | append_singleton ops a ih =>
    have ha : a ∈ ops ++ [a] := by simp
    rw [lastWrite_concat] at h ⊢
    by_cases htouch : t a = true
    · rw [if_pos htouch] at h
      rw [if_pos (htrue a ha htouch h)]
      exact h
    · rw [if_neg htouch] at h
      rw [if_neg fun hcon => htouch (hsub a ha hcon)]
      exact ih (fun x hx => hsub x (by simp [hx])) (fun x hx => htrue x (by simp [hx])) h

/-- A register that holds `true` has got it from an operation that nothing has overwritten. -/
lemma exists_of_lastWrite {v : α → Bool} {ops : List α} (h : lastWrite t v false ops = true) :
    ∃ pre a post, ops = pre ++ a :: post ∧ t a = true ∧ v a = true ∧ ∀ x ∈ post, t x = false := by
  induction ops using List.reverseRecOn with
  | nil => cases h
  | append_singleton ops a ih =>
    rw [lastWrite_concat] at h
    by_cases ht : t a = true
    · rw [if_pos ht] at h
      exact ⟨ops, a, [], rfl, ht, h, by simp⟩
    · rw [if_neg ht] at h
      obtain ⟨pre, b, post, rfl, hb, hv, hpost⟩ := ih h
      refine ⟨pre, b, post ++ [a], by simp, hb, hv, fun x hx => ?_⟩
      rcases List.mem_append.mp hx with hx | hx
      · exact hpost x hx
      · rw [List.mem_singleton.mp hx]
        simpa using ht

end LastWrite
end WayfireIpc
