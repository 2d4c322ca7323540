/-
# An index loop over a list that shrinks under it

A loop `for (i = 0; i < items.size(); i++)` whose body may remove the item it is
visiting and then takes the index back by one.  If the items are distinct, the loop
visits every item of the list it starts with exactly once, in order: it is the left
fold of the body over that list.
-/
import WayfireIpc.Lib.Machine

namespace WayfireIpc
namespace EraseLoop

open Machine

variable {σ α ε : Type*}

/-- The loop.  `visit` answers whether the visited item is still in the list; when it is
not, the index stays where it is (the source writes `i--` before the `i++`).  A loop
that has used up its fuel reports `stuck`. -/
def loop (items : σ → List α) (visit : σ → α → Except ε (Bool × σ)) (stuck : ε) :
    ℕ → ℕ → σ → Except ε σ
  | 0, _, _ => .error stuck
  | fuel + 1, i, s =>
    match (items s)[i]? with
    | none => .ok s
    | some a => visit s a >>= fun r =>
        if r.1 then loop items visit stuck fuel (i + 1) r.2
        else loop items visit stuck fuel i r.2

/-- The body keeps the list when it answers `true` and removes exactly the visited item
when it answers `false`. -/
structure Erasing (Inv : σ → Prop) (items : σ → List α)
    (visit : σ → α → Except ε (Bool × σ)) : Prop where
  nodup : ∀ s, Inv s → (items s).Nodup
  inv : ∀ s a b s', Inv s → a ∈ items s → visit s a = .ok (b, s') → Inv s'
  kept : ∀ s a s', Inv s → a ∈ items s → visit s a = .ok (true, s') → items s' = items s
  erased : ∀ s a s', Inv s → a ∈ items s → visit s a = .ok (false, s') →
    ∀ pre post, items s = pre ++ a :: post → items s' = pre ++ post

variable {Inv : σ → Prop} {items : σ → List α} {visit : σ → α → Except ε (Bool × σ)}
  {stuck : ε}

/-- From an index that separates the items already visited and kept from the items still
to come, the loop is the fold over the items still to come. -/
lemma loop_eq_foldlM (h : Erasing Inv items visit) :
    ∀ (rest pre : List α) (fuel : ℕ) (s : σ), Inv s → items s = pre ++ rest →
      rest.length < fuel →
      loop items visit stuck fuel pre.length s
        = rest.foldlM (fun s a => Prod.snd <$> visit s a) s := by
  intro rest
  induction rest with
  | nil =>
    intro pre fuel s _ hitems hfuel
    obtain ⟨fuel, rfl⟩ : ∃ k, fuel = k + 1 := ⟨fuel - 1, by simp at hfuel; omega⟩
    have hnone : (items s)[pre.length]? = none := by rw [hitems]; simp
    rw [loop, hnone]
    rfl
  | cons a rest ih =>
    intro pre fuel s hs hitems hfuel
    obtain ⟨fuel, rfl⟩ : ∃ k, fuel = k + 1 := ⟨fuel - 1, by simp at hfuel; omega⟩
    have hfuel' : rest.length < fuel := by simpa using hfuel
    have hget : (items s)[pre.length]? = some a := by rw [hitems]; simp
    have hmem : a ∈ items s := by rw [hitems]; simp
    rw [loop, hget, List.foldlM_cons]
    rcases hv : visit s a with f | ⟨b, s'⟩
    · simp [hv]
    · have hs' : Inv s' := h.inv s a b s' hs hmem hv
      cases b with
      | true =>
        -- the element is kept, and the index moves on
        have hitems' : items s' = (pre ++ [a]) ++ rest := by
          rw [h.kept s a s' hs hmem hv, hitems]
          simp
        have := ih (pre ++ [a]) fuel s' hs' hitems' hfuel'
        simpa [hv] using this
      | false =>
        -- the element is erased, and the next one takes its place
        have hitems' : items s' = pre ++ rest := h.erased s a s' hs hmem hv pre rest hitems
        have := ih pre fuel s' hs' hitems' hfuel'
        simpa [hv] using this

/-- The whole loop is the fold over the list it starts with. -/
theorem loop_zero_eq_foldlM (h : Erasing Inv items visit) {s : σ} (hs : Inv s) :
    loop items visit stuck ((items s).length + 1) 0 s
      = (items s).foldlM (fun s a => Prod.snd <$> visit s a) s :=
  loop_eq_foldlM h (items s) [] ((items s).length + 1) s hs rfl (Nat.lt_succ_self _)

end EraseLoop
end WayfireIpc
