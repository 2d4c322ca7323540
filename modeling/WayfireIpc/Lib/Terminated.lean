/-
# Checked access to memory

Blocks of memory as lists of cells.  Every access is checked: outside of the block it is a fault.
A string in memory is its characters and a terminator behind them, and nothing behind the
terminator can be read.
-/
import WayfireIpc.Lib.Bytes
import WayfireIpc.Lib.Machine

namespace WayfireIpc
namespace Terminated

/-- The ways in which code that goes through memory can fail. -/
inductive Trap
  /-- An access outside of a block. -/
  | outside
  /-- A loop that does not end. -/
  | diverges
deriving DecidableEq, Repr

universe u

variable {α : Type u}

/-! ## Blocks -/

/-- Read a cell. -/
def load (block : List α) (i : ℕ) : Except Trap α :=
  match block[i]? with
  | some a => .ok a
  | none => .error .outside

/-- Write a cell. -/
def store (block : List α) (i : ℕ) (a : α) : Except Trap (List α) :=
  if i < block.length then .ok (block.set i a) else .error .outside

/-- Read `n` cells. -/
def copy (block : List α) (off n : ℕ) : Except Trap (List α) :=
  if off + n ≤ block.length then .ok (Bytes.slice block off n) else .error .outside

/-- Copy `n` cells inside of a block; the two ranges may overlap. -/
def move (block : List α) (dst src n : ℕ) : Except Trap (List α) :=
  if dst + n ≤ block.length then (Bytes.splice block dst) <$> copy block src n
  else .error .outside

/-- The number of cells that the loop `while (p(*ptr)) ++ptr` goes over. -/
def span (p : α → Bool) : List α → Except Trap ℕ
  | [] => .error .outside
  | a :: block => if p a then (· + 1) <$> span p block else .ok 0

/-- Where the loop `while (p(*ptr)) ++ptr` ends. -/
def scan (p : α → Bool) (block : List α) (i : ℕ) : Except Trap ℕ :=
  (i + ·) <$> span p (block.drop i)

/-! ### Longer blocks -/

lemma span_append {p : α → Bool} {block : List α} {n : ℕ} (h : span p block = .ok n)
    (rest : List α) : span p (block ++ rest) = .ok n := by
  induction block generalizing n with
  | nil => cases h
  | cons a block ih =>
    rw [span] at h
    rw [List.cons_append, span]
    split_ifs at h ⊢
    · obtain ⟨m, hm, rfl⟩ := Machine.map_ok_iff.mp h
      rw [ih hm, Machine.map_ok]
    · exact h

lemma scan_append {p : α → Bool} {block : List α} {n : ℕ} (h : scan p block 0 = .ok n)
    (rest : List α) : scan p (block ++ rest) 0 = .ok n := by
  obtain ⟨m, hm, hn⟩ := Machine.map_ok_iff.mp h
  rw [List.drop_zero] at hm
  rw [scan, List.drop_zero, span_append hm, Machine.map_ok, hn]

lemma copy_append {block v : List α} {off n : ℕ} (h : copy block off n = .ok v) (rest : List α) :
    copy (block ++ rest) off n = .ok v := by
  rw [copy] at h ⊢
  split_ifs at h with hle
  rw [if_pos (by rw [List.length_append]; omega), ← h, Bytes.slice, Bytes.slice,
    List.drop_append_of_le_length (by omega),
    List.take_append_of_le_length (by rw [List.length_drop]; omega)]

/-! ### Accesses in the middle of a block -/

lemma load_append (front : List α) (a : α) (back : List α) :
    load (front ++ a :: back) front.length = .ok a := by simp [load]

lemma store_append (front : List α) (a b : α) (back : List α) :
    store (front ++ a :: back) front.length b = .ok (front ++ b :: back) := by
  rw [store, if_pos (by simp), List.set_append_right _ _ le_rfl, Nat.sub_self, List.set_cons_zero]

/-- What lies behind a cell is moved onto it. -/
lemma move_append (front : List α) (a : α) (mid back : List α) :
    ∃ b, move (front ++ a :: (mid ++ back)) front.length (front.length + 1) mid.length
      = .ok (front ++ (mid ++ b :: back)) := by
  have hsrc : (front ++ a :: (mid ++ back)).drop (front.length + 1) = mid ++ back := by
    rw [List.drop_append, List.drop_eq_nil_of_le (by omega), Nat.add_sub_cancel_left]
    rfl
  have hcopy : copy (front ++ a :: (mid ++ back)) (front.length + 1) mid.length = .ok mid := by
    rw [copy, if_pos (by simp; omega), Bytes.slice, hsrc, List.take_left]
  -- the cell that is left over is the last one that was moved
  obtain ⟨init, b, hlast⟩ : ∃ init b, a :: mid = init ++ [b] :=
    ⟨_, _, (List.dropLast_append_getLast (List.cons_ne_nil a mid)).symm⟩
  have hlen : init.length = mid.length := by
    have := congrArg List.length hlast
    simp only [List.length_cons, List.length_append, List.length_nil] at this
    omega
  have hb : (front ++ a :: (mid ++ back)).drop (front.length + mid.length) = b :: back := by
    rw [← List.cons_append, hlast, ← List.drop_drop, List.drop_left, ← hlen, List.append_assoc,
      List.drop_left]
    rfl
  refine ⟨b, ?_⟩
  rw [move, if_pos (by simp; omega), hcopy, Machine.map_ok, Bytes.splice, List.take_left, hb,
    List.append_assoc]

/-! ## Strings -/

section Strings

variable (z : α)

/-- The cells of a string with the terminator `z`. -/
def cells (s : List α) : List α := s ++ [z]

@[simp] lemma length_cells (s : List α) : (cells z s).length = s.length + 1 := by simp [cells]

variable {z}

/-- Everything up to the terminator can be read. -/
lemma load_cells {s : List α} {i : ℕ} (h : i ≤ s.length) :
    load (cells z s) i = .ok (s.getD i z) := by
  rcases h.lt_or_eq with hlt | rfl
  · rw [load, cells, List.getElem?_append_left hlt, List.getElem?_eq_getElem hlt,
      List.getD_eq_getElem _ _ hlt]
  · rw [cells, load_append, List.getD_eq_default _ _ le_rfl]

lemma span_cells {p : α → Bool} (hp : p z = false) (s : List α) :
    span p (cells z s) = .ok (s.takeWhile p).length := by
  induction s with
  | nil => simp [cells, span, hp]
  | cons a s ih =>
    have hcells : cells z (a :: s) = a :: cells z s := rfl
    rw [hcells, span, List.takeWhile_cons]
    split_ifs with ha
    · rw [ih, Machine.map_ok, List.length_cons]
    · rfl

/-- A loop that the terminator stops goes over the longest run of cells with `p`. -/
lemma scan_cells {p : α → Bool} (hp : p z = false) {s : List α} {i : ℕ} (h : i ≤ s.length) :
    scan p (cells z s) i = .ok (i + ((s.drop i).takeWhile p).length) := by
  have hdrop : (cells z s).drop i = cells z (s.drop i) := by
    rw [cells, List.drop_append_of_le_length h, cells]
  rw [scan, hdrop, span_cells hp, Machine.map_ok]

/-- The cells of a string in front of a place can be copied. -/
lemma copy_cells {s : List α} {off n : ℕ} (h : off + n ≤ s.length) :
    copy (cells z s) off n = .ok ((s.drop off).take n) := by
  rw [copy, if_pos (by rw [length_cells]; omega), Bytes.slice, cells,
    List.drop_append_of_le_length (by omega),
    List.take_append_of_le_length (by rw [List.length_drop]; omega)]

/-! ## Pointers -/

/-- The pointer `p` into the string `s` is at the text `t`, which goes on to the terminator. -/
structure At (s : List α) (p : ℕ) (t : List α) : Prop where
  le : p ≤ s.length
  drop_eq : s.drop p = t

namespace At

variable {s t : List α} {p : ℕ} {a : α}

lemma zero (s : List α) : At s 0 s := ⟨Nat.zero_le _, rfl⟩

lemma add_length (h : At s p t) : p + t.length = s.length := by
  have hle := h.le
  rw [← h.drop_eq, List.length_drop]
  omega

lemma subset (h : At s p t) : t ⊆ s := h.drop_eq ▸ List.drop_subset _ _

lemma next (h : At s p (a :: t)) : At s (p + 1) t := by
  have hlen := h.add_length
  rw [List.length_cons] at hlen
  exact ⟨by omega, by rw [← List.drop_drop, h.drop_eq, List.drop_one, List.tail_cons]⟩

lemma load (h : At s p t) : load (cells z s) p = .ok (t.headD z) := by
  rw [load_cells h.le, ← h.drop_eq, List.getD_eq_getElem?_getD, ← List.head?_drop,
    List.headD_eq_head?_getD]

lemma drop_cells (h : At s p t) : (cells z s).drop p = cells z t := by
  rw [cells, List.drop_append_of_le_length h.le, h.drop_eq, cells]

/-- The cells between two pointers can be copied. -/
lemma copy_between {v rest : List α} {p' : ℕ} (h : At s p (v ++ rest)) (h' : At s p' rest) :
    copy (cells z s) p (p' - p) = .ok v := by
  have hlen := h.add_length
  have hlen' := h'.add_length
  rw [List.length_append] at hlen
  have hsub : p' - p = v.length := by omega
  rw [hsub, copy_cells (by omega), h.drop_eq, List.take_left]

/-- A scan goes over a run of cells, and these can be copied. -/
lemma scan {q : α → Bool} (h : At s p t) (hq : q z = false) :
    ∃ p', scan q (cells z s) p = .ok p' ∧ At s p' (t.dropWhile q) ∧
      copy (cells z s) p (p' - p) = .ok (t.takeWhile q) := by
  have hlen := h.add_length
  have hsplit : t.takeWhile q ++ t.dropWhile q = t := List.takeWhile_append_dropWhile
  have hle := (List.takeWhile_prefix q (l := t)).length_le
  have hat : At s (p + (t.takeWhile q).length) (t.dropWhile q) := by
    refine ⟨by omega, ?_⟩
    calc s.drop (p + (t.takeWhile q).length)
        = t.drop (t.takeWhile q).length := by rw [← List.drop_drop, h.drop_eq]
      _ = (t.takeWhile q ++ t.dropWhile q).drop (t.takeWhile q).length := by rw [hsplit]
      _ = t.dropWhile q := List.drop_left
  refine ⟨_, ?_, hat, copy_between (hsplit.symm ▸ h) hat⟩
  rw [scan_cells hq h.le, h.drop_eq]

/-- A terminator that is written into a string cuts it in two. -/
lemma cut (h : At s p t) {k : ℕ} (hk : k < t.length) : ∃ block,
    store (cells z s) (p + k) z = .ok block ∧
      block.drop p = cells z (t.take k) ++ cells z (t.drop (k + 1)) ∧
      block.drop (p + k + 1) = cells z (t.drop (k + 1)) := by
  have hlen := h.add_length
  have hset : ((cells z s).set (p + k) z).drop p = cells z (t.take k) ++ cells z (t.drop (k + 1)) := by
    rw [List.drop_set, if_neg (by omega), h.drop_cells, Nat.add_sub_cancel_left,
      List.set_eq_take_append_cons_drop, if_pos (by rw [length_cells]; omega), cells,
      List.take_append_of_le_length hk.le, List.drop_append_of_le_length hk]
    simp [cells]
  refine ⟨_, if_pos (by rw [length_cells]; omega), hset, ?_⟩
  have hfront : (cells z (t.take k)).length = k + 1 := by
    rw [length_cells, List.length_take, Nat.min_eq_left hk.le]
  rw [Nat.add_assoc, ← List.drop_drop, hset, ← hfront, List.drop_left]

/-- A part of a string is copied with the cell behind it, which gets the terminator. -/
lemma copy_terminated (h : At s p t) {n : ℕ} (hn : n ≤ t.length) : ∃ block,
    copy (cells z s) p (n + 1) = .ok block ∧ store block n z = .ok (cells z (t.take n)) := by
  have hlen := h.add_length
  have hlt : n < (cells z t).length := by
    rw [length_cells]
    omega
  have htake : (cells z t).take (n + 1) = t.take n ++ (cells z t)[n] :: [] := by
    rw [List.take_add_one, List.getElem?_eq_getElem hlt]
    nth_rewrite 1 [cells]
    rw [List.take_append_of_le_length hn]
    rfl
  refine ⟨t.take n ++ (cells z t)[n] :: [], ?_, ?_⟩
  · rw [copy, if_pos (by rw [length_cells]; omega), Bytes.slice, h.drop_cells, htake]
  · have hstore := store_append (t.take n) (cells z t)[n] z []
    rwa [List.length_take, Nat.min_eq_left hn] at hstore

end At

end Strings

end Terminated
end WayfireIpc
