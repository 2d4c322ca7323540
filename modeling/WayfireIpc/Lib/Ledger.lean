/-
# Ledgers

A ledger records which things are acquired and which are released.  A thing may be acquired
again after it has been released; it is released too often when it has been released more
often than it has been acquired.
-/
import Mathlib

namespace WayfireIpc

/-- An entry of a ledger. -/
inductive Ledger.Entry (ρ : Type*)
  | acquired (r : ρ)
  | released (r : ρ)
deriving DecidableEq, Repr

/-- The entries, the latest last. -/
abbrev Ledger (ρ : Type*) := List (Ledger.Entry ρ)

namespace Ledger

variable {ρ : Type*} [DecidableEq ρ] {l l' : Ledger ρ} {r r' : ρ}

/-- How often a thing has been acquired. -/
def acquisitions (l : Ledger ρ) (r : ρ) : ℕ := l.count (.acquired r)

/-- How often a thing has been released. -/
def releases (l : Ledger ρ) (r : ρ) : ℕ := l.count (.released r)

/-- Nothing has been released more often than it has been acquired. -/
def Once (l : Ledger ρ) : Prop := ∀ r, l.releases r ≤ l.acquisitions r

@[simp] lemma acquisitions_nil : acquisitions [] r = 0 := rfl

@[simp] lemma releases_nil : releases [] r = 0 := rfl

@[simp] lemma acquisitions_append : acquisitions (l ++ l') r = acquisitions l r + acquisitions l' r :=
  List.count_append

@[simp] lemma releases_append : releases (l ++ l') r = releases l r + releases l' r :=
  List.count_append

@[simp] lemma acquisitions_cons_acquired :
    acquisitions (.acquired r' :: l) r = acquisitions l r + if r' = r then 1 else 0 := by
  simp [acquisitions, List.count_cons]

@[simp] lemma acquisitions_cons_released :
    acquisitions (.released r' :: l) r = acquisitions l r := by
  simp [acquisitions]

@[simp] lemma releases_cons_released :
    releases (.released r' :: l) r = releases l r + if r' = r then 1 else 0 := by
  simp [releases, List.count_cons]

@[simp] lemma releases_cons_acquired : releases (.acquired r' :: l) r = releases l r := by
  simp [releases]

lemma once_nil : Once ([] : Ledger ρ) := fun _ => le_rfl

end Ledger

end WayfireIpc
