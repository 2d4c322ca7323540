/-
# Objects with several users

An object that its users ask, one request after another, and that may change by itself in between.
It answers some of the requests.
-/
import WayfireIpc.Lib.Machine

namespace WayfireIpc

/-- A turn of an object with the states `σ` and the requests `ρ`. -/
inductive Turn (σ ρ : Type)
  | ask (user : ℕ) (request : ρ)
  /-- The object changes by itself. -/
  | change (x : σ)

/-- An answer, with its request and the user that has asked. -/
structure Given (ρ α : Type) where
  user : ℕ
  request : ρ
  answer : α

variable {σ ρ α ε : Type}

namespace Turn

def asked : Turn σ ρ → Option (ℕ × ρ)
  | .ask user request => some (user, request)
  | .change _ => none

def changed : Turn σ ρ → Option σ
  | .ask _ _ => none
  | .change x => some x

/-- The object takes a turn; its answers are collected. -/
def take (object : σ → ρ → Except ε (Option α × σ)) (s : σ × List (Given ρ α)) :
    Turn σ ρ → Except ε (σ × List (Given ρ α))
  | .ask user request => do
    let (answer, x) ← object s.1 request
    return (x, s.2 ++ answer.toList.map fun a => ⟨user, request, a⟩)
  | .change x => .ok (x, s.2)

end Turn

/-- In these turns the object gets from `x₀` to `x`, and gives these answers. -/
def Serial (object : σ → ρ → Except ε (Option α × σ)) (x₀ : σ) (turns : List (Turn σ ρ)) (x : σ)
    (given : List (Given ρ α)) : Prop :=
  Machine.run (Turn.take object) (x₀, []) turns = .ok (x, given)

namespace Serial

variable {object : σ → ρ → Except ε (Option α × σ)} {x₀ x x' : σ} {turns : List (Turn σ ρ)}
  {given : List (Given ρ α)}

lemma start : Serial object x [] x [] := rfl

lemma ask (h : Serial object x₀ turns x given) (user : ℕ) {request : ρ} {answer : Option α}
    (hask : object x request = .ok (answer, x')) :
    Serial object x₀ (turns ++ [.ask user request]) x'
      (given ++ answer.toList.map fun a => ⟨user, request, a⟩) := by
  refine (Machine.run_append_ok _).mpr ⟨_, h, ?_⟩
  rw [Machine.run_cons, Turn.take, hask]
  rfl

lemma change (h : Serial object x₀ turns x given) (x' : σ) :
    Serial object x₀ (turns ++ [.change x']) x' given :=
  (Machine.run_append_ok _).mpr ⟨_, h, rfl⟩

end Serial

end WayfireIpc
