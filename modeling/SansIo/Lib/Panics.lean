import Mathlib.Data.List.Basic

/-!
# Computations that may panic

`Panics α` is a computation that either returns or panics with a text.  A panic
is not a value that the caller can look at: it ends the thread.  So the theorems
about a function that may panic say when it returns, `x = .ok a`, and `bind_ok`
takes a sequence of such functions apart.
-/

universe u

namespace SansIo.Lib

/-- A computation that returns or panics. -/
abbrev Panics (α : Type u) := Except String α

variable {α β : Type u}

/-- A sequence returns when its parts do. -/
theorem bind_ok {x : Panics α} {f : α → Panics β} {b : β} :
    (x >>= f) = .ok b ↔ ∃ a, x = .ok a ∧ f a = .ok b := by
  cases x with
  | error e => simp [bind, Except.bind]
  | ok a => simp [bind, Except.bind]

@[simp] theorem ok_bind (a : α) (f : α → Panics β) : ((.ok a : Panics α) >>= f) = f a := rfl

@[simp] theorem pure_eq_ok (a : α) : (pure a : Panics α) = .ok a := rfl

/-- The result of a computation that does not panic. -/
def Panics.get (x : Panics α) (h : ∃ a, x = .ok a) : α :=
  match x, h with
  | .ok a, _ => a
  | .error _, h => absurd h fun ⟨_, ha⟩ ↦ by cases ha

theorem Panics.ok_get (x : Panics α) (h : ∃ a, x = .ok a) : x = .ok (x.get h) := by
  obtain ⟨a, rfl⟩ := h
  rfl

/-- What a computation returns, without the text of the panic. -/
theorem toOption_eq_some {x : Panics α} {a : α} : x.toOption = some a ↔ x = .ok a := by
  cases x <;> simp [Except.toOption]

theorem toOption_eq_none {x : Panics α} : x.toOption = none ↔ ∃ e, x = .error e := by
  cases x <;> simp [Except.toOption]

/-- `xs[i]`, which panics out of range. -/
def index (xs : List α) (i : Nat) : Panics α :=
  match xs[i]? with
  | some x => .ok x
  | none => throw s!"index out of bounds: the len is {xs.length} but the index is {i}"

theorem index_of_lt {xs : List α} {i : Nat} (h : i < xs.length) : index xs i = .ok xs[i] := by
  simp [index, h]

/-- Indexing returns exactly the elements there are. -/
theorem index_eq_ok {xs : List α} {i : Nat} {x : α} : index xs i = .ok x ↔ xs[i]? = some x := by
  unfold index
  split
  · rename_i y hy
    rw [hy]
    constructor <;>
    · intro h
      cases h
      rfl
  · rename_i hy
    rw [hy]
    constructor <;>
    · intro h
      cases h

end SansIo.Lib
