import Mathlib.Data.List.Basic

/-!
# Queues that keep a kind of elements to the front

A queue that is taken from at the front and added to at the end may refuse elements of one
kind once it holds `n`.  Then all its elements of this kind stand among the first `n`, for
elements only move forward: `Room.step` is the step, whatever is added besides them.
-/

universe u

namespace SansIo.Lib

variable {α : Type u} {p : α → Bool} {n : Nat} {l l' : List α}

/-- Behind its first `n` elements a queue holds none of a kind. -/
def Room (p : α → Bool) (n : Nat) (l : List α) : Prop := ∀ x ∈ l.drop n, p x = false

namespace Room

theorem nil : Room p n [] := by
  intro x hx
  rw [List.drop_nil] at hx
  cases hx

/-- Elements move forward. -/
theorem of_suffix (h : Room p n l) (hsuffix : l' <:+ l) : Room p n l' := by
  obtain ⟨front, rfl⟩ := hsuffix
  intro x hx
  apply h x
  rw [List.drop_append]
  apply List.mem_append_right
  have hle : n - front.length ≤ n := Nat.sub_le n front.length
  exact (List.drop_suffix_drop_left l' hle).subset hx

/-- An element of the kind is added while there are fewer than `n` elements. -/
theorem snoc (h : Room p n l) {x : α} (hx : p x = true → l.length < n) : Room p n (l ++ [x]) := by
  intro y hy
  rw [List.drop_append] at hy
  rcases List.mem_append.1 hy with hy | hy
  · exact h y hy
  · obtain rfl := List.mem_singleton.1 (List.mem_of_mem_drop hy)
    rw [Bool.eq_false_iff]
    intro hmarked
    have hlt := hx hmarked
    rw [List.drop_eq_nil_of_le (Nat.le_sub_of_add_le' hlt)] at hy
    cases hy

/-- **A queue is taken from and added to.** -/
theorem step {taken added : List α} (h : Room p n l) (heq : taken ++ l' = l ++ added)
    (hadded : added = [] ∨ ∃ x, added = [x] ∧ (p x = true → l.length < n)) : Room p n l' := by
  have hall : Room p n (l ++ added) := by
    rcases hadded with rfl | ⟨x, rfl, hx⟩
    · rwa [List.append_nil]
    · exact h.snoc hx
  exact hall.of_suffix ⟨taken, heq⟩

/-- An element of the kind has fewer than `n` elements in front of it. -/
theorem lt {k : Nat} {x : α} (h : Room p n l) (hx : l[k]? = some x) (hp : p x = true) : k < n := by
  by_contra hk
  have hmem : x ∈ l.drop n := by
    apply List.mem_of_getElem? (i := k - n)
    rw [List.getElem?_drop, Nat.add_sub_cancel' (Nat.le_of_not_lt hk), hx]
  rw [h x hmem] at hp
  cases hp

/-- So there are at most `n` of them. -/
theorem countP_le (h : Room p n l) : l.countP p ≤ n := by
  have hnone : (l.drop n).countP p = 0 := by
    rw [List.countP_eq_zero]
    intro x hx
    rw [h x hx]
    exact Bool.false_ne_true
  calc l.countP p = (l.take n ++ l.drop n).countP p := by rw [List.take_append_drop]
    _ = (l.take n).countP p := by rw [List.countP_append, hnone, Nat.add_zero]
    _ ≤ (l.take n).length := List.countP_le_length
    _ ≤ n := List.length_take_le n l

end Room

end SansIo.Lib
