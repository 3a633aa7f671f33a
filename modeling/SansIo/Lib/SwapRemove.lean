import Mathlib.Data.List.Induction
import Mathlib.Data.List.Nodup
import Mathlib.Data.List.Perm.Basic

/-!
# Removal by swapping with the last element

A vector that does not keep an order removes an element in constant time by moving
its last element into the gap.  `swapRemove` is that removal at an index and
`discard` at the first place of a value.  Both are `eraseIdx` and `erase` up to a
permutation, which is all that membership, duplicates and counts see.
-/

universe u

namespace SansIo.Lib

variable {α : Type u}

/-- Remove the element at an index and put the last one in its place. -/
def swapRemove (l : List α) (i : Nat) : List α :=
  match l.getLast? with
  | none => l
  | some x => (l.set i x).dropLast

theorem swapRemove_perm {l : List α} {i : Nat} (hi : i < l.length) :
    (swapRemove l i).Perm (l.eraseIdx i) := by
  induction l using List.reverseRecOn with
  | nil => simp at hi
  | append_singleton l z _ =>
      rw [swapRemove, List.getLast?_concat]
      by_cases h : i < l.length
      · have hset : (l ++ [z]).set i z = l.set i z ++ [z] := List.set_append_left _ _ h
        have herase : (l ++ [z]).eraseIdx i = l.eraseIdx i ++ [z] :=
          List.eraseIdx_append_of_lt_length h _
        simp only [hset, List.dropLast_concat, herase]
        exact (List.set_perm_cons_eraseIdx h z).trans (List.perm_append_singleton z _).symm
      · obtain rfl : i = l.length := by
          simp only [List.length_append, List.length_singleton] at hi
          omega
        simp [List.eraseIdx_append_of_length_le]

section Discard

variable [DecidableEq α]

/-- Remove the first occurrence of a value, if there is one. -/
def discard (l : List α) (x : α) : List α :=
  match l.idxOf? x with
  | none => l
  | some i => swapRemove l i

theorem discard_perm (l : List α) (x : α) : (discard l x).Perm (l.erase x) := by
  rw [List.erase_eq_eraseIdx, discard]
  cases h : l.idxOf? x with
  | none => exact .refl _
  | some i =>
      obtain ⟨hi, -⟩ := List.idxOf?_eq_some_iff.mp h
      exact swapRemove_perm hi

theorem nodup_discard {l : List α} (h : l.Nodup) (x : α) : (discard l x).Nodup :=
  (discard_perm l x).nodup_iff.mpr (h.erase x)

theorem mem_discard {l : List α} (h : l.Nodup) {x y : α} : y ∈ discard l x ↔ y ≠ x ∧ y ∈ l :=
  (discard_perm l x).mem_iff.trans h.mem_erase_iff

end Discard

end SansIo.Lib
