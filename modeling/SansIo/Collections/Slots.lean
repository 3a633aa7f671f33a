import Mathlib.Data.Finset.Card
import Mathlib.Data.Set.Card
import Mathlib.Order.Interval.Finset.Nat
import SansIo.Collections.Vec

/-!
# Vectors of slots

Both backends and the task groups keep values in a vector of options, where a vacant
slot is used again before the vector grows.  `held v i` is the value in a slot, where
there is one.
-/

namespace SansIo.Collections.Slots

open Lib

variable {α : Type} {n : Nat}

/-- The value in a slot, where there is one. -/
def held (v : DynamicVec (Option α) n) (i : Nat) : Option α := (v.get i).join

/-- The first vacant slot, which is a new one at the end where all are taken. -/
def select (v : DynamicVec (Option α) n) : Nat × DynamicVec (Option α) n :=
  match v.toList.findIdx? Option.isNone with
  | some i => (i, v)
  | none => ((v.push none).len - 1, v.push none)

theorem held_eq_some {v : DynamicVec (Option α) n} {i : Nat} {x : α} :
    held v i = some x ↔ v.get i = some (some x) := by
  rw [held, Option.join_eq_some_iff]

@[simp] theorem held_default (i : Nat) : held (.default : DynamicVec (Option α) n) i = none := by
  simp [held]

theorem held_push (v : DynamicVec (Option α) n) (o : Option α) (i : Nat) :
    held (v.push o) i = if i = v.toList.length then o else held v i := by
  simp only [held, DynamicVec.get_eq, DynamicVec.toList_push]
  rcases Nat.lt_trichotomy i v.toList.length with hi | rfl | hi
  · rw [List.getElem?_append_left hi, if_neg (Nat.ne_of_lt hi)]
  · simp
  · rw [if_neg (Nat.ne_of_gt hi), List.getElem?_eq_none (Nat.le_of_lt hi),
      List.getElem?_eq_none (by simpa using Nat.succ_le_of_lt hi)]

/-- Writing a slot that exists is what the name says. -/
theorem held_modify {v : DynamicVec (Option α) n} {i : Nat} (h : i < v.toList.length)
    (o : Option α) (j : Nat) :
    held (v.modify i fun _ ↦ o) j = if j = i then o else held v j := by
  simp only [held, DynamicVec.get_eq, DynamicVec.toList_modify, List.getElem?_modify]
  by_cases hj : j = i
  · subst hj
    simp [h]
  · simp [hj, Ne.symm hj]

theorem lt_of_held {v : DynamicVec (Option α) n} {i : Nat} {x : α} (h : held v i = some x) :
    i < v.toList.length := by
  rw [held_eq_some, DynamicVec.get_eq] at h
  exact (List.getElem?_eq_some_iff.1 h).1

/-! ## Selecting a slot -/

theorem select_lt (v : DynamicVec (Option α) n) : (select v).1 < (select v).2.toList.length := by
  unfold select
  split
  · rename_i i hfind
    exact (List.findIdx?_eq_some_iff_getElem.1 hfind).1
  · simp

/-- Selecting a slot changes none, -/
@[simp] theorem held_select (v : DynamicVec (Option α) n) (i : Nat) :
    held (select v).2 i = held v i := by
  unfold select
  split
  · rfl
  · rw [held_push]
    split
    · rename_i hi
      simp [held, hi]
    · rfl

/-- and the slot selected is vacant. -/
theorem held_selected (v : DynamicVec (Option α) n) : held v (select v).1 = none := by
  unfold select
  split
  · rename_i i hfind
    obtain ⟨hlt, hnone, -⟩ := List.findIdx?_eq_some_iff_getElem.1 hfind
    simpa [held, hlt] using hnone
  · simp [held]

/-! ## Counting the slots that are taken -/

/-- The slots of a list that are taken are as many as the values in it. -/
theorem card_taken (xs : List (Option α)) :
    ((Finset.range xs.length).filter fun i ↦ (xs[i]?).join.isSome).card =
      xs.countP Option.isSome := by
  induction xs using List.reverseRecOn with
  | nil => rfl
  | append_singleton xs x ih =>
      have hrest : ((Finset.range xs.length).filter fun i ↦ ((xs ++ [x])[i]?).join.isSome) =
          (Finset.range xs.length).filter fun i ↦ (xs[i]?).join.isSome := by
        apply Finset.filter_congr
        intro i hi
        rw [List.getElem?_append_left (Finset.mem_range.1 hi)]
      rw [List.length_append, List.length_singleton, Finset.range_add_one, Finset.filter_insert,
        hrest, List.countP_append, ← ih]
      cases x with
      | none => simp
      | some t => simp

/-- **The slots that are taken are as many as the values in the vector.** -/
theorem ncard_held (v : DynamicVec (Option α) n) :
    {i | held v i ≠ none}.ncard = v.toList.countP Option.isSome := by
  have hset : {i | held v i ≠ none} =
      ((Finset.range v.toList.length).filter fun i ↦ (v.toList[i]?).join.isSome : Finset Nat) := by
    ext i
    rw [Set.mem_ofPred_eq, Finset.mem_coe, Finset.mem_filter, Finset.mem_range,
      ← DynamicVec.get_eq, Option.ne_none_iff_exists']
    change _ ↔ _ ∧ (held v i).isSome
    rw [Option.isSome_iff_exists]
    constructor
    · rintro ⟨x, hx⟩
      exact ⟨lt_of_held hx, x, hx⟩
    · exact And.right
  rw [hset, Set.ncard_coe_finset, card_taken]

end SansIo.Collections.Slots
