import Mathlib.Algebra.BigOperators.Group.Finset.Piecewise
import Mathlib.Algebra.Order.Group.Multiset

/-!
# Lists split by a key

A list whose entries have keys is split into one list for each key.  Nothing is lost or
duplicated by that: the parts have the same entries as the whole (`sum_filterMap_key`).
-/

universe u v

namespace SansIo.Lib

variable {α : Type u} {β : Type v}

/-- The part of a list with a key, of what a function selects. -/
def partOf (key : α → Nat) (f : α → Option β) (i : Nat) (l : List α) : List β :=
  l.filterMap fun a ↦ if key a = i then f a else none

@[simp] theorem partOf_append (key : α → Nat) (f : α → Option β) (i : Nat) (l l' : List α) :
    partOf key f i (l ++ l') = partOf key f i l ++ partOf key f i l' := List.filterMap_append

/-- **The parts are the whole**, where the keys that matter are below a bound. -/
theorem sum_filterMap_key (key : α → Nat) (f : α → Option β) {k : Nat} {l : List α}
    (h : ∀ a ∈ l, f a ≠ none → key a < k) :
    ∑ i ∈ Finset.range k, (partOf key f i l : Multiset β) = (l.filterMap f : Multiset β) := by
  induction l with
  | nil => exact Finset.sum_eq_zero fun _ _ ↦ rfl
  | cons a l ih =>
      have hrest := ih fun a' ha' ↦ h a' (List.mem_cons_of_mem a ha')
      have hpart (i : Nat) : (partOf key f i (a :: l) : Multiset β) =
          (if key a = i then (f a).toList else [] : List β) + (partOf key f i l : Multiset β) := by
        rw [Multiset.coe_add, partOf, List.filterMap_cons]
        by_cases hi : key a = i
        · rw [if_pos hi, if_pos hi]
          cases f a <;> rfl
        · rw [if_neg hi, if_neg hi]
          rfl
      have hfirst : ∑ i ∈ Finset.range k,
          ((if key a = i then (f a).toList else [] : List β) : Multiset β) = (f a).toList := by
        cases hf : f a with
        | none => simp
        | some b =>
            have hlt : key a ∈ Finset.range k :=
              Finset.mem_range.2 (h a List.mem_cons_self (by simp [hf]))
            have hpush (i : Nat) : ((if key a = i then (some b).toList else [] : List β) :
                Multiset β) = if key a = i then {b} else 0 := by
              split <;> rfl
            rw [Finset.sum_congr rfl fun i _ ↦ hpush i, Finset.sum_ite_eq, if_pos hlt]
            rfl
      rw [Finset.sum_congr rfl fun i _ ↦ hpart i, Finset.sum_add_distrib, hfirst, hrest,
        Multiset.coe_add, List.filterMap_cons]
      cases f a <;> rfl

/-- What a function selects is a part of what another selects that agrees with it. -/
theorem filterMap_sublist_filterMap {f g : α → Option β} (h : ∀ a b, f a = some b → g a = some b)
    (l : List α) : List.Sublist (l.filterMap f) (l.filterMap g) := by
  induction l with
  | nil => exact .slnil
  | cons a l ih =>
      rw [List.filterMap_cons, List.filterMap_cons]
      cases hf : f a with
      | some b =>
          rw [h a b hf]
          exact ih.cons_cons b
      | none =>
          cases g a with
          | none => exact ih
          | some b => exact ih.cons b

end SansIo.Lib
