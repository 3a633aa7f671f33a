import Mathlib.Data.List.Basic

/-!
# Places

A list of places, some of which are taken.  What comes takes the first place that is vacant,
and where there is none, a new one at the end.  Which place that is does not depend on what
is in the others (`vacant_map`), and places in front that are all taken only shift it
(`vacant_append`).
-/

universe u v

namespace SansIo.Lib.Places

variable {α : Type u} {β : Type v}

/-- The first vacant place, which may be the one after the last. -/
def vacant : List (Option α) → Nat
  | some _ :: l => vacant l + 1
  | _ => 0

/-- That place is there, -/
def reserve : List (Option α) → List (Option α)
  | some x :: l => some x :: reserve l
  | none :: l => none :: l
  | [] => [none]

/-- and taken. -/
def place : List (Option α) → α → List (Option α)
  | some y :: l, x => some y :: place l x
  | none :: l, x => some x :: l
  | [], x => [some x]

/-- To place is to reserve and then to write. -/
theorem set_reserve (l : List (Option α)) (x : α) :
    (reserve l).set (vacant l) (some x) = place l x := by
  induction l with
  | nil => rfl
  | cons o l ih =>
      cases o with
      | none => rfl
      | some y => exact congrArg (some y :: ·) ih

/-- The place taken is the vacant one, and no other changes. -/
theorem getElem?_place (l : List (Option α)) (x : α) (i : Nat) :
    (place l x)[i]? = if i = vacant l then some (some x) else l[i]? := by
  induction l generalizing i with
  | nil => cases i <;> rfl
  | cons o l ih =>
      cases o with
      | none => cases i <;> rfl
      | some y =>
          cases i with
          | zero => rfl
          | succ i =>
              rw [place, List.getElem?_cons_succ, ih, vacant, List.getElem?_cons_succ]
              simp only [Nat.add_right_cancel_iff]

/-- Nothing is there. -/
theorem join_getElem?_vacant (l : List (Option α)) : l[vacant l]?.join = none := by
  induction l with
  | nil => rfl
  | cons o l ih =>
      cases o with
      | none => rfl
      | some y => exact ih

/-- A place that is only there is as good as none. -/
theorem join_getElem?_reserve (l : List (Option α)) (i : Nat) :
    (reserve l)[i]?.join = l[i]?.join := by
  induction l generalizing i with
  | nil => cases i <;> rfl
  | cons o l ih =>
      cases o with
      | none => rfl
      | some y =>
          cases i with
          | zero => rfl
          | succ i => exact ih i

section Map

variable (f : α → β)

@[simp] theorem vacant_map (l : List (Option α)) : vacant (l.map (Option.map f)) = vacant l := by
  induction l with
  | nil => rfl
  | cons o l ih =>
      cases o with
      | none => rfl
      | some y => exact congrArg (· + 1) ih

@[simp] theorem reserve_map (l : List (Option α)) :
    reserve (l.map (Option.map f)) = (reserve l).map (Option.map f) := by
  induction l with
  | nil => rfl
  | cons o l ih =>
      cases o with
      | none => rfl
      | some y => exact congrArg (some (f y) :: ·) ih

@[simp] theorem place_map (l : List (Option α)) (x : α) :
    place (l.map (Option.map f)) (f x) = (place l x).map (Option.map f) := by
  rw [← set_reserve, ← set_reserve, vacant_map, reserve_map, List.map_set, Option.map_some]

end Map

section Append

variable (front : List α) (l : List (Option α))

@[simp] theorem vacant_append : vacant (front.map some ++ l) = front.length + vacant l := by
  induction front with
  | nil => rw [List.map_nil, List.nil_append, List.length_nil, Nat.zero_add]
  | cons x front ih =>
      rw [List.map_cons, List.cons_append, vacant, ih, List.length_cons, Nat.add_right_comm]

@[simp] theorem reserve_append : reserve (front.map some ++ l) = front.map some ++ reserve l := by
  induction front with
  | nil => rfl
  | cons x front ih => exact congrArg (some x :: ·) ih

@[simp] theorem place_append (x : α) :
    place (front.map some ++ l) x = front.map some ++ place l x := by
  induction front with
  | nil => rfl
  | cons y front ih => exact congrArg (some y :: ·) ih

end Append

/-- The first vacant place, as it is looked for. -/
theorem findIdx?_isNone (l : List (Option α)) :
    l.findIdx? Option.isNone = some (vacant l) ∧ reserve l = l ∨
      l.findIdx? Option.isNone = none ∧ vacant l = l.length ∧ reserve l = l ++ [none] := by
  induction l with
  | nil => exact .inr ⟨rfl, rfl, rfl⟩
  | cons o l ih =>
      cases o with
      | none => exact .inl ⟨rfl, rfl⟩
      | some y =>
          rw [List.findIdx?_cons, if_neg (show ¬ (some y).isNone = true from Bool.false_ne_true)]
          obtain ⟨hfind, hreserve⟩ | ⟨hfind, hvacant, hreserve⟩ := ih
          · exact .inl ⟨by rw [hfind]; rfl, congrArg (some y :: ·) hreserve⟩
          · exact .inr ⟨by rw [hfind]; rfl, congrArg (· + 1) hvacant,
              congrArg (some y :: ·) hreserve⟩

end SansIo.Lib.Places
