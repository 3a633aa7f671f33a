import Mathlib.Data.List.Basic

/-!
# Bounded lists

`Bounded α n` is a list of at most `n` elements.  It is what a container of
fixed capacity holds: appending either succeeds or hands the element back, and
both ends can be removed.  The bound is a field, so a container that is longer
than its capacity cannot be written down.
-/

universe u

namespace SansIo.Lib

/-- A list of at most `n` elements. -/
@[ext]
structure Bounded (α : Type u) (n : Nat) where
  /-- The elements, first to last. -/
  toList : List α
  /-- The capacity is respected. -/
  length_le : toList.length ≤ n

namespace Bounded

variable {α : Type u} {n : Nat}

/-- The empty container. -/
def empty : Bounded α n := ⟨[], Nat.zero_le n⟩

@[simp] theorem toList_empty : (empty : Bounded α n).toList = [] := rfl

/-- How many elements there are. -/
def length (b : Bounded α n) : Nat := b.toList.length

/-- Nothing has spilled over from an empty container. -/
theorem spill_empty : ([] : List α) ≠ [] → (empty : Bounded α n).length = n := absurd rfl

/-- Append an element that has room. -/
def snoc (b : Bounded α n) (x : α) (h : b.length < n) : Bounded α n :=
  ⟨b.toList ++ [x], by
    have : b.toList.length < n := h
    simp only [List.length_append, List.length_singleton]
    omega⟩

/-- Append an element, or give it back. -/
def push (b : Bounded α n) (x : α) : Except α (Bounded α n) :=
  if h : b.length < n then .ok (b.snoc x h) else .error x

/-- Remove the first element. -/
def popFront (b : Bounded α n) : Option α × Bounded α n :=
  (b.toList.head?, ⟨b.toList.tail, by
    have := b.length_le
    simp only [List.length_tail]
    omega⟩)

/-- Remove the last element. -/
def popBack (b : Bounded α n) : Option α × Bounded α n :=
  (b.toList.getLast?, ⟨b.toList.dropLast, by
    have := b.length_le
    simp only [List.length_dropLast]
    omega⟩)

/-- Apply a function to the element at an index. -/
def modify (b : Bounded α n) (i : Nat) (f : α → α) : Bounded α n :=
  ⟨b.toList.modify i f, by simpa using b.length_le⟩

@[simp] theorem length_empty : (empty : Bounded α n).length = 0 := rfl

theorem length_le' (b : Bounded α n) : b.length ≤ n := b.length_le

@[simp] theorem toList_snoc (b : Bounded α n) (x : α) (h : b.length < n) :
    (b.snoc x h).toList = b.toList ++ [x] := rfl

@[simp] theorem length_snoc (b : Bounded α n) (x : α) (h : b.length < n) :
    (b.snoc x h).length = b.length + 1 := by
  simp [length, snoc]

theorem push_of_lt (b : Bounded α n) (x : α) (h : b.length < n) :
    b.push x = .ok (b.snoc x h) := dif_pos h

theorem push_of_full (b : Bounded α n) (x : α) (h : b.length = n) :
    b.push x = .error x := dif_neg (by omega)

@[simp] theorem popFront_fst (b : Bounded α n) : b.popFront.1 = b.toList.head? := rfl

@[simp] theorem toList_popFront (b : Bounded α n) :
    b.popFront.2.toList = b.toList.tail := rfl

@[simp] theorem length_popFront (b : Bounded α n) :
    b.popFront.2.length = b.length - 1 := by
  simp [length, popFront]

@[simp] theorem popBack_fst (b : Bounded α n) : b.popBack.1 = b.toList.getLast? := rfl

@[simp] theorem toList_popBack (b : Bounded α n) :
    b.popBack.2.toList = b.toList.dropLast := rfl

@[simp] theorem length_popBack (b : Bounded α n) :
    b.popBack.2.length = b.length - 1 := by
  simp [length, popBack]

@[simp] theorem toList_modify (b : Bounded α n) (i : Nat) (f : α → α) :
    (b.modify i f).toList = b.toList.modify i f := rfl

@[simp] theorem length_modify (b : Bounded α n) (i : Nat) (f : α → α) :
    (b.modify i f).length = b.length := by
  simp [length, modify]

@[simp] theorem length_toList (b : Bounded α n) : b.toList.length = b.length := rfl

/-! ## A list in two parts

What does not fit goes to a second list, which is used only while the bounded one is full. -/

section Spill

variable {b b' : Bounded α n} {xs xs' : List α} (hspill : xs ≠ [] → b.length = n)
  (hspill' : xs' ≠ [] → b'.length = n)

include hspill

/-- While the bounded part has room the other one is empty, -/
theorem spill_eq_nil (h : b.length < n) : xs = [] := by
  by_contra hne
  have := hspill hne
  omega

/-- and it has room exactly when the whole list is shorter than the capacity. -/
theorem spill_lt_iff : b.length < n ↔ (b.toList ++ xs).length < n := by
  rw [List.length_append, length_toList]
  constructor
  · intro h
    rw [spill_eq_nil hspill h]
    exact h
  · intro h
    omega

include hspill'

/-- So there is one way to keep a list. -/
theorem spill_unique (h : b.toList ++ xs = b'.toList ++ xs') : b = b' ∧ xs = xs' := by
  have hlen : b.toList.length = b'.toList.length := by
    have htotal := congrArg List.length h
    rw [List.length_append, List.length_append, length_toList, length_toList] at htotal
    have hle := b.length_le'
    have hle' := b'.length_le'
    rw [length_toList, length_toList]
    rcases eq_or_ne xs [] with rfl | hxs <;> rcases eq_or_ne xs' [] with rfl | hxs'
    · simpa using htotal
    · have := hspill' hxs'
      rw [List.length_nil] at htotal
      omega
    · have := hspill hxs
      rw [List.length_nil] at htotal
      omega
    · rw [hspill hxs, hspill' hxs']
  obtain ⟨hstack, hheap⟩ := List.append_inj h hlen
  exact ⟨Bounded.ext hstack, hheap⟩

end Spill

/-! ## The same function on every element -/

variable {β : Type u}

/-- Apply a function to every element. -/
def map (f : α → β) (b : Bounded α n) : Bounded β n :=
  ⟨b.toList.map f, by simpa using b.length_le⟩

@[simp] theorem toList_map (f : α → β) (b : Bounded α n) : (b.map f).toList = b.toList.map f := rfl

@[simp] theorem length_map (f : α → β) (b : Bounded α n) : (b.map f).length = b.length :=
  List.length_map f

/-- Apply a function to every element that knows the index. -/
def mapIdx (f : Nat → α → β) (b : Bounded α n) : Bounded β n :=
  ⟨b.toList.mapIdx f, by simpa using b.length_le⟩

@[simp] theorem toList_mapIdx (f : Nat → α → β) (b : Bounded α n) :
    (b.mapIdx f).toList = b.toList.mapIdx f := rfl

@[simp] theorem length_mapIdx (f : Nat → α → β) (b : Bounded α n) :
    (b.mapIdx f).length = b.length :=
  List.length_mapIdx

end Bounded

end SansIo.Lib
