import SansIo.Lib.Bounded

/-!
# `DynamicDeque`: a queue that spills from the stack to the heap

`src/collections/dequeue.rs`.  The first `STACK_SIZE` elements live in a
`heapless::Deque`, which is a bounded list; what does not fit goes to a
`VecDeque`.  The heap part is used only while the stack part is full, and every
`pop_front` that makes room moves one element over.  That invariant is the field
`spill`; under it the queue is the list `toList`, stack before heap, and every
operation is the operation of a plain queue on that list.

A `heapless::Deque` of capacity 0 does not compile, so the queue laws that need
room for one element ask for `0 < n`.
-/

universe u

namespace SansIo.Collections

open SansIo.Lib

/-- `DynamicDeque<T, STACK_SIZE>`. -/
structure DynamicDeque (α : Type u) (n : Nat) where
  /-- The part in the `heapless::Deque`. -/
  stack : Bounded α n
  /-- The part that did not fit. -/
  heap : List α
  /-- The heap is used only while the stack is full. -/
  spill : heap ≠ [] → stack.length = n

namespace DynamicDeque

variable {α : Type u} {n : Nat}

/-- `Default::default`. -/
def default : DynamicDeque α n := ⟨.empty, [], Bounded.spill_empty⟩

instance : Inhabited (DynamicDeque α n) := ⟨default⟩

/-- The contents, front to back. -/
def toList (d : DynamicDeque α n) : List α := d.stack.toList ++ d.heap

/-- `push_back_stack`: push, or give the value back where the stack is full. -/
def pushBackStack (d : DynamicDeque α n) (value : α) : Except α (DynamicDeque α n) :=
  if h : d.stack.length < n then
    .ok ⟨d.stack.snoc value h, d.heap, fun hh ↦ absurd (d.spill hh) (by omega)⟩
  else .error value

/-- `push_back`: push to the stack, and to the heap where the stack gives the
value back. -/
def pushBack (d : DynamicDeque α n) (value : α) : DynamicDeque α n :=
  if h : d.stack.length < n then
    ⟨d.stack.snoc value h, d.heap, fun hh ↦ absurd (d.spill hh) (by omega)⟩
  else
    ⟨d.stack, d.heap ++ [value], fun _ ↦ Nat.le_antisymm d.stack.length_le (by omega)⟩

/-- `pop_front`: pop from the stack, then move the front of the heap over if that
left room. -/
def popFront (d : DynamicDeque α n) : Option α × DynamicDeque α n :=
  let stack := d.stack.popFront.2
  match hd : d.heap with
  | [] => (d.stack.popFront.1, ⟨stack, [], by simp⟩)
  | front :: heap =>
    if h : stack.length < n then
      (d.stack.popFront.1, ⟨stack.snoc front h, heap, fun _ ↦ by
        have hfull := d.spill (by simp [hd])
        simp only [stack, Bounded.length_snoc, Bounded.length_popFront] at h ⊢
        omega⟩)
    else
      (d.stack.popFront.1, ⟨stack, front :: heap, fun _ ↦
        Nat.le_antisymm stack.length_le (by omega)⟩)

/-- `is_empty`. -/
def isEmpty (d : DynamicDeque α n) : Bool := d.stack.toList.isEmpty

/-- `len`. -/
def len (d : DynamicDeque α n) : Nat := d.stack.length + d.heap.length

@[simp] theorem toList_default : (default : DynamicDeque α n).toList = [] := rfl

theorem len_eq (d : DynamicDeque α n) : d.len = d.toList.length := by
  simp [len, toList]

/-- While the stack has room the heap is empty. -/
theorem heap_eq_nil {d : DynamicDeque α n} (h : d.stack.length < n) : d.heap = [] :=
  Bounded.spill_eq_nil d.spill h

/-- The stack has room exactly when the queue is shorter than its capacity. -/
theorem stack_lt_iff (d : DynamicDeque α n) : d.stack.length < n ↔ d.toList.length < n :=
  Bounded.spill_lt_iff d.spill

/-- Pushing appends. -/
@[simp] theorem toList_pushBack (d : DynamicDeque α n) (value : α) :
    (d.pushBack value).toList = d.toList ++ [value] := by
  unfold pushBack
  split
  · rename_i h
    simp [toList, heap_eq_nil h]
  · simp [toList]

/-- A push to the stack is refused exactly when the queue holds `STACK_SIZE`
elements, and is an ordinary push otherwise. -/
theorem pushBackStack_eq (d : DynamicDeque α n) (value : α) :
    d.pushBackStack value =
      if d.toList.length < n then .ok (d.pushBack value) else .error value := by
  by_cases h : d.stack.length < n
  · simp only [pushBackStack, pushBack, dif_pos h, if_pos ((stack_lt_iff d).mp h)]
  · simp only [pushBackStack, dif_neg h, if_neg (fun hl ↦ h ((stack_lt_iff d).mpr hl))]

/-- Popping takes the front. -/
theorem popFront_spec (hn : 0 < n) (d : DynamicDeque α n) :
    d.popFront.1 = d.toList.head? ∧ d.popFront.2.toList = d.toList.tail := by
  obtain ⟨stack, heap, spill⟩ := d
  cases heap with
  | nil => simp [popFront, toList]
  | cons front heap =>
      have hfull : stack.length = n := spill (by simp)
      have hne : stack.toList ≠ [] := List.ne_nil_of_length_pos (by
        rw [Bounded.length_toList]
        omega)
      obtain ⟨x, xs, hx⟩ := List.exists_cons_of_ne_nil hne
      have hroom : stack.popFront.2.length < n := by
        rw [Bounded.length_popFront]
        omega
      simp only [popFront, dif_pos hroom]
      simp [toList, hx]

@[simp] theorem popFront_fst (hn : 0 < n) (d : DynamicDeque α n) :
    d.popFront.1 = d.toList.head? := (popFront_spec hn d).1

@[simp] theorem toList_popFront (hn : 0 < n) (d : DynamicDeque α n) :
    d.popFront.2.toList = d.toList.tail := (popFront_spec hn d).2

/-- Whatever the capacity, a pop takes the front or, where it returns nothing, leaves
the queue as it was. -/
theorem popFront_cases (d : DynamicDeque α n) :
    (∃ x, d.popFront.1 = some x ∧ d.toList = x :: d.popFront.2.toList) ∨
      (d.popFront.1 = none ∧ d.popFront.2.toList = d.toList) := by
  rcases Nat.eq_zero_or_pos n with rfl | hn
  · obtain ⟨⟨stack, hlen⟩, heap, spill⟩ := d
    obtain rfl : stack = [] := List.eq_nil_of_length_eq_zero (Nat.le_zero.mp hlen)
    right
    cases heap with
    | nil => exact ⟨rfl, rfl⟩
    | cons front heap => simp [popFront, toList, Bounded.popFront, Bounded.length]
  · obtain ⟨hfst, hsnd⟩ := popFront_spec hn d
    rw [hfst, hsnd]
    cases d.toList with
    | nil => exact .inr ⟨rfl, rfl⟩
    | cons x xs => exact .inl ⟨x, rfl, rfl⟩

/-- A queue is determined by its contents: those that fit are in the stack. -/
theorem ext_toList {d d' : DynamicDeque α n} (h : d.toList = d'.toList) : d = d' := by
  obtain ⟨stack, heap, spill⟩ := d
  obtain ⟨stack', heap', spill'⟩ := d'
  obtain ⟨rfl, rfl⟩ := Bounded.spill_unique spill spill' h
  rfl

/-- Where the stack has a capacity, it is empty exactly when the queue is. -/
theorem isEmpty_iff (hn : 0 < n) (d : DynamicDeque α n) :
    d.isEmpty = true ↔ d.toList = [] := by
  simp only [isEmpty, List.isEmpty_iff, toList, List.append_eq_nil_iff]
  constructor
  · intro h
    refine ⟨h, heap_eq_nil ?_⟩
    rwa [← Bounded.length_toList, h]
  · rintro ⟨h, -⟩
    exact h

end DynamicDeque

end SansIo.Collections
