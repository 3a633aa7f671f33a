import SansIo.Lib.Bounded
import SansIo.Lib.Panics

/-!
# `DynamicVec`: a vector that spills from the stack to the heap

`src/collections/vec.rs`.  The first `STACK_SIZE` elements live in a
`heapless::Vec`, the others in a `Vec`.  Every access compares the index with the
length of the stack part, so the vector is the list `toList`, stack before heap,
as long as the heap is used only while the stack is full.  That is the field
`spill`.
-/

universe u

namespace SansIo.Collections

open SansIo.Lib

/-- `DynamicVec<T, STACK_SIZE>`. -/
structure DynamicVec (α : Type u) (n : Nat) where
  /-- The part in the `heapless::Vec`. -/
  stack : Bounded α n
  /-- The part that did not fit. -/
  heap : List α
  /-- The heap is used only while the stack is full. -/
  spill : heap ≠ [] → stack.length = n

namespace DynamicVec

variable {α : Type u} {n : Nat}

/-- `Default::default`. -/
def default : DynamicVec α n := ⟨.empty, [], Bounded.spill_empty⟩

instance : Inhabited (DynamicVec α n) := ⟨default⟩

/-- The elements in order, which is what `iter` and `iter_mut` go through. -/
def toList (v : DynamicVec α n) : List α := v.stack.toList ++ v.heap

/-- `get`. -/
def get (v : DynamicVec α n) (i : Nat) : Option α :=
  if i < v.stack.length then v.stack.toList[i]? else v.heap[i - v.stack.length]?

/-- The write through the reference of `get_mut`, where there is one. -/
def modify (v : DynamicVec α n) (i : Nat) (f : α → α) : DynamicVec α n :=
  if i < v.stack.length then
    ⟨v.stack.modify i f, v.heap, fun h ↦ by simpa using v.spill h⟩
  else
    ⟨v.stack, v.heap.modify (i - v.stack.length) f, fun h ↦ v.spill (by simpa using h)⟩

/-- `set`, which panics out of range. -/
def set (v : DynamicVec α n) (i : Nat) (value : α) : Panics (DynamicVec α n) :=
  if i < v.stack.length then .ok (v.modify i fun _ ↦ value)
  else do
    let _ ← index v.heap (i - v.stack.length)
    return v.modify i fun _ ↦ value

/-- The write through the reference of `get_mut_or_panic`. -/
def modifyOrPanic (v : DynamicVec α n) (i : Nat) (f : α → α) : Panics (DynamicVec α n) :=
  if i < v.stack.length then .ok (v.modify i f)
  else do
    let _ ← index v.heap (i - v.stack.length)
    return v.modify i f

/-- `iter_mut`, after the writes. -/
def iterMut (v : DynamicVec α n) (write : Nat → α → α) : DynamicVec α n :=
  ⟨v.stack.mapIdx write, v.heap.mapIdx fun i ↦ write (i + v.stack.length), fun h ↦ by
    rw [Bounded.length_mapIdx]
    exact v.spill fun hnil ↦ h (by rw [hnil, List.mapIdx_nil])⟩

/-- `push`. -/
def push (v : DynamicVec α n) (value : α) : DynamicVec α n :=
  if h : v.stack.length < n then
    ⟨v.stack.snoc value h, v.heap, fun hh ↦ absurd (v.spill hh) (by omega)⟩
  else
    ⟨v.stack, v.heap ++ [value], fun _ ↦ Nat.le_antisymm v.stack.length_le (by omega)⟩

/-- `pop`. -/
def pop (v : DynamicVec α n) : Option α × DynamicVec α n :=
  match v.heap.getLast? with
  | some t => (some t, ⟨v.stack, v.heap.dropLast, fun h ↦ v.spill (by
      rintro hnil
      simp [hnil] at h)⟩)
  | none => (v.stack.popBack.1, ⟨v.stack.popBack.2, [], by simp⟩)

/-- `last`. -/
def last (v : DynamicVec α n) : Option α :=
  match v.heap.getLast? with
  | some t => some t
  | none => v.stack.toList.getLast?

/-- `is_empty`, which looks at the stack only. -/
def isEmpty (v : DynamicVec α n) : Bool := v.stack.toList.isEmpty

/-- `len`. -/
def len (v : DynamicVec α n) : Nat := v.stack.length + v.heap.length

/-! ## The vector is a list -/

@[simp] theorem toList_default : (default : DynamicVec α n).toList = [] := rfl

@[simp] theorem len_eq (v : DynamicVec α n) : v.len = v.toList.length := by
  simp [len, toList]

/-- While the stack has room the heap is empty. -/
theorem heap_eq_nil {v : DynamicVec α n} (h : v.stack.length < n) : v.heap = [] :=
  Bounded.spill_eq_nil v.spill h

/-- The stack has room exactly when the vector is shorter than its capacity. -/
theorem stack_lt_iff (v : DynamicVec α n) : v.stack.length < n ↔ v.toList.length < n :=
  Bounded.spill_lt_iff v.spill

/-- `is_empty` is right, but where there is no stack. -/
theorem isEmpty_iff (v : DynamicVec α n) : v.isEmpty = true ↔ v.toList = [] ∨ n = 0 := by
  rw [isEmpty, List.isEmpty_iff, toList, List.append_eq_nil_iff]
  constructor
  · intro hstack
    have hlen : v.stack.length = 0 := by rw [← Bounded.length_toList, hstack, List.length_nil]
    rcases Nat.eq_zero_or_pos n with hn | hn
    · exact .inr hn
    · exact .inl ⟨hstack, heap_eq_nil (hlen ▸ hn)⟩
  · rintro (⟨hstack, -⟩ | rfl)
    · exact hstack
    · rw [← List.length_eq_zero_iff, Bounded.length_toList]
      exact Nat.le_zero.1 v.stack.length_le'

@[simp] theorem get_eq (v : DynamicVec α n) (i : Nat) : v.get i = v.toList[i]? := by
  unfold get toList
  split
  · rename_i h
    rw [List.getElem?_append_left (by simpa using h)]
  · rename_i h
    rw [List.getElem?_append_right (by simpa using h), Bounded.length_toList]

theorem modify_append (xs ys : List α) (i : Nat) (f : α → α) :
    (xs ++ ys).modify i f =
      if i < xs.length then xs.modify i f ++ ys else xs ++ ys.modify (i - xs.length) f := by
  induction xs generalizing i with
  | nil => simp
  | cons x xs ih =>
      cases i with
      | zero => simp
      | succ i =>
          simp only [List.cons_append, List.modify_succ_cons, ih, List.length_cons,
            Nat.add_lt_add_iff_right, Nat.add_sub_add_right]
          split <;> rfl

@[simp] theorem toList_modify (v : DynamicVec α n) (i : Nat) (f : α → α) :
    (v.modify i f).toList = v.toList.modify i f := by
  rw [toList, toList, modify_append, Bounded.length_toList]
  by_cases h : i < v.stack.length <;> simp [modify, h]

/-- The second part of the iterator goes on counting where the first one stopped. -/
@[simp] theorem toList_iterMut (v : DynamicVec α n) (write : Nat → α → α) :
    (v.iterMut write).toList = v.toList.mapIdx write := by
  rw [toList, toList, List.mapIdx_append]
  rfl

/-- Writing in range is writing to the list. -/
theorem modifyOrPanic_of_lt {v : DynamicVec α n} {i : Nat} (h : i < v.toList.length)
    (f : α → α) : v.modifyOrPanic i f = .ok (v.modify i f) := by
  unfold modifyOrPanic
  split
  · rfl
  · rename_i hs
    have hlt : i - v.stack.length < v.heap.length := by
      simp only [toList, List.length_append, Bounded.length_toList] at h
      omega
    simp [index_of_lt hlt]

/-- Writing out of range panics. -/
theorem modifyOrPanic_ok_lt {v v' : DynamicVec α n} {i : Nat} {f : α → α}
    (h : v.modifyOrPanic i f = .ok v') : i < v.toList.length ∧ v' = v.modify i f := by
  have hlen : v.toList.length = v.stack.length + v.heap.length := by simp [toList]
  unfold modifyOrPanic at h
  split at h
  · cases h
    exact ⟨by omega, rfl⟩
  · obtain ⟨x, hx, hv⟩ := bind_ok.mp h
    cases hv
    have := (List.getElem?_eq_some_iff.mp (index_eq_ok.mp hx)).1
    exact ⟨by omega, rfl⟩

/-- `set` is a write through the reference of `get_mut_or_panic`. -/
theorem set_eq (v : DynamicVec α n) (i : Nat) (value : α) :
    v.set i value = v.modifyOrPanic i fun _ ↦ value := rfl

/-- Pushing appends. -/
@[simp] theorem toList_push (v : DynamicVec α n) (value : α) :
    (v.push value).toList = v.toList ++ [value] := by
  unfold push
  split
  · rename_i h
    simp [toList, heap_eq_nil h]
  · simp [toList]

@[simp] theorem last_eq (v : DynamicVec α n) : v.last = v.toList.getLast? := by
  unfold last toList
  rw [List.getLast?_append]
  cases h : v.heap.getLast? <;> simp

/-- Popping removes the last element. -/
theorem pop_eq (v : DynamicVec α n) :
    v.pop.1 = v.toList.getLast? ∧ v.pop.2.toList = v.toList.dropLast := by
  unfold pop
  split
  · rename_i t h
    have hne : v.heap ≠ [] := fun hnil ↦ by simp [hnil] at h
    simp [toList, List.getLast?_append, h, List.dropLast_append_of_ne_nil hne]
  · rename_i h
    have hnil : v.heap = [] := List.getLast?_eq_none_iff.mp h
    simp [toList, hnil]

@[simp] theorem pop_fst (v : DynamicVec α n) : v.pop.1 = v.toList.getLast? := (pop_eq v).1

@[simp] theorem toList_pop (v : DynamicVec α n) : v.pop.2.toList = v.toList.dropLast :=
  (pop_eq v).2

/-- A vector is determined by its elements: those that fit are in the stack. -/
theorem ext_toList {v v' : DynamicVec α n} (h : v.toList = v'.toList) : v = v' := by
  obtain ⟨stack, heap, spill⟩ := v
  obtain ⟨stack', heap', spill'⟩ := v'
  obtain ⟨rfl, rfl⟩ := Bounded.spill_unique spill spill' h
  rfl

/-! ## The same function on every element -/

variable {β : Type u}

/-- Apply a function to every element. -/
def map (f : α → β) (v : DynamicVec α n) : DynamicVec β n :=
  ⟨v.stack.map f, v.heap.map f, fun h ↦ by
    rw [Bounded.length_map]
    exact v.spill fun hnil ↦ h (by rw [hnil, List.map_nil])⟩

@[simp] theorem toList_map (f : α → β) (v : DynamicVec α n) :
    (v.map f).toList = v.toList.map f := by
  simp [map, toList]

theorem map_push (f : α → β) (v : DynamicVec α n) (x : α) :
    (v.push x).map f = (v.map f).push (f x) := by
  apply ext_toList
  simp

theorem map_pop (f : α → β) (v : DynamicVec α n) : v.pop.2.map f = (v.map f).pop.2 := by
  apply ext_toList
  simp [List.map_dropLast]

theorem map_listModify (f : α → β) (xs : List α) (i : Nat) {h : α → α} {h' : β → β}
    (hf : ∀ x, f (h x) = h' (f x)) : (xs.modify i h).map f = (xs.map f).modify i h' := by
  apply List.ext_getElem?
  intro j
  simp only [List.getElem?_map, List.getElem?_modify]
  split <;> cases xs[j]? <;> simp [hf]

theorem map_modify (f : α → β) (v : DynamicVec α n) (i : Nat) {h : α → α} {h' : β → β}
    (hf : ∀ x, f (h x) = h' (f x)) : (v.modify i h).map f = (v.map f).modify i h' := by
  apply ext_toList
  rw [toList_map, toList_modify, toList_modify, toList_map, map_listModify f v.toList i hf]

theorem map_modifyOrPanic (f : α → β) (v : DynamicVec α n) (i : Nat) {h : α → α} {h' : β → β}
    (hf : ∀ x, f (h x) = h' (f x)) :
    (v.map f).modifyOrPanic i h' = (v.modifyOrPanic i h).map (map f) := by
  simp only [modifyOrPanic, ← map_modify f v i hf]
  simp only [map, Bounded.length_map]
  split
  · rfl
  · simp only [index, List.getElem?_map, List.length_map]
    cases v.heap[i - v.stack.length]? <;> rfl

end DynamicVec

end SansIo.Collections
