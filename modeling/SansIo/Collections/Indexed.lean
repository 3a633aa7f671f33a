import SansIo.Collections.Vec
import SansIo.Lib.Machine

/-!
# `DynamicVec` is a list

`src/collections/vec.rs`, under any sequence of its operations.  `VecParts` is the struct as
the source has it: two containers that nothing ties to one another.  A `get` finds the index
in the one or in the other, an append goes to whichever has room.

Each function finds the heap empty or the stack full, and leaves it so: on the parts of a
`DynamicVec` it computes the parts of a `DynamicVec` (`DynamicVec.perform_parts`), with the
answer of one plain list.  So the elements have indices, and an element that stays keeps its
own (`VecParts.indexed`).

Only `is_empty` is not that of the list, where there is no stack (`DynamicVec.isEmpty_iff`).
-/

universe u

namespace SansIo.Collections

open SansIo.Lib

/-- `DynamicVec<T, STACK_SIZE>`, without a word on how its parts go together. -/
structure VecParts (α : Type u) (n : Nat) where
  /-- The `heapless::Vec`. -/
  stack : Bounded α n
  /-- The `Vec`. -/
  heap : List α

/-- The operations of a `DynamicVec`.  One that returns references goes with what is written
through them. -/
inductive VecOp (α : Type u) where
  | push (value : α)
  | pushStack (value : α)
  | pop
  | set (index : Nat) (value : α)
  | getMut (index : Nat) (write : α → α)
  | getMutOrPanic (index : Nat) (write : α → α)
  | iterMut (write : Nat → α → α)
  | get (index : Nat)
  | last
  | len
  | iter

/-- What they return. -/
inductive VecAnswer (α : Type u) where
  | done
  | pushed (result : Except α Unit)
  | element (value : Option α)
  | elements (values : List α)
  | count (len : Nat)

namespace VecOp

variable {α : Type u}

/-- The operation does not panic on `len` elements. -/
def InRange (len : Nat) : VecOp α → Prop
  | .set index _ => index < len
  | .getMutOrPanic index _ => index < len
  | _ => True

/-- What the operation makes of the element at an index. -/
def writes : VecOp α → Nat → α → α
  | .set index value, i, x => if index = i then value else x
  | .getMut index write, i, x => if index = i then write x else x
  | .getMutOrPanic index write, i, x => if index = i then write x else x
  | .iterMut write, i, x => write i x
  | _, _, x => x

/-- The element at an index is still there after the operation. -/
def Keeps (len i : Nat) : VecOp α → Prop
  | .pop => i + 1 < len
  | _ => i < len

end VecOp

namespace VecParts

variable {α : Type u} {n : Nat}

/-- `Default::default`. -/
def default : VecParts α n := ⟨.empty, []⟩

/-- `iter`. -/
def iter (v : VecParts α n) : List α := v.stack.toList ++ v.heap

/-- `iter_mut`: the elements, and what writes through the references make of the vector. -/
def iterMut (v : VecParts α n) (write : Nat → α → α) : List α × VecParts α n :=
  (v.stack.toList ++ v.heap,
    ⟨v.stack.mapIdx write, v.heap.mapIdx fun i ↦ write (i + v.stack.length)⟩)

/-- `get`. -/
def get (v : VecParts α n) (i : Nat) : Option α :=
  if i < v.stack.length then v.stack.toList[i]? else v.heap[i - v.stack.length]?

/-- `set`. -/
def set (v : VecParts α n) (i : Nat) (value : α) : Panics (VecParts α n) :=
  if i < v.stack.length then return { v with stack := v.stack.modify i fun _ ↦ value }
  else do
    let _ ← index v.heap (i - v.stack.length)
    return { v with heap := v.heap.set (i - v.stack.length) value }

/-- `get_mut`: the element, and what a write through the reference makes of the vector. -/
def getMut (v : VecParts α n) (i : Nat) (write : α → α) : Option (α × VecParts α n) :=
  if i < v.stack.length then
    v.stack.toList[i]?.map fun x ↦ (x, { v with stack := v.stack.modify i write })
  else
    v.heap[i - v.stack.length]?.map fun x ↦
      (x, { v with heap := v.heap.modify (i - v.stack.length) write })

/-- `get_mut_or_panic`, in the same way. -/
def getMutOrPanic (v : VecParts α n) (i : Nat) (write : α → α) : Panics (α × VecParts α n) :=
  if i < v.stack.length then do
    let x ← index v.stack.toList i
    return (x, { v with stack := v.stack.modify i write })
  else do
    let x ← index v.heap (i - v.stack.length)
    return (x, { v with heap := v.heap.modify (i - v.stack.length) write })

/-- `push_stack`. -/
def pushStack (v : VecParts α n) (value : α) : Except α Unit × VecParts α n :=
  match v.stack.push value with
  | .ok stack => (.ok (), { v with stack })
  | .error value => (.error value, v)

/-- `push`. -/
def push (v : VecParts α n) (value : α) : VecParts α n :=
  match v.stack.push value with
  | .ok stack => { v with stack }
  | .error value => { v with heap := v.heap ++ [value] }

/-- `pop`. -/
def pop (v : VecParts α n) : Option α × VecParts α n :=
  match v.heap.getLast? with
  | some t => (some t, { v with heap := v.heap.dropLast })
  | none => (v.stack.popBack.1, { v with stack := v.stack.popBack.2 })

/-- `last`. -/
def last (v : VecParts α n) : Option α :=
  match v.heap.getLast? with
  | some t => some t
  | none => v.stack.toList.getLast?

/-- `len`. -/
def len (v : VecParts α n) : Nat := v.stack.length + v.heap.length

/-- `from`, of an array of any size. -/
def ofArray (prepare : List α) : VecParts α n :=
  prepare.foldl push default

/-- One operation, with what it returns. -/
def perform (v : VecParts α n) : VecOp α → Panics (VecAnswer α × VecParts α n)
  | .push value => return (.done, v.push value)
  | .pushStack value =>
    let (result, v) := v.pushStack value
    return (.pushed result, v)
  | .pop =>
    let (value, v) := v.pop
    return (.element value, v)
  | .set i value => do
    let v ← v.set i value
    return (.done, v)
  | .getMut i write => match v.getMut i write with
    | some (x, v) => return (.element (some x), v)
    | none => return (.element none, v)
  | .getMutOrPanic i write => do
    let (x, v) ← v.getMutOrPanic i write
    return (.element (some x), v)
  | .iterMut write =>
    let (values, v) := v.iterMut write
    return (.elements values, v)
  | .get i => return (.element (v.get i), v)
  | .last => return (.element v.last, v)
  | .len => return (.count v.len, v)
  | .iter => return (.elements v.iter, v)

/-- A `DynamicVec` under its operations.  One that panics is not possible. -/
def machine (α : Type u) (n : Nat) : Machine (VecParts α n) (VecOp α) (VecAnswer α) :=
  .ofPanics perform

/-- `default()` is `from([])`. -/
theorem ofArray_nil : (ofArray [] : VecParts α n) = default := rfl

theorem ofArray_snoc (prepare : List α) (value : α) :
    (ofArray (prepare ++ [value]) : VecParts α n) = (ofArray prepare).push value := by
  simp [ofArray]

end VecParts

/-! ## The list that it is -/

/-- A plain list.  Of its operations one may be refused, when it holds `n` elements. -/
def plainVec (α : Type u) (n : Nat) : Machine (List α) (VecOp α) (VecAnswer α) where
  step xs op := match op with
    | .push value => some (xs ++ [value], [.done])
    | .pushStack value =>
      if xs.length < n then some (xs ++ [value], [.pushed (.ok ())])
      else some (xs, [.pushed (.error value)])
    | .pop => some (xs.dropLast, [.element xs.getLast?])
    | .set i value => if i < xs.length then some (xs.set i value, [.done]) else none
    | .getMut i write => some (xs.modify i write, [.element xs[i]?])
    | .getMutOrPanic i write => xs[i]?.map fun x ↦ (xs.modify i write, [.element (some x)])
    | .iterMut write => some (xs.mapIdx write, [.elements xs])
    | .get i => some (xs, [.element xs[i]?])
    | .last => some (xs, [.element xs.getLast?])
    | .len => some (xs, [.count xs.length])
    | .iter => some (xs, [.elements xs])

/-- On a plain list nothing moves. -/
theorem plainVec_keeps {α : Type u} {n : Nat} {xs ys : List α} {op : VecOp α}
    {answers : List (VecAnswer α)} (h : (plainVec α n).step xs op = some (ys, answers)) {i : Nat}
    (hi : op.Keeps xs.length i) : ys[i]? = xs[i]?.map (op.writes i) := by
  cases op with
  | push value =>
      cases h
      rw [List.getElem?_append_left hi]
      exact Option.map_id'.symm
  | pushStack value =>
      simp only [plainVec] at h
      split at h
      · cases h
        rw [List.getElem?_append_left hi]
        exact Option.map_id'.symm
      · cases h
        exact Option.map_id'.symm
  | pop =>
      cases h
      have hlt : i < xs.length - 1 := Nat.lt_sub_of_add_lt hi
      rw [List.dropLast_eq_take, List.getElem?_take_of_lt hlt]
      exact Option.map_id'.symm
  | set j value =>
      simp only [plainVec] at h
      split at h
      · cases h
        rw [List.set_eq_modify, List.getElem?_modify]
        rfl
      · cases h
  | getMut j write =>
      cases h
      rw [List.getElem?_modify]
      rfl
  | getMutOrPanic j write =>
      obtain ⟨x, -, hx⟩ := Option.map_eq_some_iff.mp h
      cases hx
      rw [List.getElem?_modify]
      rfl
  | iterMut write =>
      cases h
      exact List.getElem?_mapIdx
  | get | last | len | iter =>
      cases h
      exact Option.map_id'.symm

namespace DynamicVec

variable {α : Type u} {n : Nat}

/-- The parts, and no more. -/
def parts (v : DynamicVec α n) : VecParts α n := ⟨v.stack, v.heap⟩

@[simp] theorem iter_parts (v : DynamicVec α n) : v.parts.iter = v.toList := rfl

@[simp] theorem len_parts (v : DynamicVec α n) : v.parts.len = v.toList.length := v.len_eq

@[simp] theorem get_parts (v : DynamicVec α n) (i : Nat) : v.parts.get i = v.toList[i]? :=
  v.get_eq i

@[simp] theorem last_parts (v : DynamicVec α n) : v.parts.last = v.toList.getLast? := v.last_eq

/-- `push` goes to the stack only when the heap is empty. -/
theorem parts_push (v : DynamicVec α n) (value : α) :
    v.parts.push value = (v.push value).parts := by
  by_cases h : v.stack.length < n
  · simp [VecParts.push, push, parts, Bounded.push, h]
  · simp [VecParts.push, push, parts, Bounded.push, h]

/-- `push_stack` is a `push` or nothing. -/
theorem parts_pushStack (v : DynamicVec α n) (value : α) :
    v.parts.pushStack value =
      if v.toList.length < n then (.ok (), (v.push value).parts) else (.error value, v.parts) := by
  by_cases h : v.stack.length < n
  · rw [if_pos ((stack_lt_iff v).mp h)]
    simp [VecParts.pushStack, push, parts, Bounded.push, h]
  · rw [if_neg (fun hl ↦ h ((stack_lt_iff v).mpr hl))]
    simp [VecParts.pushStack, parts, Bounded.push, h]

/-- `pop` goes to the stack only when the heap is empty. -/
theorem parts_pop (v : DynamicVec α n) : v.parts.pop = (v.pop.1, v.pop.2.parts) := by
  unfold VecParts.pop pop
  cases h : v.heap.getLast? with
  | none =>
      have hnil : v.heap = [] := List.getLast?_eq_none_iff.mp h
      simp [parts, hnil]
  | some t => simp [parts, h]

/-! ### Writing at an index -/

theorem parts_modify (v : DynamicVec α n) (i : Nat) (write : α → α) :
    (v.modify i write).parts =
      if i < v.stack.length then ⟨v.stack.modify i write, v.heap⟩
      else ⟨v.stack, v.heap.modify (i - v.stack.length) write⟩ := by
  unfold modify
  split <;> rfl

/-- `get_mut` finds the element of the list. -/
theorem parts_getMut (v : DynamicVec α n) (i : Nat) (write : α → α) :
    v.parts.getMut i write = v.toList[i]?.map fun x ↦ (x, (v.modify i write).parts) := by
  rw [← get_eq, parts_modify, get]
  by_cases h : i < v.stack.length
  · rw [if_pos h, if_pos h]
    exact if_pos h
  · rw [if_neg h, if_neg h]
    exact if_neg h

end DynamicVec

namespace VecParts

variable {α : Type u} {n : Nat}

/-- `get_mut_or_panic` returns what `get_mut` does. -/
theorem getMutOrPanic_eq (v : VecParts α n) (i : Nat) (write : α → α) :
    (v.getMutOrPanic i write).toOption = v.getMut i write := by
  unfold getMutOrPanic getMut index
  split
  · cases v.stack.toList[i]? <;> rfl
  · cases v.heap[i - v.stack.length]? <;> rfl

/-- `set` writes through the reference of `get_mut`. -/
theorem set_eq (v : VecParts α n) (i : Nat) (value : α) :
    (v.set i value).toOption = (v.getMut i fun _ ↦ value).map Prod.snd := by
  unfold set getMut index
  split
  · rename_i h
    rw [List.getElem?_eq_getElem h]
    rfl
  · rw [List.set_eq_modify]
    cases v.heap[i - v.stack.length]? <;> rfl

end VecParts

namespace DynamicVec

variable {α : Type u} {n : Nat}

theorem parts_getMutOrPanic (v : DynamicVec α n) (i : Nat) (write : α → α) :
    (v.parts.getMutOrPanic i write).toOption =
      v.toList[i]?.map fun x ↦ (x, (v.modify i write).parts) := by
  rw [VecParts.getMutOrPanic_eq, parts_getMut]

theorem parts_set (v : DynamicVec α n) (i : Nat) (value : α) :
    (v.parts.set i value).toOption =
      v.toList[i]?.map fun _ ↦ (v.modify i fun _ ↦ value).parts := by
  rw [VecParts.set_eq, parts_getMut, Option.map_map]
  rfl

section Range

variable {v : DynamicVec α n} {i : Nat}

theorem parts_getMutOrPanic_of_lt (hi : i < v.toList.length) (write : α → α) :
    v.parts.getMutOrPanic i write = .ok (v.toList[i], (v.modify i write).parts) := by
  apply toOption_eq_some.mp
  rw [parts_getMutOrPanic, List.getElem?_eq_getElem hi]
  rfl

theorem parts_getMutOrPanic_of_ge (hi : v.toList.length ≤ i) (write : α → α) :
    ∃ e, v.parts.getMutOrPanic i write = .error e := by
  apply toOption_eq_none.mp
  rw [parts_getMutOrPanic, List.getElem?_eq_none hi]
  rfl

theorem parts_set_of_lt (hi : i < v.toList.length) (value : α) :
    v.parts.set i value = .ok (v.modify i fun _ ↦ value).parts := by
  apply toOption_eq_some.mp
  rw [parts_set, List.getElem?_eq_getElem hi]
  rfl

theorem parts_set_of_ge (hi : v.toList.length ≤ i) (value : α) :
    ∃ e, v.parts.set i value = .error e := by
  apply toOption_eq_none.mp
  rw [parts_set, List.getElem?_eq_none hi]
  rfl

/-- Out of range there is nothing to write to. -/
theorem modify_of_ge (hi : v.toList.length ≤ i) (write : α → α) : v.modify i write = v := by
  apply ext_toList
  rw [toList_modify, List.modify_eq_self hi]

end Range

theorem parts_iterMut (v : DynamicVec α n) (write : Nat → α → α) :
    v.parts.iterMut write = (v.toList, (v.iterMut write).parts) := rfl

/-! ### Every operation -/

/-- **One operation**, in range.  It does not panic, it leaves the parts of a `DynamicVec`, and
the plain list of the elements does the same. -/
theorem perform_parts (v : DynamicVec α n) {op : VecOp α} (hop : op.InRange v.toList.length) :
    ∃ answer, ∃ v' : DynamicVec α n, v.parts.perform op = .ok (answer, v'.parts) ∧
      (plainVec α n).step v.toList op = some (v'.toList, [answer]) := by
  cases op with
  | push value =>
      refine ⟨.done, v.push value, ?_, ?_⟩
      · rw [VecParts.perform, parts_push]
        rfl
      · rw [toList_push]
        rfl
  | pushStack value =>
      simp only [VecParts.perform, parts_pushStack, plainVec]
      by_cases h : v.toList.length < n
      · rw [if_pos h, if_pos h]
        exact ⟨_, v.push value, rfl, by rw [toList_push]⟩
      · rw [if_neg h, if_neg h]
        exact ⟨_, v, rfl, rfl⟩
  | pop =>
      refine ⟨.element v.pop.1, v.pop.2, ?_, ?_⟩
      · rw [VecParts.perform, parts_pop]
        rfl
      · rw [toList_pop, pop_fst]
        rfl
  | set i value =>
      have hi : i < v.toList.length := hop
      refine ⟨.done, v.modify i fun _ ↦ value, ?_, ?_⟩
      · rw [VecParts.perform, parts_set_of_lt hi]
        rfl
      · rw [toList_modify, ← List.set_eq_modify]
        exact if_pos hi
  | getMut i write =>
      refine ⟨.element v.toList[i]?, v.modify i write, ?_, ?_⟩
      · rw [VecParts.perform, parts_getMut]
        by_cases hi : i < v.toList.length
        · rw [List.getElem?_eq_getElem hi]
          rfl
        · rw [List.getElem?_eq_none (Nat.not_lt.mp hi), modify_of_ge (Nat.not_lt.mp hi)]
          rfl
      · rw [toList_modify]
        rfl
  | getMutOrPanic i write =>
      have hi : i < v.toList.length := hop
      refine ⟨.element (some v.toList[i]), v.modify i write, ?_, ?_⟩
      · rw [VecParts.perform, parts_getMutOrPanic_of_lt hi]
        rfl
      · simp only [plainVec, toList_modify, List.getElem?_eq_getElem hi, Option.map_some]
  | iterMut write =>
      refine ⟨.elements v.toList, v.iterMut write, ?_, ?_⟩
      · rw [VecParts.perform, parts_iterMut]
        rfl
      · rw [toList_iterMut]
        rfl
  | get i =>
      refine ⟨.element v.toList[i]?, v, ?_, rfl⟩
      rw [VecParts.perform, get_parts]
      rfl
  | last =>
      refine ⟨.element v.toList.getLast?, v, ?_, rfl⟩
      rw [VecParts.perform, last_parts]
      rfl
  | len =>
      refine ⟨.count v.toList.length, v, ?_, rfl⟩
      rw [VecParts.perform, len_parts]
      rfl
  | iter => exact ⟨.elements v.toList, v, rfl, rfl⟩

/-- Out of range it panics. -/
theorem perform_out_of_range (v : DynamicVec α n) {op : VecOp α}
    (hop : ¬ op.InRange v.toList.length) : ∃ e, v.parts.perform op = .error e := by
  cases op with
  | set i value =>
      obtain ⟨e, he⟩ := parts_set_of_ge (Nat.not_lt.mp hop) value
      exact ⟨e, by rw [VecParts.perform, he]; rfl⟩
  | getMutOrPanic i write =>
      obtain ⟨e, he⟩ := parts_getMutOrPanic_of_ge (Nat.not_lt.mp hop) write
      exact ⟨e, by rw [VecParts.perform, he]; rfl⟩
  | _ => exact absurd trivial hop

end DynamicVec

namespace VecParts

variable {α : Type u} {n : Nat}

/-- The parts go together: the heap is used only while the stack is full. -/
def Sound (v : VecParts α n) : Prop := ∃ v' : DynamicVec α n, v'.parts = v

/-- What `from` makes holds the elements of the array. -/
theorem ofArray_sound (prepare : List α) :
    (ofArray prepare : VecParts α n).Sound ∧ (ofArray prepare : VecParts α n).iter = prepare := by
  induction prepare using List.reverseRecOn with
  | nil =>
      rw [ofArray_nil]
      exact ⟨⟨.default, rfl⟩, rfl⟩
  | append_singleton prepare value ih =>
      obtain ⟨⟨v, hv⟩, hlist⟩ := ih
      have hsnoc : (ofArray (prepare ++ [value]) : VecParts α n) = (v.push value).parts := by
        rw [ofArray_snoc, ← hv, DynamicVec.parts_push]
      rw [hsnoc, DynamicVec.iter_parts, DynamicVec.toList_push, ← v.iter_parts, hv, hlist]
      exact ⟨⟨_, rfl⟩, rfl⟩

/-- A step of the parts is one of the plain list. -/
theorem machine_fires {m : Moment (VecParts α n) (VecOp α) (VecAnswer α)}
    (hm : (machine α n).Fires m) (hpre : m.pre.Sound) :
    m.post.Sound ∧ (plainVec α n).Fires (m.map iter) := by
  obtain ⟨pre, op, answers, post⟩ := m
  obtain ⟨answer, hanswer, hevents⟩ := Machine.fires_ofPanics.mp hm
  obtain ⟨v, rfl⟩ := hpre
  by_cases hop : op.InRange v.toList.length
  · obtain ⟨answer', v', hperform, hplain⟩ := v.perform_parts hop
    obtain ⟨rfl, rfl⟩ := Prod.mk.inj (Except.ok.inj (hperform.symm.trans hanswer))
    obtain rfl : answers = [answer'] := hevents
    exact ⟨⟨v', rfl⟩, hplain⟩
  · obtain ⟨e, he⟩ := v.perform_out_of_range hop
    cases he.symm.trans hanswer

/-- A step leaves every element that stays at its index, but for what it writes there. -/
theorem get_of_fires {m : Moment (VecParts α n) (VecOp α) (VecAnswer α)}
    (hm : (machine α n).Fires m) (hpre : m.pre.Sound) {i : Nat}
    (hi : m.label.Keeps m.pre.len i) :
    m.post.get i = (m.pre.get i).map (m.label.writes i) := by
  obtain ⟨hpost, hplain⟩ := machine_fires hm hpre
  obtain ⟨pre, op, answers, post⟩ := m
  obtain ⟨v, rfl⟩ := hpre
  obtain ⟨v', rfl⟩ := hpost
  rw [DynamicVec.get_parts, DynamicVec.get_parts]
  exact plainVec_keeps hplain (v.len_parts ▸ hi)

/-- A run leaves parts that go together, and is one of the plain list. -/
theorem run_plain {prepare : List α} {v : VecParts α n}
    {h : History (VecParts α n) (VecOp α) (VecAnswer α)}
    (hr : (machine α n).Run (ofArray prepare) h v) :
    v.Sound ∧ (plainVec α n).Run prepare (h.map (Moment.map iter)) v.iter := by
  obtain ⟨hstart, hprepare⟩ := ofArray_sound (n := n) prepare
  rw [← hprepare]
  exact hr.simulate (fun m hm hpre ↦ machine_fires hm hpre) hstart

/-- **`DynamicVec` is a list.**  Whatever is done with it from `from` on, of any array, and so
from `default`, it holds what the plain list of its elements holds, and returns what that one
returns.  An operation panics just when its index is out of range.  A push to the stack is
refused, with nothing changed, from `STACK_SIZE` elements on, and is a push until then.  And
every element that stays in the vector keeps its index. -/
theorem indexed {prepare : List α} {v : VecParts α n}
    {h : History (VecParts α n) (VecOp α) (VecAnswer α)}
    (hr : (machine α n).Run (ofArray prepare) h v) :
    (plainVec α n).Run prepare (h.map (Moment.map iter)) v.iter ∧
      (∀ op, (∃ r, v.perform op = .ok r) ↔ op.InRange v.len) ∧
      (∀ value, v.pushStack value =
        if n ≤ v.len then (.error value, v) else (.ok (), v.push value)) ∧
      ∀ m ∈ h, ∀ i, m.label.Keeps m.pre.len i →
        m.post.get i = (m.pre.get i).map (m.label.writes i) := by
  obtain ⟨⟨v, rfl⟩, hplain⟩ := run_plain hr
  refine ⟨hplain, fun op ↦ ?_, fun value ↦ ?_, fun m hm i hi ↦ ?_⟩
  · rw [DynamicVec.len_parts]
    by_cases hop : op.InRange v.toList.length
    · obtain ⟨answer, v', hperform, -⟩ := v.perform_parts hop
      exact iff_of_true ⟨_, hperform⟩ hop
    · obtain ⟨e, he⟩ := v.perform_out_of_range hop
      refine iff_of_false ?_ hop
      rintro ⟨r, hr⟩
      cases he.symm.trans hr
  · rw [DynamicVec.parts_pushStack, DynamicVec.parts_push, DynamicVec.len_parts]
    by_cases hroom : v.toList.length < n
    · rw [if_pos hroom, if_neg (Nat.not_le.mpr hroom)]
    · rw [if_neg hroom, if_pos (Nat.not_lt.mp hroom)]
  · obtain ⟨h₁, h₂, rfl⟩ := List.append_of_mem hm
    obtain ⟨hbefore, hfires, -⟩ := hr.split
    exact get_of_fires hfires (run_plain hbefore).1 hi

/-- One of three elements is on the heap, and another one after it is gone. -/
def spilled : History (VecParts Nat 2) (VecOp Nat) (VecAnswer Nat) × VecParts Nat 2 :=
  ((machine Nat 2).exec (ofArray [1, 2, 3])
    [.pop, .push 4, .pushStack 5, .set 2 6, .getMut 0 (· + 10), .iterMut fun i x ↦ x + i]).get rfl

theorem run_spilled : (machine Nat 2).Run (ofArray [1, 2, 3]) spilled.1 spilled.2 :=
  Machine.exec_run_get rfl

theorem indexed_spilled :
    (plainVec Nat 2).Run [1, 2, 3] (spilled.1.map (Moment.map iter)) [11, 3, 8] ∧
      (∀ value, spilled.2.pushStack value = (.error value, spilled.2)) ∧
      ∀ m ∈ spilled.1, ∀ i, m.label.Keeps m.pre.len i →
        m.post.get i = (m.pre.get i).map (m.label.writes i) := by
  obtain ⟨hplain, -, hpush, hkeep⟩ := indexed run_spilled
  exact ⟨hplain, fun value ↦ (hpush value).trans (if_pos (by decide)), hkeep⟩

end VecParts

end SansIo.Collections
