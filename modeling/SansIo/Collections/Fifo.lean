import SansIo.Collections.Dequeue
import SansIo.Lib.Machine

/-!
# `DynamicDeque` is a queue

`src/collections/dequeue.rs`, under any sequence of its operations.  `DequeParts` is the
struct as the source has it: two containers that nothing ties to one another, and functions
that panic where the source does.

Each function finds the heap empty or the stack full, and leaves it so: on the parts of a
`DynamicDeque` it computes the parts of a `DynamicDeque` (`DynamicDeque.perform_parts`), with
the answer of the plain queue of their contents.  The panics are in branches that this
excludes (`DequeParts.fifo_list`).
-/

universe u

namespace SansIo.Collections

open SansIo.Lib

/-- `DynamicDeque<T, STACK_SIZE>`, without a word on how its parts go together. -/
structure DequeParts (α : Type u) (n : Nat) where
  /-- The `heapless::Deque`. -/
  stack : Bounded α n
  /-- The `VecDeque`. -/
  heap : List α

/-- The operations of a `DynamicDeque`. -/
inductive DequeOp (α : Type u) where
  | pushBack (value : α)
  | pushBackStack (value : α)
  | popFront
  | pop2 (e : α)

/-- What they return. -/
inductive DequeAnswer (α : Type u) where
  | done
  | pushed (result : Except α Unit)
  | popped (front : Option α)
  | out (value : α)

namespace DequeParts

variable {α : Type u} {n : Nat}

/-- `Default::default`. -/
def default : DequeParts α n := ⟨.empty, []⟩

/-- `push_back_stack`. -/
def pushBackStack (d : DequeParts α n) (value : α) : Except α Unit × DequeParts α n :=
  match d.stack.push value with
  | .ok stack => (.ok (), { d with stack })
  | .error value => (.error value, d)

/-- `push_back`. -/
def pushBack (d : DequeParts α n) (value : α) : DequeParts α n :=
  match d.stack.push value with
  | .ok stack => { d with stack }
  | .error value => { d with heap := d.heap ++ [value] }

/-- `pop_front`.  The first panic is that of `expect`. -/
def popFront (d : DequeParts α n) : Panics (Option α × DequeParts α n) :=
  let (res, stack) := d.stack.popFront
  if stack.length ≠ n ∧ d.heap.isEmpty = false then
    match d.heap with
    | [] => throw "Should have"
    | front :: heap =>
      match stack.push front with
      | .ok stack => return (res, ⟨stack, heap⟩)
      | .error _ => throw "cannot happen"
  else return (res, ⟨stack, d.heap⟩)

/-- `is_empty`, which looks at the stack only. -/
def isEmpty (d : DequeParts α n) : Bool := d.stack.toList.isEmpty

/-- `len`. -/
def len (d : DequeParts α n) : Nat := d.stack.length + d.heap.length

/-- `pop2`. -/
def pop2 (d : DequeParts α n) (e : α) : Panics (α × DequeParts α n) :=
  if d.isEmpty then return (e, d)
  else do
    let (front, d) ← d.popFront
    match front with
    | some out => return (out, d.pushBack e)
    | none => throw "Should have because just push"

/-- `from`, of an array of any size. -/
def ofArray (prepare : List α) : DequeParts α n :=
  prepare.foldl pushBack default

/-- The contents, front to back. -/
def toList (d : DequeParts α n) : List α := d.stack.toList ++ d.heap

/-- One operation, with what it returns. -/
def perform (d : DequeParts α n) : DequeOp α → Panics (DequeAnswer α × DequeParts α n)
  | .pushBack value => return (.done, d.pushBack value)
  | .pushBackStack value =>
    let (result, d) := d.pushBackStack value
    return (.pushed result, d)
  | .popFront => do
    let (front, d) ← d.popFront
    return (.popped front, d)
  | .pop2 e => do
    let (value, d) ← d.pop2 e
    return (.out value, d)

/-- A `DynamicDeque` under its operations.  One that panics is not possible. -/
def machine (α : Type u) (n : Nat) : Machine (DequeParts α n) (DequeOp α) (DequeAnswer α) :=
  .ofPanics perform

/-- Where a pop leaves room, the front of the heap moves over, -/
theorem popFront_of_lt {stack : Bounded α n} {front : α} {heap : List α}
    (hroom : stack.popFront.2.length < n) :
    popFront ⟨stack, front :: heap⟩ =
      .ok (stack.popFront.1, ⟨stack.popFront.2.snoc front hroom, heap⟩) := by
  simp only [popFront]
  rw [if_pos ⟨Nat.ne_of_lt hroom, rfl⟩]
  simp only [Bounded.push_of_lt _ _ hroom, pure_eq_ok]

/-- and where it does not, nothing does. -/
theorem popFront_of_full {stack : Bounded α n} {heap : List α}
    (hfull : stack.popFront.2.length = n) :
    popFront ⟨stack, heap⟩ = .ok (stack.popFront.1, ⟨stack.popFront.2, heap⟩) := by
  simp only [popFront]
  rw [if_neg fun h ↦ h.1 hfull]
  rfl

/-- `default()` is `from([])`. -/
theorem ofArray_nil : (ofArray [] : DequeParts α n) = default := rfl

theorem ofArray_snoc (prepare : List α) (value : α) :
    (ofArray (prepare ++ [value]) : DequeParts α n) = (ofArray prepare).pushBack value := by
  simp [ofArray]

end DequeParts

/-! ## The queue that it is -/

/-- A plain queue.  Of its operations one may be refused, when it holds `n` elements. -/
def plainQueue (α : Type u) (n : Nat) : Machine (List α) (DequeOp α) (DequeAnswer α) where
  step q op := match op with
    | .pushBack value => some (q ++ [value], [.done])
    | .pushBackStack value =>
      if q.length < n then some (q ++ [value], [.pushed (.ok ())])
      else some (q, [.pushed (.error value)])
    | .popFront => some (q.tail, [.popped q.head?])
    | .pop2 e => some ((q ++ [e]).tail, [.out (q.headD e)])

namespace DynamicDeque

variable {α : Type u} {n : Nat}

/-- The parts, and no more. -/
def parts (d : DynamicDeque α n) : DequeParts α n := ⟨d.stack, d.heap⟩

@[simp] theorem toList_parts (d : DynamicDeque α n) : d.parts.toList = d.toList := rfl

/-- `push_back` goes to the stack only when the heap is empty. -/
theorem parts_pushBack (d : DynamicDeque α n) (value : α) :
    d.parts.pushBack value = (d.pushBack value).parts := by
  by_cases h : d.stack.length < n
  · simp [DequeParts.pushBack, pushBack, parts, Bounded.push, h]
  · simp [DequeParts.pushBack, pushBack, parts, Bounded.push, h]

/-- `push_back_stack` is a `push_back` or nothing. -/
theorem parts_pushBackStack (d : DynamicDeque α n) (value : α) :
    d.parts.pushBackStack value =
      if d.len < n then (.ok (), (d.pushBack value).parts) else (.error value, d.parts) := by
  rw [len_eq]
  by_cases h : d.stack.length < n
  · rw [if_pos ((stack_lt_iff d).mp h)]
    simp [DequeParts.pushBackStack, pushBack, parts, Bounded.push, h]
  · rw [if_neg (fun hl ↦ h ((stack_lt_iff d).mpr hl))]
    simp [DequeParts.pushBackStack, parts, Bounded.push, h]

/-- `pop_front` does not panic: it moves an element over only when there is one, and room
for it. -/
theorem parts_popFront (d : DynamicDeque α n) :
    d.parts.popFront = .ok (d.popFront.1, d.popFront.2.parts) := by
  obtain ⟨stack, heap, spill⟩ := d
  cases heap with
  | nil => simp [DequeParts.popFront, parts, popFront]
  | cons front heap =>
      by_cases hroom : stack.popFront.2.length < n
      · rw [parts, DequeParts.popFront_of_lt hroom]
        simp only [popFront, dif_pos hroom, parts]
      · rw [parts, DequeParts.popFront_of_full (Nat.le_antisymm (Bounded.length_le' _)
          (Nat.not_lt.mp hroom))]
        simp only [popFront, dif_neg hroom, parts]

/-- After a push there is an element to pop: the front, or the one that was pushed. -/
theorem popFront_pushBack (hn : 0 < n) (d : DynamicDeque α n) (e : α) :
    (d.pushBack e).popFront.1 = some (d.toList.headD e) ∧
      (d.pushBack e).popFront.2.toList = (d.toList ++ [e]).tail := by
  obtain ⟨hfront, hrest⟩ := popFront_spec hn (d.pushBack e)
  rw [hfront, hrest, toList_pushBack]
  cases d.toList with
  | nil => exact ⟨rfl, rfl⟩
  | cons x xs => exact ⟨rfl, rfl⟩

/-- `pop2` does a push and a pop, in the other order or, where there is nothing to pop, not at
all. -/
theorem parts_pop2 (hn : 0 < n) (d : DynamicDeque α n) (e : α) :
    d.parts.pop2 e = .ok (d.toList.headD e, (d.pushBack e).popFront.2.parts) := by
  obtain ⟨-, hrest⟩ := popFront_pushBack hn d e
  by_cases hempty : d.isEmpty = true
  · have hnil : d.toList = [] := (isEmpty_iff hn d).mp hempty
    have hsame : (d.pushBack e).popFront.2 = d := ext_toList (by rw [hrest, hnil]; rfl)
    rw [hsame, hnil, DequeParts.pop2, if_pos (show d.parts.isEmpty = true from hempty)]
    rfl
  · obtain ⟨x, xs, hcons⟩ := List.exists_cons_of_ne_nil (fun hnil ↦
      hempty ((isEmpty_iff hn d).mpr hnil))
    obtain ⟨hfront, htail⟩ := popFront_spec hn d
    rw [hcons] at hfront htail hrest
    have hsame : (d.pushBack e).popFront.2 = d.popFront.2.pushBack e := ext_toList (by
      rw [hrest, toList_pushBack, htail]
      rfl)
    rw [hsame, hcons, DequeParts.pop2, if_neg (show ¬ d.parts.isEmpty = true from hempty),
      parts_popFront, ok_bind, hfront, ← parts_pushBack]
    rfl

/-- **One operation.**  It does not panic, it leaves the parts of a `DynamicDeque`, and the
plain queue of the contents does the same. -/
theorem perform_parts (hn : 0 < n) (d : DynamicDeque α n) (op : DequeOp α) :
    ∃ answer, ∃ d' : DynamicDeque α n, d.parts.perform op = .ok (answer, d'.parts) ∧
      (plainQueue α n).step d.toList op = some (d'.toList, [answer]) := by
  cases op with
  | pushBack value =>
      refine ⟨.done, d.pushBack value, ?_, ?_⟩
      · rw [DequeParts.perform, parts_pushBack]
        rfl
      · rw [toList_pushBack]
        rfl
  | pushBackStack value =>
      simp only [DequeParts.perform, parts_pushBackStack, len_eq, plainQueue]
      by_cases h : d.toList.length < n
      · rw [if_pos h, if_pos h]
        exact ⟨_, d.pushBack value, rfl, by rw [toList_pushBack]⟩
      · rw [if_neg h, if_neg h]
        exact ⟨_, d, rfl, rfl⟩
  | popFront =>
      refine ⟨.popped d.popFront.1, d.popFront.2, ?_, ?_⟩
      · rw [DequeParts.perform, parts_popFront]
        rfl
      · rw [toList_popFront hn, popFront_fst hn]
        rfl
  | pop2 e =>
      refine ⟨.out (d.toList.headD e), (d.pushBack e).popFront.2, ?_, ?_⟩
      · rw [DequeParts.perform, parts_pop2 hn]
        rfl
      · rw [(popFront_pushBack hn d e).2]
        rfl

end DynamicDeque

namespace DequeParts

variable {α : Type u} {n : Nat}

/-- The parts go together: the heap is used only while the stack is full. -/
def Sound (d : DequeParts α n) : Prop := ∃ d' : DynamicDeque α n, d'.parts = d

/-- What `from` makes holds the elements of the array. -/
theorem ofArray_sound (prepare : List α) :
    (ofArray prepare : DequeParts α n).Sound ∧
      (ofArray prepare : DequeParts α n).toList = prepare := by
  induction prepare using List.reverseRecOn with
  | nil =>
      rw [ofArray_nil]
      exact ⟨⟨.default, rfl⟩, rfl⟩
  | append_singleton prepare value ih =>
      obtain ⟨⟨d, hd⟩, hlist⟩ := ih
      have hsnoc : (ofArray (prepare ++ [value]) : DequeParts α n) = (d.pushBack value).parts := by
        rw [ofArray_snoc, ← hd, DynamicDeque.parts_pushBack]
      rw [hsnoc, DynamicDeque.toList_parts, DynamicDeque.toList_pushBack, ← d.toList_parts, hd,
        hlist]
      exact ⟨⟨_, rfl⟩, rfl⟩

/-- A step of the parts is one of the plain queue. -/
theorem machine_fires (hn : 0 < n) {m : Moment (DequeParts α n) (DequeOp α) (DequeAnswer α)}
    (hm : (machine α n).Fires m) (hpre : m.pre.Sound) :
    m.post.Sound ∧ (plainQueue α n).Fires (m.map toList) := by
  obtain ⟨pre, op, answers, post⟩ := m
  obtain ⟨answer, hanswer, hevents⟩ := Machine.fires_ofPanics.mp hm
  obtain ⟨d, rfl⟩ := hpre
  obtain ⟨answer', d', hperform, hplain⟩ := d.perform_parts hn op
  obtain ⟨rfl, rfl⟩ := Prod.mk.inj (Except.ok.inj (hperform.symm.trans hanswer))
  obtain rfl : answers = [answer'] := hevents
  exact ⟨⟨d', rfl⟩, hplain⟩

/-- A run leaves parts that go together, and is one of the plain queue. -/
theorem run_plain (hn : 0 < n) {prepare : List α} {d : DequeParts α n}
    {h : History (DequeParts α n) (DequeOp α) (DequeAnswer α)}
    (hr : (machine α n).Run (ofArray prepare) h d) :
    d.Sound ∧ (plainQueue α n).Run prepare (h.map (Moment.map toList)) d.toList := by
  obtain ⟨hstart, hprepare⟩ := ofArray_sound (n := n) prepare
  rw [← hprepare]
  exact hr.simulate (fun m hm hpre ↦ machine_fires hn hm hpre) hstart

/-- **`DynamicDeque` is a FIFO list.**  Whatever is done with it from `from` on, of any array,
and so from `default`, it holds what the plain queue of its contents holds, and returns what
that one returns.  No operation panics then.  The deque is empty when `len` says so, a push to
the stack is refused, with nothing changed, from `STACK_SIZE` elements on, and is a push until
then, and `pop2` is a push and a pop. -/
theorem fifo_list (hn : 0 < n) {prepare : List α} {d : DequeParts α n}
    {h : History (DequeParts α n) (DequeOp α) (DequeAnswer α)}
    (hr : (machine α n).Run (ofArray prepare) h d) :
    (plainQueue α n).Run prepare (h.map (Moment.map toList)) d.toList ∧
      (∀ op, ∃ r, d.perform op = .ok r) ∧
      d.len = d.toList.length ∧ (d.isEmpty = true ↔ d.len = 0) ∧
      (∀ value, d.pushBackStack value =
        if n ≤ d.len then (.error value, d) else (.ok (), d.pushBack value)) ∧
      ∀ e, ∃ out d', d.pop2 e = .ok (out, d') ∧ (d.pushBack e).popFront = .ok (some out, d') := by
  obtain ⟨⟨d, rfl⟩, hplain⟩ := run_plain hn hr
  have hlen : d.parts.len = d.toList.length := d.len_eq
  refine ⟨hplain, fun op ↦ ?_, hlen, ?_, fun value ↦ ?_, fun e ↦ ?_⟩
  · obtain ⟨answer, d', hperform, -⟩ := d.perform_parts hn op
    exact ⟨_, hperform⟩
  · rw [hlen, List.length_eq_zero_iff]
    exact d.isEmpty_iff hn
  · rw [DynamicDeque.parts_pushBackStack, DynamicDeque.parts_pushBack, DynamicDeque.len_eq, hlen]
    by_cases hroom : d.toList.length < n
    · rw [if_pos hroom, if_neg (Nat.not_le.mpr hroom)]
    · rw [if_neg hroom, if_pos (Nat.not_lt.mp hroom)]
  · refine ⟨_, _, d.parts_pop2 hn e, ?_⟩
    rw [DynamicDeque.parts_pushBack, DynamicDeque.parts_popFront, (d.popFront_pushBack hn e).1]

/-- One of three elements is on the heap.  It moves over in time: the push to the stack is
refused. -/
def spilled : History (DequeParts Nat 2) (DequeOp Nat) (DequeAnswer Nat) × DequeParts Nat 2 :=
  ((machine Nat 2).exec (ofArray [1, 2, 3]) [.popFront, .pushBackStack 5, .pop2 4]).get rfl

theorem run_spilled : (machine Nat 2).Run (ofArray [1, 2, 3]) spilled.1 spilled.2 :=
  Machine.exec_run_get rfl

theorem fifo_list_spilled :
    (plainQueue Nat 2).Run [1, 2, 3] (spilled.1.map (Moment.map toList)) [3, 4] ∧
      ∀ value, spilled.2.pushBackStack value = (.error value, spilled.2) := by
  obtain ⟨hplain, -, -, -, hpush, -⟩ := fifo_list (by decide) run_spilled
  exact ⟨hplain, fun value ↦ (hpush value).trans (if_pos (by decide))⟩

end DequeParts

end SansIo.Collections
