import Mathlib.Data.Finset.Card
import Mathlib.Order.Interval.Finset.Nat
import SansIo.Collections.BitVec

/-!
# Switching between tasks

`src/task.rs` and `src/task/switcher.rs`.  A task takes inputs and is then popped
for outputs until it has none.  With several tasks, the `TaskSwitcher` holds a
flag for each of those that may have outputs; a `TaskSwitcherBranch` is a task
with its place in a switcher, and adds one empty event when the task has become
empty.

The traits are classes.  A method that takes `&mut self` returns the new value;
`emptyEvent` and `isEmpty` take `&self`.
-/

namespace SansIo

open Lib Collections

/-- `std::time::Instant`. -/
abbrev Instant := Int

/-- The trait `TaskSwitcherChild<Out>`, with its associated type `Time`. -/
class TaskSwitcherChild (T : Type) (Out Time : outParam Type) where
  /-- `empty_event`. -/
  emptyEvent : T → Out
  /-- `is_empty`. -/
  isEmpty : T → Bool
  /-- `pop_output`. -/
  popOutput : T → Time → Option Out × T

/-- The trait `Task<In, Out>`. -/
class Task (T : Type) (In Out Time : outParam Type) extends TaskSwitcherChild T Out Time where
  /-- `on_tick`. -/
  onTick : T → Instant → T
  /-- `on_event`. -/
  onEvent : T → Instant → In → T
  /-- `on_shutdown`. -/
  onShutdown : T → Instant → T

/-! ## The switcher -/

/-- `TaskSwitcher`. -/
structure TaskSwitcher where
  /-- One flag for each task. -/
  bits : BitVec

namespace TaskSwitcher

/-- `new`. -/
def new (len : Nat) : TaskSwitcher := ⟨.news len⟩

/-- `set_tasks`. -/
def setTasks (s : TaskSwitcher) (tasks : Nat) : TaskSwitcher := ⟨s.bits.setLen tasks⟩

/-- `tasks`. -/
def tasks (s : TaskSwitcher) : Nat := s.bits.len

/-- `current`. -/
def current (s : TaskSwitcher) : Option Nat := s.bits.firstSetIndex

/-- `flag_all`. -/
def flagAll (s : TaskSwitcher) : TaskSwitcher := ⟨s.bits.setAll true⟩

/-- `finished`. -/
def finished (s : TaskSwitcher) (i : Nat) : Panics TaskSwitcher := do
  let bits ← s.bits.setBit i false
  return ⟨bits⟩

/-- `flag_task`. -/
def flagTask (s : TaskSwitcher) (i : Nat) : Panics TaskSwitcher := do
  let bits ← s.bits.setBit i true
  return ⟨bits⟩

/-- The flag of a task. -/
def flag (s : TaskSwitcher) (i : Nat) : Bool := s.bits.flag i

/-- The tasks that are flagged. -/
def flagged (s : TaskSwitcher) : Finset Nat := (Finset.range s.tasks).filter fun i ↦ s.flag i

theorem mem_flagged {s : TaskSwitcher} {i : Nat} :
    i ∈ s.flagged ↔ i < s.tasks ∧ s.flag i = true := by
  simp [flagged]

@[simp] theorem tasks_new (len : Nat) : (new len).tasks = len := rfl

@[simp] theorem flag_new (len i : Nat) : (new len).flag i = false := BitVec.flag_news len i

@[simp] theorem tasks_setTasks (s : TaskSwitcher) (n : Nat) : (s.setTasks n).tasks = n :=
  BitVec.len_setLen s.bits n

@[simp] theorem flag_setTasks (s : TaskSwitcher) (n i : Nat) :
    (s.setTasks n).flag i = s.flag i := BitVec.flag_setLen s.bits n i

@[simp] theorem tasks_flagAll (s : TaskSwitcher) : s.flagAll.tasks = s.tasks := rfl

theorem flag_flagAll (s : TaskSwitcher) {i : Nat} (h : i < s.tasks) : s.flagAll.flag i = true :=
  BitVec.flag_setAll s.bits true h

/-- The current task is flagged. -/
theorem current_eq_some {s : TaskSwitcher} {i : Nat} (h : s.current = some i) :
    i ∈ s.flagged := by
  rw [mem_flagged]
  have := s.bits.firstSetIndex_isFirst
  rw [show s.bits.firstSetIndex = some i from h] at this
  exact ⟨this.2.1, this.2.2.1⟩

theorem flag_current {s : TaskSwitcher} {i : Nat} (h : s.current = some i) : s.flag i = true :=
  (mem_flagged.mp (current_eq_some h)).2

/-- The flagged tasks before it are none. -/
theorem flag_before_current {s : TaskSwitcher} {i j : Nat} (h : s.current = some i)
    (hj : j < i) : s.flag j = false := by
  have := s.bits.firstSetIndex_isFirst
  rw [show s.bits.firstSetIndex = some i from h] at this
  exact this.2.2.2 j (Nat.zero_le j) hj

/-- Where no task is current, none is flagged. -/
theorem current_eq_none {s : TaskSwitcher} (h : s.current = none) {i : Nat} (hi : i < s.tasks) :
    s.flag i = false := by
  have := s.bits.firstSetIndex_isFirst
  rw [show s.bits.firstSetIndex = none from h] at this
  exact this i (Nat.zero_le i) hi

/-- `s.SetFlag i value s'`: the switchers differ in the flag of `i`, which is
`value` in `s'`. -/
structure SetFlag (s : TaskSwitcher) (i : Nat) (value : Bool) (s' : TaskSwitcher) : Prop where
  tasks_eq : s'.tasks = s.tasks
  flag_eq : ∀ j, s'.flag j = if j = i then value else s.flag j

theorem finished_of_lt (s : TaskSwitcher) {i : Nat} (h : i < s.tasks) :
    ∃ s', s.finished i = .ok s' ∧ s.SetFlag i false s' := by
  obtain ⟨b, hb, hlen, hflag⟩ := s.bits.setBit_of_lt h false
  exact ⟨⟨b⟩, by simp [finished, hb], hlen, hflag⟩

theorem flagTask_of_lt (s : TaskSwitcher) {i : Nat} (h : i < s.tasks) :
    ∃ s', s.flagTask i = .ok s' ∧ s.SetFlag i true s' := by
  obtain ⟨b, hb, hlen, hflag⟩ := s.bits.setBit_of_lt h true
  exact ⟨⟨b⟩, by simp [flagTask, hb], hlen, hflag⟩

/-- What is flagged or finished without a panic has a flag, and is written there. -/
theorem finished_ok {s s' : TaskSwitcher} {i : Nat} (h : s.finished i = .ok s') :
    i < s.tasks ∧ s.SetFlag i false s' := by
  obtain ⟨b, hb, -⟩ := bind_ok.mp h
  obtain ⟨t, ht, hset⟩ := s.finished_of_lt (BitVec.setBit_ok_lt hb)
  cases ht.symm.trans h
  exact ⟨BitVec.setBit_ok_lt hb, hset⟩

theorem flagTask_ok {s s' : TaskSwitcher} {i : Nat} (h : s.flagTask i = .ok s') :
    i < s.tasks ∧ s.SetFlag i true s' := by
  obtain ⟨b, hb, -⟩ := bind_ok.mp h
  obtain ⟨t, ht, hset⟩ := s.flagTask_of_lt (BitVec.setBit_ok_lt hb)
  cases ht.symm.trans h
  exact ⟨BitVec.setBit_ok_lt hb, hset⟩

/-- Clearing a flag takes its task out of those flagged. -/
theorem SetFlag.flagged_eq {s s' : TaskSwitcher} {i : Nat} (h : s.SetFlag i false s') :
    s'.flagged = s.flagged.erase i := by
  ext j
  simp only [mem_flagged, h.tasks_eq, h.flag_eq, Finset.mem_erase]
  by_cases hji : j = i <;> simp [hji]

/-- Clearing a flag that was set leaves fewer tasks flagged. -/
theorem SetFlag.card_flagged_lt {s s' : TaskSwitcher} {i : Nat} (h : s.SetFlag i false s')
    (hi : i ∈ s.flagged) : s'.flagged.card < s.flagged.card := by
  rw [h.flagged_eq]
  exact Finset.card_erase_lt_of_mem hi

end TaskSwitcher

/-! ## A branch -/

/-- `TaskSwitcherBranch<Task, Out>`. -/
structure TaskSwitcherBranch (T : Type) where
  /-- The place in the switcher. -/
  taskType : Nat
  /-- The task. -/
  task : T
  /-- Whether the task was empty, and that was reported, when it last had no
  output. -/
  isEmpty : Bool

namespace TaskSwitcherBranch

variable {T Out Time : Type}

/-- `new`. -/
def new (task : T) (taskType : Nat) : TaskSwitcherBranch T := ⟨taskType, task, false⟩

/-- `input`, and what the caller then does through the reference it returns. -/
def input (b : TaskSwitcherBranch T) (s : TaskSwitcher) (f : T → T) :
    Panics (TaskSwitcherBranch T × TaskSwitcher) := do
  let s ← s.flagTask b.taskType
  return ({ b with task := f b.task }, s)

/-- The end of `pop_output`, where it returns `None`. -/
def finish (b : TaskSwitcherBranch T) (s : TaskSwitcher) :
    Panics (Option Out × TaskSwitcherBranch T × TaskSwitcher) := do
  let s ← s.finished b.taskType
  return (none, b, s)

variable [TaskSwitcherChild T Out Time]

open TaskSwitcherChild (emptyEvent)

/-- `pop_output`. -/
def popOutput (b : TaskSwitcherBranch T) (now : Time) (s : TaskSwitcher) :
    Panics (Option Out × TaskSwitcherBranch T × TaskSwitcher) :=
  let (out, task) := TaskSwitcherChild.popOutput b.task now
  let b := { b with task }
  match out with
  | none =>
    if !b.isEmpty then
      if TaskSwitcherChild.isEmpty b.task then
        .ok (some (emptyEvent b.task), { b with isEmpty := true }, s)
      else b.finish s
    else
      if !TaskSwitcherChild.isEmpty b.task then { b with isEmpty := false }.finish s
      else b.finish s
  | some out => .ok (some out, b, s)

/-- **What `pop_output` of a branch can do.**  Only where it returns `None` does
it touch the switcher. -/
inductive Pops (b : TaskSwitcherBranch T) (now : Time) (s : TaskSwitcher) :
    Option Out → TaskSwitcherBranch T → TaskSwitcher → Prop
  | /-- The task has an output. -/
    output {out task} (hpop : TaskSwitcherChild.popOutput b.task now = (some out, task)) :
      Pops b now s (some out) { b with task } s
  | /-- The task has none and has become empty. -/
    empties {task} (hpop : TaskSwitcherChild.popOutput b.task now = (none, task))
      (hbefore : b.isEmpty = false) (hempty : TaskSwitcherChild.isEmpty task = true) :
      Pops b now s (some (emptyEvent task)) { b with task, isEmpty := true } s
  | /-- The task has none and has not become empty. -/
    finishes {task empty s'} (hpop : TaskSwitcherChild.popOutput b.task now = (none, task))
      (hempty : TaskSwitcherChild.isEmpty task = empty)
      (hold : b.isEmpty = true ∨ empty = false) (hs : s.finished b.taskType = .ok s') :
      Pops b now s none { b with task, isEmpty := empty } s'

theorem finish_ok {b b' : TaskSwitcherBranch T} {s s' : TaskSwitcher} {out : Option Out}
    (h : b.finish s = .ok (out, b', s')) :
    out = none ∧ b' = b ∧ s.finished b.taskType = .ok s' := by
  obtain ⟨t, hs, h⟩ := bind_ok.mp h
  cases h
  exact ⟨rfl, rfl, hs⟩

theorem popOutput_cases {b b' : TaskSwitcherBranch T} {now : Time} {s s' : TaskSwitcher}
    {out : Option Out} (h : b.popOutput now s = .ok (out, b', s')) : Pops b now s out b' s' := by
  obtain ⟨taskType, old, before⟩ := b
  unfold popOutput at h
  rcases hpop : TaskSwitcherChild.popOutput old now with ⟨_ | o, task⟩
  · simp only [hpop] at h
    cases before <;> cases hempty : TaskSwitcherChild.isEmpty task <;>
      simp only [hempty, Bool.not_false, Bool.not_true, Bool.false_eq_true, if_true, if_false] at h
    · obtain ⟨rfl, rfl, hs⟩ := finish_ok h
      exact .finishes hpop hempty (.inr rfl) hs
    · cases h
      exact .empties hpop rfl hempty
    · obtain ⟨rfl, rfl, hs⟩ := finish_ok h
      exact .finishes hpop hempty (.inl rfl) hs
    · obtain ⟨rfl, rfl, hs⟩ := finish_ok h
      exact .finishes hpop hempty (.inl rfl) hs
  · simp only [hpop] at h
    cases h
    exact .output hpop

section Pops

variable {b b' : TaskSwitcherBranch T} {now : Time} {s s' : TaskSwitcher} {out : Option Out}

theorem Pops.taskType_eq (h : Pops b now s out b' s') : b'.taskType = b.taskType := by
  cases h <;> rfl

theorem Pops.task_eq (h : Pops b now s out b' s') :
    b'.task = (TaskSwitcherChild.popOutput b.task now).2 := by
  cases h with
  | output hpop => rw [hpop]
  | empties hpop _ _ => rw [hpop]
  | finishes hpop _ _ _ => rw [hpop]

/-- A branch remembers the emptiness of its task where that has no output. -/
theorem Pops.isEmpty_eq (h : Pops b now s out b' s') :
    b'.isEmpty = if (TaskSwitcherChild.popOutput b.task now).1.isNone then
      TaskSwitcherChild.isEmpty b'.task else b.isEmpty := by
  cases h with
  | output hpop => simp [hpop]
  | empties hpop _ hempty => simp [hpop, hempty]
  | finishes hpop hempty _ _ => simp [hpop, hempty]

/-- A branch hands over the outputs of its task. -/
theorem Pops.out_eq_some (h : Pops b now s out b' s') {o : Out}
    (ho : (TaskSwitcherChild.popOutput b.task now).1 = some o) : out = some o := by
  cases h with
  | output hpop =>
      rw [hpop] at ho
      exact ho
  | empties hpop _ _ =>
      rw [hpop] at ho
      cases ho
  | finishes hpop _ _ _ =>
      rw [hpop] at ho
      cases ho

/-- Where the task has none, a branch adds an empty event if the task is empty
and was not remembered to be. -/
theorem Pops.out_eq_empty (h : Pops b now s out b' s')
    (ho : (TaskSwitcherChild.popOutput b.task now).1 = none) :
    out = if TaskSwitcherChild.isEmpty b'.task = true ∧ b.isEmpty = false then
      some (emptyEvent b'.task) else none := by
  cases h with
  | output hpop =>
      rw [hpop] at ho
      cases ho
  | empties hpop hbefore hempty => rw [if_pos ⟨hempty, hbefore⟩]
  | finishes hpop hempty hold hs =>
      rw [if_neg]
      rintro ⟨hnow, hbefore⟩
      rw [hbefore, ← hempty, hnow] at hold
      simp at hold

/-- A branch that returns `Some` leaves the switcher as it is. -/
theorem Pops.switcher_eq (h : Pops b now s out b' s') (ho : out ≠ none) : s' = s := by
  cases h with
  | output _ => rfl
  | empties _ _ _ => rfl
  | finishes _ _ _ _ => exact absurd rfl ho

/-- A branch that returns `None` clears its flag. -/
theorem Pops.setFlag (h : Pops b now s out b' s') (ho : out = none) :
    s.SetFlag b.taskType false s' := by
  cases h with
  | output _ => cases ho
  | empties _ _ _ => cases ho
  | finishes _ _ _ hs => exact (TaskSwitcher.finished_ok hs).2

end Pops

/-- With its place in the switcher, `pop_output` of a branch does not panic. -/
theorem popOutput_ok (b : TaskSwitcherBranch T) (now : Time) {s : TaskSwitcher}
    (h : b.taskType < s.tasks) : ∃ r, b.popOutput now s = .ok r := by
  obtain ⟨s', hs, -⟩ := s.finished_of_lt h
  obtain ⟨taskType, old, before⟩ := b
  unfold popOutput
  rcases TaskSwitcherChild.popOutput old now with ⟨_ | o, task⟩
  · cases before <;> cases hempty : TaskSwitcherChild.isEmpty task <;>
      exact ⟨_, by simp only [finish, hs, hempty]; rfl⟩
  · exact ⟨_, rfl⟩

end TaskSwitcherBranch

end SansIo
