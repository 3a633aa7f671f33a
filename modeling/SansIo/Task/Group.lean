import SansIo.Collections.Vec
import SansIo.Lib.Loop
import SansIo.Task.Switcher

/-!
# Groups of tasks

`src/task/group.rs`.  A `TaskGroup` keeps tasks of one type in slots, which are
reused once their task is removed, and trimmed when the last ones are vacant.  A
switcher flags the slots that may have outputs, and a set holds the slots whose
task has reported that it is empty.

`slot g i` is the container at an index, where there is one, and `live g` the set
of these indices.  Each operation has one lemma that says what it does to `slot`;
`turn_cases` says what one turn of the loop of `pop_output` can do, and everything
about `pop_output` follows from that.
-/

namespace SansIo

open Lib Collections

/-- `TaskGroupOutput<Out>`. -/
inductive TaskGroupOutput (Out : Type) where
  | taskOutput (index : Nat) (out : Out)
  | onResourceEmpty
deriving DecidableEq

/-- `TaskContainer<T>`. -/
structure TaskContainer (T : Type) where
  /-- The task. -/
  task : T
  /-- Whether the task was empty, and that was reported, when it last had no
  output. -/
  isEmpty : Bool

/-- `TaskContainer::new`. -/
def TaskContainer.new {T : Type} (task : T) : TaskContainer T := ⟨task, false⟩

/-- `TaskGroup<In, Out, T, STACK_SIZE>`. -/
structure TaskGroup (T : Type) (n : Nat) where
  /-- The slots. -/
  tasks : DynamicVec (Option (TaskContainer T)) n
  /-- How many of them hold a task. -/
  tasksCount : Nat
  /-- Those whose task has reported that it is empty. -/
  emptyTasks : Finset Nat
  /-- A flag for each slot. -/
  switcher : TaskSwitcher

namespace TaskGroup

variable {T In Out Time : Type} {n : Nat}

/-- `Default::default`. -/
def default : TaskGroup T n where
  tasks := .default
  tasksCount := 0
  emptyTasks := ∅
  switcher := .new 0

/-- `tasks()`. -/
def countTasks (g : TaskGroup T n) : Nat := g.tasksCount

/-- The container at an index, where a task is live. -/
def slot (g : TaskGroup T n) (i : Nat) : Option (TaskContainer T) := (g.tasks.get i).join

/-- `has_task`. -/
def hasTask (g : TaskGroup T n) (index : Nat) : Bool :=
  match g.tasks.get index with
  | some (some _) => true
  | _ => false

/-- The slot at an index, where there is one, is given a container. -/
def setSlot (g : TaskGroup T n) (index : Nat) (c : TaskContainer T) : TaskGroup T n :=
  { g with tasks := g.tasks.modify index fun _ ↦ some c }

/-- `add_task`. -/
def addTask (g : TaskGroup T n) (task : T) : Nat × TaskGroup T n :=
  match g.tasks.toList.findIdx? Option.isNone with
  | some index => (index, { g.setSlot index (.new task) with tasksCount := g.tasksCount + 1 })
  | none =>
    let tasks := g.tasks.push (some (.new task))
    (tasks.len - 1,
      { g with
        tasks := tasks
        switcher := g.switcher.setTasks tasks.len
        tasksCount := g.tasksCount + 1 })

/-- The loop of `set_task` that adds vacant slots, `k` times. -/
def fill (tasks : DynamicVec (Option (TaskContainer T)) n) : Nat →
    DynamicVec (Option (TaskContainer T)) n
  | 0 => tasks
  | k + 1 => fill (tasks.push none) k

/-- `set_task`. -/
def setTask (g : TaskGroup T n) (index : Nat) (task : T) : Panics (Nat × TaskGroup T n) := do
  let tasks ← (fill g.tasks (index + 1 - g.tasks.len)).set index (some (.new task))
  return (tasks.len - 1,
    { g with
      tasks := tasks
      switcher := g.switcher.setTasks tasks.len
      tasksCount := g.tasksCount + 1 })

/-- One turn of the loop of `remove_task`. -/
def trimTurn (tasks : DynamicVec (Option (TaskContainer T)) n) :
    DynamicVec (Option (TaskContainer T)) n ⊕ DynamicVec (Option (TaskContainer T)) n :=
  match tasks.last with
  | some none => .inl tasks.pop.2
  | _ => .inr tasks

theorem trimTurn_inl {tasks tasks' : DynamicVec (Option (TaskContainer T)) n}
    (h : trimTurn tasks = .inl tasks') :
    tasks.toList = tasks'.toList ++ [none] := by
  unfold trimTurn at h
  split at h
  · rename_i hlast
    cases h
    rw [DynamicVec.last_eq] at hlast
    rw [DynamicVec.toList_pop, List.dropLast_append_getLast? none hlast]
  · cases h

theorem trimTurn_lt {tasks tasks' : DynamicVec (Option (TaskContainer T)) n}
    (h : trimTurn tasks = .inl tasks') : tasks'.len < tasks.len := by
  rw [DynamicVec.len_eq, DynamicVec.len_eq, trimTurn_inl h, List.length_append]
  exact Nat.lt_succ_self _

/-- The loop of `remove_task`, which removes the vacant slots at the end. -/
def trim (tasks : DynamicVec (Option (TaskContainer T)) n) :
    DynamicVec (Option (TaskContainer T)) n :=
  Loop.run trimTurn DynamicVec.len (fun _ _ h ↦ trimTurn_lt h) tasks

/-- `remove_task`.  A count of 0 cannot be counted down: that panics, as in a debug build,
where overflows are checked. -/
def removeTask (g : TaskGroup T n) (index : Nat) : Panics (TaskGroup T n) := do
  let tasks ← g.tasks.modifyOrPanic index fun _ ↦ none
  if g.tasksCount = 0 then throw "attempt to subtract with overflow"
  let tasks := trim tasks
  return { g with
    tasks := tasks
    emptyTasks := g.emptyTasks.erase index
    tasksCount := g.tasksCount - 1
    switcher := g.switcher.setTasks tasks.len }

/-- The loop of `on_tick` and `on_shutdown`: the tasks in the first `k` slots are
called. -/
def forEach (f : T → T) (tasks : DynamicVec (Option (TaskContainer T)) n) :
    Nat → DynamicVec (Option (TaskContainer T)) n
  | 0 => tasks
  | k + 1 => (forEach f tasks k).modify k (Option.map fun c ↦ { c with task := f c.task })

/-- What `on_tick` and `on_shutdown` share: flag every slot, and call every task. -/
def callAll (g : TaskGroup T n) (f : T → T) : TaskGroup T n :=
  let switcher := g.switcher.flagAll
  { g with switcher, tasks := forEach f g.tasks switcher.tasks }

section Task

variable [Task T In Out Time]

open TaskSwitcherChild (popOutput isEmpty emptyEvent)

/-- `on_tick`. -/
def onTick (g : TaskGroup T n) (now : Instant) : TaskGroup T n := g.callAll (Task.onTick · now)

/-- `on_event`. -/
def onEvent (g : TaskGroup T n) (now : Instant) (index : Nat) (input : In) :
    Panics (Option Unit × TaskGroup T n) :=
  match g.tasks.get index with
  | some (some c) => do
    let switcher ← g.switcher.flagTask index
    return (some (), { g.setSlot index { c with task := Task.onEvent c.task now input } with
      switcher })
  | _ => return (none, g)

/-- `on_shutdown`. -/
def onShutdown (g : TaskGroup T n) (now : Instant) : TaskGroup T n :=
  g.callAll (Task.onShutdown · now)

/-- `self.switcher.finished(index)`, where a turn of `pop_output` ends. -/
def finishTurn (g : TaskGroup T n) (index : Nat) :
    TaskGroup T n ⊕ Panics (Option (TaskGroupOutput Out) × TaskGroup T n) :=
  match g.switcher.finished index with
  | .ok switcher => .inl { g with switcher }
  | .error text => .inr (.error text)

/-- One turn of the loop of `pop_output`. -/
def turn (now : Time) (g : TaskGroup T n) :
    TaskGroup T n ⊕ Panics (Option (TaskGroupOutput Out) × TaskGroup T n) :=
  match g.switcher.current with
  | none => .inr (.ok (none, g))
  | some index =>
    match g.tasks.get index with
    | some (some slot) =>
      let (out, task) := popOutput slot.task now
      let slot := { slot with task }
      match out with
      | some out => .inr (.ok (some (.taskOutput index out), g.setSlot index slot))
      | none =>
        if !slot.isEmpty then
          if isEmpty task then
            .inr (.ok (some (.taskOutput index (emptyEvent task)),
              { g.setSlot index { slot with isEmpty := true } with
                emptyTasks := insert index g.emptyTasks }))
          else (g.setSlot index slot).finishTurn index
        else
          if !isEmpty task then
            { g.setSlot index { slot with isEmpty := false } with
              emptyTasks := g.emptyTasks.erase index }.finishTurn index
          else (g.setSlot index slot).finishTurn index
    | _ => g.finishTurn index

end Task

/-! ## The slots -/

section Slots

/-- The indices where a task is live. -/
def live (g : TaskGroup T n) : Finset Nat :=
  (Finset.range g.tasks.len).filter fun i ↦ (g.slot i).isSome

theorem slot_eq_some {g : TaskGroup T n} {i : Nat} {c : TaskContainer T} :
    g.slot i = some c ↔ g.tasks.get i = some (some c) := by
  rw [slot, Option.join_eq_some_iff]

theorem slot_lt {g : TaskGroup T n} {i : Nat} {c : TaskContainer T} (h : g.slot i = some c) :
    i < g.tasks.len := by
  rw [slot_eq_some, DynamicVec.get_eq] at h
  rw [DynamicVec.len_eq]
  exact (List.getElem?_eq_some_iff.mp h).1

theorem mem_live {g : TaskGroup T n} {i : Nat} : i ∈ g.live ↔ ∃ c, g.slot i = some c := by
  rw [live, Finset.mem_filter, Finset.mem_range, Option.isSome_iff_exists]
  constructor
  · rintro ⟨-, h⟩
    exact h
  · rintro ⟨c, h⟩
    exact ⟨slot_lt h, c, h⟩

theorem hasTask_iff {g : TaskGroup T n} {i : Nat} : g.hasTask i = true ↔ i ∈ g.live := by
  rw [mem_live, hasTask]
  simp only [slot_eq_some]
  split
  · rename_i c h
    exact iff_of_true rfl ⟨c, h⟩
  · rename_i h
    constructor
    · intro hf
      cases hf
    · rintro ⟨c, hc⟩
      exact absurd hc (h c)

/-- Two groups with the same slots as far as both reach have the same live
indices. -/
theorem live_congr {g g' : TaskGroup T n} (h : ∀ i, g'.slot i = none ↔ g.slot i = none) :
    g'.live = g.live := by
  ext i
  rw [mem_live, mem_live, ← Option.ne_none_iff_exists', ← Option.ne_none_iff_exists']
  exact not_congr (h i)

@[simp] theorem slot_default (i : Nat) : (default : TaskGroup T n).slot i = none := by
  simp [slot, default]

/-- Writing a slot that exists is what the name says. -/
theorem slot_setSlot {g : TaskGroup T n} {index : Nat} (h : index < g.tasks.len)
    (c : TaskContainer T) (i : Nat) :
    (g.setSlot index c).slot i = if i = index then some c else g.slot i := by
  rw [DynamicVec.len_eq] at h
  simp only [slot, setSlot, DynamicVec.get_eq, DynamicVec.toList_modify, List.getElem?_modify]
  by_cases hi : i = index
  · subst hi
    simp [h]
  · simp [hi, Ne.symm hi]

@[simp] theorem len_setSlot (g : TaskGroup T n) (index : Nat) (c : TaskContainer T) :
    (g.setSlot index c).tasks.len = g.tasks.len := by
  simp [setSlot]

@[simp] theorem switcher_setSlot (g : TaskGroup T n) (index : Nat) (c : TaskContainer T) :
    (g.setSlot index c).switcher = g.switcher := rfl

/-- **A task is added to a vacant slot**: an old one, or a new one behind all
others. -/
theorem addTask_cases (g : TaskGroup T n) (task : T) :
    g.slot (g.addTask task).1 = none ∧
    (∀ i, (g.addTask task).2.slot i =
      if i = (g.addTask task).1 then some (.new task) else g.slot i) ∧
    (g.addTask task).2.tasksCount = g.tasksCount + 1 ∧
    (g.addTask task).2.emptyTasks = g.emptyTasks ∧
    (∀ i, (g.addTask task).2.switcher.flag i = g.switcher.flag i) ∧
    (g.switcher.tasks = g.tasks.len →
      (g.addTask task).2.switcher.tasks = (g.addTask task).2.tasks.len) := by
  unfold addTask
  split
  · rename_i index hfind
    obtain ⟨hlt, hnone, -⟩ := List.findIdx?_eq_some_iff_getElem.mp hfind
    have hslot : g.slot index = none := by
      simpa [slot, hlt] using hnone
    refine ⟨hslot, slot_setSlot (by simpa using hlt) _, rfl, rfl, fun _ ↦ rfl, ?_⟩
    simp [setSlot]
  · rename_i hfind
    refine ⟨?_, fun i ↦ ?_, rfl, rfl, fun i ↦ TaskSwitcher.flag_setTasks .., fun _ ↦ by simp⟩
    · simp [slot]
    · simp only [slot, DynamicVec.get_eq, DynamicVec.toList_push, DynamicVec.len_eq,
        List.length_append, List.length_singleton, Nat.add_sub_cancel]
      rcases Nat.lt_trichotomy i g.tasks.toList.length with hi | hi | hi
      · rw [List.getElem?_append_left hi, if_neg (Nat.ne_of_lt hi)]
      · simp [hi]
      · rw [if_neg (Nat.ne_of_gt hi), List.getElem?_eq_none (Nat.le_of_lt hi),
          List.getElem?_eq_none (by simpa using Nat.succ_le_of_lt hi)]

/-- Trimming loses no task. -/
theorem join_trim (tasks : DynamicVec (Option (TaskContainer T)) n) (i : Nat) :
    ((trim tasks).toList[i]?).join = (tasks.toList[i]?).join := by
  have hr : Loop.Returns trimTurn tasks (trim tasks) := Loop.returns_run tasks
  generalize trim tasks = trimmed at hr
  induction hr with
  | @leave v v' hb =>
      unfold trimTurn at hb
      split at hb
      · cases hb
      · cases hb
        rfl
  | @again v v' r hb _ ih =>
      rw [ih, trimTurn_inl hb]
      rcases Nat.lt_or_ge i v'.toList.length with hi | hi
      · rw [List.getElem?_append_left hi]
      · rw [List.getElem?_append_right hi, List.getElem?_eq_none hi, List.getElem?_singleton]
        split <;> rfl

/-- **A task is removed** from the slot it is in, and from no other. -/
theorem removeTask_cases {g g' : TaskGroup T n} {index : Nat} (h : g.removeTask index = .ok g') :
    (∀ i, g'.slot i = if i = index then none else g.slot i) ∧
    g.tasksCount = g'.tasksCount + 1 ∧
    g'.emptyTasks = g.emptyTasks.erase index ∧
    (∀ i, g'.switcher.flag i = g.switcher.flag i) ∧
    g'.switcher.tasks = g'.tasks.len := by
  obtain ⟨tasks, htasks, h⟩ := bind_ok.mp h
  obtain ⟨hlt, rfl⟩ := DynamicVec.modifyOrPanic_ok_lt htasks
  by_cases hcount : g.tasksCount = 0
  · rw [if_pos hcount] at h
    cases h
  · rw [if_neg hcount] at h
    cases h
    refine ⟨fun i ↦ ?_, (Nat.succ_pred hcount).symm, rfl,
      fun i ↦ TaskSwitcher.flag_setTasks .., by simp⟩
    simp only [slot, DynamicVec.get_eq, join_trim, DynamicVec.toList_modify, List.getElem?_modify]
    by_cases hi : i = index
    · subst hi
      simp [hlt]
    · simp [hi, Ne.symm hi]

/-- A live task can be removed, as long as the tasks are counted. -/
theorem removeTask_ok {g : TaskGroup T n} {index : Nat} (h : index ∈ g.live)
    (hcount : g.tasksCount ≠ 0) : ∃ g', g.removeTask index = .ok g' := by
  obtain ⟨c, hc⟩ := mem_live.mp h
  have hlt : index < g.tasks.toList.length := by simpa using slot_lt hc
  simp [removeTask, DynamicVec.modifyOrPanic_of_lt hlt, hcount]

/-- The loops over the slots call the task of each of them once. -/
theorem get_forEach (f : T → T) (tasks : DynamicVec (Option (TaskContainer T)) n) (k i : Nat) :
    (forEach f tasks k).get i =
      if i < k then (tasks.get i).map (Option.map fun c ↦ { c with task := f c.task })
      else tasks.get i := by
  induction k with
  | zero => simp [forEach]
  | succ k ih =>
      rw [forEach, DynamicVec.get_eq, DynamicVec.toList_modify, List.getElem?_modify,
        ← DynamicVec.get_eq, ih]
      rcases Nat.lt_trichotomy i k with hi | rfl | hi
      · simp [hi, Nat.lt_succ_of_lt hi, Nat.ne_of_gt hi]
      · simp
      · simp [Nat.not_lt_of_gt hi, Nat.not_lt_of_ge hi, Nat.ne_of_lt hi]

@[simp] theorem len_forEach (f : T → T) (tasks : DynamicVec (Option (TaskContainer T)) n)
    (k : Nat) : (forEach f tasks k).len = tasks.len := by
  induction k with
  | zero => rfl
  | succ k ih => simpa [forEach] using ih

/-- **Every live task is called**, and every slot is flagged. -/
theorem callAll_cases {g : TaskGroup T n} (h : g.switcher.tasks = g.tasks.len) (f : T → T) :
    (∀ i, (g.callAll f).slot i = (g.slot i).map fun c ↦ { c with task := f c.task }) ∧
    (∀ i < g.tasks.len, (g.callAll f).switcher.flag i = true) ∧
    (g.callAll f).switcher.tasks = (g.callAll f).tasks.len := by
  refine ⟨?_, ?_, ?_⟩
  · intro i
    simp only [slot, callAll, get_forEach, TaskSwitcher.tasks_flagAll, h]
    by_cases hi : i < g.tasks.len
    · rw [if_pos hi]
      rcases g.tasks.get i with _ | _ | c <;> rfl
    · rw [if_neg hi, DynamicVec.get_eq, List.getElem?_eq_none (by simpa using hi)]
      rfl
  · intro i hi
    exact TaskSwitcher.flag_flagAll _ (h ▸ hi)
  · simp only [callAll, TaskSwitcher.tasks_flagAll, len_forEach, h]

end Slots

/-! ## Events and outputs -/

section Task

variable [Task T In Out Time]

open TaskSwitcherChild (popOutput isEmpty emptyEvent)

/-- An event reaches the task at its index, where one is live, and flags it. -/
theorem onEvent_live {g : TaskGroup T n} (h : g.switcher.tasks = g.tasks.len) {index : Nat}
    {c : TaskContainer T} (hc : g.slot index = some c) (now : Instant) (input : In) :
    ∃ switcher, g.switcher.SetFlag index true switcher ∧
      g.onEvent now index input = .ok (some (),
        { g.setSlot index { c with task := Task.onEvent c.task now input } with switcher }) := by
  obtain ⟨switcher, hs, hset⟩ := g.switcher.flagTask_of_lt (h ▸ slot_lt hc)
  refine ⟨switcher, hset, ?_⟩
  simp only [onEvent, slot_eq_some.mp hc, hs, ok_bind, pure_eq_ok]

/-- Elsewhere an event does nothing. -/
theorem onEvent_vacant {g : TaskGroup T n} {index : Nat} (hc : g.slot index = none)
    (now : Instant) (input : In) : g.onEvent now index input = .ok (none, g) := by
  unfold onEvent
  split
  · rename_i c h
    rw [slot_eq_some.mpr h] at hc
    cases hc
  · rfl

/-- What an event does to the slots. -/
theorem slot_onEvent {g g' : TaskGroup T n} (h : g.switcher.tasks = g.tasks.len) {now : Instant}
    {index : Nat} {input : In} {result : Option Unit}
    (he : g.onEvent now index input = .ok (result, g')) (i : Nat) :
    g'.slot i = (g.slot i).map fun c ↦
      if i = index then { c with task := Task.onEvent c.task now input } else c := by
  cases hc : g.slot index with
  | none =>
      rw [onEvent_vacant hc] at he
      cases he
      by_cases hi : i = index
      · rw [hi, hc, Option.map_none]
      · simp only [if_neg hi, Option.map_id']
  | some c =>
      obtain ⟨switcher, -, heq⟩ := onEvent_live h hc now input
      cases heq.symm.trans he
      have hslot := slot_setSlot (slot_lt hc) { c with task := Task.onEvent c.task now input } i
      by_cases hi : i = index
      · subst hi
        rw [hc, Option.map_some, if_pos rfl]
        exact hslot.trans (if_pos rfl)
      · simp only [if_neg hi, Option.map_id']
        exact hslot.trans (if_neg hi)

/-- **What a turn of `pop_output` can do.** -/
inductive Turn (now : Time) (g : TaskGroup T n) :
    TaskGroup T n ⊕ Panics (Option (TaskGroupOutput Out) × TaskGroup T n) → Prop
  | /-- No slot is flagged: leave without an output. -/
    drained (h : ∀ i < g.switcher.tasks, g.switcher.flag i = false) :
      Turn now g (.inr (.ok (none, g)))
  | /-- The current task has an output: leave with it. -/
    output {i c out task} (hi : g.switcher.current = some i) (hc : g.slot i = some c)
      (hpop : popOutput c.task now = (some out, task)) :
      Turn now g (.inr (.ok (some (.taskOutput i out), g.setSlot i ⟨task, c.isEmpty⟩)))
  | /-- The current task has none and has become empty: leave with its empty
    event. -/
    empties {i c task} (hi : g.switcher.current = some i) (hc : g.slot i = some c)
      (hpop : popOutput c.task now = (none, task)) (hbefore : c.isEmpty = false)
      (hempty : isEmpty task = true) :
      Turn now g (.inr (.ok (some (.taskOutput i (emptyEvent task)),
        { g.setSlot i ⟨task, true⟩ with emptyTasks := insert i g.emptyTasks })))
  | /-- The current task has none and has not become empty: its flag is cleared. -/
    finishes {i c task switcher} (hi : g.switcher.current = some i) (hc : g.slot i = some c)
      (hpop : popOutput c.task now = (none, task))
      (hold : c.isEmpty = true ∨ isEmpty task = false)
      (hs : g.switcher.SetFlag i false switcher) :
      Turn now g (.inl { g.setSlot i ⟨task, isEmpty task⟩ with
        emptyTasks := if c.isEmpty && !isEmpty task then g.emptyTasks.erase i else g.emptyTasks
        switcher })
  | /-- The current slot is vacant: its flag is cleared. -/
    vacant {i switcher} (hi : g.switcher.current = some i) (hc : g.slot i = none)
      (hs : g.switcher.SetFlag i false switcher) : Turn now g (.inl { g with switcher })

theorem turn_cases (now : Time) (g : TaskGroup T n) : Turn now g (turn now g) := by
  unfold turn
  cases hcur : g.switcher.current with
  | none => exact .drained fun i hi ↦ TaskSwitcher.current_eq_none hcur hi
  | some i =>
      have hlt := (TaskSwitcher.mem_flagged.mp (TaskSwitcher.current_eq_some hcur)).1
      obtain ⟨switcher, hs, hset⟩ := g.switcher.finished_of_lt hlt
      cases hc : g.slot i with
      | none =>
          have hvacant : turn now g = .inl { g with switcher } := by
            simp only [turn, hcur]
            split
            · rename_i c hget
              rw [slot_eq_some.mpr hget] at hc
              cases hc
            · simp only [finishTurn, hs]
          rw [turn, hcur] at hvacant
          exact hvacant ▸ .vacant hcur hc hset
      | some c =>
          obtain ⟨old, before⟩ := c
          simp only [slot_eq_some.mp hc]
          rcases hpop : popOutput old now with ⟨_ | out, task⟩
          · cases before with
            | false =>
                cases hempty : isEmpty task with
                | true => exact .empties hcur hc hpop rfl hempty
                | false =>
                    have := Turn.finishes hcur hc hpop (.inr hempty) hset
                    simpa [finishTurn, hs, hempty, setSlot] using this
            | true =>
                have := Turn.finishes hcur hc hpop (.inl rfl) hset
                cases hempty : isEmpty task <;> simpa [finishTurn, hs, hempty, setSlot] using this
          · exact .output hcur hc hpop

theorem turn_lt {now : Time} {g g' : TaskGroup T n} (h : turn now g = .inl g') :
    g'.switcher.flagged.card < g.switcher.flagged.card := by
  have ht := turn_cases now g
  rw [h] at ht
  cases ht with
  | finishes hi _ _ _ hs => exact hs.card_flagged_lt (TaskSwitcher.current_eq_some hi)
  | vacant hi _ hs => exact hs.card_flagged_lt (TaskSwitcher.current_eq_some hi)

theorem turn_ok {now : Time} {g : TaskGroup T n} {r} (h : turn now g = .inr r) :
    ∃ a, r = .ok a := by
  have ht := turn_cases now g
  rw [h] at ht
  cases ht <;> exact ⟨_, rfl⟩

/-- The loop of `pop_output`. -/
def popOutputLoop (g : TaskGroup T n) (now : Time) :
    Panics (Option (TaskGroupOutput Out) × TaskGroup T n) :=
  Loop.run (turn now) (·.switcher.flagged.card) (fun _ _ h ↦ turn_lt h) g

/-- The loop leaves. -/
theorem returns_popOutputLoop (g : TaskGroup T n) (now : Time) :
    Loop.Returns (turn now) g (g.popOutputLoop now) := Loop.returns_run g

theorem popOutputLoop_ok (g : TaskGroup T n) (now : Time) : ∃ r, g.popOutputLoop now = .ok r := by
  obtain ⟨t, -, ht⟩ := (returns_popOutputLoop g now).exit
  exact turn_ok ht

/-- A group is itself a task of a switcher, and this is its `pop_output`. -/
instance : TaskSwitcherChild (TaskGroup T n) (TaskGroupOutput Out) Time where
  emptyEvent _ := .onResourceEmpty
  isEmpty g := g.emptyTasks.card == g.countTasks
  popOutput g now := (g.popOutputLoop now).get (popOutputLoop_ok g now)

/-- **`pop_output` always returns**, and never panics. -/
theorem returns_popOutput (g : TaskGroup T n) (now : Time) :
    Loop.Returns (turn now) g (.ok (popOutput g now)) := by
  have h := returns_popOutputLoop g now
  rwa [Panics.ok_get (g.popOutputLoop now) (popOutputLoop_ok g now)] at h

/-- The loop of `pop_output` leaves from a group it visits. -/
theorem popOutput_exit (g : TaskGroup T n) (now : Time) :
    ∃ t, Loop.Visits (turn now) g t ∧ turn now t = .inr (.ok (popOutput g now)) :=
  (returns_popOutput g now).exit

end Task

end TaskGroup

end SansIo
