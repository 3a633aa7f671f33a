import SansIo.Task.Group

/-!
# The macro `group_task!`

`src/lib.rs`.  The macro writes out a group of tasks of one type, with the slots in
a plain vector.  It counts its tasks when it is asked for their number, and it does
not ask them whether they are empty: `is_empty` is the only call of a `TaskGroup` on
its tasks that it does not make.
-/

namespace SansIo

open Lib Collections

/-- The `struct` that `group_task!` writes. -/
structure GroupTask (T : Type) where
  /-- The slots. -/
  tasks : List (Option T)
  /-- A flag for each slot. -/
  switcher : TaskSwitcher

namespace GroupTask

variable {T In Out Time : Type}

/-- `Default::default`. -/
def default : GroupTask T := ⟨[], .new 0⟩

/-- `tasks()`. -/
def countTasks (g : GroupTask T) : Nat := (g.tasks.filter Option.isSome).length

/-- `has_task`. -/
def hasTask (g : GroupTask T) (index : Nat) : Bool :=
  match g.tasks[index]? with
  | some (some _) => true
  | _ => false

/-- The slot at an index, where there is one, is given a task. -/
def setSlot (g : GroupTask T) (index : Nat) (task : T) : GroupTask T :=
  { g with tasks := g.tasks.modify index fun _ ↦ some task }

/-- `add_task`. -/
def addTask (g : GroupTask T) (task : T) : Nat × GroupTask T :=
  match g.tasks.findIdx? Option.isNone with
  | some index => (index, g.setSlot index task)
  | none =>
    let tasks := g.tasks ++ [some task]
    (tasks.length - 1, { tasks, switcher := g.switcher.setTasks tasks.length })

/-- One turn of the loop of `remove_task`. -/
def trimTurn (tasks : List (Option T)) : List (Option T) ⊕ List (Option T) :=
  match tasks.getLast? with
  | some none => .inl tasks.dropLast
  | _ => .inr tasks

theorem trimTurn_lt {tasks tasks' : List (Option T)} (h : trimTurn tasks = .inl tasks') :
    tasks'.length < tasks.length := by
  unfold trimTurn at h
  split at h
  · rename_i hlast
    cases h
    rw [List.length_dropLast]
    exact Nat.sub_lt (List.length_pos_of_ne_nil (by rintro rfl; simp at hlast)) Nat.one_pos
  · cases h

/-- The loop of `remove_task`, which removes the vacant slots at the end. -/
def trim (tasks : List (Option T)) : List (Option T) :=
  Loop.run trimTurn List.length (fun _ _ h ↦ trimTurn_lt h) tasks

/-- `remove_task`. -/
def removeTask (g : GroupTask T) (index : Nat) : Panics (GroupTask T) :=
  if index < g.tasks.length then
    let tasks := trim (g.tasks.modify index fun _ ↦ none)
    .ok { tasks, switcher := g.switcher.setTasks tasks.length }
  else throw "Should have task when remove"

/-- The loop of `on_tick` and `on_shutdown`: the tasks in the first `k` slots are
called. -/
def forEach (f : T → T) (tasks : List (Option T)) : Nat → List (Option T)
  | 0 => tasks
  | k + 1 => (forEach f tasks k).modify k (Option.map f)

/-- What `on_tick` and `on_shutdown` share: flag every slot, and call every task. -/
def callAll (g : GroupTask T) (f : T → T) : GroupTask T :=
  let switcher := g.switcher.flagAll
  { switcher, tasks := forEach f g.tasks switcher.tasks }

variable [Task T In Out Time]

open TaskSwitcherChild (popOutput)

/-- `on_tick`. -/
def onTick (g : GroupTask T) (now : Instant) : GroupTask T := g.callAll (Task.onTick · now)

/-- `on_event`. -/
def onEvent (g : GroupTask T) (now : Instant) (index : Nat) (input : In) :
    Panics (Option Unit × GroupTask T) :=
  match g.tasks[index]? with
  | some (some task) => do
    let switcher ← g.switcher.flagTask index
    return (some (), { g.setSlot index (Task.onEvent task now input) with switcher })
  | _ => return (none, g)

/-- `on_shutdown`. -/
def onShutdown (g : GroupTask T) (now : Instant) : GroupTask T :=
  g.callAll (Task.onShutdown · now)

/-- `self.switcher.finished(index)`, where a turn of `pop_output` ends. -/
def finishTurn (g : GroupTask T) (index : Nat) :
    GroupTask T ⊕ Panics (Option (Nat × Out) × GroupTask T) :=
  match g.switcher.finished index with
  | .ok switcher => .inl { g with switcher }
  | .error text => .inr (.error text)

/-- One turn of the loop of `pop_output`. -/
def turn (now : Time) (g : GroupTask T) :
    GroupTask T ⊕ Panics (Option (Nat × Out) × GroupTask T) :=
  match g.switcher.current with
  | none => .inr (.ok (none, g))
  | some index =>
    match g.tasks[index]? with
    | some (some slot) =>
      let (out, task) := popOutput slot now
      match out with
      | some out => .inr (.ok (some (index, out), g.setSlot index task))
      | none => (g.setSlot index task).finishTurn index
    | _ => g.finishTurn index

theorem finishTurn_inl {g g' : GroupTask T} {index : Nat}
    (h : (g.finishTurn index : _ ⊕ Panics (Option (Nat × Out) × GroupTask T)) = .inl g') :
    ∃ switcher, g.switcher.finished index = .ok switcher ∧ g' = { g with switcher } := by
  unfold finishTurn at h
  split at h
  · rename_i switcher hs
    cases h
    exact ⟨switcher, hs, rfl⟩
  · cases h

/-- A turn that goes round again has finished the current task. -/
theorem turn_inl {now : Time} {g g' : GroupTask T} (h : turn now g = .inl g') :
    ∃ index, g.switcher.current = some index ∧ g.switcher.finished index = .ok g'.switcher := by
  unfold turn at h
  split at h
  · cases h
  · rename_i index hcur
    refine ⟨index, hcur, ?_⟩
    split at h
    · rename_i slot hslot
      rcases hpop : popOutput slot now with ⟨_ | out, task⟩
      · rw [hpop] at h
        obtain ⟨switcher, hs, rfl⟩ := finishTurn_inl h
        exact hs
      · rw [hpop] at h
        cases h
    · obtain ⟨switcher, hs, rfl⟩ := finishTurn_inl h
      exact hs

theorem turn_lt {now : Time} {g g' : GroupTask T} (h : turn now g = .inl g') :
    g'.switcher.flagged.card < g.switcher.flagged.card := by
  obtain ⟨index, hcur, hs⟩ := turn_inl h
  exact (TaskSwitcher.finished_ok hs).2.card_flagged_lt (TaskSwitcher.current_eq_some hcur)

/-- `pop_output`. -/
def popOutput (g : GroupTask T) (now : Time) : Panics (Option (Nat × Out) × GroupTask T) :=
  Loop.run (turn now) (·.switcher.flagged.card) (fun _ _ h ↦ turn_lt h) g

theorem returns_popOutput (g : GroupTask T) (now : Time) :
    Loop.Returns (turn now) g (g.popOutput now) := Loop.returns_run g

end GroupTask

end SansIo
