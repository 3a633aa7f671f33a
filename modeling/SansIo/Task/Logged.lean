import SansIo.Lib.Machine
import SansIo.Task.Group

/-!
# Runs of a group, and what its tasks see of them

A task does not record how it is called, so statements about the calls that a
group makes on its tasks are made for a group of `Logged` tasks.  A `Logged` task
is any task with a list of the calls made on it, that passes every call on and
notes it down.  `group` is the machine of the operations on a group, and
`loggedGroup` the one whose tasks are logged from the time they are added.

Nothing depends on the log: `Task/Erase.lean` shows that the runs of `loggedGroup`
are the runs of `group` with the logs added.
-/

namespace SansIo

open Lib Collections
open TaskSwitcherChild (popOutput isEmpty emptyEvent)

variable {T In Out Time : Type} {n : Nat}

/-! ## Calls -/

/-- A call that may change a task, with what it returned, and for `pop_output`
whether the task was empty after it. -/
inductive Call (In Out : Type) where
  | tick (now : Instant)
  | event (now : Instant) (input : In)
  | shutdown (now : Instant)
  | popped (out : Option Out) (empty : Bool)

namespace Call

/-- The calls that are inputs. -/
def isInput : Call In Out → Bool
  | .tick _ | .event _ _ | .shutdown _ => true
  | .popped _ _ => false

/-- Whether the task was empty when it last had no output, after one more call. -/
def sawEmpty (before : Bool) : Call In Out → Bool
  | .popped none empty => empty
  | _ => before

end Call

/-- Whether the task was empty when it last had no output; before that it counts
as not empty. -/
def lastEmpty (log : List (Call In Out)) : Bool := log.foldl Call.sawEmpty false

theorem lastEmpty_snoc (log : List (Call In Out)) (call : Call In Out) :
    lastEmpty (log ++ [call]) = call.sawEmpty (lastEmpty log) := by
  simp [lastEmpty]

/-! ## Logged tasks -/

/-- A task and the calls made on it, oldest first. -/
structure Logged (T In Out : Type) where
  /-- The task. -/
  task : T
  /-- The calls. -/
  log : List (Call In Out)

namespace Logged

/-- A task that has not been called. -/
def new (task : T) : Logged T In Out := ⟨task, []⟩

variable [Task T In Out Time]

instance : Task (Logged T In Out) In Out Time where
  emptyEvent t := emptyEvent t.task
  isEmpty t := isEmpty t.task
  popOutput t now :=
    let (out, task) := popOutput t.task now
    (out, ⟨task, t.log ++ [.popped out (isEmpty task)]⟩)
  onTick t now := ⟨Task.onTick t.task now, t.log ++ [.tick now]⟩
  onEvent t now input := ⟨Task.onEvent t.task now input, t.log ++ [.event now input]⟩
  onShutdown t now := ⟨Task.onShutdown t.task now, t.log ++ [.shutdown now]⟩

/-- The task has received an input. -/
def Received (t : Logged T In Out) : Prop := ∃ call ∈ t.log, call.isInput = true

/-- The task has nothing left to be polled for: it has not been called, or was
last called for an output and had none. -/
def Settled (t : Logged T In Out) : Prop :=
  t.log = [] ∨ ∃ log, t.log = log ++ [.popped none (isEmpty t.task)]

/-- What popping a logged task does, from what popping the task does. -/
theorem popOutput_eq {t t' : Logged T In Out} {now : Time} {out : Option Out}
    (h : popOutput t now = (out, t')) :
    popOutput t.task now = (out, t'.task) ∧
      t'.log = t.log ++ [.popped out (isEmpty t'.task)] := by
  obtain ⟨rfl, rfl⟩ := Prod.mk.inj h
  exact ⟨rfl, rfl⟩

/-- A settled task that has received an input was last called for an output, and
had none. -/
theorem Settled.popped {t : Logged T In Out} (h : t.Settled) (hr : t.Received) :
    ∃ log, t.log = log ++ [.popped none (isEmpty t.task)] := by
  rcases h with hnil | h
  · obtain ⟨call, hmem, -⟩ := hr
    rw [hnil] at hmem
    cases hmem
  · exact h

end Logged

/-- A task that gives its inputs back, one at a time. -/
structure Echo where
  /-- The inputs to give back. -/
  waiting : List Nat

instance : Task Echo Nat Nat Unit where
  emptyEvent _ := 0
  isEmpty e := e.waiting.isEmpty
  popOutput e _ := (e.waiting.head?, ⟨e.waiting.tail⟩)
  onTick e _ := e
  onEvent e _ input := ⟨e.waiting ++ [input]⟩
  onShutdown e _ := e

/-! ## The operations of a group -/

/-- What can be done to a group. -/
inductive GroupOp (T In Time : Type) where
  | addTask (task : T)
  | removeTask (index : Nat)
  | onEvent (now : Instant) (index : Nat) (input : In)
  | onTick (now : Instant)
  | onShutdown (now : Instant)
  | popOutput (now : Time)

/-- The same operation with another kind of task. -/
def GroupOp.map {T' : Type} (f : T → T') : GroupOp T In Time → GroupOp T' In Time
  | .addTask task => .addTask (f task)
  | .removeTask index => .removeTask index
  | .onEvent now index input => .onEvent now index input
  | .onTick now => .onTick now
  | .onShutdown now => .onShutdown now
  | .popOutput now => .popOutput now

/-- What an operation of a group returns. -/
inductive GroupAnswer (Out : Type) where
  | added (index : Nat)
  | delivered (result : Option Unit)
  | popped (out : Option (TaskGroupOutput Out))
deriving DecidableEq

variable [Task T In Out Time]

/-- A group under every sequence of its operations, where only live tasks are
removed.  The events are what the operations return. -/
def group : Machine (TaskGroup T n) (GroupOp T In Time) (GroupAnswer Out) where
  step g
    | .addTask task => some ((g.addTask task).2, [.added (g.addTask task).1])
    | .removeTask index =>
      if g.hasTask index then match g.removeTask index with
        | .ok g' => some (g', [])
        | .error _ => none
      else none
    | .onEvent now index input => match g.onEvent now index input with
      | .ok (result, g') => some (g', [.delivered result])
      | .error _ => none
    | .onTick now => some (g.onTick now, [])
    | .onShutdown now => some (g.onShutdown now, [])
    | .popOutput now => some ((popOutput g now).2, [.popped (popOutput g now).1])

/-- What the operations do to a group. -/
inductive GroupDoes (g : TaskGroup T n) : GroupOp T In Time → TaskGroup T n → Prop
  | addTask {task} : GroupDoes g (.addTask task) (g.addTask task).2
  | removeTask {index g'} (hlive : index ∈ g.live) (hok : g.removeTask index = .ok g') :
      GroupDoes g (.removeTask index) g'
  | onEvent {now index input result g'} (hok : g.onEvent now index input = .ok (result, g')) :
      GroupDoes g (.onEvent now index input) g'
  | onTick {now} : GroupDoes g (.onTick now) (g.onTick now)
  | onShutdown {now} : GroupDoes g (.onShutdown now) (g.onShutdown now)
  | popOutput {now} : GroupDoes g (.popOutput now) (popOutput g now).2

theorem group_cases {g g' : TaskGroup T n} {op : GroupOp T In Time}
    {events : List (GroupAnswer Out)} (h : group.step g op = some (g', events)) :
    GroupDoes g op g' := by
  cases op with
  | addTask task =>
      cases h
      exact .addTask
  | removeTask index =>
      simp only [group] at h
      split at h
      · rename_i hlive
        split at h
        · rename_i hok
          cases h
          exact .removeTask (TaskGroup.hasTask_iff.mp hlive) hok
        · cases h
      · cases h
  | onEvent now index input =>
      simp only [group] at h
      split at h
      · rename_i hok
        cases h
        exact .onEvent hok
      · cases h
  | onTick now =>
      cases h
      exact .onTick
  | onShutdown now =>
      cases h
      exact .onShutdown
  | popOutput now =>
      cases h
      exact .popOutput

/-- A group of logged tasks, which are added with an empty log. -/
def loggedGroup :
    Machine (TaskGroup (Logged T In Out) n) (GroupOp T In Time) (GroupAnswer Out) where
  step g op := group.step g (op.map Logged.new)

end SansIo
