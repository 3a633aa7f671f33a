import SansIo.Collections.Slots
import SansIo.Task.Erase
import SansIo.Task.GroupTask

/-!
# The two groups agree

A `TaskGroup` without its containers and its books is a group as `group_task!`
writes it.  `forget` forgets them, and every operation commutes with that, where no
task is ever empty: then a `TaskGroup` reports no task, and its containers do not
matter.

Both groups call their tasks in loops.  Each loop is run once more with its calls noted
down (`tracedPop`, `tracedForEach`, `tracedEvent`), and does the same.  `calls` are the
calls of an operation, in the order in which its loop makes them, and `log_calls` says
that they are those that the tasks receive.
-/

namespace SansIo

open Lib Collections
open TaskSwitcherChild (popOutput isEmpty emptyEvent)

variable {T In Out Time : Type} {n : Nat}

/-! ## Forgetting the containers -/

/-- A slot without its container. -/
abbrev bare (o : Option (TaskContainer T)) : Option T := o.map TaskContainer.task

/-- A group without the containers and the books. -/
def TaskGroup.forget (g : TaskGroup T n) : GroupTask T := ⟨g.tasks.toList.map bare, g.switcher⟩

namespace GroupTask

open TaskGroup (forget)

theorem getElem?_forget (g : TaskGroup T n) (i : Nat) :
    g.forget.tasks[i]? = (g.tasks.get i).map bare := by
  rw [DynamicVec.get_eq]
  exact List.getElem?_map ..

theorem length_forget (g : TaskGroup T n) : g.forget.tasks.length = g.tasks.len := by
  rw [DynamicVec.len_eq]
  exact List.length_map ..

@[simp] theorem hasTask_forget (g : TaskGroup T n) (i : Nat) :
    g.forget.hasTask i = g.hasTask i := by
  unfold hasTask TaskGroup.hasTask
  rw [getElem?_forget]
  rcases g.tasks.get i with _ | _ | c <;> rfl

/-- A slot is written in both. -/
theorem modify_forget (tasks : DynamicVec (Option (TaskContainer T)) n) (i : Nat)
    {k : Option (TaskContainer T) → Option (TaskContainer T)} {k' : Option T → Option T}
    (hk : ∀ o, bare (k o) = k' (bare o)) :
    (tasks.toList.map bare).modify i k' = (tasks.modify i k).toList.map bare := by
  rw [DynamicVec.toList_modify]
  exact (DynamicVec.map_listModify bare tasks.toList i hk).symm

theorem setSlot_forget (g : TaskGroup T n) (i : Nat) (task : T) (empty : Bool) :
    g.forget.setSlot i task = (g.setSlot i ⟨task, empty⟩).forget := by
  have htasks : (g.tasks.toList.map bare).modify i (fun _ ↦ some task) =
      (g.tasks.modify i fun _ ↦ some ⟨task, empty⟩).toList.map bare :=
    modify_forget g.tasks i fun _ ↦ rfl
  simp only [setSlot, forget, TaskGroup.setSlot, htasks]

theorem addTask_forget (g : TaskGroup T n) (task : T) :
    g.forget.addTask task = Prod.map id forget (g.addTask task) := by
  have hfind : g.forget.tasks.findIdx? Option.isNone =
      g.tasks.toList.findIdx? Option.isNone := by
    simp only [forget, List.findIdx?_map]
    congr 1
    funext o
    simp
  unfold addTask TaskGroup.addTask
  rw [hfind]
  cases g.tasks.toList.findIdx? Option.isNone with
  | some index =>
      simp only [setSlot_forget g index task false]
      rfl
  | none =>
      have hpush : g.forget.tasks ++ [some task] =
          (g.tasks.push (some (.new task))).toList.map bare := by
        rw [DynamicVec.toList_push, List.map_append]
        rfl
      simp only [hpush, List.length_map, ← DynamicVec.len_eq]
      rfl

theorem trimTurn_forget (tasks : DynamicVec (Option (TaskContainer T)) n) :
    trimTurn (tasks.toList.map bare) =
      (TaskGroup.trimTurn tasks).map (·.toList.map bare) (·.toList.map bare) := by
  unfold trimTurn TaskGroup.trimTurn
  rw [List.getLast?_map, DynamicVec.last_eq]
  rcases tasks.toList.getLast? with _ | _ | c
  · rfl
  · simp [DynamicVec.toList_pop]
  · rfl

theorem trim_forget (tasks : DynamicVec (Option (TaskContainer T)) n) :
    trim (tasks.toList.map bare) = (TaskGroup.trim tasks).toList.map bare := by
  apply Loop.run_eq
  exact Loop.Returns.map trimTurn_forget (Loop.returns_run tasks)

theorem removeTask_forget {g g' : TaskGroup T n} {index : Nat}
    (h : g.removeTask index = .ok g') : g.forget.removeTask index = .ok g'.forget := by
  obtain ⟨tasks, htasks, h⟩ := bind_ok.1 h
  obtain ⟨hlt, rfl⟩ := DynamicVec.modifyOrPanic_ok_lt htasks
  have hmodify : g.forget.tasks.modify index (fun _ ↦ none) =
      (g.tasks.modify index fun _ ↦ none).toList.map bare :=
    modify_forget g.tasks index fun _ ↦ rfl
  split at h
  · cases h
  · cases h
    rw [removeTask, if_pos (by rw [length_forget]; simpa using hlt)]
    simp only [hmodify, trim_forget, List.length_map, ← DynamicVec.len_eq]
    rfl

/-- The loops over the slots do the same to both. -/
theorem forEach_forget (f : T → T) (tasks : DynamicVec (Option (TaskContainer T)) n) (k : Nat) :
    forEach f (tasks.toList.map bare) k = (TaskGroup.forEach f tasks k).toList.map bare := by
  induction k with
  | zero => rfl
  | succ k ih =>
      rw [forEach, TaskGroup.forEach, ih]
      apply modify_forget
      rintro (_ | c) <;> rfl

theorem callAll_forget (g : TaskGroup T n) (f : T → T) :
    g.forget.callAll f = (g.callAll f).forget := by
  simp only [callAll, TaskGroup.callAll, forget, forEach_forget]

section Task

variable [Task T In Out Time]

theorem onEvent_forget (g : TaskGroup T n) (now : Instant) (index : Nat) (input : In) :
    g.forget.onEvent now index input =
      (g.onEvent now index input).map (Prod.map id forget) := by
  unfold onEvent TaskGroup.onEvent
  rw [getElem?_forget, show g.forget.switcher = g.switcher from rfl]
  rcases g.tasks.get index with _ | _ | ⟨old, empty⟩
  · rfl
  · rfl
  · simp only [Option.map_some, setSlot_forget g index _ empty]
    cases g.switcher.flagTask index <;> rfl

end Task

end GroupTask

/-! ## The calls of an operation -/

section Calls

variable [Task T In Out Time]

namespace TaskGroup

/-- The call of a turn of the loop of `pop_output`. -/
def polls (now : Time) (g : TaskGroup T n) : List (Nat × Call In Out) :=
  match g.switcher.current with
  | none => []
  | some index =>
    match g.tasks.get index with
    | some (some slot) =>
      let (out, task) := popOutput slot.task now
      [(index, .popped out (isEmpty task))]
    | _ => []

/-- The loop of `pop_output`, with its calls. -/
def tracedPop (g : TaskGroup T n) (now : Time) :
    Panics (Option (TaskGroupOutput Out) × TaskGroup T n) × List (Nat × Call In Out) :=
  Loop.run (Loop.traced (turn now) (polls now)) (·.1.switcher.flagged.card)
    (fun _ _ h ↦ turn_lt (Loop.traced_inl.1 h).1) (g, [])

/-- The loop of `on_tick` and `on_shutdown`, with its calls. -/
def tracedForEach (f : T → T) (call : Call In Out)
    (tasks : DynamicVec (Option (TaskContainer T)) n) :
    Nat → DynamicVec (Option (TaskContainer T)) n × List (Nat × Call In Out)
  | 0 => (tasks, [])
  | k + 1 =>
    let (tasks, calls) := tracedForEach f call tasks k
    (tasks.modify k (Option.map fun c ↦ { c with task := f c.task }),
      match tasks.get k with
      | some (some _) => calls ++ [(k, call)]
      | _ => calls)

/-- `callAll`, with its calls. -/
def tracedAll (g : TaskGroup T n) (f : T → T) (call : Call In Out) :
    TaskGroup T n × List (Nat × Call In Out) :=
  let switcher := g.switcher.flagAll
  let (tasks, calls) := tracedForEach f call g.tasks switcher.tasks
  ({ g with switcher, tasks }, calls)

/-- `on_event`, with its call. -/
def tracedEvent (g : TaskGroup T n) (now : Instant) (index : Nat) (input : In) :
    Panics (Option Unit × TaskGroup T n) × List (Nat × Call In Out) :=
  match g.tasks.get index with
  | some (some c) => match g.switcher.flagTask index with
    | .ok switcher => (.ok (some (),
        { g.setSlot index { c with task := Task.onEvent c.task now input } with switcher }),
      [(index, .event now input)])
    | .error text => (.error text, [])
  | _ => (.ok (none, g), [])

/-- The calls of an operation on the tasks, in order. -/
def calls (g : TaskGroup T n) : GroupOp T In Time → List (Nat × Call In Out)
  | .addTask _ => []
  | .removeTask _ => []
  | .onEvent now index input => (g.tracedEvent now index input).2
  | .onTick now => (g.tracedAll (Task.onTick · now) (.tick now)).2
  | .onShutdown now => (g.tracedAll (Task.onShutdown · now) (.shutdown now)).2
  | .popOutput now => (g.tracedPop now).2

theorem returns_tracedPop (g : TaskGroup T n) (now : Time) :
    Loop.Returns (Loop.traced (turn now) (polls now)) (g, [])
      (.ok (popOutput g now), (g.tracedPop now).2) := by
  have h : Loop.Returns (Loop.traced (turn now) (polls now)) (g, []) (g.tracedPop now) :=
    Loop.returns_run (g, [])
  have hresult : (g.tracedPop now).1 = .ok (popOutput g now) :=
    (Loop.Returns.of_traced h).unique (returns_popOutput g now)
  rwa [← hresult]

/-- The loop does what it does without its calls, which are those on the tasks that are there. -/
theorem tracedForEach_eq (f : T → T) (call : Call In Out)
    (tasks : DynamicVec (Option (TaskContainer T)) n) (k : Nat) :
    tracedForEach f call tasks k = (forEach f tasks k,
      ((List.range k).filter fun i ↦ (tasks.get i).join.isSome).map (·, call)) := by
  induction k with
  | zero => rfl
  | succ k ih =>
      have hsame : (forEach f tasks k).get k = tasks.get k := by
        rw [get_forEach, if_neg (Nat.lt_irrefl k)]
      rw [tracedForEach, ih, List.range_succ, List.filter_append, List.map_append, forEach]
      dsimp only
      rw [hsame]
      rcases hget : tasks.get k with _ | _ | c <;>
        simp [hget, -DynamicVec.get_eq]

theorem tracedAll_eq (g : TaskGroup T n) (f : T → T) (call : Call In Out) :
    g.tracedAll f call =
      (g.callAll f, ((List.range g.switcher.tasks).filter g.hasTask).map (·, call)) := by
  have hhas : g.hasTask = fun i ↦ (g.tasks.get i).join.isSome := by
    funext i
    unfold hasTask
    rcases g.tasks.get i with _ | _ | c <;> rfl
  rw [tracedAll, tracedForEach_eq, hhas]
  rfl

theorem tracedEvent_fst (g : TaskGroup T n) (now : Instant) (index : Nat) (input : In) :
    (g.tracedEvent now index input).1 = g.onEvent now index input := by
  unfold tracedEvent onEvent
  rcases g.tasks.get index with _ | _ | c
  · rfl
  · rfl
  · dsimp only
    cases g.switcher.flagTask index <;> rfl

end TaskGroup

namespace GroupTask

/-- The call of a turn of the loop of `pop_output`. -/
def polls (now : Time) (g : GroupTask T) : List (Nat × Call In Out) :=
  match g.switcher.current with
  | none => []
  | some index =>
    match g.tasks[index]? with
    | some (some slot) =>
      let (out, task) := TaskSwitcherChild.popOutput slot now
      [(index, .popped out (isEmpty task))]
    | _ => []

/-- The loop of `pop_output`, with its calls. -/
def tracedPop (g : GroupTask T) (now : Time) :
    Panics (Option (Nat × Out) × GroupTask T) × List (Nat × Call In Out) :=
  Loop.run (Loop.traced (turn now) (polls now)) (·.1.switcher.flagged.card)
    (fun _ _ h ↦ turn_lt (Loop.traced_inl.1 h).1) (g, [])

/-- The loop of `on_tick` and `on_shutdown`, with its calls. -/
def tracedForEach (f : T → T) (call : Call In Out) (tasks : List (Option T)) :
    Nat → List (Option T) × List (Nat × Call In Out)
  | 0 => (tasks, [])
  | k + 1 =>
    let (tasks, calls) := tracedForEach f call tasks k
    (tasks.modify k (Option.map f),
      match tasks[k]? with
      | some (some _) => calls ++ [(k, call)]
      | _ => calls)

/-- `callAll`, with its calls. -/
def tracedAll (g : GroupTask T) (f : T → T) (call : Call In Out) :
    GroupTask T × List (Nat × Call In Out) :=
  let switcher := g.switcher.flagAll
  let (tasks, calls) := tracedForEach f call g.tasks switcher.tasks
  ({ switcher, tasks }, calls)

/-- `on_event`, with its call. -/
def tracedEvent (g : GroupTask T) (now : Instant) (index : Nat) (input : In) :
    Panics (Option Unit × GroupTask T) × List (Nat × Call In Out) :=
  match g.tasks[index]? with
  | some (some task) => match g.switcher.flagTask index with
    | .ok switcher => (.ok (some (),
        { g.setSlot index (Task.onEvent task now input) with switcher }),
      [(index, .event now input)])
    | .error text => (.error text, [])
  | _ => (.ok (none, g), [])

/-- The calls of an operation on the tasks, in order. -/
def calls (g : GroupTask T) : GroupOp T In Time → List (Nat × Call In Out)
  | .addTask _ => []
  | .removeTask _ => []
  | .onEvent now index input => (g.tracedEvent now index input).2
  | .onTick now => (g.tracedAll (Task.onTick · now) (.tick now)).2
  | .onShutdown now => (g.tracedAll (Task.onShutdown · now) (.shutdown now)).2
  | .popOutput now => (g.tracedPop now).2

theorem returns_tracedPop (g : GroupTask T) (now : Time) :
    Loop.Returns (Loop.traced (turn now) (polls now)) (g, [])
      (g.popOutput now, (g.tracedPop now).2) := by
  have h : Loop.Returns (Loop.traced (turn now) (polls now)) (g, []) (g.tracedPop now) :=
    Loop.returns_run (g, [])
  have hresult : (g.tracedPop now).1 = g.popOutput now :=
    (Loop.Returns.of_traced h).unique (returns_popOutput g now)
  rwa [← hresult]

/-- The loop does what it does without its calls. -/
theorem tracedAll_fst (g : GroupTask T) (f : T → T) (call : Call In Out) :
    (g.tracedAll f call).1 = g.callAll f := by
  have hloop (k : Nat) : (tracedForEach f call g.tasks k).1 = forEach f g.tasks k := by
    induction k with
    | zero => rfl
    | succ k ih => rw [tracedForEach, forEach, ← ih]
  simp only [tracedAll, callAll, ← hloop]

theorem tracedEvent_fst (g : GroupTask T) (now : Instant) (index : Nat) (input : In) :
    (g.tracedEvent now index input).1 = g.onEvent now index input := by
  unfold tracedEvent onEvent
  rcases g.tasks[index]? with _ | _ | task
  · rfl
  · rfl
  · dsimp only
    cases g.switcher.flagTask index <;> rfl

end GroupTask

end Calls

/-! ## Popping both -/

namespace GroupTask

open TaskGroup (forget)

variable [Task T In Out Time]

/-- The output of a group that `group_task!` writes is one of a `TaskGroup`. -/
def taskOutput : Nat × Out → TaskGroupOutput Out
  | (index, out) => .taskOutput index out

/-- What a call of `pop_output` returns, as a `TaskGroup` returns it. -/
abbrev asGroup : Panics (Option (Nat × Out) × GroupTask T) →
    Panics (Option (TaskGroupOutput Out) × GroupTask T) :=
  Except.map (Prod.map (Option.map taskOutput) id)

/-- What a call of `pop_output` returns, without the containers. -/
abbrev forgetPopped : Panics (Option (TaskGroupOutput Out) × TaskGroup T n) →
    Panics (Option (TaskGroupOutput Out) × GroupTask T) := Except.map (Prod.map id forget)

/-- One turn of the loop, with what it returns as a `TaskGroup` returns it. -/
def turnAsGroup (now : Time) (g : GroupTask T) :
    GroupTask T ⊕ Panics (Option (TaskGroupOutput Out) × GroupTask T) :=
  (turn now g).map id asGroup

theorem finishTurn_forget (g : TaskGroup T n) (index : Nat) :
    (g.forget.finishTurn index : _ ⊕ Panics (Option (Nat × Out) × _)).map id asGroup =
      (g.finishTurn index).map forget forgetPopped := by
  unfold finishTurn TaskGroup.finishTurn
  rw [show g.forget.switcher = g.switcher from rfl]
  cases g.switcher.finished index <;> rfl

/-- Where no task is empty, a turn does the same in both. -/
theorem turn_forget (hfalse : ∀ t : T, isEmpty t = false) (now : Time) (g : TaskGroup T n) :
    turnAsGroup now g.forget = (TaskGroup.turn now g).map forget forgetPopped := by
  unfold turnAsGroup turn TaskGroup.turn
  rw [show g.forget.switcher = g.switcher from rfl]
  cases g.switcher.current with
  | none => rfl
  | some index =>
      dsimp only
      rw [getElem?_forget]
      rcases g.tasks.get index with _ | _ | ⟨old, before⟩
      · exact finishTurn_forget g index
      · exact finishTurn_forget g index
      · simp only [Option.map_some]
        rcases TaskSwitcherChild.popOutput old now with ⟨_ | out, task⟩
        · simp only [hfalse, Bool.not_false, if_true, Bool.false_eq_true, if_false]
          cases before
          · rw [setSlot_forget g index task false]
            exact finishTurn_forget (g.setSlot index ⟨task, false⟩) index
          · rw [setSlot_forget g index task false]
            exact finishTurn_forget { g.setSlot index ⟨task, false⟩ with
              emptyTasks := g.emptyTasks.erase index } index
        · simp only [setSlot_forget g index task before]
          rfl

theorem polls_forget (now : Time) (g : TaskGroup T n) :
    polls now g.forget = TaskGroup.polls now g := by
  unfold polls TaskGroup.polls
  rw [show g.forget.switcher = g.switcher from rfl]
  cases g.switcher.current with
  | none => rfl
  | some index =>
      dsimp only
      rw [getElem?_forget]
      rcases g.tasks.get index with _ | _ | c <;> rfl

/-- Both call the same tasks, in the same order. -/
theorem tracedAll_forget (g : TaskGroup T n) (f : T → T) (call : Call In Out) :
    g.forget.tracedAll f call = Prod.map forget id (g.tracedAll f call) := by
  have hloop (k : Nat) : tracedForEach f call g.forget.tasks k =
      Prod.map (·.toList.map bare) id (TaskGroup.tracedForEach f call g.tasks k) := by
    induction k with
    | zero => rfl
    | succ k ih =>
        rw [tracedForEach, ih, TaskGroup.tracedForEach]
        rcases TaskGroup.tracedForEach f call g.tasks k with ⟨tasks, calls⟩
        simp only [Prod.map, id]
        congr 1
        · apply modify_forget
          rintro (_ | c) <;> rfl
        · rw [List.getElem?_map, ← DynamicVec.get_eq]
          rcases tasks.get k with _ | _ | c <;> rfl
  simp only [tracedAll, hloop, TaskGroup.tracedAll]
  rfl

theorem tracedEvent_forget (g : TaskGroup T n) (now : Instant) (index : Nat) (input : In) :
    (g.forget.tracedEvent now index input).2 = (g.tracedEvent now index input).2 := by
  unfold tracedEvent TaskGroup.tracedEvent
  rw [getElem?_forget, show g.forget.switcher = g.switcher from rfl]
  rcases g.tasks.get index with _ | _ | c
  · rfl
  · rfl
  · dsimp only [Option.map_some]
    cases g.switcher.flagTask index <;> rfl

/-- **Both pop the same output, with the same calls.** -/
theorem popOutput_forget (hfalse : ∀ t : T, isEmpty t = false) (g : TaskGroup T n) (now : Time) :
    asGroup (g.forget.popOutput now) =
        .ok (Prod.map id forget (TaskSwitcherChild.popOutput g now)) ∧
      (g.forget.tracedPop now).2 = (g.tracedPop now).2 := by
  have hid (s : GroupTask T) : turnAsGroup now (id s) = (turn now s).map id asGroup := rfl
  have hshows (s : GroupTask T) : polls now (id s) = polls now s := rfl
  have hbare : Loop.Returns (Loop.traced (turnAsGroup now) (polls now)) (g.forget, [])
      (asGroup (g.forget.popOutput now), (g.forget.tracedPop now).2) :=
    (returns_tracedPop g.forget now).map (Loop.traced_map hid hshows)
  have hgroup : Loop.Returns (Loop.traced (turnAsGroup now) (polls now)) (g.forget, [])
      (forgetPopped (.ok (TaskSwitcherChild.popOutput g now)), (g.tracedPop now).2) :=
    (g.returns_tracedPop now).map (Loop.traced_map (turn_forget hfalse now) (polls_forget now))
  exact Prod.mk.inj (hbare.unique hgroup)

end GroupTask

/-! ## The calls are those that the tasks receive -/

/-- The calls on the task at an index. -/
def callsAt (i : Nat) (calls : List (Nat × Call In Out)) : List (Call In Out) :=
  calls.filterMap fun c ↦ if c.1 = i then some c.2 else none

theorem callsAt_append (i : Nat) (l l' : List (Nat × Call In Out)) :
    callsAt i (l ++ l') = callsAt i l ++ callsAt i l' := List.filterMap_append ..

theorem callsAt_singleton (i j : Nat) (call : Call In Out) :
    callsAt i [(j, call)] = if j = i then [call] else [] := by
  by_cases h : j = i <;> simp [callsAt, h]

/-- A loop over all slots calls the task at each index once. -/
theorem callsAt_each (i k : Nat) (has : Nat → Bool) (call : Call In Out) :
    callsAt i (((List.range k).filter has).map (·, call)) =
      if i < k ∧ has i = true then [call] else [] := by
  induction k with
  | zero => simp [callsAt]
  | succ k ih =>
      rw [List.range_succ, List.filter_append, List.map_append, callsAt_append, ih]
      have hlast : callsAt i (([k].filter has).map (·, call)) =
          if k = i ∧ has k = true then [call] else [] := by
        cases hk : has k with
        | false => simp [hk, callsAt]
        | true => simp [hk, callsAt_singleton]
      rw [hlast]
      rcases Nat.lt_trichotomy i k with hi | rfl | hi
      · simp [hi, Nat.lt_succ_of_lt hi, Nat.ne_of_gt hi]
      · simp
      · simp [Nat.not_lt_of_gt hi, Nat.not_lt.2 (Nat.succ_le_of_lt hi), Nat.ne_of_lt hi]

namespace TaskGroup

variable [Task T In Out Time] {g : TaskGroup (Logged T In Out) n}

/-- The call of a turn is in the log of the task that it is on. -/
theorem polls_logged {now : Time} {index : Nat} {c : TaskContainer (Logged T In Out)}
    {out : Option Out} {task : Logged T In Out} (hcur : g.switcher.current = some index)
    (hc : g.slot index = some c) (hpop : popOutput c.task now = (out, task)) :
    polls now g = [(index, .popped out (isEmpty task))] ∧
      task.log = c.task.log ++ [.popped out (isEmpty task)] := by
  constructor
  · simp only [polls, hcur, slot_eq_some.1 hc, hpop]
  · exact (Logged.popOutput_eq hpop).2

/-- No task is called where the current slot is vacant, or there is none. -/
theorem polls_vacant {now : Time} (h : ∀ index, g.switcher.current = some index →
    g.slot index = none) : polls now g = [] := by
  unfold polls
  split
  · rfl
  · rename_i index hcur
    split
    · rename_i d hget
      cases (h index hcur).symm.trans (slot_eq_some.2 hget)
    · rfl

/-- What a turn of `pop_output` adds to the logs. -/
theorem slot_polled {g' : TaskGroup (Logged T In Out) n} {now : Time} {index : Nat}
    {c : TaskContainer (Logged T In Out)} {out : Option Out} {task : Logged T In Out}
    (hcur : g.switcher.current = some index) (hc : g.slot index = some c)
    (hpop : popOutput c.task now = (out, task)) {empty : Bool}
    (hslot : ∀ i, g'.slot i = if i = index then some ⟨task, empty⟩ else g.slot i)
    {i : Nat} {d : TaskContainer (Logged T In Out)} (hd : g.slot i = some d) :
    ∃ d', g'.slot i = some d' ∧ d'.task.log = d.task.log ++ callsAt i (polls now g) := by
  obtain ⟨hpolls, hlog⟩ := polls_logged hcur hc hpop
  rw [hpolls, callsAt_singleton, hslot]
  by_cases hi : i = index
  · subst hi
    cases hc.symm.trans hd
    rw [if_pos rfl, if_pos rfl]
    exact ⟨_, rfl, hlog⟩
  · rw [if_neg hi, if_neg (Ne.symm hi), List.append_nil]
    exact ⟨d, hd, rfl⟩

/-- A turn adds its call to the logs, whether it goes round again or leaves. -/
theorem turn_logged {now : Time} {i : Nat} {c : TaskContainer (Logged T In Out)}
    (hc : g.slot i = some c) :
    (∀ g', turn now g = .inl g' → ∃ c', g'.slot i = some c' ∧
      c'.task.log = c.task.log ++ callsAt i (polls now g)) ∧
    ∀ r, turn now g = .inr (.ok r) → ∃ c', r.2.slot i = some c' ∧
      c'.task.log = c.task.log ++ callsAt i (polls now g) := by
  have hcases := turn_cases now g
  generalize turn now g = x at hcases
  constructor
  · rintro g' rfl
    cases hcases with
    | finishes hi hd hpop hold hs => exact slot_polled hi hd hpop (slot_setSlot (slot_lt hd) _) hc
    | @vacant index switcher hi hd hs =>
        have hpolls : polls now g = [] := polls_vacant fun j hj ↦ by
          cases hi.symm.trans hj
          exact hd
        rw [hpolls]
        exact ⟨c, hc, (List.append_nil _).symm⟩
  · rintro r rfl
    cases hcases with
    | drained h =>
        have hpolls : polls now g = [] := polls_vacant fun j hj ↦ by
          have hlt := (TaskSwitcher.mem_flagged.1 (TaskSwitcher.current_eq_some hj)).1
          cases (h j hlt).symm.trans (TaskSwitcher.flag_current hj)
        rw [hpolls]
        exact ⟨c, hc, (List.append_nil _).symm⟩
    | output hi hd hpop => exact slot_polled hi hd hpop (slot_setSlot (slot_lt hd) _) hc
    | empties hi hd hpop hbefore hempty =>
        exact slot_polled hi hd hpop (slot_setSlot (slot_lt hd) _) hc

/-- What `pop_output` adds to the logs. -/
theorem popOutput_logged (g : TaskGroup (Logged T In Out) n) (now : Time) {i : Nat}
    {c : TaskContainer (Logged T In Out)} (hc : g.slot i = some c) :
    ∃ c', (popOutput g now).2.slot i = some c' ∧
      c'.task.log = c.task.log ++ callsAt i (g.tracedPop now).2 := by
  obtain ⟨⟨t, l⟩, hvisits, hleave⟩ := (g.returns_tracedPop now).exit
  have ht : ∃ d, t.slot i = some d ∧ d.task.log = c.task.log ++ callsAt i l := by
    refine hvisits.invariant
      (I := fun x ↦ ∃ d, x.1.slot i = some d ∧ d.task.log = c.task.log ++ callsAt i x.2) ?_
      ⟨c, hc, (List.append_nil _).symm⟩
    rintro ⟨s, k⟩ ⟨s', k'⟩ ⟨d, hd, hlog⟩ hturn
    obtain ⟨hs', rfl⟩ := Loop.traced_inl.1 hturn
    obtain ⟨d', hd', hlog'⟩ := (turn_logged hd).1 s' hs'
    exact ⟨d', hd', by rw [hlog', hlog, callsAt_append, List.append_assoc]⟩
  obtain ⟨d, hd, hlog⟩ := ht
  obtain ⟨hr, hcalls⟩ := Loop.traced_inr.1 hleave
  obtain ⟨d', hd', hlog'⟩ := (turn_logged hd).2 _ hr
  exact ⟨d', hd', by rw [hlog', hlog, ← hcalls, callsAt_append, List.append_assoc]⟩

/-- An event is a call on the task at its index, where there is one. -/
theorem callsAt_onEvent {g' : TaskGroup (Logged T In Out) n} {now : Instant} {index : Nat}
    {input : In} {result : Option Unit} (hok : g.onEvent now index input = .ok (result, g'))
    (i : Nat) : callsAt i (g.calls (.onEvent now index input)) =
      if index = i ∧ g.hasTask i = true then [.event now input] else [] := by
  have hvacant (hnone : g.hasTask index = false) : ¬ (index = i ∧ g.hasTask i = true) := by
    rintro ⟨rfl, hi⟩
    cases hi.symm.trans hnone
  rw [← tracedEvent_fst] at hok
  simp only [calls, tracedEvent] at hok ⊢
  rcases hget : g.tasks.get index with _ | _ | c
  · rw [if_neg (hvacant (by rw [hasTask, hget]))]
    rfl
  · rw [if_neg (hvacant (by rw [hasTask, hget]))]
    rfl
  · have hthere : g.hasTask index = true := by rw [hasTask, hget]
    rw [hget] at hok
    dsimp only at hok ⊢
    cases hflag : g.switcher.flagTask index with
    | error text =>
        rw [hflag] at hok
        cases hok
    | ok switcher =>
        rw [callsAt_singleton]
        by_cases hi : index = i
        · subst hi
          rw [if_pos rfl, if_pos ⟨rfl, hthere⟩]
        · rw [if_neg hi, if_neg fun h ↦ hi h.1]

/-- **The calls of an operation are those that the tasks receive**, in the order in
which each of them receives them. -/
theorem log_calls {g' : TaskGroup (Logged T In Out) n} (hs : g.Sound)
    {op : GroupOp (Logged T In Out) In Time} (hd : GroupDoes g op g') {i : Nat}
    {c : TaskContainer (Logged T In Out)} (hc : g.slot i = some c) (hkeep : op ≠ .removeTask i) :
    ∃ c', g'.slot i = some c' ∧ c'.task.log = c.task.log ++ callsAt i (g.calls op) := by
  have hlive : g.hasTask i = true := hasTask_iff.2 (mem_live.2 ⟨c, hc⟩)
  cases hd with
  | @addTask task =>
      obtain ⟨hvacant, hslot, -⟩ := addTask_cases g task
      have hne : i ≠ (g.addTask task).1 := by
        rintro rfl
        cases hc.symm.trans hvacant
      exact ⟨c, (hslot i).trans ((if_neg hne).trans hc), (List.append_nil _).symm⟩
  | @removeTask index _ _ hok =>
      obtain ⟨hslot, -⟩ := removeTask_cases hok
      have hne : i ≠ index := by
        rintro rfl
        exact hkeep rfl
      exact ⟨c, (hslot i).trans ((if_neg hne).trans hc), (List.append_nil _).symm⟩
  | @onEvent now index input result _ hok =>
      refine ⟨_, (slot_onEvent hs.tasks_eq hok i).trans (congrArg _ hc), ?_⟩
      rw [callsAt_onEvent hok]
      by_cases hi : index = i
      · subst hi
        rw [if_pos ⟨rfl, hlive⟩]
        simp only [if_true]
        rfl
      · rw [if_neg fun h ↦ hi h.1]
        simp only [List.append_nil, if_neg (Ne.symm hi)]
  | @onTick now =>
      obtain ⟨hslot, -⟩ := callAll_cases hs.tasks_eq (Task.onTick (T := Logged T In Out) · now)
      simp only [calls, tracedAll_eq, callsAt_each, hs.tasks_eq,
        if_pos (And.intro (slot_lt hc) hlive)]
      exact ⟨_, (hslot i).trans (congrArg _ hc), rfl⟩
  | @onShutdown now =>
      obtain ⟨hslot, -⟩ := callAll_cases hs.tasks_eq (Task.onShutdown (T := Logged T In Out) · now)
      simp only [calls, tracedAll_eq, callsAt_each, hs.tasks_eq,
        if_pos (And.intro (slot_lt hc) hlive)]
      exact ⟨_, (hslot i).trans (congrArg _ hc), rfl⟩
  | @popOutput now => exact g.popOutput_logged now hc

end TaskGroup

/-! ## Runs of both -/

/-- What an operation of a group that `group_task!` writes returns. -/
inductive GroupTaskAnswer (Out : Type) where
  | added (index : Nat)
  | delivered (result : Option Unit)
  | popped (out : Option (Nat × Out))

/-- The answer of a `TaskGroup` that corresponds to it. -/
def GroupTaskAnswer.toGroup : GroupTaskAnswer Out → GroupAnswer Out
  | .added index => .added index
  | .delivered result => .delivered result
  | .popped out => .popped (out.map GroupTask.taskOutput)

variable [Task T In Out Time]

/-- A `TaskGroup` under every sequence of its operations.  The events are the calls on
the tasks, and then what the operations return. -/
def tracedGroup :
    Machine (TaskGroup T n) (GroupOp T In Time) ((Nat × Call In Out) ⊕ GroupAnswer Out) where
  step g op := (group.step g op).map fun (g', answers) ↦
    (g', (g.calls op).map .inl ++ answers.map .inr)

/-- A group that `group_task!` writes, under the same operations. -/
def groupTask :
    Machine (GroupTask T) (GroupOp T In Time) ((Nat × Call In Out) ⊕ GroupTaskAnswer Out) where
  step g op :=
    let calls := (g.calls op).map .inl
    match op with
    | .addTask task => some ((g.addTask task).2, calls ++ [.inr (.added (g.addTask task).1)])
    | .removeTask index =>
      if g.hasTask index then match g.removeTask index with
        | .ok g' => some (g', calls)
        | .error _ => none
      else none
    | .onEvent now index input => match g.onEvent now index input with
      | .ok (result, g') => some (g', calls ++ [.inr (.delivered result)])
      | .error _ => none
    | .onTick now => some (g.onTick now, calls)
    | .onShutdown now => some (g.onShutdown now, calls)
    | .popOutput now => match g.popOutput now with
      | .ok (out, g') => some (g', calls ++ [.inr (.popped out)])
      | .error _ => none

/-- The event of a `TaskGroup` that corresponds to one of the other group. -/
def corresponding :
    (Nat × Call In Out) ⊕ GroupTaskAnswer Out → (Nat × Call In Out) ⊕ GroupAnswer Out :=
  Sum.map id GroupTaskAnswer.toGroup

namespace GroupTask

/-- Counting the tasks is counting the live slots. -/
theorem card_live (g : TaskGroup T n) : g.live.card = g.forget.countTasks := by
  rw [countTasks, ← List.countP_eq_length_filter, ← Slots.card_taken, length_forget,
    TaskGroup.live]
  congr 1
  apply Finset.filter_congr
  intro i _
  rw [getElem?_forget, TaskGroup.slot]
  rcases g.tasks.get i with _ | _ | c <;> rfl

theorem calls_forget (hfalse : ∀ t : T, isEmpty t = false) (g : TaskGroup T n)
    (op : GroupOp T In Time) : g.forget.calls op = g.calls op := by
  cases op with
  | addTask task => rfl
  | removeTask index => rfl
  | onEvent now index input => exact tracedEvent_forget g now index input
  | onTick now => exact congrArg Prod.snd (tracedAll_forget g (Task.onTick · now) _)
  | onShutdown now => exact congrArg Prod.snd (tracedAll_forget g (Task.onShutdown · now) _)
  | popOutput now => exact (popOutput_forget hfalse g now).2

/-- **One operation does the same to both groups**, with the same calls. -/
theorem step_forget (hfalse : ∀ t : T, isEmpty t = false) {g : TaskGroup T n} (hs : g.Sound)
    (op : GroupOp T In Time) :
    (groupTask.step g.forget op).map (Prod.map id (List.map corresponding)) =
      (tracedGroup.step g op).map (Prod.map TaskGroup.forget id) := by
  have hcalls := calls_forget hfalse g op
  have hinl (l : List (Nat × Call In Out)) :
      (l.map Sum.inl).map corresponding = l.map (.inl : _ → _ ⊕ GroupAnswer Out) := by
    rw [List.map_map]
    rfl
  cases op with
  | addTask task =>
      simp only [groupTask, tracedGroup, group, hcalls, addTask_forget, Option.map_some, Prod.map,
        List.map_append, hinl]
      rfl
  | removeTask index =>
      simp only [groupTask, tracedGroup, group, hcalls, hasTask_forget]
      cases hlive : g.hasTask index with
      | false => rfl
      | true =>
          have hmem := TaskGroup.hasTask_iff.1 hlive
          obtain ⟨g', hok⟩ :=
            TaskGroup.removeTask_ok hmem (hs.count_eq ▸ Finset.card_ne_zero_of_mem hmem)
          simp only [if_true, hok, removeTask_forget hok]
          rfl
  | onEvent now index input =>
      simp only [groupTask, tracedGroup, group, hcalls, onEvent_forget]
      cases g.onEvent now index input with
      | error text => rfl
      | ok r =>
          simp only [Except.map, Option.map_some, Prod.map, List.map_append, hinl]
          rfl
  | onTick now =>
      have htick : g.forget.onTick now = (g.onTick now).forget :=
        callAll_forget g (Task.onTick · now)
      simp only [groupTask, tracedGroup, group, hcalls, htick, Option.map_some, Prod.map, hinl]
      simp
  | onShutdown now =>
      have hshutdown : g.forget.onShutdown now = (g.onShutdown now).forget :=
        callAll_forget g (Task.onShutdown · now)
      simp only [groupTask, tracedGroup, group, hcalls, hshutdown, Option.map_some, Prod.map, hinl]
      simp
  | popOutput now =>
      have hpop := (popOutput_forget hfalse g now).1
      simp only [groupTask, tracedGroup, group, hcalls]
      generalize TaskSwitcherChild.popOutput g now = q at hpop ⊢
      cases hr : g.forget.popOutput now with
      | error text =>
          rw [hr] at hpop
          cases hpop
      | ok r =>
          rw [hr] at hpop
          obtain ⟨hout, hg⟩ := Prod.mk.inj (Except.ok.inj hpop)
          simp only [id] at hout hg
          simp only [Option.map_some, Prod.map, List.map_append, hinl, id, hg, ← hout]
          rfl

end GroupTask

theorem tracedGroup_sound
    {m : Moment (TaskGroup T n) (GroupOp T In Time) ((Nat × Call In Out) ⊕ GroupAnswer Out)}
    (hm : tracedGroup.Fires m) (hs : m.pre.Sound) : m.post.Sound := by
  obtain ⟨pre, op, events, post⟩ := m
  obtain ⟨r, hr, heq⟩ := Option.map_eq_some_iff.1 hm
  obtain ⟨rfl, -⟩ := Prod.mk.inj heq
  exact hs.step (group_cases hr)

/-- The two groups do the same under a list of operations. -/
structure Agree (n : Nat) (ops : List (GroupOp T In Time)) : Prop where
  /-- They go on for as long, with the same calls and the same values returned. -/
  exec : (groupTask.exec .default ops).map (Prod.map
      (List.map fun m ↦ ⟨m.pre, m.label, m.events.map corresponding, m.post⟩) id) =
    (tracedGroup.exec (.default : TaskGroup T n) ops).map
      (Prod.map (List.map (Moment.map TaskGroup.forget)) TaskGroup.forget)
  /-- `has_task` and `tasks()` then return the same. -/
  queries : ∀ r, tracedGroup.exec (.default : TaskGroup T n) ops = some r →
    (∀ i, r.2.forget.hasTask i = r.2.hasTask i) ∧ r.2.forget.countTasks = r.2.countTasks
  /-- Only the removal of a vacant slot is not possible. -/
  possible : ∀ r, tracedGroup.exec (.default : TaskGroup T n) ops = some r →
    ∀ op : GroupOp T In Time, (∀ i, op = .removeTask i → i ∈ r.2.live) →
      ∃ x, tracedGroup.step r.2 op = some x

/-- **The two task groups agree**, on tasks that are never empty. -/
theorem groups_agree (n : Nat) (hfalse : ∀ t : T, isEmpty t = false)
    (ops : List (GroupOp T In Time)) : Agree n ops := by
  have hsound {r} (hr : tracedGroup.exec (.default : TaskGroup T n) ops = some r) : r.2.Sound :=
    (Machine.exec_run hr).invariant TaskGroup.sound_default fun _ hm hs ↦ tracedGroup_sound hm hs
  constructor
  · exact Machine.exec_map (fun _ hm hs ↦ tracedGroup_sound hm hs)
      (fun _ op hs ↦ GroupTask.step_forget hfalse hs op) TaskGroup.sound_default ops
  · intro r hr
    constructor
    · exact fun i ↦ GroupTask.hasTask_forget r.2 i
    · rw [← GroupTask.card_live]
      exact (hsound hr).count_eq.symm
  · intro r hr op hop
    obtain ⟨x, hx⟩ := (hsound hr).possible op hop
    exact ⟨_, Option.map_eq_some_iff.2 ⟨x, hx, rfl⟩⟩

/-- An echo that is never empty. -/
structure Relay where
  /-- The inputs to give back. -/
  waiting : List Nat

instance : Task Relay Nat Nat Unit where
  emptyEvent _ := 0
  isEmpty _ := false
  popOutput e _ := (e.waiting.head?, ⟨e.waiting.tail⟩)
  onTick e _ := e
  onEvent e _ input := ⟨e.waiting ++ [input]⟩
  onShutdown e _ := e

theorem groups_agree_relay :
    Agree 1 [.addTask (⟨[]⟩ : Relay), .addTask ⟨[3]⟩, .onEvent 0 0 5, .popOutput (), .onTick 1,
      .removeTask 0, .popOutput (), .popOutput ()] :=
  groups_agree 1 (fun _ ↦ rfl) _

end SansIo
