import SansIo.Task.Drained

/-!
# Groups of tasks that do the same

A group treats its tasks alike whatever they are: where a function `f` takes tasks
to tasks that do the same (`TaskHom f`), `TaskGroup.map f` takes a group to one that
does the same (`group_step_map`).  Erasing the log of a `Logged` task is such a
function, so the runs of `loggedGroup` are the runs of `group` with the logs added
(`erase_run`, `exists_logged_run`), and what is shown of the one holds of the other: so
a drained group that is empty has only empty tasks, logged or not
(`isEmpty_of_drained_run`).
-/

namespace SansIo

open Lib Collections
open TaskSwitcherChild (popOutput isEmpty emptyEvent)

variable {T T' In Out Time : Type} {n : Nat}

/-- The tasks of one type do as those of another. -/
structure TaskHom [Task T In Out Time] [Task T' In Out Time] (f : T → T') : Prop where
  emptyEvent_eq : ∀ t, emptyEvent (f t) = emptyEvent t
  isEmpty_eq : ∀ t, isEmpty (f t) = isEmpty t
  popOutput_eq : ∀ t now, popOutput (f t) now = Prod.map id f (popOutput t now)
  onTick_eq : ∀ t now, Task.onTick (f t) now = f (Task.onTick t now)
  onEvent_eq : ∀ t now input, Task.onEvent (f t) now input = f (Task.onEvent t now input)
  onShutdown_eq : ∀ t now, Task.onShutdown (f t) now = f (Task.onShutdown t now)

/-- The same container around another task. -/
def TaskContainer.map (f : T → T') (c : TaskContainer T) : TaskContainer T' := ⟨f c.task, c.isEmpty⟩

@[simp] theorem TaskContainer.map_new (f : T → T') (task : T) :
    (TaskContainer.new task).map f = .new (f task) := rfl

namespace TaskGroup

/-- The same slots around other tasks. -/
def mapSlots (f : T → T') (tasks : DynamicVec (Option (TaskContainer T)) n) :
    DynamicVec (Option (TaskContainer T')) n :=
  tasks.map (Option.map (TaskContainer.map f))

/-- The same group around other tasks. -/
def map (f : T → T') (g : TaskGroup T n) : TaskGroup T' n where
  tasks := mapSlots f g.tasks
  tasksCount := g.tasksCount
  emptyTasks := g.emptyTasks
  switcher := g.switcher

variable {f : T → T'}

theorem get_mapSlots (tasks : DynamicVec (Option (TaskContainer T)) n) (i : Nat) :
    (mapSlots f tasks).get i = (tasks.get i).map (Option.map (TaskContainer.map f)) := by
  simp [mapSlots]

@[simp] theorem len_mapSlots (tasks : DynamicVec (Option (TaskContainer T)) n) :
    (mapSlots f tasks).len = tasks.len := by
  simp [mapSlots]

theorem modify_mapSlots {k : Option (TaskContainer T) → Option (TaskContainer T)}
    {k' : Option (TaskContainer T') → Option (TaskContainer T')}
    (hk : ∀ o, (k o).map (TaskContainer.map f) = k' (o.map (TaskContainer.map f)))
    (tasks : DynamicVec (Option (TaskContainer T)) n) (i : Nat) :
    (mapSlots f tasks).modify i k' = mapSlots f (tasks.modify i k) :=
  (DynamicVec.map_modify _ tasks i hk).symm

theorem map_setSlot (g : TaskGroup T n) (index : Nat) (c : TaskContainer T) :
    (g.map f).setSlot index (c.map f) = (g.setSlot index c).map f := by
  have htasks : (mapSlots f g.tasks).modify index (fun _ ↦ some (c.map f)) =
      mapSlots f (g.tasks.modify index fun _ ↦ some c) := by
    apply modify_mapSlots
    intro
    rfl
  simp only [setSlot, map, htasks]

theorem map_addTask (g : TaskGroup T n) (task : T) :
    (g.map f).addTask (f task) = Prod.map id (map f) (g.addTask task) := by
  have hfind : (g.map f).tasks.toList.findIdx? Option.isNone =
      g.tasks.toList.findIdx? Option.isNone := by
    simp only [map, mapSlots, DynamicVec.toList_map, List.findIdx?_map]
    congr 1
    funext o
    simp
  unfold addTask
  rw [hfind]
  split
  · rename_i index hindex
    simp only [Prod.map]
    rw [← TaskContainer.map_new, map_setSlot]
    rfl
  · have hpush : (g.map f).tasks.push (some (.new (f task))) =
        mapSlots f (g.tasks.push (some (.new task))) := by
      simp only [map, mapSlots, DynamicVec.map_push]
      rfl
    simp only [hpush, len_mapSlots]
    rfl

theorem trimTurn_mapSlots (tasks : DynamicVec (Option (TaskContainer T)) n) :
    trimTurn (mapSlots f tasks) = (trimTurn tasks).map (mapSlots f) (mapSlots f) := by
  have hlast : (mapSlots f tasks).last = tasks.last.map (Option.map (TaskContainer.map f)) := by
    simp [mapSlots]
  unfold trimTurn
  rw [hlast]
  rcases tasks.last with _ | _ | c
  · rfl
  · simp only [Option.map_some, Option.map_none, mapSlots, ← DynamicVec.map_pop]
    rfl
  · rfl

theorem trim_mapSlots (tasks : DynamicVec (Option (TaskContainer T)) n) :
    trim (mapSlots f tasks) = mapSlots f (trim tasks) := by
  apply Loop.run_eq
  exact Loop.Returns.map trimTurn_mapSlots (Loop.returns_run tasks)

theorem map_removeTask (g : TaskGroup T n) (index : Nat) :
    (g.map f).removeTask index = (g.removeTask index).map (map f) := by
  have hmodify : (g.map f).tasks.modifyOrPanic index (fun _ ↦ none) =
      (g.tasks.modifyOrPanic index fun _ ↦ none).map (mapSlots f) :=
    DynamicVec.map_modifyOrPanic _ _ _ fun _ ↦ rfl
  unfold removeTask
  rw [hmodify]
  rcases g.tasks.modifyOrPanic index fun _ ↦ none with e | tasks
  · rfl
  · simp only [Except.map, ok_bind, trim_mapSlots, len_mapSlots]
    by_cases hcount : g.tasksCount = 0
    · simp only [hcount, map]
      rfl
    · simp only [hcount, map]
      rfl

/-- The loops over the slots do the same to both. -/
theorem forEach_mapSlots {k : T → T} {k' : T' → T'} (hk : ∀ t, k' (f t) = f (k t))
    (tasks : DynamicVec (Option (TaskContainer T)) n) (i : Nat) :
    forEach k' (mapSlots f tasks) i = mapSlots f (forEach k tasks i) := by
  induction i with
  | zero => rfl
  | succ i ih =>
      rw [forEach, forEach, ih]
      apply modify_mapSlots
      rintro (_ | c)
      · rfl
      · simp [TaskContainer.map, hk]

theorem map_callAll {k : T → T} {k' : T' → T'} (hk : ∀ t, k' (f t) = f (k t))
    (g : TaskGroup T n) : (g.map f).callAll k' = (g.callAll k).map f := by
  simp only [callAll, map, forEach_mapSlots hk]

section Task

variable [Task T In Out Time] [Task T' In Out Time]

theorem map_onEvent (hf : TaskHom f) (g : TaskGroup T n) (now : Instant) (index : Nat)
    (input : In) :
    (g.map f).onEvent now index input = (g.onEvent now index input).map (Prod.map id (map f)) := by
  unfold onEvent
  rw [show (g.map f).tasks.get index = _ from get_mapSlots g.tasks index,
    show (g.map f).switcher = g.switcher from rfl]
  rcases g.tasks.get index with _ | _ | ⟨old, before⟩
  · rfl
  · rfl
  · have hset : (g.map f).setSlot index ⟨Task.onEvent (f old) now input, before⟩ =
        (g.setSlot index ⟨Task.onEvent old now input, before⟩).map f := by
      rw [hf.onEvent_eq]
      exact map_setSlot g index ⟨_, before⟩
    simp only [Option.map_some, TaskContainer.map, hset]
    cases g.switcher.flagTask index <;> rfl

theorem map_finishTurn (g : TaskGroup T n) (index : Nat) :
    ((g.map f).finishTurn index : _ ⊕ Panics (Option (TaskGroupOutput Out) × _)) =
      (g.finishTurn index).map (map f) (Except.map (Prod.map id (map f))) := by
  unfold finishTurn
  rw [show (g.map f).switcher = g.switcher from rfl]
  cases g.switcher.finished index <;> rfl

theorem map_turn (hf : TaskHom f) (now : Time) (g : TaskGroup T n) :
    turn now (g.map f) = (turn now g).map (map f) (Except.map (Prod.map id (map f))) := by
  unfold turn
  rw [show (g.map f).switcher = g.switcher from rfl]
  cases g.switcher.current with
  | none => rfl
  | some index =>
      dsimp only
      rw [show (g.map f).tasks.get index = _ from get_mapSlots g.tasks index]
      rcases g.tasks.get index with _ | _ | ⟨old, before⟩
      · exact map_finishTurn g index
      · exact map_finishTurn g index
      · have hset (task : T) (empty : Bool) :
            (g.map f).setSlot index ⟨f task, empty⟩ = (g.setSlot index ⟨task, empty⟩).map f :=
          map_setSlot g index ⟨task, empty⟩
        have hpop : popOutput (f old) now = Prod.map id f (popOutput old now) :=
          hf.popOutput_eq old now
        simp only [Option.map_some, TaskContainer.map, hpop]
        rcases popOutput old now with ⟨_ | out, task⟩
        · simp only [Prod.map, id, hset, hf.isEmpty_eq, hf.emptyEvent_eq]
          cases before <;> cases isEmpty task
          · exact map_finishTurn (g.setSlot index ⟨task, false⟩) index
          · rfl
          · exact map_finishTurn { g.setSlot index ⟨task, false⟩ with
              emptyTasks := g.emptyTasks.erase index } index
          · exact map_finishTurn (g.setSlot index ⟨task, true⟩) index
        · simp only [Prod.map, id, hset]
          rfl

theorem map_popOutput (hf : TaskHom f) (g : TaskGroup T n) (now : Time) :
    popOutput (g.map f) now = Prod.map id (map f) (popOutput g now) := by
  have h := (returns_popOutput g now).map (map_turn hf now)
  exact Except.ok.inj ((returns_popOutput (g.map f) now).unique h)

theorem slot_map (g : TaskGroup T n) (i : Nat) :
    (g.map f).slot i = (g.slot i).map (TaskContainer.map f) := by
  simp only [slot, map, get_mapSlots]
  rcases g.tasks.get i with _ | _ | c <;> rfl

@[simp] theorem hasTask_map (g : TaskGroup T n) (index : Nat) :
    (g.map f).hasTask index = g.hasTask index := by
  unfold hasTask
  rw [show (g.map f).tasks.get index = _ from get_mapSlots g.tasks index]
  rcases g.tasks.get index with _ | _ | c <;> rfl

/-- **A group does the same with other tasks** that do the same. -/
theorem group_step_map (hf : TaskHom f) (g : TaskGroup T n)
    (op : GroupOp T In Time) :
    group.step (g.map f) (op.map f) = (group.step g op).map (Prod.map (map f) id) := by
  cases op with
  | addTask task =>
      simp only [group, GroupOp.map, map_addTask]
      rfl
  | removeTask index =>
      simp only [group, GroupOp.map, hasTask_map, map_removeTask]
      cases g.hasTask index with
      | false => rfl
      | true =>
          simp only [if_true]
          cases g.removeTask index <;> rfl
  | onEvent now index input =>
      simp only [group, GroupOp.map, map_onEvent hf]
      cases g.onEvent now index input <;> rfl
  | onTick now =>
      have hcall : (g.map f).onTick now = (g.onTick now).map f :=
        map_callAll (fun t ↦ hf.onTick_eq t now) g
      simp only [group, GroupOp.map, hcall]
      rfl
  | onShutdown now =>
      have hcall : (g.map f).onShutdown now = (g.onShutdown now).map f :=
        map_callAll (fun t ↦ hf.onShutdown_eq t now) g
      simp only [group, GroupOp.map, hcall]
      rfl
  | popOutput now =>
      simp only [group, GroupOp.map, map_popOutput hf]
      rfl

end Task

/-! ## Erasing the logs -/

/-- The group without the logs. -/
abbrev erase (g : TaskGroup (Logged T In Out) n) : TaskGroup T n := g.map Logged.task

end TaskGroup

variable [Task T In Out Time]

/-- A logged task does what the task does. -/
theorem Logged.taskHom : TaskHom (Logged.task : Logged T In Out → T) where
  emptyEvent_eq _ := rfl
  isEmpty_eq _ := rfl
  popOutput_eq _ _ := rfl
  onTick_eq _ _ := rfl
  onEvent_eq _ _ _ := rfl
  onShutdown_eq _ _ := rfl

theorem erase_step (g : TaskGroup (Logged T In Out) n) (op : GroupOp T In Time) :
    group.step g.erase op = (loggedGroup.step g op).map (Prod.map TaskGroup.erase id) := by
  have hop : (op.map Logged.new).map (Logged.task : Logged T In Out → T) = op := by
    cases op <;> rfl
  have hstep := TaskGroup.group_step_map Logged.taskHom g (op.map Logged.new)
  rwa [hop] at hstep

/-- **The logs can be erased from a run.** -/
theorem erase_run {h : History (TaskGroup (Logged T In Out) n) (GroupOp T In Time)
      (GroupAnswer Out)} {g : TaskGroup (Logged T In Out) n}
    (hr : loggedGroup.Run .default h g) :
    group.Run .default (h.map (Moment.map TaskGroup.erase)) g.erase :=
  hr.map erase_step

/-- **Every run of a group is a logged run without its logs.** -/
theorem exists_logged_run {h : History (TaskGroup T n) (GroupOp T In Time) (GroupAnswer Out)}
    {g : TaskGroup T n} (hr : group.Run .default h g) :
    ∃ (h' : History (TaskGroup (Logged T In Out) n) (GroupOp T In Time) (GroupAnswer Out))
      (g' : TaskGroup (Logged T In Out) n),
      loggedGroup.Run .default h' g' ∧ h'.map (Moment.map TaskGroup.erase) = h ∧ g'.erase = g := by
  have hr' : group.Run (.erase (.default : TaskGroup (Logged T In Out) n)) h g := hr
  exact hr'.of_map erase_step

theorem isEmpty_of_drained_run
    {h : History (TaskGroup T n) (GroupOp T In Time) (GroupAnswer Out)} {g g' : TaskGroup T n}
    (hr : group.Run .default h g) {now : Time} (hpop : popOutput g now = (none, g'))
    (hempty : isEmpty g' = true) {i : Nat} {c : TaskContainer T} (hc : g'.slot i = some c) :
    isEmpty c.task = true := by
  obtain ⟨h', l, hrun, -, rfl⟩ := exists_logged_run hr
  rcases hl : popOutput l now with ⟨out, l'⟩
  rw [TaskGroup.map_popOutput Logged.taskHom, hl] at hpop
  obtain ⟨rfl, rfl⟩ := Prod.mk.inj hpop
  rw [TaskGroup.slot_map] at hc
  obtain ⟨d, hd, rfl⟩ := Option.map_eq_some_iff.mp hc
  exact TaskGroup.isEmpty_of_drained hrun hl hempty hd

end SansIo
