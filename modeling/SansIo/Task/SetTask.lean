import SansIo.Task.Drained

/-!
# Tasks at given indices

`src/task/group.rs`, `set_task`, and `remove_task` where the slot need not be live.
Both change `tasks_count` by one and do not look at what the slot held.  So a
group keeps its books exactly where `set_task` is used on slots that are not live
and `remove_task` on live ones (`books_iff`).  What `set_task` returns is the last
index, whatever the index it was given.
-/

namespace SansIo

open Lib Collections
open TaskSwitcherChild (popOutput isEmpty emptyEvent)

variable {T In Out Time : Type} {n : Nat}

namespace TaskGroup

/-! ## What `set_task` does -/

@[simp] theorem toList_fill (tasks : DynamicVec (Option (TaskContainer T)) n) (k : Nat) :
    (fill tasks k).toList = tasks.toList ++ List.replicate k none := by
  induction k generalizing tasks with
  | zero => simp [fill]
  | succ k ih => simp [fill, ih, List.replicate_succ]

/-- The vacant slots that `set_task` adds hold no task. -/
theorem join_fill (tasks : DynamicVec (Option (TaskContainer T)) n) (k i : Nat) :
    ((fill tasks k).toList[i]?).join = (tasks.toList[i]?).join := by
  rw [toList_fill]
  rcases Nat.lt_or_ge i tasks.toList.length with hi | hi
  · rw [List.getElem?_append_left hi]
  · rw [List.getElem?_append_right hi, List.getElem?_eq_none hi, List.getElem?_replicate]
    split <;> rfl

/-- **A task is set at its index**, and what is returned is the last index. -/
theorem setTask_cases (g : TaskGroup T n) (index : Nat) (task : T) :
    ∃ g', g.setTask index task = .ok (max g.tasks.len (index + 1) - 1, g') ∧
      (∀ i, g'.slot i = if i = index then some (.new task) else g.slot i) ∧
      g'.tasksCount = g.tasksCount + 1 ∧ g'.emptyTasks = g.emptyTasks ∧
      g'.switcher.tasks = g'.tasks.len := by
  let filled := fill g.tasks (index + 1 - g.tasks.len)
  have hlen : filled.toList.length = max g.tasks.len (index + 1) := by
    simp only [filled, toList_fill, List.length_append, List.length_replicate, DynamicVec.len_eq]
    omega
  have hlt : index < filled.toList.length := by
    rw [hlen]
    exact Nat.lt_of_succ_le (Nat.le_max_right ..)
  have hset : filled.set index (some (.new task)) =
      .ok (filled.modify index fun _ ↦ some (.new task)) := by
    rw [DynamicVec.set_eq, DynamicVec.modifyOrPanic_of_lt hlt]
  have hslot (i : Nat) : ((filled.modify index fun _ ↦ some (.new task)).get i).join =
      if i = index then some (.new task) else g.slot i := by
    rw [DynamicVec.get_eq, DynamicVec.toList_modify, List.getElem?_modify, slot,
      DynamicVec.get_eq, ← join_fill g.tasks (index + 1 - g.tasks.len)]
    by_cases hi : i = index
    · subst hi
      simp [hlt]
    · simp [hi, Ne.symm hi, filled]
  refine ⟨{ g with
      tasks := filled.modify index fun _ ↦ some (.new task)
      switcher := g.switcher.setTasks (filled.modify index fun _ ↦ some (.new task)).len
      tasksCount := g.tasksCount + 1 }, ?_, hslot, rfl, rfl, TaskSwitcher.tasks_setTasks ..⟩
  have hlast : (filled.modify index fun _ ↦ some (.new task)).len =
      max g.tasks.len (index + 1) := by
    rw [DynamicVec.len_eq, DynamicVec.toList_modify, List.length_modify, hlen]
  rw [← hlast]
  simp only [setTask, filled] at hset ⊢
  rw [hset]
  rfl

/-! ## What the books say -/

/-- `tasks()` and `empty_tasks` agree with the slots. -/
structure Books (g : TaskGroup T n) : Prop where
  /-- `tasks()` counts the live slots. -/
  count_eq : g.countTasks = g.live.card
  /-- `empty_tasks` are the live slots whose container is flagged. -/
  mem_empty : ∀ i, i ∈ g.emptyTasks ↔ ∃ c, g.slot i = some c ∧ c.isEmpty = true

theorem Sound.books {g : TaskGroup T n} (h : g.Sound) : g.Books := ⟨h.count_eq, h.mem_empty⟩

/-- What `set_task` should do: the task is at its index and not reported empty, it is
found at the index that is returned, and the books are kept.  Tasks are values here, so
that an equal one at the index that is returned cannot be told from it: the index of
another task is accepted then. -/
def SetsTask (g : TaskGroup T n) (index : Nat) (task : T) : Prop :=
  ∃ r g', g.setTask index task = .ok (r, g') ∧ g'.slot index = some (.new task) ∧
    (∃ c, g'.slot r = some c ∧ c.task = task) ∧ g'.Books

/-- What `remove_task` should do: the slot is vacant, and the books are kept. -/
def RemovesTask (g : TaskGroup T n) (index : Nat) : Prop :=
  ∃ g', g.removeTask index = .ok g' ∧ g'.slot index = none ∧ g'.Books

/-- The slot holds no task, and no slot is behind it, unless the last slot happens to
hold another task that is equal: its index is what is returned then. -/
def SetFits (g : TaskGroup T n) (index : Nat) (task : T) : Prop :=
  index ∉ g.live ∧
    (g.tasks.len ≤ index + 1 ∨ ∃ c, g.slot (g.tasks.len - 1) = some c ∧ c.task = task)

theorem Sound.setTask {g g' : TaskGroup T n} (h : g.Sound) {index r : Nat} {task : T}
    (hvacant : index ∉ g.live) (hs : g.setTask index task = .ok (r, g')) : g'.Sound := by
  obtain ⟨g'', hok, hslot, hcount, hempty, htasks⟩ := setTask_cases g index task
  rw [hok] at hs
  cases hs
  exact h.place (Option.eq_none_iff_forall_ne_some.2 fun c hc ↦ hvacant (mem_live.2 ⟨c, hc⟩))
    hslot hcount hempty htasks

/-- A group keeps its books over `set_task` exactly where the slot was not live, and
the task is found where no slot is behind it. -/
theorem Sound.setsTask_iff {g : TaskGroup T n} (h : g.Sound) (index : Nat) (task : T) :
    g.SetsTask index task ↔ g.SetFits index task := by
  obtain ⟨g', hok, hslot, hcount, hempty, htasks⟩ := setTask_cases g index task
  have hfound : (∃ c, g'.slot (max g.tasks.len (index + 1) - 1) = some c ∧ c.task = task) ↔
      g.tasks.len ≤ index + 1 ∨ ∃ c, g.slot (g.tasks.len - 1) = some c ∧ c.task = task := by
    rw [hslot]
    rcases Nat.lt_or_ge (index + 1) g.tasks.len with hlt | hle
    · rw [Nat.max_eq_left (Nat.le_of_lt hlt), if_neg (by omega), or_iff_right (Nat.not_le.2 hlt)]
    · rw [Nat.max_eq_right hle, if_pos (Nat.add_sub_cancel index 1)]
      exact iff_of_true ⟨_, rfl, rfl⟩ (.inl hle)
  constructor
  · rintro ⟨r, g'', hs, -, hr, hbooks⟩
    rw [hok] at hs
    cases hs
    refine ⟨?_, hfound.1 hr⟩
    intro hlive
    -- The task that was there was counted already.
    have hsame : g'.live = g.live := by
      ext i
      rw [mem_live, mem_live, hslot]
      by_cases hi : i = index
      · subst hi
        simpa using mem_live.1 hlive
      · rw [if_neg hi]
    have hnew : g.tasksCount + 1 = g.live.card := hcount.symm.trans (hsame ▸ hbooks.count_eq)
    rw [h.count_eq] at hnew
    exact Nat.succ_ne_self _ hnew
  · rintro ⟨hvacant, hlast⟩
    refine ⟨_, g', hok, ?_, hfound.2 hlast, (h.setTask hvacant hok).books⟩
    rw [hslot, if_pos rfl]

/-- A group keeps its books over `remove_task` exactly where the slot was live. -/
theorem Sound.removesTask_iff {g : TaskGroup T n} (h : g.Sound) (index : Nat) :
    g.RemovesTask index ↔ index ∈ g.live := by
  constructor
  · rintro ⟨g', hok, -, hbooks⟩
    obtain ⟨hslot, hcount, -, -, -⟩ := removeTask_cases hok
    by_contra hvacant
    -- No task is gone, but one less is counted.
    have hsame : g'.live = g.live := by
      ext i
      rw [mem_live, mem_live, hslot]
      by_cases hi : i = index
      · subst hi
        simpa using hvacant ∘ mem_live.2
      · rw [if_neg hi]
    have hold : g'.tasksCount = g.live.card := hsame ▸ hbooks.count_eq
    rw [h.count_eq, hold] at hcount
    exact Nat.succ_ne_self _ hcount.symm
  · intro hlive
    obtain ⟨g', hok⟩ := removeTask_ok hlive (h.count_eq ▸ Finset.card_ne_zero_of_mem hlive)
    obtain ⟨hslot, -⟩ := removeTask_cases hok
    refine ⟨g', hok, ?_, (h.removeTask hlive hok).books⟩
    rw [hslot, if_pos rfl]

end TaskGroup

/-! ## Runs -/

/-- What can be done to a group when any slot can be set and removed. -/
inductive SlotOp (T In Time : Type) where
  | setTask (index : Nat) (task : T)
  | removeTask (index : Nat)
  | group (op : GroupOp T In Time)

variable [Task T In Out Time]

/-- A group under every sequence of its operations, `set_task` and the removal of
vacant slots included, up to a panic. -/
def slotGroup : Machine (TaskGroup T n) (SlotOp T In Time) (GroupAnswer Out) where
  step g
    | .setTask index task => match g.setTask index task with
      | .ok (r, g') => some (g', [.added r])
      | .error _ => none
    | .removeTask index => match g.removeTask index with
      | .ok g' => some (g', [])
      | .error _ => none
    | .group op => group.step g op

/-- `set_task` is used where it fits, and `remove_task` on live slots. -/
def SlotOp.Fits (g : TaskGroup T n) : SlotOp T In Time → Prop
  | .setTask index task => g.SetFits index task
  | .removeTask index => index ∈ g.live
  | .group _ => True

theorem slotGroup_sound {g g' : TaskGroup T n} {op : SlotOp T In Time}
    {events : List (GroupAnswer Out)} (h : g.Sound) (hop : op.Fits g)
    (hstep : slotGroup.step g op = some (g', events)) : g'.Sound := by
  cases op with
  | setTask index task =>
      simp only [slotGroup] at hstep
      split at hstep
      · rename_i r g'' hok
        cases hstep
        exact h.setTask hop.1 hok
      · cases hstep
  | removeTask index =>
      simp only [slotGroup] at hstep
      split at hstep
      · rename_i g'' hok
        cases hstep
        exact h.removeTask hop hok
      · cases hstep
  | group op => exact h.step (group_cases hstep)

/-- **A group keeps its books in every run whose steps fit, and over the next step
exactly where that fits.** -/
theorem books_iff {h : History (TaskGroup T n) (SlotOp T In Time) (GroupAnswer Out)}
    {g : TaskGroup T n} (hr : slotGroup.Run .default h g) (hfits : ∀ m ∈ h, m.label.Fits m.pre) :
    g.Books ∧ (∀ index task, g.SetsTask index task ↔ g.SetFits index task) ∧
      ∀ index < g.tasks.len, g.RemovesTask index ↔ index ∈ g.live := by
  have hsound : g.Sound := by
    induction hr with
    | nil => exact TaskGroup.sound_default
    | @snoc h m _ hm ih =>
        have hpre := ih fun m' hm' ↦ hfits m' (List.mem_append_left [m] hm')
        exact slotGroup_sound hpre (hfits m (List.mem_append_right h List.mem_cons_self)) hm
  exact ⟨hsound.books, fun index task ↦ hsound.setsTask_iff index task,
    fun index _ ↦ hsound.removesTask_iff index⟩

/-! ## A slot that is set twice, and one that is removed twice -/

/-- Two tasks. -/
def twoTasks : TaskGroup Echo 4 :=
  ((slotGroup.exec .default [.group (.addTask ⟨[1]⟩), .group (.addTask ⟨[2]⟩)]).get rfl).2

/-- What happened until there were two. -/
def twoTasksHistory : History (TaskGroup Echo 4) (SlotOp Echo Nat Unit) (GroupAnswer Nat) :=
  ((slotGroup.exec .default [.group (.addTask ⟨[1]⟩), .group (.addTask ⟨[2]⟩)]).get rfl).1

theorem twoTasks_run : slotGroup.Run .default twoTasksHistory twoTasks := Machine.exec_run_get rfl

theorem books_iff_twoTasks :
    twoTasks.Books ∧ (∀ index task, twoTasks.SetsTask index task ↔ twoTasks.SetFits index task) ∧
      ∀ index < twoTasks.tasks.len, twoTasks.RemovesTask index ↔ index ∈ twoTasks.live := by
  apply books_iff twoTasks_run
  intro m hm
  rcases List.mem_cons.1 hm with rfl | hm
  · trivial
  · cases List.mem_singleton.1 hm
    trivial

/-- A live slot is set: three tasks are counted and two are there, and the index
returned is not the one of the task.  A slot is removed twice: no task is counted
and one is there. -/
theorem not_sets_removes :
    slotGroup.Run .default twoTasksHistory twoTasks ∧ ¬ twoTasks.SetsTask 0 ⟨[3]⟩ ∧
      (twoTasks.setTask 0 ⟨[3]⟩).toOption.map (fun r ↦ (r.1, r.2.countTasks, r.2.live)) =
        some (1, 3, {0, 1}) ∧
      ∃ g, twoTasks.removeTask 0 = .ok g ∧ 0 < g.tasks.len ∧ ¬ g.RemovesTask 0 ∧
        (g.removeTask 0).toOption.map (fun g ↦ (g.countTasks, g.live)) = some (0, {1}) := by
  have hs : twoTasks.Sound := (TaskGroup.sound_default.addTask _).addTask _
  have hlive : 0 ∈ twoTasks.live := TaskGroup.mem_live.2 ⟨_, rfl⟩
  refine ⟨twoTasks_run, ?_, rfl, _, rfl, by decide, ?_, rfl⟩
  · intro h
    exact ((hs.setsTask_iff _ _).1 h).1 hlive
  · intro h
    have hlive' := ((hs.removeTask hlive rfl).removesTask_iff _).1 h
    obtain ⟨c, hc⟩ := TaskGroup.mem_live.1 hlive'
    cases hc

end SansIo
