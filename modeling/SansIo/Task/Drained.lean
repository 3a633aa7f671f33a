import SansIo.Task.Logged

/-!
# What a drained group guarantees

Two invariants hold in every state that a group reaches.  `Sound` is about the
bookkeeping: the switcher has a flag for each slot, `tasks_count` counts the live
slots, and `empty_tasks` are those whose container says that its task has
reported to be empty.  `Tracks` links it to the tasks: a container remembers
whether its task was empty when it last had no output, and a task whose flag is
clear is settled.

When `pop_output` returns `None`, every flag is clear.  So every live task is
settled (`drained_settled`), and the group is empty when all of its tasks are
(`drained_truthful`).
-/

namespace SansIo

open Lib Collections
open TaskSwitcherChild (popOutput isEmpty emptyEvent)

variable {T In Out Time : Type} {n : Nat}

namespace TaskGroup

/-! ## The bookkeeping -/

/-- The fields of a group agree with its slots. -/
structure Sound (g : TaskGroup T n) : Prop where
  /-- There is a flag for each slot. -/
  tasks_eq : g.switcher.tasks = g.tasks.len
  /-- `tasks_count` counts the live slots. -/
  count_eq : g.tasksCount = g.live.card
  /-- `empty_tasks` are the slots of the tasks reported empty. -/
  mem_empty : ∀ i, i ∈ g.emptyTasks ↔ ∃ c, g.slot i = some c ∧ c.isEmpty = true

theorem Sound.empty_subset {g : TaskGroup T n} (h : g.Sound) : g.emptyTasks ⊆ g.live :=
  fun i hi ↦ by
    obtain ⟨c, hc, -⟩ := (h.mem_empty i).mp hi
    exact mem_live.mpr ⟨c, hc⟩

theorem sound_default : (default : TaskGroup T n).Sound where
  tasks_eq := rfl
  count_eq := rfl
  mem_empty i := by simp [default, slot]

/-- A new task in a vacant slot keeps the bookkeeping, if it is counted. -/
theorem Sound.place {g g' : TaskGroup T n} (h : g.Sound) {index : Nat} {task : T}
    (hvacant : g.slot index = none)
    (hslot : ∀ i, g'.slot i = if i = index then some (.new task) else g.slot i)
    (hcount : g'.tasksCount = g.tasksCount + 1) (hempty : g'.emptyTasks = g.emptyTasks)
    (htasks : g'.switcher.tasks = g'.tasks.len) : g'.Sound := by
  refine ⟨htasks, ?_, ?_⟩
  · have hlive : g'.live = insert index g.live := by
      ext i
      rw [Finset.mem_insert, mem_live, mem_live, hslot]
      by_cases hi : i = index <;> simp [hi]
    have hnew : index ∉ g.live := by
      rw [mem_live, hvacant]
      simp
    rw [hcount, hlive, Finset.card_insert_of_notMem hnew, h.count_eq]
  · intro i
    rw [hempty, h.mem_empty, hslot]
    by_cases hi : i = index
    · simp [hi, hvacant, TaskContainer.new]
    · rw [if_neg hi]

theorem Sound.addTask {g : TaskGroup T n} (h : g.Sound) (task : T) : (g.addTask task).2.Sound := by
  obtain ⟨hvacant, hslot, hcount, hempty, -, htasks⟩ := addTask_cases g task
  exact h.place hvacant hslot hcount hempty (htasks h.tasks_eq)

theorem Sound.removeTask {g g' : TaskGroup T n} (h : g.Sound) {index : Nat}
    (hlive : index ∈ g.live) (hr : g.removeTask index = .ok g') : g'.Sound := by
  obtain ⟨hslot, hcount, hempty, -, htasks⟩ := removeTask_cases hr
  refine ⟨htasks, ?_, ?_⟩
  · have hlive' : g'.live = g.live.erase index := by
      ext i
      rw [Finset.mem_erase, mem_live, mem_live, hslot]
      by_cases hi : i = index <;> simp [hi]
    have hcard := Finset.card_erase_add_one hlive
    have hcount' := h.count_eq
    rw [hlive']
    omega
  · intro i
    rw [hempty, Finset.mem_erase, h.mem_empty, hslot]
    by_cases hi : i = index <;> simp [hi]

/-- Writing a live slot keeps the bookkeeping, if `empty_tasks` follows the new
container. -/
theorem Sound.write {g g' : TaskGroup T n} (h : g.Sound) {index : Nat} {c c' : TaskContainer T}
    (hc : g.slot index = some c)
    (hslot : ∀ i, g'.slot i = if i = index then some c' else g.slot i)
    (hlen : g'.tasks.len = g.tasks.len) (htasks : g'.switcher.tasks = g.switcher.tasks)
    (hcount : g'.tasksCount = g.tasksCount)
    (hempty : ∀ i, i ∈ g'.emptyTasks ↔ if i = index then c'.isEmpty = true else i ∈ g.emptyTasks) :
    g'.Sound := by
  refine ⟨by rw [htasks, hlen, h.tasks_eq], ?_, ?_⟩
  · have hlive : g'.live = g.live := live_congr fun i ↦ by
      rw [hslot]
      by_cases hi : i = index <;> simp [hi, hc]
    rw [hcount, hlive, h.count_eq]
  · intro i
    rw [hempty, hslot]
    by_cases hi : i = index
    · simp [hi]
    · simp only [if_neg hi, h.mem_empty]

theorem Sound.callAll {g : TaskGroup T n} (h : g.Sound) (f : T → T) : (g.callAll f).Sound := by
  obtain ⟨hslot, -, htasks⟩ := callAll_cases h.tasks_eq f
  refine ⟨htasks, ?_, ?_⟩
  · have hlive : (g.callAll f).live = g.live := live_congr fun i ↦ by
      rw [hslot, Option.map_eq_none_iff]
    rw [hlive]
    exact h.count_eq
  · intro i
    refine (h.mem_empty i).trans ?_
    rw [hslot]
    cases g.slot i <;> simp

section Task

variable [Task T In Out Time]

theorem Sound.onEvent {g g' : TaskGroup T n} (h : g.Sound) {now : Instant} {index : Nat}
    {input : In} {result : Option Unit} (he : g.onEvent now index input = .ok (result, g')) :
    g'.Sound := by
  cases hc : g.slot index with
  | none =>
      rw [onEvent_vacant hc] at he
      cases he
      exact h
  | some c =>
      obtain ⟨switcher, hs, heq⟩ := onEvent_live h.tasks_eq hc now input
      rw [heq] at he
      cases he
      refine h.write hc (slot_setSlot (slot_lt hc) _) (len_setSlot ..) hs.tasks_eq rfl fun i ↦ ?_
      by_cases hi : i = index
      · subst hi
        rw [if_pos rfl]
        exact (h.mem_empty i).trans (by simp [hc])
      · rw [if_neg hi]
        rfl

theorem Sound.again {g g' : TaskGroup T n} (h : g.Sound) {now : Time}
    (ht : turn now g = .inl g') : g'.Sound := by
  have hcases := turn_cases now g
  rw [ht] at hcases
  cases hcases with
  | @finishes i c task switcher hi hc hpop hold hs =>
      refine h.write hc (slot_setSlot (slot_lt hc) _) (len_setSlot ..) hs.tasks_eq rfl fun j ↦ ?_
      have hmem : i ∈ g.emptyTasks ↔ c.isEmpty = true := (h.mem_empty i).trans (by simp [hc])
      by_cases hj : j = i
      · subst hj
        rw [if_pos rfl]
        cases hbefore : c.isEmpty <;> cases hempty : isEmpty task <;> simp_all
      · rw [if_neg hj]
        dsimp only
        split
        · rw [Finset.mem_erase, and_iff_right hj]
        · rfl
  | vacant hi hc hs => exact ⟨hs.tasks_eq.trans h.tasks_eq, h.count_eq, h.mem_empty⟩

theorem Sound.leave {g : TaskGroup T n} (h : g.Sound) {now : Time} {r}
    (ht : turn now g = .inr (.ok r)) : r.2.Sound := by
  have hcases := turn_cases now g
  rw [ht] at hcases
  cases hcases with
  | drained => exact h
  | @output i c out task hi hc hpop =>
      refine h.write hc (slot_setSlot (slot_lt hc) _) (len_setSlot ..) rfl rfl fun j ↦ ?_
      by_cases hj : j = i
      · subst hj
        rw [if_pos rfl]
        exact (h.mem_empty j).trans (by simp [hc])
      · rw [if_neg hj]
        rfl
  | @empties i c task hi hc hpop hbefore hempty =>
      refine h.write hc (slot_setSlot (slot_lt hc) _) (len_setSlot ..) rfl rfl fun j ↦ ?_
      by_cases hj : j = i <;> simp [hj]

theorem Sound.popOutput {g : TaskGroup T n} (h : g.Sound) (now : Time) :
    (popOutput g now).2.Sound := by
  obtain ⟨t, hvisits, hleave⟩ := popOutput_exit g now
  have ht : t.Sound := hvisits.invariant (fun _ _ hs hb ↦ hs.again hb) h
  exact ht.leave hleave

theorem Sound.step {g g' : TaskGroup T n} (h : g.Sound) {op : GroupOp T In Time}
    (hd : GroupDoes g op g') : g'.Sound := by
  cases hd with
  | addTask => exact h.addTask _
  | removeTask hlive hok => exact h.removeTask hlive hok
  | onEvent hok => exact h.onEvent hok
  | onTick => exact h.callAll _
  | onShutdown => exact h.callAll _
  | popOutput => exact h.popOutput _

/-- A sound group does not panic: only the removal of a vacant slot is not
possible. -/
theorem Sound.possible {g : TaskGroup T n} (h : g.Sound) (op : GroupOp T In Time)
    (hop : ∀ index, op = .removeTask index → index ∈ g.live) :
    ∃ r, group.step g op = some r := by
  cases op with
  | removeTask index =>
      have hlive := hop index rfl
      have hcount : g.tasksCount ≠ 0 := h.count_eq ▸ Finset.card_ne_zero_of_mem hlive
      obtain ⟨g', hok⟩ := removeTask_ok hlive hcount
      exact ⟨(g', []), by simp only [group, if_pos (hasTask_iff.mpr hlive), hok]⟩
  | onEvent now index input =>
      cases hc : g.slot index with
      | none => exact ⟨(g, [.delivered none]), by simp only [group, onEvent_vacant hc]⟩
      | some c =>
          obtain ⟨switcher, -, hok⟩ := onEvent_live h.tasks_eq hc now input
          simp only [group, hok]
          exact ⟨_, rfl⟩
  | _ => exact ⟨_, rfl⟩

end Task

/-! ## The tasks -/

section Logged

variable [Task T In Out Time]

/-- What a container knows of a logged task, and what its flag says: it remembers
whether the task was empty when it last had no output, and without a flag the
task is settled. -/
structure Followed (c : TaskContainer (Logged T In Out)) (flagged : Bool) : Prop where
  /-- The container's `is_empty`. -/
  remembers : c.isEmpty = lastEmpty c.task.log
  /-- A clear flag. -/
  settled : flagged = false → c.task.Settled

/-- Every live task is followed by its container and its flag. -/
def Tracks (g : TaskGroup (Logged T In Out) n) : Prop :=
  ∀ i c, g.slot i = some c → Followed c (g.switcher.flag i)

theorem tracks_default : (default : TaskGroup (Logged T In Out) n).Tracks :=
  fun i c hc ↦ by simp at hc

/-- One container is written, and the other flags stay. -/
theorem Tracks.write {g g' : TaskGroup (Logged T In Out) n} (h : g.Tracks) {index : Nat}
    {c' : TaskContainer (Logged T In Out)}
    (hslot : ∀ i, g'.slot i = if i = index then some c' else g.slot i)
    (hflag : ∀ i ≠ index, g'.switcher.flag i = g.switcher.flag i)
    (hc' : Followed c' (g'.switcher.flag index)) : g'.Tracks := by
  intro i c hc
  rw [hslot] at hc
  by_cases hi : i = index
  · rw [if_pos hi] at hc
    cases hc
    exact hi ▸ hc'
  · rw [if_neg hi] at hc
    exact hflag i hi ▸ h i c hc

theorem Tracks.addTask {g : TaskGroup (Logged T In Out) n} (h : g.Tracks) (task : T) :
    (g.addTask (.new task)).2.Tracks := by
  obtain ⟨-, hslot, -, -, hflag, -⟩ := addTask_cases g (Logged.new task)
  exact h.write hslot (fun i _ ↦ hflag i) ⟨rfl, fun _ ↦ .inl rfl⟩

theorem Tracks.removeTask {g g' : TaskGroup (Logged T In Out) n} (h : g.Tracks) {index : Nat}
    (hr : g.removeTask index = .ok g') : g'.Tracks := by
  obtain ⟨hslot, -, -, hflag, -⟩ := removeTask_cases hr
  intro i c hc
  rw [hslot] at hc
  by_cases hi : i = index
  · rw [if_pos hi] at hc
    cases hc
  · rw [if_neg hi] at hc
    exact hflag i ▸ h i c hc

theorem Tracks.onEvent {g g' : TaskGroup (Logged T In Out) n} (h : g.Tracks) (hs : g.Sound)
    {now : Instant} {index : Nat} {input : In} {result : Option Unit}
    (he : g.onEvent now index input = .ok (result, g')) : g'.Tracks := by
  cases hc : g.slot index with
  | none =>
      rw [onEvent_vacant hc] at he
      cases he
      exact h
  | some c =>
      obtain ⟨switcher, hset, heq⟩ := onEvent_live hs.tasks_eq hc now input
      rw [heq] at he
      cases he
      refine h.write (slot_setSlot (slot_lt hc) _) (fun i hi ↦ ?_) ⟨?_, fun hfalse ↦ ?_⟩
      · rw [hset.flag_eq, if_neg hi]
      · exact (h index c hc).remembers.trans (lastEmpty_snoc c.task.log (.event now input)).symm
      · rw [hset.flag_eq, if_pos rfl] at hfalse
        cases hfalse

theorem Tracks.callAll {g : TaskGroup (Logged T In Out) n} (h : g.Tracks) (hs : g.Sound)
    {f : Logged T In Out → Logged T In Out} (hf : ∀ t, lastEmpty (f t).log = lastEmpty t.log) :
    (g.callAll f).Tracks := by
  obtain ⟨hslot, hflag, -⟩ := callAll_cases hs.tasks_eq f
  intro i c' hc'
  rw [hslot, Option.map_eq_some_iff] at hc'
  obtain ⟨c, hc, rfl⟩ := hc'
  refine ⟨(h i c hc).remembers.trans (hf c.task).symm, ?_⟩
  intro hfalse
  rw [hflag i (slot_lt hc)] at hfalse
  cases hfalse

theorem Tracks.again {g g' : TaskGroup (Logged T In Out) n} (h : g.Tracks) {now : Time}
    (ht : turn now g = .inl g') : g'.Tracks := by
  have hcases := turn_cases now g
  rw [ht] at hcases
  cases hcases with
  | @finishes i c task switcher hi hc hpop hold hs =>
      obtain ⟨-, hlog⟩ := Logged.popOutput_eq hpop
      refine h.write (slot_setSlot (slot_lt hc) _) (fun j hj ↦ ?_) ⟨?_, fun _ ↦ .inr ⟨_, hlog⟩⟩
      · rw [hs.flag_eq, if_neg hj]
      · rw [hlog, lastEmpty_snoc]
        rfl
  | @vacant i switcher hi hc hs =>
      intro j c hj
      have hne : j ≠ i := by
        rintro rfl
        rw [show g.slot j = some c from hj] at hc
        cases hc
      have hflag : switcher.flag j = g.switcher.flag j := by rw [hs.flag_eq, if_neg hne]
      exact hflag ▸ h j c hj

theorem Tracks.leave {g : TaskGroup (Logged T In Out) n} (h : g.Tracks) {now : Time} {r}
    (ht : turn now g = .inr (.ok r)) : r.2.Tracks := by
  have hcases := turn_cases now g
  rw [ht] at hcases
  cases hcases with
  | drained => exact h
  | @output i c out task hi hc hpop =>
      obtain ⟨-, hlog⟩ := Logged.popOutput_eq hpop
      refine h.write (slot_setSlot (slot_lt hc) _) (fun _ _ ↦ rfl) ⟨?_, fun hfalse ↦ ?_⟩
      · rw [hlog, lastEmpty_snoc]
        exact (h i c hc).remembers
      · cases hfalse.symm.trans (TaskSwitcher.flag_current hi)
  | @empties i c task hi hc hpop hbefore hempty =>
      obtain ⟨-, hlog⟩ := Logged.popOutput_eq hpop
      refine h.write (slot_setSlot (slot_lt hc) _) (fun _ _ ↦ rfl) ⟨?_, fun hfalse ↦ ?_⟩
      · rw [hlog, lastEmpty_snoc]
        exact hempty.symm
      · cases hfalse.symm.trans (TaskSwitcher.flag_current hi)

theorem Tracks.popOutput {g : TaskGroup (Logged T In Out) n} (h : g.Tracks) (now : Time) :
    (popOutput g now).2.Tracks := by
  obtain ⟨t, hvisits, hleave⟩ := popOutput_exit g now
  have ht : t.Tracks := hvisits.invariant (fun _ _ hs hb ↦ hs.again hb) h
  exact ht.leave hleave

/-- **Every state that a group of logged tasks reaches is sound, and follows its
tasks.** -/
theorem sound_tracks {h : History (TaskGroup (Logged T In Out) n) (GroupOp T In Time)
      (GroupAnswer Out)} {g : TaskGroup (Logged T In Out) n}
    (hr : loggedGroup.Run default h g) : g.Sound ∧ g.Tracks := by
  refine hr.invariant (I := fun g ↦ g.Sound ∧ g.Tracks) ⟨sound_default, tracks_default⟩ ?_
  rintro m hm ⟨hs, ht⟩
  obtain ⟨pre, op, events, post⟩ := m
  have hdoes : GroupDoes pre (op.map Logged.new) post := group_cases hm
  refine ⟨hs.step hdoes, ?_⟩
  cases op with
  | addTask task =>
      cases hdoes
      exact ht.addTask task
  | removeTask index =>
      cases hdoes with
      | removeTask _ hok => exact ht.removeTask hok
  | onEvent now index input =>
      cases hdoes with
      | onEvent hok => exact ht.onEvent hs hok
  | onTick now =>
      cases hdoes
      exact ht.callAll hs fun t ↦ lastEmpty_snoc t.log _
  | onShutdown now =>
      cases hdoes
      exact ht.callAll hs fun t ↦ lastEmpty_snoc t.log _
  | popOutput now =>
      cases hdoes
      exact ht.popOutput now

/-! ## A drained group -/

/-- Where `pop_output` returns `None`, it has left every task settled, and what
the container remembers is what the task says. -/
theorem drained_followed {h : History (TaskGroup (Logged T In Out) n) (GroupOp T In Time)
      (GroupAnswer Out)} {g g' : TaskGroup (Logged T In Out) n}
    (hr : loggedGroup.Run default h g) {now : Time} (hpop : popOutput g now = (none, g')) :
    g'.Sound ∧ ∀ i c, g'.slot i = some c →
      c.isEmpty = lastEmpty c.task.log ∧ c.task.Settled := by
  obtain ⟨t, hvisits, hleave⟩ := popOutput_exit g now
  obtain ⟨hs, ht⟩ := sound_tracks hr
  have hs' : t.Sound := hvisits.invariant (fun _ _ hs hb ↦ hs.again hb) hs
  have ht' : t.Tracks := hvisits.invariant (fun _ _ ht hb ↦ ht.again hb) ht
  have hcases := turn_cases now t
  rw [hleave, hpop] at hcases
  cases hcases with
  | drained hclear =>
      refine ⟨hs', ?_⟩
      intro i c hc
      have hi : i < g'.switcher.tasks := hs'.tasks_eq ▸ slot_lt hc
      exact ⟨(ht' i c hc).remembers, (ht' i c hc).settled (hclear i hi)⟩

/-- **A group strands no output.**  `pop_output` returns, and where it returns
`None`, every live task that has received an input was last called for an output,
and had none. -/
theorem popOutput_strands_nothing {h : History (TaskGroup (Logged T In Out) n)
      (GroupOp T In Time) (GroupAnswer Out)} {g : TaskGroup (Logged T In Out) n}
    (hr : loggedGroup.Run default h g) (now : Time) :
    Loop.Returns (turn now) g (.ok (popOutput g now)) ∧
    ((popOutput g now).1 = none → ∀ i c, (popOutput g now).2.slot i = some c →
      c.task.Received → ∃ log, c.task.log = log ++ [.popped none (isEmpty c.task.task)]) := by
  refine ⟨returns_popOutput g now, ?_⟩
  intro hnone i c hc hreceived
  obtain ⟨-, hfollowed⟩ := drained_followed hr (Prod.ext hnone rfl)
  exact (hfollowed i c hc).2.popped hreceived

/-- The theorem at a group with one task, which was sent an event and drained. -/
theorem popOutput_strands_nothing_echo :
    ∃ h g c, loggedGroup.Run (default : TaskGroup (Logged Echo Nat Nat) 1) h g ∧
      (popOutput g ()).1 = none ∧ (popOutput g ()).2.slot 0 = some c ∧
      ∃ log, c.task.log = log ++ [.popped none true] :=
  have hr := Machine.exec_run (M := loggedGroup)
    (s := (default : TaskGroup (Logged Echo Nat Nat) 1))
    (l := [.addTask ⟨[]⟩, .onEvent 0 0 7, .popOutput (), .popOutput ()]) rfl
  ⟨_, _, _, hr, rfl, rfl,
    (popOutput_strands_nothing hr ()).2 rfl 0 _ rfl ⟨.event 0 7, .head _, rfl⟩⟩

/-- A group itself returns only what its tasks do. -/
theorem popOutput_ne_empty (g : TaskGroup T n) (now : Time)
    {g' : TaskGroup T n} : popOutput g now ≠ (some .onResourceEmpty, g') := by
  intro hpop
  obtain ⟨t, -, hleave⟩ := popOutput_exit g now
  have hcases := turn_cases now t
  rw [hleave, hpop] at hcases
  cases hcases

/-- A group is empty when every live task has reported to be. -/
theorem Sound.isEmpty_iff {g : TaskGroup (Logged T In Out) n} (h : g.Sound) :
    isEmpty g = true ↔ ∀ i c, g.slot i = some c → c.isEmpty = true := by
  have hcard : isEmpty g = true ↔ g.emptyTasks.card = g.live.card := by
    rw [← h.count_eq]
    exact beq_iff_eq
  rw [hcard]
  constructor
  · intro heq i c hc
    have hall : g.emptyTasks = g.live :=
      Finset.eq_of_subset_of_card_le h.empty_subset (Nat.le_of_eq heq.symm)
    have hi : i ∈ g.emptyTasks := hall ▸ mem_live.mpr ⟨c, hc⟩
    obtain ⟨c', hc', hempty⟩ := (h.mem_empty i).mp hi
    obtain rfl : c' = c := Option.some.inj (hc'.symm.trans hc)
    exact hempty
  · intro hall
    refine congrArg Finset.card (Finset.Subset.antisymm h.empty_subset fun i hi ↦ ?_)
    obtain ⟨c, hc⟩ := mem_live.mp hi
    exact (h.mem_empty i).mpr ⟨c, hc, hall i c hc⟩

/-- A settled task that was empty when it last had no output is empty. -/
theorem isEmpty_of_settled {t : Logged T In Out} (hs : t.Settled)
    (hempty : lastEmpty t.log = true) : isEmpty t.task = true := by
  rcases hs with hnil | ⟨log, hlog⟩
  · rw [hnil] at hempty
    cases hempty
  · rwa [hlog, lastEmpty_snoc] at hempty

/-- Where `pop_output` returns `None`, a group that is empty has only empty tasks. -/
theorem isEmpty_of_drained {h : History (TaskGroup (Logged T In Out) n) (GroupOp T In Time)
      (GroupAnswer Out)} {g g' : TaskGroup (Logged T In Out) n}
    (hr : loggedGroup.Run default h g) {now : Time} (hpop : popOutput g now = (none, g'))
    (hempty : isEmpty g' = true) {i : Nat} {c : TaskContainer (Logged T In Out)}
    (hc : g'.slot i = some c) : isEmpty c.task.task = true := by
  obtain ⟨hs, hfollowed⟩ := drained_followed hr hpop
  obtain ⟨hremembers, hsettled⟩ := hfollowed i c hc
  exact isEmpty_of_settled hsettled (hremembers ▸ hs.isEmpty_iff.mp hempty i c hc)

/-- **The emptiness of a group is truthful.**  Where `pop_output` has returned
`None`, a group that is empty has only empty tasks; if every live task has
received an input then a group with only empty tasks is empty; and a branch around
the group says `OnResourceEmpty` only where every live task is empty. -/
theorem isEmpty_truthful {h : History (TaskGroup (Logged T In Out) n)
      (GroupOp T In Time) (GroupAnswer Out)} {g : TaskGroup (Logged T In Out) n}
    (hr : loggedGroup.Run default h g) (now : Time) :
    (∀ g', popOutput g now = (none, g') →
      (isEmpty g' = true → ∀ i c, g'.slot i = some c → isEmpty c.task.task = true) ∧
      ((∀ i c, g'.slot i = some c → c.task.Received) →
        (isEmpty g' = true ↔ ∀ i c, g'.slot i = some c → isEmpty c.task.task = true))) ∧
    (∀ (b b' : TaskSwitcherBranch (TaskGroup (Logged T In Out) n)) (s s' : TaskSwitcher),
      b.task = g → b.popOutput now s = .ok (some .onResourceEmpty, b', s') →
        ∀ i c, b'.task.slot i = some c → isEmpty c.task.task = true) := by
  have htrue : ∀ g', popOutput g now = (none, g') → isEmpty g' = true →
      ∀ i c, g'.slot i = some c → isEmpty c.task.task = true := by
    intro g' hpop hempty i c hc
    exact isEmpty_of_drained hr hpop hempty hc
  refine ⟨?_, ?_⟩
  · intro g' hpop
    refine ⟨htrue g' hpop, fun hreceived ↦ ⟨htrue g' hpop, ?_⟩⟩
    intro hall
    obtain ⟨hs, hfollowed⟩ := drained_followed hr hpop
    rw [hs.isEmpty_iff]
    intro i c hc
    obtain ⟨hremembers, hsettled⟩ := hfollowed i c hc
    obtain ⟨log, hlog⟩ := hsettled.popped (hreceived i c hc)
    rw [hremembers, hlog, lastEmpty_snoc]
    exact hall i c hc
  · rintro b b' s s' rfl hb
    generalize hout : some TaskGroupOutput.onResourceEmpty = out at hb
    cases TaskSwitcherBranch.popOutput_cases hb with
    | output hpop =>
        cases hout
        exact absurd hpop (popOutput_ne_empty b.task now)
    | empties hpop _ hempty => exact htrue _ hpop hempty
    | finishes => cases hout

/-- The theorem at the same group. -/
theorem isEmpty_truthful_echo :
    ∃ h g g', loggedGroup.Run (default : TaskGroup (Logged Echo Nat Nat) 1) h g ∧
      popOutput g () = (none, g') ∧ 0 ∈ g'.live ∧
      ∀ i c, g'.slot i = some c → isEmpty c.task.task = true :=
  have hr := Machine.exec_run (M := loggedGroup)
    (s := (default : TaskGroup (Logged Echo Nat Nat) 1))
    (l := [.addTask ⟨[]⟩, .onEvent 0 0 7, .popOutput (), .popOutput ()]) rfl
  ⟨_, _, _, hr, rfl, by decide, ((isEmpty_truthful hr ()).1 _ rfl).1 rfl⟩

end Logged

end TaskGroup

end SansIo
