import SansIo.Task.Drained

/-!
# A group is a slot map

From outside, a `TaskGroup` is a map from indices to tasks.  `add_task` puts a task
at an index that is vacant; it stays at that index until `remove_task` takes it from
there, and until then it is called with exactly the inputs that are meant for that
index.  `Lives t inputs t'` says that a task `t` has become `t'` with these inputs,
and any number of calls for its outputs between them.

`lives_step` says what one operation does to one index, `lives_run` follows an index
through a run, and `slotMap_of_run` collects what the owner of a group relies on.
-/

namespace SansIo

open Lib Collections
open TaskSwitcherChild (popOutput isEmpty emptyEvent)

variable {T In Out Time : Type} {n : Nat}

/-! ## The inputs for an index -/

/-- The input that an operation has for the task at an index. -/
def GroupOp.inputFor (i : Nat) : GroupOp T In Time → Option (Call In Out)
  | .onTick now => some (.tick now)
  | .onShutdown now => some (.shutdown now)
  | .onEvent now index input => if index = i then some (.event now input) else none
  | _ => none

/-- The inputs for the task at an index, oldest first. -/
def inputsFor (i : Nat) (h : History (TaskGroup T n) (GroupOp T In Time) (GroupAnswer Out)) :
    List (Call In Out) := h.filterMap fun m ↦ m.label.inputFor i

@[simp] theorem inputsFor_snoc (i : Nat)
    (h : History (TaskGroup T n) (GroupOp T In Time) (GroupAnswer Out))
    (m : Moment (TaskGroup T n) (GroupOp T In Time) (GroupAnswer Out)) :
    inputsFor i (h ++ [m]) = inputsFor i h ++ (m.label.inputFor i).toList := by
  simp only [inputsFor, List.filterMap_append]
  cases hm : (m.label.inputFor i : Option (Call In Out)) <;> simp [hm]

/-! ## The life of a task -/

section Lives

variable [Task T In Out Time]

/-- A task that is called with some inputs, in order and each of them once, and is
popped for outputs in between. -/
inductive Lives (t : T) : List (Call In Out) → T → Prop
  | /-- It has not been called. -/ start : Lives t [] t
  | /-- `on_tick`. -/
    tick {inputs t'} (now : Instant) :
      Lives t inputs t' → Lives t (inputs ++ [.tick now]) (Task.onTick t' now)
  | /-- `on_event`. -/
    event {inputs t'} (now : Instant) (input : In) :
      Lives t inputs t' → Lives t (inputs ++ [.event now input]) (Task.onEvent t' now input)
  | /-- `on_shutdown`. -/
    shutdown {inputs t'} (now : Instant) :
      Lives t inputs t' → Lives t (inputs ++ [.shutdown now]) (Task.onShutdown t' now)
  | /-- `pop_output`. -/
    polled {inputs t'} (now : Time) : Lives t inputs t' → Lives t inputs (popOutput t' now).2

theorem Lives.trans {t t' t'' : T} {l l' : List (Call In Out)} (h : Lives t l t')
    (h' : Lives t' l' t'') : Lives t (l ++ l') t'' := by
  induction h' with
  | start => simpa using h
  | tick now _ ih => exact List.append_assoc .. ▸ ih.tick now
  | event now input _ ih => exact List.append_assoc .. ▸ ih.event now input
  | shutdown now _ ih => exact List.append_assoc .. ▸ ih.shutdown now
  | polled now _ ih => exact ih.polled now

end Lives

namespace TaskGroup

variable [Task T In Out Time]

/-! ## Polling -/

/-- The same indices are live, and each task has at most been popped for outputs. -/
structure Kept (g g' : TaskGroup T n) : Prop where
  vacant : ∀ i, g.slot i = none → g'.slot i = none
  lives : ∀ i c, g.slot i = some c → ∃ c', g'.slot i = some c' ∧ Lives c.task [] c'.task

theorem Kept.refl (g : TaskGroup T n) : g.Kept g where
  vacant _ h := h
  lives _ c h := ⟨c, h, .start⟩

/-- One live task is popped. -/
theorem Kept.pop {g t t' : TaskGroup T n} (h : g.Kept t) {index : Nat} {c : TaskContainer T}
    (hc : t.slot index = some c) {now : Time} {out : Option Out} {task : T} {empty : Bool}
    (hpop : popOutput c.task now = (out, task))
    (hslot : ∀ i, t'.slot i = if i = index then some ⟨task, empty⟩ else t.slot i) :
    g.Kept t' := by
  have htask : (popOutput c.task now).2 = task := congrArg Prod.snd hpop
  constructor
  · intro i hi
    have hvacant := h.vacant i hi
    rw [hslot, if_neg]
    · exact hvacant
    · rintro rfl
      rw [hc] at hvacant
      cases hvacant
  · intro i d hd
    obtain ⟨d', hd', hlives⟩ := h.lives i d hd
    rw [hslot]
    by_cases hi : i = index
    · subst hi
      cases hc.symm.trans hd'
      exact ⟨_, if_pos rfl, htask ▸ hlives.polled now⟩
    · exact ⟨d', by rw [if_neg hi, hd'], hlives⟩

/-- The output of a task, or its empty event where it has none and is empty. -/
inductive Gives (now : Time) (old : T) (out : Out) (task : T) : Prop
  | output (h : popOutput old now = (some out, task))
  | empties (h : popOutput old now = (none, task)) (hempty : isEmpty task = true)
      (hout : out = emptyEvent task)

/-- What the loop of `pop_output` has done so far: a task that is still flagged has
not been touched. -/
structure Polled (g t : TaskGroup T n) : Prop where
  kept : g.Kept t
  flagged : ∀ i, t.switcher.flag i = true → t.slot i = g.slot i

theorem Polled.again {g t t' : TaskGroup T n} (h : g.Polled t) {now : Time}
    (ht : turn now t = .inl t') : g.Polled t' := by
  have hcases := turn_cases now t
  rw [ht] at hcases
  cases hcases with
  | @finishes i c task switcher hi hc hpop hold hs =>
      have hslot := slot_setSlot (slot_lt hc) ⟨task, isEmpty task⟩
      constructor
      · exact h.kept.pop hc hpop hslot
      · intro j hj
        have hne : j ≠ i := by
          rintro rfl
          rw [hs.flag_eq, if_pos rfl] at hj
          cases hj
        rw [hs.flag_eq, if_neg hne] at hj
        exact (hslot j).trans ((if_neg hne).trans (h.flagged j hj))
  | @vacant i switcher hi hc hs =>
      constructor
      · exact ⟨h.kept.vacant, h.kept.lives⟩
      · intro j hj
        rw [hs.flag_eq] at hj
        split at hj
        · cases hj
        · exact h.flagged j hj

/-- **What `pop_output` does to the slots**: it keeps the tasks, and an output comes
from the task at its index. -/
theorem popOutput_kept (g : TaskGroup T n) (now : Time) :
    g.Kept (popOutput g now).2 ∧
      ∀ i out, (popOutput g now).1 = some (.taskOutput i out) → ∃ c c',
        g.slot i = some c ∧ (popOutput g now).2.slot i = some c' ∧
          Gives now c.task out c'.task := by
  obtain ⟨t, hvisits, hleave⟩ := popOutput_exit g now
  have ht : g.Polled t :=
    hvisits.invariant (fun _ _ hs hb ↦ hs.again hb) ⟨.refl g, fun _ _ ↦ rfl⟩
  have hcases := turn_cases now t
  rw [hleave] at hcases
  generalize popOutput g now = r at hcases
  cases hcases with
  | drained =>
      constructor
      · exact ht.kept
      · intro i out ho
        cases ho
  | @output i c out task hi hc hpop =>
      have hslot := slot_setSlot (slot_lt hc) ⟨task, c.isEmpty⟩
      constructor
      · exact ht.kept.pop hc hpop hslot
      · intro j o ho
        cases ho
        refine ⟨c, ⟨task, c.isEmpty⟩, ?_, ?_, .output hpop⟩
        · rw [← ht.flagged i (TaskSwitcher.flag_current hi), hc]
        · rw [hslot, if_pos rfl]
  | @empties i c task hi hc hpop hbefore hempty =>
      have hslot := slot_setSlot (slot_lt hc) ⟨task, true⟩
      constructor
      · exact ht.kept.pop hc hpop hslot
      · intro j o ho
        cases ho
        refine ⟨c, ⟨task, true⟩, ?_, ?_, .empties hpop hempty rfl⟩
        · rw [← ht.flagged i (TaskSwitcher.flag_current hi), hc]
        · exact (hslot i).trans (if_pos rfl)

/-! ## One operation -/

section Step

variable {pre post : TaskGroup T n} {op : GroupOp T In Time} {events : List (GroupAnswer Out)}

/-- `add_task` gives an index that was vacant, and puts the task there. -/
theorem adds_step {i : Nat} {task : T}
    (hm : group.step pre (.addTask task) = some (post, [GroupAnswer.added i])) :
    pre.slot i = none ∧ post.slot i = some (.new task) := by
  cases hm
  obtain ⟨hvacant, hslot, -⟩ := addTask_cases pre task
  exact ⟨hvacant, (hslot _).trans (if_pos rfl)⟩

/-- A vacant index stays vacant unless a task is added there. -/
theorem vacant_step (hm : group.step pre op = some (post, events)) (hs : pre.Sound) {i : Nat}
    (hi : pre.slot i = none) (hadds : ∀ task, op = .addTask task → events ≠ [.added i]) :
    post.slot i = none := by
  have hdoes : GroupDoes pre op post := group_cases hm
  cases hdoes with
  | @addTask task =>
      cases hm
      obtain ⟨-, hslot, -⟩ := addTask_cases pre task
      have hne : i ≠ (pre.addTask task).1 := by
        rintro rfl
        exact hadds task rfl rfl
      exact (hslot i).trans ((if_neg hne).trans hi)
  | removeTask hlive hok =>
      obtain ⟨hslot, -⟩ := removeTask_cases hok
      refine (hslot i).trans ?_
      split
      · rfl
      · exact hi
  | onEvent hok => exact (slot_onEvent hs.tasks_eq hok i).trans (Option.map_eq_none_iff.2 hi)
  | onTick =>
      obtain ⟨hslot, -⟩ := callAll_cases hs.tasks_eq (Task.onTick (T := T) · _)
      exact (hslot i).trans (Option.map_eq_none_iff.2 hi)
  | onShutdown =>
      obtain ⟨hslot, -⟩ := callAll_cases hs.tasks_eq (Task.onShutdown (T := T) · _)
      exact (hslot i).trans (Option.map_eq_none_iff.2 hi)
  | @popOutput now => exact (popOutput_kept pre now).1.vacant i hi

/-- **A task stays at its index**, with the input that the operation has for it,
unless it is removed. -/
theorem lives_step (hm : group.step pre op = some (post, events)) (hs : pre.Sound) {i : Nat}
    {c : TaskContainer T} (hc : pre.slot i = some c) (hkeep : op ≠ .removeTask i) :
    ∃ c', post.slot i = some c' ∧ Lives c.task (op.inputFor i).toList c'.task := by
  have hdoes : GroupDoes pre op post := group_cases hm
  cases hdoes with
  | @addTask task =>
      obtain ⟨hvacant, hslot, -⟩ := addTask_cases pre task
      have hne : i ≠ (pre.addTask task).1 := by
        rintro rfl
        cases hc.symm.trans hvacant
      exact ⟨c, (hslot i).trans ((if_neg hne).trans hc), .start⟩
  | @removeTask index _ hlive hok =>
      obtain ⟨hslot, -⟩ := removeTask_cases hok
      have hne : i ≠ index := by
        rintro rfl
        exact hkeep rfl
      exact ⟨c, (hslot i).trans ((if_neg hne).trans hc), .start⟩
  | @onEvent now index input result _ hok =>
      refine ⟨_, (slot_onEvent hs.tasks_eq hok i).trans (congrArg _ hc), ?_⟩
      by_cases hi : index = i
      · subst hi
        simp only [GroupOp.inputFor, if_true]
        exact Lives.start.event now input
      · simp only [GroupOp.inputFor, if_neg hi, if_neg (Ne.symm hi)]
        exact .start
  | @onTick now =>
      obtain ⟨hslot, -⟩ := callAll_cases hs.tasks_eq (Task.onTick (T := T) · now)
      refine ⟨_, (hslot i).trans (congrArg _ hc), ?_⟩
      exact Lives.start.tick now
  | @onShutdown now =>
      obtain ⟨hslot, -⟩ := callAll_cases hs.tasks_eq (Task.onShutdown (T := T) · now)
      refine ⟨_, (hslot i).trans (congrArg _ hc), ?_⟩
      exact Lives.start.shutdown now
  | @popOutput now => exact (popOutput_kept pre now).1.lives i c hc

end Step

end TaskGroup

/-! ## Runs -/

/-- `add_task` has put a task at an index, it has not been removed from there, and
`later` is what has happened since. -/
def Added (i : Nat) (task : T)
    (later h : History (TaskGroup T n) (GroupOp T In Time) (GroupAnswer Out)) : Prop :=
  ∃ earlier m, h = earlier ++ m :: later ∧ m.label = .addTask task ∧ m.events = [.added i] ∧
    ∀ x ∈ later, x.label ≠ .removeTask i

theorem Added.snoc {i : Nat} {task : T}
    {later h : History (TaskGroup T n) (GroupOp T In Time) (GroupAnswer Out)}
    {m : Moment (TaskGroup T n) (GroupOp T In Time) (GroupAnswer Out)}
    (ha : Added i task later h) (hm : m.label ≠ .removeTask i) :
    Added i task (later ++ [m]) (h ++ [m]) := by
  obtain ⟨earlier, a, rfl, hlabel, hevents, hkeep⟩ := ha
  refine ⟨earlier, a, by simp, hlabel, hevents, fun x hx ↦ ?_⟩
  rcases List.mem_append.1 hx with hx | hx
  · exact hkeep x hx
  · exact List.mem_singleton.1 hx ▸ hm

variable [Task T In Out Time]
  {h : History (TaskGroup T n) (GroupOp T In Time) (GroupAnswer Out)} {g : TaskGroup T n}

theorem sound_of_run (hr : group.Run .default h g) : g.Sound :=
  hr.invariant TaskGroup.sound_default fun _ hm hs ↦ hs.step (group_cases hm)

/-- A task is followed through a run, as long as it is not removed. -/
theorem lives_run {s : TaskGroup T n} (hs : s.Sound) {i : Nat} {c : TaskContainer T}
    (hc : s.slot i = some c) (hr : group.Run s h g) (hkeep : ∀ x ∈ h, x.label ≠ .removeTask i) :
    g.Sound ∧ ∃ c', g.slot i = some c' ∧ Lives c.task (inputsFor i h) c'.task := by
  induction hr with
  | nil => exact ⟨hs, c, hc, .start⟩
  | @snoc h m hr hm ih =>
      obtain ⟨hpre, d, hd, hlives⟩ := ih fun x hx ↦ hkeep x (List.mem_append_left [m] hx)
      have hm' : m.label ≠ .removeTask i := hkeep m (List.mem_append_right h List.mem_cons_self)
      obtain ⟨c', hc', hlives'⟩ := TaskGroup.lives_step hm hpre hd hm'
      refine ⟨hpre.step (group_cases hm), c', hc', ?_⟩
      rw [inputsFor_snoc]
      exact hlives.trans hlives'

/-- Every task that is at an index was added there. -/
theorem added_of_slot (hr : group.Run .default h g) {i : Nat} {c : TaskContainer T}
    (hc : g.slot i = some c) : ∃ task later, Added i task later h := by
  induction hr generalizing c with
  | nil => simp at hc
  | @snoc h m hr hm ih =>
      have hs := sound_of_run hr
      by_cases hadds : ∃ task, m.label = .addTask task ∧ m.events = [.added i]
      · obtain ⟨task, hlabel, hevents⟩ := hadds
        exact ⟨task, [], h, m, rfl, hlabel, hevents, fun x hx ↦ by cases hx⟩
      · cases hpre : m.pre.slot i with
        | none =>
            have hpost := TaskGroup.vacant_step hm hs hpre fun task hl he ↦ hadds ⟨task, hl, he⟩
            cases hc.symm.trans hpost
        | some d =>
            obtain ⟨task, later, ha⟩ := ih hpre
            refine ⟨task, later ++ [m], ha.snoc ?_⟩
            intro hlabel
            have hdoes : GroupDoes m.pre (.removeTask i) m.post := hlabel ▸ group_cases hm
            cases hdoes with
            | removeTask hlive hok =>
                obtain ⟨hslot, -⟩ := TaskGroup.removeTask_cases hok
                cases hc.symm.trans ((hslot i).trans (if_pos rfl))

/-- What the owner of a group relies on. -/
structure SlotMap (h : History (TaskGroup T n) (GroupOp T In Time) (GroupAnswer Out))
    (g : TaskGroup T n) : Prop where
  /-- A task is added at an index that is not live. -/
  fresh : ∀ task, (g.addTask task).1 ∉ g.live
  /-- It stays there until it is removed, called with the inputs for its index. -/
  stays : ∀ i task later, Added i task later h →
    ∃ c, g.slot i = some c ∧ Lives task (inputsFor i later) c.task
  /-- And only what was added is there. -/
  added : ∀ i ∈ g.live, ∃ task later, Added i task later h
  /-- `has_task`. -/
  hasTask_iff : ∀ i, g.hasTask i = true ↔ i ∈ g.live
  /-- `on_event`. -/
  onEvent_iff : ∀ now i input, (∃ g', g.onEvent now i input = .ok (some (), g')) ↔ i ∈ g.live
  /-- An output comes from the task that is at its index. -/
  output : ∀ now i out, (popOutput g now).1 = some (.taskOutput i out) → ∃ c c',
    g.slot i = some c ∧ (popOutput g now).2.slot i = some c' ∧
      TaskGroup.Gives now c.task out c'.task
  /-- There is a flag for each slot. -/
  flags : g.switcher.tasks = g.tasks.len
  /-- Nothing panics. -/
  possible : ∀ op, (∀ i, op = .removeTask i → i ∈ g.live) → ∃ r, group.step g op = some r

/-- **A group is a faithful slot map**, in every state that it reaches. -/
theorem slotMap_of_run (hr : group.Run .default h g) : SlotMap h g := by
  have hs := sound_of_run hr
  constructor
  · intro task hlive
    obtain ⟨c, hc⟩ := TaskGroup.mem_live.1 hlive
    cases hc.symm.trans (TaskGroup.addTask_cases g task).1
  · rintro i task later ⟨earlier, m, rfl, hlabel, hevents, hkeep⟩
    obtain ⟨hpre, hm, hlater⟩ := hr.split
    have hstep : group.step m.pre (.addTask task) = some (m.post, [.added i]) := by
      rw [← hlabel, ← hevents]
      exact hm
    obtain ⟨-, hslot⟩ := TaskGroup.adds_step hstep
    have hpost := (sound_of_run hpre).step (group_cases hm)
    obtain ⟨-, c, hc, hlives⟩ := lives_run hpost hslot hlater hkeep
    exact ⟨c, hc, hlives⟩
  · intro i hlive
    obtain ⟨c, hc⟩ := TaskGroup.mem_live.1 hlive
    exact added_of_slot hr hc
  · exact fun i ↦ TaskGroup.hasTask_iff
  · intro now i input
    rw [TaskGroup.mem_live]
    constructor
    · rintro ⟨g', hok⟩
      rw [← Option.ne_none_iff_exists']
      intro hvacant
      cases hok.symm.trans (TaskGroup.onEvent_vacant hvacant now input)
    · rintro ⟨c, hc⟩
      obtain ⟨switcher, -, hok⟩ := TaskGroup.onEvent_live hs.tasks_eq hc now input
      exact ⟨_, hok⟩
  · exact fun now ↦ (TaskGroup.popOutput_kept g now).2
  · exact hs.tasks_eq
  · exact fun op hop ↦ hs.possible op hop

/-- An echo is added and removed, and its index is used again. -/
def reused : History (TaskGroup Echo 1) (GroupOp Echo Nat Unit) (GroupAnswer Nat) ×
    TaskGroup Echo 1 :=
  (group.exec .default [.addTask ⟨[]⟩, .removeTask 0, .addTask ⟨[7]⟩, .onEvent 2 0 6]).get
    (by decide +kernel)

theorem slotMap_of_run_reused : SlotMap reused.1 reused.2 :=
  slotMap_of_run (Machine.exec_run_get _)

end SansIo
