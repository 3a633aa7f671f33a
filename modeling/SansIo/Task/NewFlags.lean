import SansIo.Collections.BitHistory
import SansIo.Task.Drained

/-!
# The flags of new slots

When the flags of a switcher grow, the new ones should be clear.  `set_len` writes zeroes
only to bytes that it adds, and so a new flag is clear unless it was left set: by a
`set_all`, which sets all that there are bytes for, or before the length shrank below it.

`newFlags_iff` says so of the bits, of a `TaskSwitcher`, which is the same under other
names, and of the slot that `add_task` adds to a `TaskGroup`.
-/

namespace SansIo

open Lib Collections
open TaskSwitcherChild (popOutput isEmpty)

/-! ## The bits -/

namespace Collections.BitVec

/-- Flags that have become more or fewer: those that there were are kept, and those that are
new are clear. -/
structure NewClear (b b' : BitVec) : Prop where
  kept : ∀ i < min b.len b'.len, b'.getBit i = b.getBit i
  clear : ∀ i, b.len ≤ i → i < b'.len → b'.getBit i = .ok false

/-- Changing the length keeps the bits, and also what was left beyond it. -/
theorem newClear_setLen {b : BitVec} {n : Nat} :
    b.NewClear (b.setLen n) ↔ ∀ i, b.len ≤ i → i < n → b.flag i ≠ true := by
  have hread : ∀ i < n, (b.setLen n).getBit i = .ok (b.flag i) := by
    intro i hi
    rw [getBit_of_lt _ ((len_setLen b n).symm ▸ hi), flag_setLen]
  constructor
  · intro h i hbi hi hset
    have hclear := h.clear i hbi ((len_setLen b n).symm ▸ hi)
    rw [hread i hi, hset] at hclear
    cases hclear
  · intro h
    constructor
    · intro i hi
      rw [len_setLen, Nat.lt_min] at hi
      rw [hread i hi.2, b.getBit_of_lt hi.1]
    · intro i hbi hi
      rw [len_setLen] at hi
      rw [hread i hi, Bool.eq_false_iff.2 (h i hbi hi)]

end Collections.BitVec

/-! ## A switcher -/

/-- The operations of a `TaskSwitcher` that write to its flags. -/
inductive SwitcherOp where
  | setTasks (tasks : Nat)
  | flagTask (i : Nat)
  | flagAll
  | finished (i : Nat)

/-- The same for the bits. -/
def SwitcherOp.toBit : SwitcherOp → BitOp
  | .setTasks tasks => .setLen tasks
  | .flagTask i => .setBit i true
  | .flagAll => .setAll true
  | .finished i => .setBit i false

namespace TaskSwitcher

/-- One operation.  One that panics is not possible. -/
def step (s : TaskSwitcher) : SwitcherOp → Option (TaskSwitcher × List Empty)
  | .setTasks tasks => some (s.setTasks tasks, [])
  | .flagTask i => match s.flagTask i with
    | .ok s' => some (s', [])
    | .error _ => none
  | .flagAll => some (s.flagAll, [])
  | .finished i => match s.finished i with
    | .ok s' => some (s', [])
    | .error _ => none

/-- A `TaskSwitcher`, under its operations. -/
def machine : Machine TaskSwitcher SwitcherOp Empty := ⟨step⟩

/-- A step of a switcher is one of its bits. -/
theorem step_bits {s s' : TaskSwitcher} {op : SwitcherOp} {events : List Empty}
    (h : s.step op = some (s', events)) : s.bits.step op.toBit = some (s'.bits, events) := by
  cases op with
  | setTasks tasks =>
      cases h
      rfl
  | flagAll =>
      cases h
      rfl
  | flagTask i =>
      simp only [step] at h
      split at h
      · rename_i t ht
        cases h
        obtain ⟨bits, hbits, hok⟩ := bind_ok.1 ht
        cases hok
        simp only [BitVec.step, SwitcherOp.toBit, hbits]
      · cases h
  | finished i =>
      simp only [step] at h
      split at h
      · rename_i t ht
        cases h
        obtain ⟨bits, hbits, hok⟩ := bind_ok.1 ht
        cases hok
        simp only [BitVec.step, SwitcherOp.toBit, hbits]
      · cases h

/-- The flag was set when it was last written. -/
def LeftSet (i : Nat) (h : History TaskSwitcher SwitcherOp Empty) : Prop :=
  Since (fun m ↦ ¬ m.label.toBit.Clears i) (fun m ↦ m.label.toBit.Sets i m.pre.bits) h

theorem flag_iff {tasks : Nat} {h : History TaskSwitcher SwitcherOp Empty} {s : TaskSwitcher}
    (hr : machine.Run (new tasks) h s) (i : Nat) : s.flag i = true ↔ LeftSet i h :=
  hr.since_iff (P := fun s ↦ s.flag i = true) (by simp) fun _ hm ↦
    BitVec.flag_step (step_bits hm) i

end TaskSwitcher

/-! ## A group -/

variable {T In Out Time : Type} {n : Nat} [Task T In Out Time]

/-- The operation flags the slot at an index. -/
def GroupOp.Flags (i : Nat) (g : TaskGroup T n) : GroupOp T In Time → Prop
  | .onTick _ | .onShutdown _ => i < g.switcher.bits.bytes.length * 8
  | .onEvent _ index _ => index = i ∧ i ∈ g.live
  | _ => False

/-- The slot at an index has nothing to put out: it is vacant, or its task has no output and
has not become empty. -/
def TaskGroup.Quiet (g : TaskGroup T n) (now : Time) (i : Nat) : Prop :=
  ∀ c, g.slot i = some c → (popOutput c.task now).1 = none ∧
    (c.isEmpty = true ∨ isEmpty (popOutput c.task now).2 = false)

/-- The operation comes past the slot at an index: that has nothing to put out, and the flagged
slots before it have nothing either. -/
def GroupOp.Drains (i : Nat) (g : TaskGroup T n) : GroupOp T In Time → Prop
  | .popOutput now => i < g.switcher.tasks ∧ ∀ j ≤ i, g.switcher.flag j = true → g.Quiet now j
  | _ => False

namespace TaskGroup

/-- `add_task` puts the task in a slot that there is, or in a new one. -/
theorem addTask_switcher (g : TaskGroup T n) (task : T) :
    ((g.addTask task).1 < g.tasks.len ∧ (g.addTask task).2.switcher = g.switcher) ∨
      ((g.addTask task).1 = g.tasks.len ∧
        (g.addTask task).2.switcher = g.switcher.setTasks (g.tasks.len + 1)) := by
  unfold addTask
  split
  · rename_i index hfind
    obtain ⟨hlt, -⟩ := List.findIdx?_eq_some_iff_getElem.mp hfind
    exact .inl ⟨by simpa using hlt, rfl⟩
  · exact .inr (by simp)

theorem flag_callAll (g : TaskGroup T n) (f : T → T) (i : Nat) :
    (g.callAll f).switcher.flag i = true ↔ i < g.switcher.bits.bytes.length * 8 :=
  (BitVec.flag_setAll_iff g.switcher.bits true i).trans (and_iff_right rfl)

theorem flag_onEvent {g g' : TaskGroup T n} {now : Instant} {index : Nat} {input : In}
    {result : Option Unit} (h : g.onEvent now index input = .ok (result, g')) (i : Nat) :
    g'.switcher.flag i = true ↔ (index = i ∧ i ∈ g.live) ∨ g.switcher.flag i = true := by
  cases hc : g.slot index with
  | none =>
      rw [onEvent_vacant hc] at h
      cases h
      have hvacant : index ∉ g.live := by simp [mem_live, hc]
      constructor
      · exact .inr
      · rintro (⟨rfl, hi⟩ | hi)
        · exact absurd hi hvacant
        · exact hi
  | some c =>
      have hlive : index ∈ g.live := mem_live.2 ⟨c, hc⟩
      simp only [onEvent, slot_eq_some.1 hc] at h
      obtain ⟨switcher, hflag, hok⟩ := bind_ok.1 h
      cases hok
      have hset := (TaskSwitcher.flagTask_ok hflag).2.flag_eq i
      by_cases hi : i = index
      · subst hi
        rw [if_pos rfl] at hset
        exact iff_of_true hset (.inl ⟨rfl, hlive⟩)
      · rw [if_neg hi] at hset
        exact (Bool.eq_iff_iff.1 hset).trans ⟨.inr, fun h ↦ h.resolve_left fun h ↦ hi h.1.symm⟩

/-- What `pop_output` has done to the flags when its loop comes to another group: those that it
has cleared are of slots with nothing to put out, and it has gone from the first one on. -/
structure Passed (now : Time) (g t : TaskGroup T n) : Prop where
  tasks_eq : t.switcher.tasks = g.switcher.tasks
  flag : ∀ {j : Nat}, t.switcher.flag j = true → g.switcher.flag j = true ∧ t.slot j = g.slot j
  quiet : ∀ {j : Nat}, g.switcher.flag j = true → t.switcher.flag j = false →
    j < g.switcher.tasks ∧ g.Quiet now j ∧
      ∀ k < j, g.switcher.flag k = true → t.switcher.flag k = false

variable {now : Time} {g t : TaskGroup T n}

theorem Passed.refl (g : TaskGroup T n) : Passed now g g where
  tasks_eq := rfl
  flag h := ⟨h, rfl⟩
  quiet h h' := by cases h.symm.trans h'

/-- A slot that is still flagged has what it had. -/
theorem Passed.quiet_iff (h : Passed now g t) {j : Nat} (hj : t.switcher.flag j = true) :
    t.Quiet now j ↔ g.Quiet now j := by
  rw [Quiet, Quiet, (h.flag hj).2]

/-- The flag of the current slot is cleared, where that has nothing to put out. -/
theorem Passed.finish (h : Passed now g t) {t' : TaskGroup T n} {i : Nat}
    (hi : t.switcher.current = some i) (hquiet : t.Quiet now i)
    (hset : t.switcher.SetFlag i false t'.switcher)
    (hslot : ∀ j, j ≠ i → t'.slot j = t.slot j) : Passed now g t' := by
  obtain ⟨hlt, hflag⟩ := TaskSwitcher.mem_flagged.mp (TaskSwitcher.current_eq_some hi)
  constructor
  · exact hset.tasks_eq.trans h.tasks_eq
  · intro j hj
    rw [hset.flag_eq] at hj
    split at hj
    · cases hj
    · rename_i hne
      exact ⟨(h.flag hj).1, (hslot j hne).trans (h.flag hj).2⟩
  · intro j hj hcleared
    rw [hset.flag_eq] at hcleared
    split at hcleared
    · rename_i hji
      subst hji
      refine ⟨h.tasks_eq ▸ hlt, (h.quiet_iff hflag).mp hquiet, fun k hk _ ↦ ?_⟩
      rw [hset.flag_eq, if_neg (Nat.ne_of_lt hk)]
      exact TaskSwitcher.flag_before_current hi hk
    · obtain ⟨hlt', hquiet', hbefore⟩ := h.quiet hj hcleared
      refine ⟨hlt', hquiet', fun k hk hflagged ↦ ?_⟩
      rw [hset.flag_eq]
      split
      · rfl
      · exact hbefore k hk hflagged

theorem Passed.turn (h : Passed now g t) {t' : TaskGroup T n} (hturn : turn now t = .inl t') :
    Passed now g t' := by
  have hcases := turn_cases now t
  rw [hturn] at hcases
  cases hcases with
  | @finishes i c task switcher hi hc hpop hold hset =>
      refine h.finish hi (fun c' hc' ↦ ?_) hset fun j hj ↦ ?_
      · cases hc.symm.trans hc'
        rw [hpop]
        exact ⟨rfl, hold⟩
      · exact (slot_setSlot (slot_lt hc) _ j).trans (if_neg hj)
  | vacant hi hc hset =>
      refine h.finish hi (fun c' hc' ↦ ?_) hset fun _ _ ↦ rfl
      cases hc.symm.trans hc'

/-- Where the loop leaves, the first slot that is still flagged has something to put out. -/
theorem Passed.not_quiet (h : Passed now g t)
    {r : Panics (Option (TaskGroupOutput Out) × TaskGroup T n)}
    (hleave : TaskGroup.turn now t = .inr r) {i : Nat} (hi : t.switcher.flag i = true)
    (hlt : i < g.switcher.tasks) :
    ∃ j ≤ i, g.switcher.flag j = true ∧ ¬ g.Quiet now j := by
  have hcases := turn_cases now t
  rw [hleave] at hcases
  have hfirst {j : Nat} (hj : t.switcher.current = some j) (hnot : ¬ t.Quiet now j) :
      ∃ j ≤ i, g.switcher.flag j = true ∧ ¬ g.Quiet now j := by
    have hflag := TaskSwitcher.flag_current hj
    refine ⟨j, Nat.le_of_not_lt fun hij ↦ ?_, (h.flag hflag).1, hnot ∘ (h.quiet_iff hflag).mpr⟩
    cases hi.symm.trans (TaskSwitcher.flag_before_current hj hij)
  cases hcases with
  | drained hnone => cases hi.symm.trans (hnone i (h.tasks_eq.symm ▸ hlt))
  | output hj hc hpop =>
      refine hfirst hj fun hquiet ↦ ?_
      have hnone := (hquiet _ hc).1
      rw [hpop] at hnone
      cases hnone
  | empties hj hc hpop hbefore hempty =>
      refine hfirst hj fun hquiet ↦ ?_
      have hstill := (hquiet _ hc).2
      rw [hpop, hbefore, hempty] at hstill
      rcases hstill with hstill | hstill <;> cases hstill

/-- Polling flags nothing, and clears the flags of the slots that it comes past. -/
theorem flag_popOutput (g : TaskGroup T n) (now : Time) (i : Nat) :
    (popOutput g now).2.switcher.flag i = true ↔
      ¬ (i < g.switcher.tasks ∧ ∀ j ≤ i, g.switcher.flag j = true → g.Quiet now j) ∧
        g.switcher.flag i = true := by
  obtain ⟨t, hvisits, hleave⟩ := popOutput_exit g now
  have hpassed : Passed now g t := hvisits.invariant (fun _ _ h hb ↦ h.turn hb) (.refl g)
  have hsame : (popOutput g now).2.switcher = t.switcher := by
    have hcases := turn_cases now t
    rw [hleave] at hcases
    generalize popOutput g now = r at hcases
    cases hcases <;> rfl
  rw [hsame]
  constructor
  · intro hi
    refine ⟨fun ⟨hlt, hall⟩ ↦ ?_, (hpassed.flag hi).1⟩
    obtain ⟨j, hj, hflag, hnot⟩ := hpassed.not_quiet hleave hi hlt
    exact hnot (hall j hj hflag)
  · rintro ⟨hnot, hi⟩
    by_contra hcleared
    rw [Bool.not_eq_true] at hcleared
    obtain ⟨hlt, hquiet, hbefore⟩ := hpassed.quiet hi hcleared
    refine hnot ⟨hlt, fun j hj hflag ↦ ?_⟩
    rcases Nat.lt_or_eq_of_le hj with hlt' | rfl
    · exact (hpassed.quiet hflag (hbefore j hlt' hflag)).2.1
    · exact hquiet

/-- **What one operation does to a flag.** -/
theorem flag_step {g g' : TaskGroup T n} {op : GroupOp T In Time} (hd : GroupDoes g op g')
    (i : Nat) :
    g'.switcher.flag i = true ↔ op.Flags i g ∨ (¬ op.Drains i g ∧ g.switcher.flag i = true) := by
  cases hd with
  | addTask =>
      rw [(addTask_cases g _).2.2.2.2.1 i]
      simp [GroupOp.Flags, GroupOp.Drains]
  | removeTask hlive hok =>
      rw [(removeTask_cases hok).2.2.2.1 i]
      simp [GroupOp.Flags, GroupOp.Drains]
  | onEvent hok =>
      rw [flag_onEvent hok i]
      simp [GroupOp.Flags, GroupOp.Drains]
  | onTick =>
      rw [onTick, flag_callAll]
      simp only [GroupOp.Flags, GroupOp.Drains, not_false_iff, true_and]
      exact ⟨.inl, fun h ↦ h.elim id BitVec.flag_lt⟩
  | onShutdown =>
      rw [onShutdown, flag_callAll]
      simp only [GroupOp.Flags, GroupOp.Drains, not_false_iff, true_and]
      exact ⟨.inl, fun h ↦ h.elim id BitVec.flag_lt⟩
  | @popOutput now =>
      simp only [GroupOp.Flags, GroupOp.Drains, false_or]
      exact flag_popOutput g now i

/-- The slot at an index was flagged, and `pop_output` has not come past it since. -/
def LeftSet (i : Nat) (h : History (TaskGroup T n) (GroupOp T In Time) (GroupAnswer Out)) : Prop :=
  Since (fun m ↦ ¬ m.label.Drains i m.pre) (fun m ↦ m.label.Flags i m.pre) h

theorem flag_iff {h : History (TaskGroup T n) (GroupOp T In Time) (GroupAnswer Out)}
    {g : TaskGroup T n} (hr : group.Run .default h g) (i : Nat) :
    g.switcher.flag i = true ↔ LeftSet i h :=
  hr.since_iff (P := fun g ↦ g.switcher.flag i = true) (by simp [default]) fun _ hm ↦
    flag_step (group_cases hm) i

/-- The slot that `add_task` adds, where it adds one, is not flagged if it was not before. -/
theorem newClear_addTask {g : TaskGroup T n} (htasks : g.switcher.tasks = g.tasks.len) (task : T) :
    g.switcher.bits.NewClear (g.addTask task).2.switcher.bits ↔
      ((g.addTask task).1 = g.tasks.len → g.switcher.flag g.tasks.len ≠ true) := by
  rcases addTask_switcher g task with ⟨hlt, hsame⟩ | ⟨hnew, hgrown⟩
  · rw [hsame]
    refine iff_of_true ⟨fun _ _ ↦ rfl, fun i hi hi' ↦ absurd hi' (Nat.not_lt.2 hi)⟩ ?_
    exact fun hnew ↦ absurd hnew (Nat.ne_of_lt hlt)
  · have hlen : g.switcher.bits.len = g.tasks.len := htasks
    rw [hgrown]
    refine BitVec.newClear_setLen.trans ?_
    rw [hlen]
    constructor
    · exact fun h _ ↦ h _ (Nat.le_refl _) (Nat.lt_succ_self _)
    · intro h i hi hi'
      obtain rfl : i = g.tasks.len := Nat.le_antisymm (Nat.le_of_lt_succ hi') hi
      exact h hnew

end TaskGroup

/-! ## New flags -/

section Runs

variable {len tasks : Nat} {hb : History BitVec BitOp Empty} {b : BitVec}
  {hs : History TaskSwitcher SwitcherOp Empty} {s : TaskSwitcher}
  {hg : History (TaskGroup T n) (GroupOp T In Time) (GroupAnswer Out)} {g : TaskGroup T n}

/-- **New flags are clear exactly when they were not left set**: those of the bits, of a
switcher, and of the slot that `add_task` adds. -/
theorem newFlags_iff (hbits : BitVec.machine.Run (.news len) hb b)
    (hswitcher : TaskSwitcher.machine.Run (.new tasks) hs s)
    (hgroup : group.Run .default hg g) :
    (∀ m, b.NewClear (b.setLen m) ↔ ∀ i, b.len ≤ i → i < m → ¬ BitVec.LeftSet i hb) ∧
      (∀ m, s.bits.NewClear (s.setTasks m).bits ↔
        ∀ i, s.tasks ≤ i → i < m → ¬ TaskSwitcher.LeftSet i hs) ∧
      ∀ task, g.switcher.bits.NewClear (g.addTask task).2.switcher.bits ↔
        ((g.addTask task).1 = g.tasks.len → ¬ TaskGroup.LeftSet g.tasks.len hg) := by
  refine ⟨fun m ↦ ?_, fun m ↦ ?_, fun task ↦ ?_⟩
  · simp only [← BitVec.flag_iff hbits]
    exact BitVec.newClear_setLen
  · simp only [← TaskSwitcher.flag_iff hswitcher]
    exact BitVec.newClear_setLen
  · rw [← TaskGroup.flag_iff hgroup]
    have hsound : g.Sound := hgroup.invariant TaskGroup.sound_default fun _ hm hs ↦
      hs.step (group_cases hm)
    exact TaskGroup.newClear_addTask hsound.tasks_eq task

end Runs

/-- A tick flags the first task, and all the slots that there are bytes for. -/
def ticked : History (TaskGroup Echo 1) (GroupOp Echo Nat Unit) (GroupAnswer Nat) ×
    TaskGroup Echo 1 :=
  (group.exec .default [.addTask ⟨[]⟩, .onTick 0]).get (by decide +kernel)

theorem run_ticked : group.Run .default ticked.1 ticked.2 := Machine.exec_run_get _

theorem newFlags_iff_ticked :
    ((BitVec.news 0).NewClear ((BitVec.news 0).setLen 9) ↔
        ∀ i, 0 ≤ i → i < 9 → ¬ BitVec.LeftSet i []) ∧
      ∀ task, ticked.2.switcher.bits.NewClear (ticked.2.addTask task).2.switcher.bits ↔
        ((ticked.2.addTask task).1 = ticked.2.tasks.len →
          ¬ TaskGroup.LeftSet ticked.2.tasks.len ticked.1) := by
  have hbits : BitVec.machine.Run (.news 0) [] (.news 0) := .nil
  have hswitcher : TaskSwitcher.machine.Run (.new 0) [] (.new 0) := .nil
  obtain ⟨hbits, -, hgroup⟩ := newFlags_iff hbits hswitcher run_ticked
  exact ⟨hbits 9, hgroup⟩

/-- The second bit is set with the first one, and then becomes visible; and so does the
flag of a second task that is added after a tick. -/
theorem not_newClear_ticked :
    (∃ h, BitVec.machine.Run (.news 1) h ((BitVec.news 1).setAll true)) ∧
      (((BitVec.news 1).setAll true).setLen 2).getBit 1 = .ok true ∧
      ¬ ((BitVec.news 1).setAll true).NewClear (((BitVec.news 1).setAll true).setLen 2) ∧
      group.Run .default ticked.1 ticked.2 ∧ (ticked.2.addTask ⟨[]⟩).1 = 1 ∧
      ¬ ticked.2.switcher.bits.NewClear (ticked.2.addTask ⟨[]⟩).2.switcher.bits := by
  have hset : BitVec.machine.Fires
      ⟨.news 1, .setAll true, [], (BitVec.news 1).setAll true⟩ := rfl
  refine ⟨⟨_, .snoc .nil hset⟩, by decide +kernel, ?_, run_ticked, by decide +kernel, ?_⟩
  · intro h
    exact absurd (h.clear 1 (by decide) (by decide)) (by decide +kernel)
  · intro h
    exact absurd (h.clear 1 (by decide +kernel) (by decide +kernel)) (by decide +kernel)

end SansIo
