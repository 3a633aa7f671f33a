import SansIo.Lib.ForEach
import SansIo.Task.Branches

/-!
# Draining in order

A caller drains a `TaskGroup` by calling its `pop_output` until that returns `None`, and
a worker with several branches by the driver loop.  In between the flags of a switcher
decide whose turn it is.  Both loops are led by these flags, so both are plain loops:

* `pours_iff`: a group puts out what each flagged slot puts out by itself, slot by slot;
* `driver_inOrder`: the driver loop puts out what each flagged branch puts out by itself,
  in the order of their places in the switcher.

That is the cycle the documentation of `TaskSwitcher` asks for: the first is called until it
returns `None`, then the second.
-/

namespace SansIo

open Lib Collections

/-- The current task is the first that is flagged. -/
theorem TaskSwitcher.current_eq_find? (s : TaskSwitcher) :
    s.current = (List.range s.tasks).find? s.flag := by
  have hfirst := s.bits.firstSetIndex_isFirst
  cases hcur : s.current with
  | none =>
      symm
      rw [List.find?_range_eq_none]
      intro i hi
      simp [current_eq_none hcur hi]
  | some i =>
      rw [show s.bits.firstSetIndex = some i from hcur] at hfirst
      obtain ⟨-, hlt, hflag, hbefore⟩ := hfirst
      symm
      rw [List.find?_range_eq_some]
      refine ⟨hflag, List.mem_range.mpr hlt, fun j hj ↦ ?_⟩
      simp [flag, hbefore j (Nat.zero_le j) hj]

/-! ## A group -/

namespace TaskGroup

variable {T In Out Time : Type} {n : Nat} [Task T In Out Time]

open TaskSwitcherChild (popOutput isEmpty emptyEvent)

/-- `while let Some(out) = group.pop_output(now)`: what comes out, and the group then. -/
inductive Pours (now : Time) : TaskGroup T n → List (TaskGroupOutput Out) → TaskGroup T n → Prop
  | done {g g'} (h : popOutput g now = (none, g')) : Pours now g [] g'
  | pop {g out g₁ outs g'} (h : popOutput g now = (some out, g₁)) (hrest : Pours now g₁ outs g') :
      Pours now g (out :: outs) g'

/-- What `pop_output` makes of one slot by itself: what comes out, whether its flag stays,
and the slot then. -/
def slotTurn (now : Time) (index : Nat) : Option (TaskContainer T) →
    List (TaskGroupOutput Out) × Bool × Option (TaskContainer T)
  | none => ([], false, none)
  | some slot => match popOutput slot.task now with
    | (some out, task) => ([.taskOutput index out], true, some { slot with task })
    | (none, task) =>
      if !slot.isEmpty && isEmpty task then
        ([.taskOutput index (emptyEvent task)], true, some ⟨task, true⟩)
      else ([], false, some ⟨task, isEmpty task⟩)

/-- One turn of the loop of `pop_output`, with what comes out, unless no slot is flagged. -/
def pourTurn (now : Time) (g : TaskGroup T n) :
    Option (List (TaskGroupOutput Out) × TaskGroup T n) :=
  match turn now g with
  | .inl g' => some ([], g')
  | .inr (.ok (some out, g')) => some ([out], g')
  | .inr _ => none

/-- To know what `pop_output` returns it is enough to follow its loop. -/
theorem popOutput_eq {now : Time} {g : TaskGroup T n}
    {r : Option (TaskGroupOutput Out) × TaskGroup T n} (h : Loop.Returns (turn now) g (.ok r)) :
    popOutput g now = r := by
  cases (returns_popOutput g now).unique h
  rfl

/-- A turn that goes round again is part of the same `pop_output`. -/
theorem popOutput_again {now : Time} {g g₁ : TaskGroup T n} (h : turn now g = .inl g₁) :
    popOutput g now = popOutput g₁ now :=
  popOutput_eq (.again h (returns_popOutput g₁ now))

theorem Pours.again {now : Time} {g g₁ g' : TaskGroup T n} {outs : List (TaskGroupOutput Out)}
    (h : turn now g = .inl g₁) (hp : Pours now g₁ outs g') : Pours now g outs g' := by
  cases hp with
  | done hpop => exact .done ((popOutput_again h).trans hpop)
  | pop hpop hrest => exact .pop ((popOutput_again h).trans hpop) hrest

/-- The turns of one `pop_output`, before those of the next. -/
theorem runs_of_returns {now : Time} {g g₁ : TaskGroup T n} {out : Option (TaskGroupOutput Out)}
    (h : Loop.Returns (turn now) g (.ok (out, g₁))) {outs : List (TaskGroupOutput Out)}
    {g' : TaskGroup T n} (hnone : out = none → outs = [] ∧ g' = g₁)
    (hsome : ∀ o, out = some o → Runs (pourTurn now) g₁ outs g') :
    Runs (pourTurn now) g (out.toList ++ outs) g' := by
  generalize hr : Except.ok (out, g₁) = r at h
  induction h with
  | @leave g r hleave =>
      subst hr
      cases out with
      | some o =>
          have hnext : pourTurn now g = some ([o], g₁) := by simp only [pourTurn, hleave]
          exact .step hnext (hsome o rfl)
      | none =>
          obtain ⟨rfl, rfl⟩ := hnone rfl
          have hturn := turn_cases now g
          rw [hleave] at hturn
          cases hturn
          exact .done (by simp only [pourTurn, hleave])
  | @again g g₂ _ hagain _ ih =>
      have hnext : pourTurn now g = some ([], g₂) := by simp only [pourTurn, hagain]
      rw [← List.nil_append (out.toList ++ outs)]
      exact .step hnext (ih hr)

/-- Popping until there is nothing is taking turns until no slot is flagged. -/
theorem pours_iff_runs {now : Time} {g g' : TaskGroup T n} {outs : List (TaskGroupOutput Out)} :
    Pours now g outs g' ↔ Runs (pourTurn now) g outs g' := by
  constructor
  · intro h
    induction h with
    | @done g g' hpop =>
        have hreturns := returns_popOutput g now
        rw [hpop] at hreturns
        exact runs_of_returns hreturns (fun _ ↦ ⟨rfl, rfl⟩) nofun
    | @pop g out g₁ outs g' hpop _ ih =>
        have hreturns := returns_popOutput g now
        rw [hpop] at hreturns
        exact runs_of_returns hreturns nofun fun _ _ ↦ ih
  · intro h
    induction h with
    | @done g hnext =>
        have hturn := turn_cases now g
        generalize hr : turn now g = r at hturn
        rw [pourTurn, hr] at hnext
        cases hturn with
        | drained => exact .done (popOutput_eq (.leave hr))
        | _ => cases hnext
    | @step g out g₁ outs g' hnext _ ih =>
        have hturn := turn_cases now g
        generalize hr : turn now g = r at hturn
        rw [pourTurn, hr] at hnext
        cases hturn with
        | drained => cases hnext
        | output =>
            cases hnext
            exact .pop (popOutput_eq (.leave hr)) ih
        | empties =>
            cases hnext
            exact .pop (popOutput_eq (.leave hr)) ih
        | finishes =>
            cases hnext
            exact ih.again hr
        | vacant =>
            cases hnext
            exact ih.again hr

/-- The loop of a group is led by the flags of its switcher. -/
theorem led_group (now : Time) (k : Nat) :
    Led (slotTurn now) (List.range k) (slot (T := T) (n := n)) (fun g ↦ g.switcher.flag)
      (fun g ↦ g.switcher.tasks = k) (pourTurn now) where
  nodup := List.nodup_range
  done g htasks hnone := by
    subst htasks
    rw [← TaskSwitcher.current_eq_find?] at hnone
    simp only [pourTurn, turn, hnone]
  step g i htasks hi := by
    subst htasks
    rw [← TaskSwitcher.current_eq_find?] at hi
    have hflag : Function.update g.switcher.flag i true = g.switcher.flag := by
      rw [← TaskSwitcher.flag_current hi, Function.update_eq_self]
    have hslot (c : TaskContainer T) (hlt : i < g.tasks.len) :
        (g.setSlot i c).slot = Function.update g.slot i (some c) := by
      funext j
      rw [slot_setSlot hlt, Function.update_apply]
    have hclear {s : TaskSwitcher} (hs : g.switcher.SetFlag i false s) :
        s.flag = Function.update g.switcher.flag i false := by
      funext j
      rw [hs.flag_eq, Function.update_apply]
    have hturn := turn_cases now g
    generalize hr : turn now g = r at hturn
    rw [pourTurn, hr]
    cases hturn with
    | drained hdrained =>
        have hmem := TaskSwitcher.mem_flagged.mp (TaskSwitcher.current_eq_some hi)
        cases (hdrained i hmem.1).symm.trans hmem.2
    | @output i' c out task hi' hc hpop =>
        cases hi.symm.trans hi'
        rw [hc]
        simp only [slotTurn, hpop]
        exact ⟨_, rfl, hslot _ (slot_lt hc), hflag.symm, rfl⟩
    | @empties i' c task hi' hc hpop hbefore hempty =>
        cases hi.symm.trans hi'
        rw [hc]
        simp only [slotTurn, hpop, hbefore, hempty, Bool.not_false, Bool.and_self, if_true]
        exact ⟨_, rfl, hslot _ (slot_lt hc), hflag.symm, rfl⟩
    | @finishes i' c task s hi' hc hpop hold hs =>
        cases hi.symm.trans hi'
        have hstill : (!c.isEmpty && isEmpty task) = false := by
          rcases hold with hold | hold <;> simp [hold]
        rw [hc]
        simp only [slotTurn, hpop, hstill, Bool.false_eq_true, if_false]
        exact ⟨_, rfl, hslot _ (slot_lt hc), hclear hs, hs.tasks_eq⟩
    | @vacant i' s hi' hc hs =>
        cases hi.symm.trans hi'
        have hsame : Function.update g.slot i none = g.slot := by
          rw [← hc, Function.update_eq_self]
        rw [hc]
        exact ⟨_, rfl, hsame.symm, hclear hs, hs.tasks_eq⟩

/-- **A group is drained slot by slot.**  What comes out of it until it has nothing is what
comes out of each flagged slot by itself, in the order of the slots, and it leaves the same
slots behind; and it comes to an end where they do. -/
theorem pours_iff (g : TaskGroup T n) (now : Time) (outs : List (TaskGroupOutput Out))
    (slots : Nat → Option (TaskContainer T)) :
    (∃ g', Pours now g outs g' ∧ g'.slot = slots) ↔
      ∃ f, ForEach (slotTurn now) (List.range g.switcher.tasks) g.switcher.flag g.slot f slots ∧
        outs = inOrder (List.range g.switcher.tasks) g.switcher.flag f := by
  rw [← (led_group now g.switcher.tasks).runs_iff rfl]
  simp only [pours_iff_runs]

end TaskGroup

/-! ## The driver loop -/

section Driver

variable {n : Nat} {T Out Time : Fin n → Type} [∀ k, TaskSwitcherChild (T k) (Out k) (Time k)]
  {task : ∀ k, T k} {taskType : Fin n → Nat}

open TaskSwitcherChild (isEmpty emptyEvent)

/-- What `pop_output` makes of one branch by itself: what comes out, whether its flag stays,
and the branch then. -/
def branchTurn (now : ∀ k, Time k) (k : Fin n) (b : TaskSwitcherBranch (T k)) :
    List (Σ k, Out k) × Bool × TaskSwitcherBranch (T k) :=
  match TaskSwitcherChild.popOutput b.task (now k) with
  | (some out, task) => ([⟨k, out⟩], true, { b with task })
  | (none, task) =>
    if !b.isEmpty && isEmpty task then
      ([⟨k, emptyEvent task⟩], true, { b with task, isEmpty := true })
    else ([], false, { b with task, isEmpty := isEmpty task })

/-- What comes out in a turn of the driver loop. -/
def driverShows (now : ∀ k, Time k) (st : Branches T) : List (Σ k, Out k) :=
  match st.switcher.current with
  | none => []
  | some i => match (List.finRange n).find? fun k ↦ (st.branch k).taskType == i with
    | none => []
    | some k => match (st.branch k).popOutput (now k) st.switcher with
      | .ok (out, _, _) => out.toList.map (Sigma.mk k)
      | .error _ => []

/-- A branch that is popped does what it does by itself. -/
theorem branchTurn_of_pops {k : Fin n} {b b' : TaskSwitcherBranch (T k)}
    {now : ∀ k, Time k} {s s' : TaskSwitcher} {out : Option (Out k)}
    (h : b.Pops (now k) s out b' s') :
    branchTurn now k b = (out.toList.map (Sigma.mk k), out.isSome, b') := by
  cases h with
  | output hpop => simp only [branchTurn, hpop]; rfl
  | empties hpop hbefore hempty => simp [branchTurn, hpop, hbefore, hempty]
  | @finishes task empty s' hpop hempty hold hs =>
      subst hempty
      have hstill : ¬ (!b.isEmpty && isEmpty task) = true := by
        rcases hold with hold | hold <;> simp [hold]
      simp only [branchTurn, hpop, if_neg hstill]
      rfl

/-- The driver loop is led by the flags of its switcher. -/
theorem led_driver (hinj : Function.Injective taskType) {order : List (Fin n)}
    (horder : order.map taskType = List.range n) (now : ∀ k, Time k) :
    Led (branchTurn now) order (Branches.branch (T := T))
      (fun st k ↦ st.switcher.flag (taskType k)) (·.Placed taskType)
      (Loop.next (driverTurn now) (driverShows now)) where
  nodup := List.Nodup.of_map taskType (horder ▸ List.nodup_range)
  done st hst hnone := by
    have hcur : st.switcher.current = none := by
      rw [TaskSwitcher.current_eq_find?, hst.tasks_eq, ← horder, List.find?_map]
      exact congrArg _ hnone
    simp only [Loop.next, driverTurn, hcur]
  step st k hst hk := by
    have hcur : st.switcher.current = some (taskType k) := by
      rw [TaskSwitcher.current_eq_find?, hst.tasks_eq, ← horder, List.find?_map]
      exact congrArg _ hk
    have hfind : (List.finRange n).find? (fun j ↦ (st.branch j).taskType == taskType k) =
        some k := by
      cases hfind : (List.finRange n).find? fun j ↦ (st.branch j).taskType == taskType k with
      | none => simpa [hst.taskType_eq] using List.find?_eq_none.mp hfind k (List.mem_finRange k)
      | some j =>
          have hj := List.find?_some hfind
          rw [hst.taskType_eq, beq_iff_eq] at hj
          rw [hinj hj]
    have hplace : (st.branch k).taskType < st.switcher.tasks := by
      rw [hst.taskType_eq, hst.tasks_eq]
      have hmem : taskType k ∈ order.map taskType :=
        List.mem_map_of_mem (List.mem_of_find?_eq_some hk)
      rwa [horder, List.mem_range] at hmem
    obtain ⟨⟨out, b, s⟩, hpop⟩ := (st.branch k).popOutput_ok (now k) hplace
    have hpops := TaskSwitcherBranch.popOutput_cases hpop
    have htasks : s.tasks = n := by
      by_cases hout : out = none
      · exact (hpops.setFlag hout).tasks_eq.trans hst.tasks_eq
      · exact hpops.switcher_eq hout ▸ hst.tasks_eq
    have hflag : st.switcher.flag (taskType k) = true := by simpa using List.find?_some hk
    refine ⟨st.set k b s, ?_, ?_, ?_, fun j ↦ ?_, htasks⟩
    · rw [branchTurn_of_pops hpops]
      simp only [Loop.next, driverTurn, driverShows, hcur, hfind, hpop]
    · rw [branchTurn_of_pops hpops]
      rfl
    · rw [branchTurn_of_pops hpops]
      funext j
      rw [Function.update_apply]
      cases out with
      | some out =>
          have hswitcher : s = st.switcher := hpops.switcher_eq (Option.some_ne_none out)
          split
          · rename_i hj
            subst hj
            rw [Branches.switcher_set, hswitcher]
            exact hflag
          · rw [Branches.switcher_set, hswitcher]
      | none =>
          rw [Branches.switcher_set, (hpops.setFlag rfl).flag_eq, hst.taskType_eq]
          simp only [hinj.eq_iff, Option.isSome_none]
    · by_cases hj : j = k
      · subst hj
        rw [Branches.branch_set_self, hpops.taskType_eq, hst.taskType_eq]
      · rw [Branches.branch_set_of_ne _ _ _ hj, hst.taskType_eq]

/-- The driver loop is left where no branch is flagged. -/
theorem driverTurn_done (hinj : Function.Injective taskType) (hlt : ∀ k, taskType k < n)
    {st : Branches T} (hst : st.Placed taskType)
    (hclear : ∀ k, st.switcher.flag (taskType k) = false) (now : ∀ k, Time k) :
    driverTurn now st = .inr (.ok st) ∧ driverShows now st = [] := by
  obtain ⟨hcur, hleave⟩ | ⟨k, out, b, s, hflag, -⟩ := driverTurn_cases hinj hlt hst now
  · exact ⟨hleave, by rw [driverShows, hcur]⟩
  · cases (hclear k).symm.trans hflag

/-- **The driver loop drains branch after branch.**  What comes out of it is what comes out
of each flagged branch by itself, in the order of their places in the switcher, and it
leaves the same branches behind; and it comes to an end where they do. -/
theorem driver_inOrder (hinj : Function.Injective taskType) (hlt : ∀ k, taskType k < n)
    {order : List (Fin n)} (horder : order.map taskType = List.range n)
    {h : BranchHistory T Out Time} {st : Branches T}
    (hr : branches.Run (Branches.new task taskType) h st) (now : ∀ k, Time k)
    (outs : List (Σ k, Out k)) (after : ∀ k, TaskSwitcherBranch (T k)) :
    (∃ st', Loop.Returns (Loop.traced (driverTurn now) (driverShows now)) (st, [])
        (.ok st', outs) ∧ st'.branch = after) ↔
      ∃ f, ForEach (branchTurn now) order (fun k ↦ st.switcher.flag (taskType k)) st.branch f
          after ∧
        outs = inOrder order (fun k ↦ st.switcher.flag (taskType k)) f := by
  have hled := led_driver (T := T) hinj horder now
  have hst := placed_of_run hr
  have hmem (k : Fin n) : k ∈ order := by
    have htype : taskType k ∈ order.map taskType := horder ▸ List.mem_range.mpr (hlt k)
    obtain ⟨j, hj, hjk⟩ := List.mem_map.mp htype
    exact hinj hjk ▸ hj
  -- where its turns end, the loop is left with nothing more to show
  have hdone {outs : List (Σ k, Out k)} {st' : Branches T}
      (hruns : Runs (Loop.next (driverTurn now) (driverShows now)) st outs st') :
      driverTurn now st' = .inr (.ok st') ∧ driverShows now st' = [] := by
    obtain ⟨hst', hclear, -⟩ := hled.forEach_of_runs hruns hst
    exact driverTurn_done hinj hlt hst' (fun k ↦ hclear k (hmem k)) now
  rw [← hled.runs_iff hst]
  constructor
  · rintro ⟨st', hreturns, hafter⟩
    obtain ⟨outs', s', hruns, hleave, houts⟩ := Loop.returns_traced_iff.mp hreturns
    obtain ⟨hleave', hshows⟩ := hdone hruns
    cases hleave.symm.trans hleave'
    obtain rfl : outs = outs' := by simpa [hshows] using houts
    exact ⟨st', hruns, hafter⟩
  · rintro ⟨st', hruns, hafter⟩
    obtain ⟨hleave, hshows⟩ := hdone hruns
    exact ⟨st', Loop.returns_traced_iff.mpr ⟨outs, st', hruns, hleave, by simp [hshows]⟩, hafter⟩

end Driver

/-- Two branches, the second of which has the first place, got an event each. -/
def swapped : BranchHistory (fun _ : Fin 2 ↦ Echo) (fun _ ↦ Nat) (fun _ ↦ Unit) ×
    Branches fun _ : Fin 2 ↦ Echo :=
  (branches.exec (Branches.new (fun _ ↦ Echo.mk []) fun k ↦ k.rev.val)
    [.input 0 fun e ↦ ⟨e.waiting ++ [7]⟩, .input 1 fun e ↦ ⟨e.waiting ++ [8]⟩]).get rfl

/-- The theorem there: the second is drained before the first. -/
theorem driver_inOrder_swapped :
    ∃ st', Loop.Returns (Loop.traced (driverTurn fun _ ↦ ()) (driverShows fun _ ↦ ()))
      (swapped.2, []) (.ok st', [⟨1, 8⟩, ⟨1, 0⟩, ⟨0, 7⟩, ⟨0, 0⟩]) := by
  have hinj : Function.Injective fun k : Fin 2 ↦ k.rev.val :=
    Fin.val_injective.comp Fin.rev_injective
  have hdrains : ForEach (branchTurn fun _ ↦ ()) [1, 0]
      (fun k : Fin 2 ↦ swapped.2.switcher.flag k.rev.val) swapped.2.branch
      (fun k ↦ [⟨k, if k = 0 then 7 else 8⟩, ⟨k, 0⟩])
      (fun k ↦ ⟨k.rev.val, ⟨[]⟩, true⟩) := by
    constructor
    · have hdrains (k : Fin 2) (i : Nat) :
          Drains (branchTurn (T := fun _ : Fin 2 ↦ Echo) (fun _ ↦ ()) k) ⟨k.rev.val, ⟨[i]⟩, false⟩
            ([⟨k, i⟩] ++ ([⟨k, 0⟩] ++ [])) ⟨k.rev.val, ⟨[]⟩, true⟩ :=
        .more rfl (.more rfl (.last rfl))
      intro k _ _
      match k with
      | 0 => exact hdrains 0 7
      | 1 => exact hdrains 1 8
    · intro k hk
      have hflagged : ∀ k : Fin 2, k ∈ [1, 0] ∧ swapped.2.switcher.flag k.rev.val = true := by
        decide
      obtain ⟨hmem, hflag⟩ := hflagged k
      rcases hk with hk | hk
      · exact absurd hmem hk
      · cases hflag.symm.trans hk
  have horder : [(1 : Fin 2), 0].map (fun k ↦ k.rev.val) = List.range 2 := rfl
  obtain ⟨st', hreturns, -⟩ := (driver_inOrder hinj (fun k ↦ k.rev.isLt) horder
    (Machine.exec_run_get rfl) (fun _ ↦ ()) _ _).mpr ⟨_, hdrains, rfl⟩
  exact ⟨st', hreturns⟩

end SansIo
