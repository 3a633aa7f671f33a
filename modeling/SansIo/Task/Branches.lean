import Mathlib.Algebra.Order.BigOperators.Group.Finset
import Mathlib.Data.Fintype.BigOperators
import SansIo.Task.Drained

/-!
# Several branches on one switcher

A worker that has tasks of several types keeps each in a `TaskSwitcherBranch`, all
of them on one switcher, and drives them with the loop

`while let Some(i) = switcher.current() { branch i .pop_output(now, switcher) }`.

`branches` is the machine of the inputs to the branches and the calls of their
`pop_output`, and `driverTurn` one turn of the loop.  A branch remembers whether
its task was empty when that last had no output (`isEmpty_eq_lastEmptyOf`), so it
reports an episode of emptiness once; and it is flagged as long as it has an input
that was not drained (`flag_of_pending`).  The loop leaves because a pop of a
branch either uses up an output of its task, or reports the emptiness of a task
that is not going to change, or clears the flag (`driver_returns`).
-/

namespace SansIo

open Lib Collections

variable {n : Nat} {T Out Time : Fin n → Type}

/-- Branches, each with a task of its own type, and the switcher they share. -/
structure Branches {n : Nat} (T : Fin n → Type) where
  /-- The branches. -/
  branch : (k : Fin n) → TaskSwitcherBranch (T k)
  /-- The switcher. -/
  switcher : TaskSwitcher

/-- What can happen to branches. -/
inductive BranchOp {n : Nat} (T Time : Fin n → Type) where
  | /-- `input()` of a branch, and what the caller does to the task. -/
    input (k : Fin n) (f : T k → T k)
  | /-- `pop_output` of a branch. -/
    popOutput (k : Fin n) (now : Time k)

/-- What is seen of a `pop_output` of a branch. -/
structure BranchPop {n : Nat} (Out : Fin n → Type) where
  /-- The branch. -/
  branch : Fin n
  /-- What the `pop_output` of its task returned. -/
  taskOut : Option (Out branch)
  /-- Whether the task was then empty. -/
  taskEmpty : Bool
  /-- What the branch returned. -/
  out : Option (Out branch)

/-- Whether the task of a branch was empty when it last had no output; before
that it counts as not empty. -/
def lastEmptyOf (k : Fin n) (pops : List (BranchPop Out)) : Bool :=
  pops.foldl (fun before p ↦ if p.branch = k ∧ p.taskOut.isNone then p.taskEmpty else before) false

theorem lastEmptyOf_append (k : Fin n) (pops : List (BranchPop Out)) (p : BranchPop Out) :
    lastEmptyOf k (pops ++ [p]) =
      if p.branch = k ∧ p.taskOut.isNone then p.taskEmpty else lastEmptyOf k pops := by
  simp [lastEmptyOf]

namespace Branches

/-- New branches on `TaskSwitcher::new(n)`. -/
def new (task : ∀ k, T k) (taskType : Fin n → Nat) : Branches T where
  branch k := .new (task k) (taskType k)
  switcher := .new n

/-- One of the branches is replaced, together with the switcher. -/
def set (st : Branches T) (k : Fin n) (b : TaskSwitcherBranch (T k)) (s : TaskSwitcher) :
    Branches T where
  branch := Function.update st.branch k b
  switcher := s

@[simp] theorem branch_set_self (st : Branches T) (k : Fin n) (b : TaskSwitcherBranch (T k))
    (s : TaskSwitcher) : (st.set k b s).branch k = b := Function.update_self ..

theorem branch_set_of_ne (st : Branches T) {j k : Fin n} (b : TaskSwitcherBranch (T k))
    (s : TaskSwitcher) (h : j ≠ k) : (st.set k b s).branch j = st.branch j :=
  Function.update_of_ne h ..

@[simp] theorem switcher_set (st : Branches T) (k : Fin n) (b : TaskSwitcherBranch (T k))
    (s : TaskSwitcher) : (st.set k b s).switcher = s := rfl

end Branches

variable [∀ k, TaskSwitcherChild (T k) (Out k) (Time k)]

/-- The branches under every sequence of inputs and pops. -/
def branches : Machine (Branches T) (BranchOp T Time) (BranchPop Out) where
  step st
    | .input k f => match (st.branch k).input st.switcher f with
      | .ok (b, s) => some (st.set k b s, [])
      | .error _ => none
    | .popOutput k now => match (st.branch k).popOutput now st.switcher with
      | .ok (out, b, s) =>
        let (taskOut, task) := TaskSwitcherChild.popOutput (st.branch k).task now
        some (st.set k b s, [⟨k, taskOut, TaskSwitcherChild.isEmpty task, out⟩])
      | .error _ => none

/-- What a step does to the branches. -/
inductive BranchDoes (st : Branches T) :
    BranchOp T Time → Branches T → List (BranchPop Out) → Prop
  | /-- The branch is flagged, and its task is changed. -/
    input {k f s} (hs : st.switcher.SetFlag (st.branch k).taskType true s) :
      BranchDoes st (.input k f)
        (st.set k { st.branch k with task := f (st.branch k).task } s) []
  | /-- The branch is popped. -/
    popOutput {k now taskOut task out b s}
      (htask : TaskSwitcherChild.popOutput (st.branch k).task now = (taskOut, task))
      (hpops : (st.branch k).Pops now st.switcher out b s) :
      BranchDoes st (.popOutput k now) (st.set k b s)
        [⟨k, taskOut, TaskSwitcherChild.isEmpty task, out⟩]

theorem branches_cases {st st' : Branches T} {op : BranchOp T Time} {events : List (BranchPop Out)}
    (h : branches.step st op = some (st', events)) : BranchDoes st op st' events := by
  cases op with
  | input k f =>
      simp only [branches] at h
      split at h
      · rename_i b s hinput
        cases h
        obtain ⟨t, ht, hb⟩ := bind_ok.mp hinput
        cases hb
        exact .input (TaskSwitcher.flagTask_ok ht).2
      · cases h
  | popOutput k now =>
      simp only [branches] at h
      split at h
      · rename_i out b s hpop
        cases h
        exact .popOutput rfl (TaskSwitcherBranch.popOutput_cases hpop)
      · cases h

/-! ## What the branches remember -/

/-- The branches are where they were put. -/
structure Branches.Placed (st : Branches T) (taskType : Fin n → Nat) : Prop where
  taskType_eq : ∀ k, (st.branch k).taskType = taskType k
  tasks_eq : st.switcher.tasks = n

/-- A history of branches. -/
abbrev BranchHistory {n : Nat} (T Out Time : Fin n → Type) :=
  History (Branches T) (BranchOp T Time) (BranchPop Out)

variable {task : ∀ k, T k} {taskType : Fin n → Nat}

theorem placed_of_run {h : BranchHistory T Out Time} {st : Branches T}
    (hr : branches.Run (Branches.new task taskType) h st) : st.Placed taskType := by
  refine hr.invariant (I := fun st ↦ st.Placed taskType) ⟨fun _ ↦ rfl, rfl⟩ ?_
  rintro ⟨pre, op, events, post⟩ hm ⟨htypes, htasks⟩
  have hset : ∀ (k : Fin n) (b : TaskSwitcherBranch (T k)) (s : TaskSwitcher),
      b.taskType = taskType k → s.tasks = n → (pre.set k b s).Placed taskType := by
    intro k b s hb hs
    refine ⟨fun j ↦ ?_, hs⟩
    by_cases hj : j = k
    · subst hj
      rw [Branches.branch_set_self, hb]
    · rw [Branches.branch_set_of_ne _ _ _ hj, htypes]
  have hdoes : BranchDoes pre op post events := branches_cases hm
  cases hdoes with
  | @input k f s hs => exact hset k _ s (htypes k) (hs.tasks_eq.trans htasks)
  | @popOutput k now taskOut task out b s htask hpops =>
      refine hset k b s (hpops.taskType_eq.trans (htypes k)) ?_
      by_cases hout : out = none
      · exact (hpops.setFlag hout).tasks_eq.trans htasks
      · rw [hpops.switcher_eq hout, htasks]

/-- **A branch remembers whether its task was empty when it last had no output.** -/
theorem isEmpty_eq_lastEmptyOf {h : BranchHistory T Out Time} {st : Branches T}
    (hr : branches.Run (Branches.new task taskType) h st) (k : Fin n) :
    (st.branch k).isEmpty = lastEmptyOf k h.events := by
  induction hr with
  | nil => rfl
  | @snoc h m hr hm ih =>
      obtain ⟨pre, op, events, post⟩ := m
      rw [History.events_append, History.events_singleton]
      have hdoes : BranchDoes pre op post events := branches_cases hm
      cases hdoes with
      | @input j f s hs =>
          rw [List.append_nil, ← ih]
          by_cases hj : k = j
          · subst hj
            rw [Branches.branch_set_self]
          · rw [Branches.branch_set_of_ne _ _ _ hj]
      | @popOutput j now taskOut task out b s htask hpops =>
          rw [lastEmptyOf_append]
          by_cases hj : k = j
          · subst hj
            rw [Branches.branch_set_self, hpops.isEmpty_eq, hpops.task_eq, htask]
            by_cases hnone : taskOut.isNone
            · rw [if_pos hnone, if_pos ⟨rfl, hnone⟩]
            · rw [if_neg hnone, if_neg fun h ↦ hnone h.2]
              exact ih
          · rw [Branches.branch_set_of_ne _ _ _ hj, if_neg fun h ↦ hj h.1.symm]
            exact ih

/-- A branch has got an input since it was last drained. -/
def Pending (k : Fin n) (h : BranchHistory T Out Time) : Prop :=
  Since (fun m ↦ ∀ p ∈ m.events, p.branch = k → p.out ≠ none) (fun m ↦ ∃ f, m.label = .input k f) h

/-- **A branch is flagged as long as it has an input that was not drained.** -/
theorem flag_of_pending (hinj : Function.Injective taskType) {h : BranchHistory T Out Time}
    {st : Branches T} (hr : branches.Run (Branches.new task taskType) h st) {k : Fin n}
    (hpending : Pending k h) : st.switcher.flag (taskType k) = true := by
  induction hr with
  | nil => exact absurd hpending not_since_nil
  | @snoc h m hr hm ih =>
      have htypes := (placed_of_run hr).taskType_eq
      obtain ⟨pre, op, events, post⟩ := m
      have hcases := since_snoc.mp hpending
      have hdoes : BranchDoes pre op post events := branches_cases hm
      cases hdoes with
      | @input j f s hs =>
          refine (hs.flag_eq _).trans ?_
          rw [htypes j]
          by_cases hj : k = j
          · rw [if_pos (congrArg taskType hj)]
          · rw [if_neg fun heq ↦ hj (hinj heq)]
            rcases hcases with ⟨f', hf'⟩ | ⟨-, hpending⟩
            · cases hf'
              exact absurd rfl hj
            · exact ih hpending
      | @popOutput j now taskOut task out b s htask hpops =>
          obtain ⟨hkeeps, hpending⟩ := hcases.resolve_left fun ⟨f, hf⟩ ↦ by cases hf
          have hbefore := ih hpending
          by_cases hout : out = none
          · have hj : k ≠ j := fun hj ↦
              hkeeps _ (List.mem_singleton.mpr rfl) hj.symm hout
            refine ((hpops.setFlag hout).flag_eq _).trans ?_
            rw [htypes j, if_neg fun heq ↦ hj (hinj heq)]
            exact hbefore
          · exact hpops.switcher_eq hout ▸ hbefore

/-! ## The driver loop -/

section Settles

variable {S SOut STime : Type} [TaskSwitcherChild S SOut STime]

/-- A task after a number of pops. -/
def afterPops (now : STime) (i : Nat) (t : S) : S :=
  (fun t ↦ (TaskSwitcherChild.popOutput t now).2)^[i] t

/-- From a number of pops on, the task has no output. -/
def SettlesAfter (now : STime) (j : Nat) (t : S) : Prop :=
  ∀ i ≥ j, (TaskSwitcherChild.popOutput (afterPops now i t) now).1 = none

/-- The task has no output after finitely many pops, and stays so. -/
def Settles (now : STime) (t : S) : Prop := ∃ j, SettlesAfter now j t

theorem SettlesAfter.pop {now : STime} {j : Nat} {t : S} (h : SettlesAfter now j t) :
    SettlesAfter now (j - 1) (TaskSwitcherChild.popOutput t now).2 := by
  intro i hi
  have hnext := h (i + 1) (by omega)
  rwa [afterPops, Function.iterate_succ_apply] at hnext

/-- What a branch has left to do: its outputs, the report of its emptiness, and
its flag. -/
def weight (j : Nat) (reported flagged : Bool) : Nat :=
  2 * j + (if reported then 0 else 1) + (if flagged then 2 else 0)

/-- **Every pop of a flagged branch has it do something that was left.** -/
theorem TaskSwitcherBranch.Pops.weight_lt {b b' : TaskSwitcherBranch S} {now : STime}
    {s s' : TaskSwitcher} {out : Option SOut} (h : b.Pops now s out b' s') {j : Nat}
    (hj : SettlesAfter now j b.task) (hflag : s.flag b.taskType = true) :
    weight (j - 1) b'.isEmpty (s'.flag b.taskType) <
      weight j b.isEmpty (s.flag b.taskType) := by
  rw [hflag]
  cases h with
  | output hpop =>
      have hpos : j ≠ 0 := by
        rintro rfl
        have hnone := hj 0 (Nat.le_refl 0)
        rw [afterPops, Function.iterate_zero_apply, hpop] at hnone
        cases hnone
      rw [hflag]
      simp only [weight]
      omega
  | empties hpop hbefore hempty =>
      rw [hflag, hbefore]
      simp only [weight, if_true, Bool.false_eq_true, if_false]
      omega
  | @finishes task empty s' hpop hempty hold hs =>
      have hclear := (TaskSwitcher.finished_ok hs).2.flag_eq b.taskType
      rw [if_pos rfl] at hclear
      rw [hclear]
      simp only [weight, if_true, Bool.false_eq_true, if_false]
      split <;> omega

end Settles

/-- One turn of the driver loop. -/
def driverTurn (now : ∀ k, Time k) (st : Branches T) : Branches T ⊕ Panics (Branches T) :=
  match st.switcher.current with
  | none => .inr (.ok st)
  | some i => match (List.finRange n).find? fun k ↦ (st.branch k).taskType == i with
    | none => .inr (.error s!"no branch {i}")
    | some k => match (st.branch k).popOutput (now k) st.switcher with
      | .ok (_, b, s) => .inl (st.set k b s)
      | .error text => .inr (.error text)

/-- Distinct numbers below `n` for `n` branches are all the numbers below `n`. -/
theorem exists_taskType (hinj : Function.Injective taskType) (hlt : ∀ k, taskType k < n) {i : Nat}
    (hi : i < n) : ∃ k, taskType k = i := by
  have hsurj : Function.Surjective fun k ↦ (⟨taskType k, hlt k⟩ : Fin n) :=
    Finite.surjective_of_injective fun j k hjk ↦ hinj (congrArg Fin.val hjk)
  obtain ⟨k, hk⟩ := hsurj ⟨i, hi⟩
  exact ⟨k, congrArg Fin.val hk⟩

/-- A turn of the driver loop leaves if no branch is flagged, and otherwise pops a
flagged branch. -/
theorem driverTurn_cases (hinj : Function.Injective taskType) (hlt : ∀ k, taskType k < n)
    {st : Branches T} (hst : st.Placed taskType) (now : ∀ k, Time k) :
    (st.switcher.current = none ∧ driverTurn now st = .inr (.ok st)) ∨
    ∃ k out b s, st.switcher.flag (taskType k) = true ∧
      (st.branch k).Pops (now k) st.switcher out b s ∧
      driverTurn now st = .inl (st.set k b s) ∧
      ∃ events, branches.step st (.popOutput k (now k)) = some (st.set k b s, events) := by
  cases hcur : st.switcher.current with
  | none => exact .inl ⟨rfl, by rw [driverTurn, hcur]⟩
  | some i =>
      have hi := TaskSwitcher.mem_flagged.mp (TaskSwitcher.current_eq_some hcur)
      obtain ⟨k', hk'⟩ := exists_taskType hinj hlt (hst.tasks_eq ▸ hi.1)
      cases hfind : (List.finRange n).find? fun k ↦ (st.branch k).taskType == i with
      | none =>
          have hno := List.find?_eq_none.mp hfind k' (List.mem_finRange k')
          rw [hst.taskType_eq, hk'] at hno
          simp at hno
      | some k =>
          have hk : taskType k = i := by
            have := List.find?_some hfind
            rwa [hst.taskType_eq, beq_iff_eq] at this
          have hplace : (st.branch k).taskType < st.switcher.tasks := by
            rw [hst.taskType_eq, hst.tasks_eq]
            exact hlt k
          obtain ⟨⟨out, b, s⟩, hpop⟩ := (st.branch k).popOutput_ok (now k) hplace
          refine .inr ⟨k, out, b, s, hk ▸ hi.2, TaskSwitcherBranch.popOutput_cases hpop, ?_, ?_⟩
          · simp only [driverTurn, hcur, hfind, hpop]
          · simp only [branches, hpop]
            exact ⟨_, rfl⟩

/-- What all branches have left to do. -/
def driverRank (taskType : Fin n → Nat) (now : ∀ k, Time k) (N : Nat) (st : Branches T) : Prop :=
  st.Placed taskType ∧ ∃ j : Fin n → Nat, (∀ k, SettlesAfter (now k) (j k) (st.branch k).task) ∧
    N = ∑ k, weight (j k) (st.branch k).isEmpty (st.switcher.flag (taskType k))

/-- A turn of the driver loop leaves, or leaves less to do. -/
theorem driverRank_turn (hinj : Function.Injective taskType) (hlt : ∀ k, taskType k < n)
    (now : ∀ k, Time k) (N : Nat) (st : Branches T) (h : driverRank taskType now N st) :
    (∃ r, driverTurn now st = .inr r) ∨
      ∃ st' N', driverTurn now st = .inl st' ∧ N' < N ∧ driverRank taskType now N' st' := by
  obtain ⟨hst, j, hj, rfl⟩ := h
  obtain ⟨-, hleave⟩ | ⟨k, out, b, s, hflag, hpops, hagain, -⟩ :=
    driverTurn_cases hinj hlt hst now
  · exact .inl ⟨_, hleave⟩
  have hother : ∀ i ≠ k, s.flag (taskType i) = st.switcher.flag (taskType i) := by
    intro i hi
    by_cases hout : out = none
    · rw [(hpops.setFlag hout).flag_eq, hst.taskType_eq, if_neg fun heq ↦ hi (hinj heq)]
    · rw [hpops.switcher_eq hout]
  have htasks : s.tasks = n := by
    by_cases hout : out = none
    · exact (hpops.setFlag hout).tasks_eq.trans hst.tasks_eq
    · exact hpops.switcher_eq hout ▸ hst.tasks_eq
  refine .inr ⟨st.set k b s, _, hagain, ?_, ⟨fun i ↦ ?_, htasks⟩,
    Function.update j k (j k - 1), fun i ↦ ?_, rfl⟩
  · refine Finset.sum_lt_sum (fun i _ ↦ ?_) ⟨k, Finset.mem_univ k, ?_⟩
    · by_cases hi : i = k
      · subst hi
        rw [Function.update_self, Branches.branch_set_self, Branches.switcher_set,
          ← hst.taskType_eq]
        exact Nat.le_of_lt (hpops.weight_lt (hj i) (hst.taskType_eq i ▸ hflag))
      · rw [Function.update_of_ne hi, Branches.branch_set_of_ne _ _ _ hi, Branches.switcher_set,
          hother i hi]
    · rw [Function.update_self, Branches.branch_set_self, Branches.switcher_set,
        ← hst.taskType_eq]
      exact hpops.weight_lt (hj k) (hst.taskType_eq k ▸ hflag)
  · by_cases hi : i = k
    · subst hi
      rw [Branches.branch_set_self, hpops.taskType_eq, hst.taskType_eq]
    · rw [Branches.branch_set_of_ne _ _ _ hi, hst.taskType_eq]
  · by_cases hi : i = k
    · subst hi
      rw [Function.update_self, Branches.branch_set_self, hpops.task_eq]
      exact (hj i).pop
    · rw [Function.update_of_ne hi, Branches.branch_set_of_ne _ _ _ hi]
      exact hj i

/-- **The driver loop ends**, if every task settles.  It does nothing but pop
branches, and when it has ended no branch has an input that was not drained. -/
theorem driver_returns (hinj : Function.Injective taskType) (hlt : ∀ k, taskType k < n)
    {h : BranchHistory T Out Time} {st : Branches T}
    (hr : branches.Run (Branches.new task taskType) h st) {now : ∀ k, Time k}
    (hsettles : ∀ k, Settles (now k) (st.branch k).task) :
    ∃ st' h', Loop.Returns (driverTurn now) st (.ok st') ∧ branches.Run st h' st' ∧
      (∀ m ∈ h', ∃ k, m.label = .popOutput k (now k)) ∧ ∀ k, ¬ Pending k (h ++ h') := by
  choose j hj using hsettles
  obtain ⟨r, hreturns⟩ := Loop.returns_of_rank (driverRank_turn hinj hlt now)
    ⟨placed_of_run hr, j, hj, rfl⟩
  obtain ⟨t, hvisits, hleave⟩ := hreturns.exit
  have hrun : ∃ h', branches.Run st h' t ∧ ∀ m ∈ h', ∃ k, m.label = .popOutput k (now k) := by
    clear hleave hreturns
    induction hvisits with
    | start => exact ⟨[], .nil, by simp⟩
    | @turn t t' _ hagain ih =>
        obtain ⟨h', hr', hpops⟩ := ih
        have ht := placed_of_run (hr.append hr')
        obtain ⟨-, hleave⟩ | ⟨k, out, b, s, -, -, hstep, events, hfires⟩ :=
          driverTurn_cases hinj hlt ht now
        · cases hagain.symm.trans hleave
        · cases hagain.symm.trans hstep
          have hm : branches.Fires ⟨t, .popOutput k (now k), events, t.set k b s⟩ := hfires
          refine ⟨_, hr'.snoc hm, ?_⟩
          intro m hm
          rcases List.mem_append.mp hm with hm | hm
          · exact hpops m hm
          · rw [List.mem_singleton.mp hm]
            exact ⟨k, rfl⟩
  obtain ⟨h', hr', hpops⟩ := hrun
  have ht := placed_of_run (hr.append hr')
  obtain ⟨hcur, hleave'⟩ | ⟨k, out, b, s, -, -, hstep, -⟩ := driverTurn_cases hinj hlt ht now
  · cases hleave.symm.trans hleave'
    refine ⟨t, h', hreturns, hr', hpops, ?_⟩
    intro k hpending
    have hflag := flag_of_pending hinj (hr.append hr') hpending
    have hclear := TaskSwitcher.current_eq_none hcur (ht.tasks_eq.symm ▸ hlt k)
    cases hflag.symm.trans hclear
  · cases hleave.symm.trans hstep

/-! ## Episodes of emptiness -/

/-- A branch reports an episode of emptiness once, and touches the switcher only
where it returns `None`. -/
theorem branch_episode {h₁ h₂ : BranchHistory T Out Time}
    {m : Moment (Branches T) (BranchOp T Time) (BranchPop Out)} {st : Branches T}
    (hr : branches.Run (Branches.new task taskType) (h₁ ++ m :: h₂) st) {p : BranchPop Out}
    (hp : p ∈ m.events) :
    (∀ o, p.taskOut = some o → p.out = some o) ∧
    (p.taskOut = none → p.out =
      if p.taskEmpty = true ∧ lastEmptyOf p.branch (History.events h₁) = false then
        some (TaskSwitcherChild.emptyEvent (m.post.branch p.branch).task) else none) ∧
    (p.out ≠ none → m.post.switcher = m.pre.switcher) ∧
    (p.out = none → m.pre.switcher.SetFlag (taskType p.branch) false m.post.switcher) := by
  obtain ⟨hr₁, hm, -⟩ := hr.split
  have htypes := (placed_of_run hr₁).taskType_eq
  have hremembers := isEmpty_eq_lastEmptyOf hr₁
  obtain ⟨pre, op, events, post⟩ := m
  have hdoes : BranchDoes pre op post events := branches_cases hm
  cases hdoes with
  | input => cases hp
  | @popOutput k now taskOut task out b s htask hpops =>
      obtain rfl := List.mem_singleton.mp hp
      have htask' := hpops.task_eq
      rw [htask] at htask'
      refine ⟨?_, ?_, hpops.switcher_eq, fun hout ↦ htypes k ▸ hpops.setFlag hout⟩
      · intro o ho
        apply hpops.out_eq_some
        rw [htask]
        exact ho
      · intro ho
        have hout := hpops.out_eq_empty (by rw [htask]; exact ho)
        rw [htask', hremembers] at hout
        rw [Branches.branch_set_self, htask']
        exact hout

/-- The slots of a group do the same: a turn of `pop_output` whose task has no
output reports the emptiness of the task where an episode begins, and goes on
otherwise. -/
theorem group_episode {U In UOut UTime : Type} [Task U In UOut UTime] {size : Nat}
    {h : History (TaskGroup (Logged U In UOut) size) (GroupOp U In UTime) (GroupAnswer UOut)}
    {g t : TaskGroup (Logged U In UOut) size} (hr : loggedGroup.Run .default h g) {now : UTime}
    (ht : Loop.Visits (TaskGroup.turn now) g t) {i : Nat}
    {c : TaskContainer (Logged U In UOut)} (hi : t.switcher.current = some i)
    (hc : t.slot i = some c) {out : Option UOut} {task : Logged U In UOut}
    (hpop : TaskSwitcherChild.popOutput c.task now = (out, task)) :
    (∀ o, out = some o → ∃ g', TaskGroup.turn now t = .inr (.ok (some (.taskOutput i o), g'))) ∧
    (out = none →
      if TaskSwitcherChild.isEmpty task.task = true ∧ lastEmpty c.task.log = false then
        ∃ g', TaskGroup.turn now t =
          .inr (.ok (some (.taskOutput i (TaskSwitcherChild.emptyEvent task.task)), g'))
      else ∃ g', TaskGroup.turn now t = .inl g') := by
  have htracks : t.Tracks :=
    ht.invariant (fun _ _ hs hb ↦ hs.again hb) (TaskGroup.sound_tracks hr).2
  have hremembers := (htracks i c hc).remembers
  have hcases := TaskGroup.turn_cases now t
  generalize TaskGroup.turn now t = r at hcases
  cases hcases with
  | drained hclear =>
      have hlt := (TaskSwitcher.mem_flagged.mp (TaskSwitcher.current_eq_some hi)).1
      cases (hclear i hlt).symm.trans (TaskSwitcher.flag_current hi)
  | output hi' hc' hpop' =>
      cases hi.symm.trans hi'
      cases hc.symm.trans hc'
      cases hpop.symm.trans hpop'
      constructor
      · rintro o ⟨⟩
        exact ⟨_, rfl⟩
      · rintro ⟨⟩
  | empties hi' hc' hpop' hbefore hempty =>
      cases hi.symm.trans hi'
      cases hc.symm.trans hc'
      cases hpop.symm.trans hpop'
      constructor
      · rintro o ⟨⟩
      · intro
        rw [if_pos ⟨hempty, hremembers ▸ hbefore⟩]
        exact ⟨_, rfl⟩
  | finishes hi' hc' hpop' hold hs =>
      cases hi.symm.trans hi'
      cases hc.symm.trans hc'
      cases hpop.symm.trans hpop'
      constructor
      · rintro o ⟨⟩
      · intro
        rw [if_neg]
        · exact ⟨_, rfl⟩
        · rintro ⟨hempty, hbefore⟩
          rcases hold with hold | hold
          · cases hbefore.symm.trans (hremembers.symm.trans hold)
          · cases hempty.symm.trans hold
  | vacant hi' hc' _ =>
      cases hi.symm.trans hi'
      cases hc.symm.trans hc'

/-- **One empty event per episode, and the driver loop ends.**  A branch and a
slot of a group add an empty event exactly where their task has no output, is
empty, and was not empty when it last had no output; a branch leaves the switcher
alone where it returns `Some`, and clears its own flag where it returns `None`;
and the driver loop ends with every branch drained, if every task settles and each branch
has a place of its own on the switcher. -/
theorem episodes_and_driver {h : BranchHistory T Out Time} {st : Branches T}
    (hr : branches.Run (Branches.new task taskType) h st) :
    (∀ h₁ m h₂, h = h₁ ++ m :: h₂ → ∀ p ∈ m.events,
      (∀ o, p.taskOut = some o → p.out = some o) ∧
      (p.taskOut = none → p.out =
        if p.taskEmpty = true ∧ lastEmptyOf p.branch (History.events h₁) = false then
          some (TaskSwitcherChild.emptyEvent (m.post.branch p.branch).task) else none) ∧
      (p.out ≠ none → m.post.switcher = m.pre.switcher) ∧
      (p.out = none → m.pre.switcher.SetFlag (taskType p.branch) false m.post.switcher)) ∧
    (∀ {U In UOut UTime : Type} [Task U In UOut UTime] {size : Nat}
      {h : History (TaskGroup (Logged U In UOut) size) (GroupOp U In UTime) (GroupAnswer UOut)}
      {g t : TaskGroup (Logged U In UOut) size}, loggedGroup.Run .default h g → ∀ {now : UTime},
      Loop.Visits (TaskGroup.turn now) g t → ∀ {i c out task}, t.switcher.current = some i →
      t.slot i = some c → TaskSwitcherChild.popOutput c.task now = (out, task) →
      (∀ o, out = some o → ∃ g', TaskGroup.turn now t = .inr (.ok (some (.taskOutput i o), g'))) ∧
      (out = none →
        if TaskSwitcherChild.isEmpty task.task = true ∧ lastEmpty c.task.log = false then
          ∃ g', TaskGroup.turn now t =
            .inr (.ok (some (.taskOutput i (TaskSwitcherChild.emptyEvent task.task)), g'))
        else ∃ g', TaskGroup.turn now t = .inl g')) ∧
    (Function.Injective taskType → (∀ k, taskType k < n) →
      ∀ now : ∀ k, Time k, (∀ k, Settles (now k) (st.branch k).task) →
        ∃ st' h', Loop.Returns (driverTurn now) st (.ok st') ∧ branches.Run st h' st' ∧
          (∀ m ∈ h', ∃ k, m.label = .popOutput k (now k)) ∧ ∀ k, ¬ Pending k (h ++ h')) := by
  refine ⟨?_, ?_, fun hinj hlt now ↦ driver_returns hinj hlt hr⟩
  · rintro h₁ m h₂ rfl p hp
    exact branch_episode hr hp
  · intro U In UOut UTime _ size h g t hg now ht i c out task hi hc hpop
    exact group_episode hg ht hi hc hpop

/-- An `Echo` has no output left after one for each input. -/
theorem settles_echo (e : Echo) : Settles () e := by
  refine ⟨e.waiting.length, ?_⟩
  intro i hi
  have hdrop : (afterPops () i e).waiting = e.waiting.drop i := by
    clear hi
    induction i generalizing e with
    | zero => rfl
    | succ i ih =>
        rw [afterPops, Function.iterate_succ_apply]
        exact (ih ⟨e.waiting.tail⟩).trans (by rw [List.drop_tail])
  have hnil : (afterPops () i e).waiting = [] := by rw [hdrop, List.drop_eq_nil_of_le hi]
  exact congrArg List.head? hnil

/-- The theorem at two branches, one of which was sent two events. -/
theorem episodes_and_driver_echo :
    ∃ h st st' h', branches.Run (Branches.new (fun _ : Fin 2 ↦ Echo.mk []) Fin.val) h st ∧
      Pending 1 h ∧ Loop.Returns (driverTurn fun _ ↦ ()) st (.ok st') ∧ ¬ Pending 1 (h ++ h') :=
  have hr := Machine.exec_run (M := branches)
    (s := Branches.new (fun _ : Fin 2 ↦ Echo.mk []) Fin.val)
    (l := [.input 1 fun e ↦ ⟨e.waiting ++ [7, 8]⟩]) rfl
  have ⟨st', h', hreturns, _, _, hdrained⟩ :=
    (episodes_and_driver hr).2.2 Fin.val_injective Fin.isLt (fun _ ↦ ()) fun _ ↦ settles_echo _
  ⟨_, _, st', h', hr, ⟨[], _, [], rfl, ⟨_, rfl⟩, by simp⟩, hreturns, hdrained 1⟩

end SansIo
