import SansIo.System.Steps

/-!
# When a controller may stop

After `shutdown`, `process` returns `None` once `count_running_workers` is zero.  It
counts from the stats that the controller has recorded last, which need not describe
the workers as they are.  They may be a default that no worker has sent; `spawn` adds
to their `tasks` and leaves `is_empty` as it was, so that a worker which was empty
still counts as stopped; and stats that were on their way when a task was spawned
overwrite what `spawn` added.  So `process` may return `None` while a task is waiting
to be spawned (`not_always_graceful`).

`UpToDate` says that this has not happened to a worker: since it sent the stats that
were recorded last, it has been given no task and has not become busy.  A run in which
every worker is up to date whenever `process` counts none that is running abandons no
work (`graceful_of_upToDate`).
-/

namespace SansIo

open Lib Bus Backend Collections

variable {t : WorkerTypes} {I : Type} {n : Nat}

/-- The message asks a worker to spawn a task. -/
def WorkerControlIn.isSpawn {Ext SCfg : Type} : WorkerControlIn Ext SCfg → Bool
  | .spawn _ => true
  | _ => false

/-- A `Spawn` is waiting in a worker's control leg. -/
def System.spawnWaiting (s : System t I n) (i : Nat) : Bool :=
  (s.workerControlBus.waiting i).any fun p ↦ p.2.isSpawn

/-- The event sends a worker a `Spawn`. -/
def SystemEvent.spawnsTo (i : Nat) : SystemEvent t I → Bool
  | .control o => o.leg == i && o.msg.isSpawn
  | _ => false

/-- The stats of a worker that the event records. -/
def SystemEvent.recordedOf (i : Nat) : SystemEvent t I → Option WorkerStats
  | .recorded j stats => if j = i then some stats else none
  | _ => none

/-- The stats of a worker that a history has recorded, in order. -/
def recorded (i : Nat) (h : SystemHistory t I n) : List WorkerStats :=
  h.events.filterMap (SystemEvent.recordedOf i)

/-- The stats that a worker has sent, in order. -/
def produced (i : Nat) (h : SystemHistory t I n) : List WorkerStats :=
  (SystemHistory.of h i).events.filterMap Act.stats

/-- The stats of a worker that are on their way to the controller, in order. -/
def System.inFlight (s : System t I n) (i : Nat) : List WorkerStats :=
  (s.workerEventBus.waiting 0).filterMap fun p ↦
    if p.1 = .direct (i + 1) then statsOf p else none

/-- The inner value of a worker has nothing to do. -/
def Worker.Idle [WorkerInner t I] (x : Worker t I) : Prop :=
  WorkerInner.tasks x.inner = 0 ∨ WorkerInner.isEmpty x.inner = true

instance [WorkerInner t I] (x : Worker t I) : Decidable x.Idle :=
  inferInstanceAs (Decidable (_ ∨ _))

/-- After a run, what the controller has recorded of a worker still holds: from a moment
`r` on, no task has been sent to the worker, none was waiting for it then, and no step
has made it busy.  At `r` the worker sent the stats that were recorded last; or none was
ever recorded, and `r` added the worker, which had nothing to do. -/
def UpToDate [WorkerInner t I] (i : Nat) (h : SystemHistory t I n) : Prop :=
  ∃ g r k, h = g ++ r :: k ∧
    ((produced i [r] ≠ [] ∧ (produced i (g ++ [r])).length = (recorded i h).length) ∨
      (recorded i h = [] ∧ .added i ∈ r.events ∧ ∀ x, r.post.workers[i]? = some x → x.Idle)) ∧
    r.post.spawnWaiting i = false ∧ (∀ m ∈ k, ∀ e ∈ m.events, e.spawnsTo i = false) ∧
    ∀ w ∈ SystemHistory.of k i, w.pre.Idle → w.post.Idle

/-- The step is a `process` that returns `None`. -/
def Stops (m : SystemMoment t I n) : Prop := .processed none ∈ m.events

/-- The call is one of `process`. -/
def SystemOp.isProcess : SystemOp t → Bool
  | .process => true
  | _ => false

/-- `process` is called after `shutdown`, and counts no running worker. -/
def CountsNone (m : SystemMoment t I n) : Prop :=
  m.label.isProcess = true ∧ m.pre.shutdown = true ∧ m.pre.countRunningWorkers = 0

instance (m : SystemMoment t I n) : Decidable (CountsNone m) :=
  inferInstanceAs (Decidable (_ ∧ _ ∧ _))

/-- No work is abandoned: no task waits to be spawned, and no worker has anything to do. -/
def Graceful [WorkerInner t I] (s : System t I n) : Prop :=
  ∀ (i : Nat) (x : Worker t I), s.workers[i]? = some x → s.spawnWaiting i = false ∧ x.Idle

@[simp] theorem recorded_append (i : Nat) (h h' : SystemHistory t I n) :
    recorded i (h ++ h') = recorded i h ++ recorded i h' := by
  simp [recorded]

@[simp] theorem produced_append (i : Nat) (h h' : SystemHistory t I n) :
    produced i (h ++ h') = produced i h ++ produced i h' := by
  simp [produced]

theorem recorded_singleton (i : Nat) (m : SystemMoment t I n) :
    recorded i [m] = m.events.filterMap (SystemEvent.recordedOf i) := by
  simp [recorded]

theorem produced_singleton (i : Nat) (m : SystemMoment t I n) :
    produced i [m] =
      (History.events (m.events.filterMap (SystemEvent.report i))).filterMap Act.stats := by
  simp [produced, SystemHistory.of]

/-- A worker's step records nothing. -/
theorem recordedOf_worker {j : Nat} {w : WorkerMoment t I} {events : List (SystemEvent t I)}
    (h : ∀ e ∈ events, (∃ o, e = .inner o) ∨ ∃ o, e = .event o) (i : Nat) :
    (.worker j w :: events).filterMap (SystemEvent.recordedOf i) = [] := by
  rw [List.filterMap_eq_nil_iff]
  intro e he
  rcases List.mem_cons.mp he with rfl | he
  · rfl
  · rcases h e he with ⟨o, rfl⟩ | ⟨o, rfl⟩ <;> rfl

theorem spawnWaiting_eq_false {s : System t I n} {i : Nat} :
    s.spawnWaiting i = false ↔ ∀ p ∈ s.workerControlBus.waiting i, p.2.isSpawn = false := by
  simp [System.spawnWaiting]

/-- Where no running worker is counted, the stats say that none has anything to do. -/
theorem idle_of_countRunningWorkers {s : System t I n} (h : s.countRunningWorkers = 0)
    {w : WorkerStats} (hw : w ∈ s.stats) : w.tasks = 0 ∨ w.isEmpty = true := by
  have hnil := List.eq_nil_of_length_eq_zero h
  have hnot := List.filter_eq_nil_iff.mp hnil w hw
  by_contra hbusy
  simp only [not_or, Bool.not_eq_true] at hbusy
  exact hnot (by simp [Nat.pos_of_ne_zero hbusy.1, hbusy.2])

/-- A task that is spawned is sent to the worker that the event names. -/
theorem ne_of_spawned {s : System t I n} {best i : Nat} {cfg : t.SCfg}
    {bus : BusSystem UInt16 (WorkerControlIn t.ExtIn t.SCfg) Nat n}
    {o : Offer UInt16 (WorkerControlIn t.ExtIn t.SCfg) Nat}
    (hsend : s.workerControlBus.sendExternal best true (.spawn cfg) = .ok (o, bus))
    (hno : (SystemEvent.control (I := I) o).spawnsTo i = false) : best ≠ i := by
  obtain ⟨hleg, -, hmsg, -⟩ := BusSystem.offer_cases hsend
  rintro rfl
  simp [SystemEvent.spawnsTo, hleg, hmsg, WorkerControlIn.isSpawn] at hno

/-! ## What a step does to the stats of a worker -/

/-- What is on its way before the controller receives a message, from what is on its
way afterwards. -/
theorem inFlight_of_recv {s : System t I n}
    {p : BusEventSource UInt16 × WorkerControlOut t.ExtOut t.SCfg}
    {bus : BusSystem UInt16 (WorkerControlOut t.ExtOut t.SCfg) Nat n}
    (h : s.workerEventBus.recv 0 = (some p, bus)) (i : Nat) :
    s.inFlight i = (if p.1 = .direct (i + 1) then statsOf p else none).toList ++
      { s with workerEventBus := bus }.inFlight i := by
  obtain ⟨-, -, -, ⟨x, hx, hwait⟩ | ⟨hx, -⟩⟩ := s.workerEventBus.recv_cases 0
  · rw [h] at hx hwait
    cases hx
    rw [System.inFlight, hwait, List.filterMap_cons]
    split <;> simp_all [System.inFlight]
  · rw [h] at hx
    cases hx

theorem inFlight_of_recv_none {s : System t I n}
    {bus : BusSystem UInt16 (WorkerControlOut t.ExtOut t.SCfg) Nat n}
    (h : s.workerEventBus.recv 0 = (none, bus)) (i : Nat) :
    { s with workerEventBus := bus }.inFlight i = s.inFlight i := by
  obtain ⟨-, -, -, ⟨x, hx, -⟩ | ⟨-, hwait⟩⟩ := s.workerEventBus.recv_cases 0
  · rw [h] at hx
    cases hx
  · rw [h] at hwait
    simp only [System.inFlight, hwait]

/-- What performing a worker's acts puts on its way. -/
theorem inFlight_of_performed {s s' : System t I n} {x : Worker t I} {acts : List (Act t)}
    {events : List (SystemEvent t I)} (hp : Performed x acts s s' events)
    (hsafe : ∀ act ∈ acts, SafeStats act) (i : Nat) :
    s'.inFlight i =
      s.inFlight i ++ if x.workerOut = i + 1 then acts.filterMap Act.stats else [] := by
  obtain ⟨sent, hw, hsource, hstats⟩ := hp.sent
  rw [System.inFlight, hw, List.filterMap_append, ← hstats hsafe]
  congr 1
  split
  · rename_i hi
    refine List.filterMap_congr fun p hp ↦ ?_
    rw [hsource p hp, hi, if_pos rfl]
  · rename_i hi
    rw [List.filterMap_eq_nil_iff]
    intro p hp
    rw [hsource p hp, if_neg (by simpa using hi)]

variable [WorkerInner t I] [DecidableEq t.Owner] [DecidableEq t.ChannelId]

/-- A worker sends stats when it has been asked for them: safely, and with nothing changed
that they describe. -/
theorem stats_of_step {m : WorkerMoment t I} (hm : worker.Fires m) {safe : Bool}
    {stats : WorkerStats} (hact : .workerOut safe (.stats stats) ∈ m.events) :
    safe = true ∧ stats = m.pre.stats ∧ m.post.stats = m.pre.stats := by
  obtain ⟨pre, a, acts, post⟩ := m
  have hdoes : WorkerDoes pre a post acts := worker_cases hm
  cases hdoes
  case reply hp hpc =>
    cases List.mem_singleton.mp hact
    exact ⟨rfl, rfl, rfl⟩
  case pop out inner hp hout =>
    rcases List.mem_cons.mp hact with hact | hact
    · cases hact
    · obtain ⟨-, -, hno⟩ := Worker.processInnerOutput_acts _ out hact
      exact absurd rfl (hno safe stats)
  all_goals simp at hact

/-- **Stats arrive in the order in which they were sent.** -/
theorem recorded_step {m : SystemMoment t I n} (hwf : m.pre.Wf) (hm : system.Fires m) (i : Nat) :
    recorded i [m] ++ m.post.inFlight i = m.pre.inFlight i ++ produced i [m] := by
  obtain ⟨s, op, events, s'⟩ := m
  have hdoes : SystemDoes s op s' events := system_cases hwf hm
  have hsame : s.inFlight i = s.inFlight i ++ [] := (List.append_nil _).symm
  cases hdoes with
  | @added tick cfg now =>
      have hpost : (s.addWorker tick cfg now).inFlight i = s.inFlight i := by
        simp [System.inFlight, System.addWorker]
      exact hpost.trans hsame
  | quiet hev =>
      rcases hev with rfl | ⟨out, rfl⟩ <;> exact hsame
  | @spawned _ best cfg eventBus bus o hbus hsend =>
      rcases hbus with rfl | ⟨source, hrecv⟩
      · exact hsame
      · have hpre := inFlight_of_recv hrecv i
        simp only [statsOf, ite_self, Option.toList_none, List.nil_append] at hpre
        exact hpre.symm.trans hsame
  | @recorded j stats bus hj hrecv =>
      have hpre := inFlight_of_recv hrecv i
      refine Eq.trans (congrArg (· ++ _) ?_) (hpre.symm.trans hsame)
      rw [recorded_singleton]
      rcases eq_or_ne j i with rfl | hne
      · simp [SystemEvent.recordedOf, statsOf]
      · simp [SystemEvent.recordedOf, hne]
  | heard hrecv =>
      have hpre := inFlight_of_recv hrecv i
      simp only [statsOf, ite_self, Option.toList_none, List.nil_append] at hpre
      exact hpre.symm.trans hsame
  | processed hrecv => exact (inFlight_of_recv_none hrecv i).trans hsame
  | @worker j turn x x' acts events s₂ hx hstep hperf hp =>
      have hmove : worker.Fires ⟨x, (s.answer x turn).1, acts, x'⟩ := hstep
      have hsafe : ∀ act ∈ acts, SafeStats act := by
        rintro act hact stats rfl
        exact Bool.noConfusion (stats_of_step hmove hact).1
      have hin : (s.answer x turn).2.inFlight i = s.inFlight i := by
        rw [(s.answer_frame x turn).1]
        rfl
      have hpost := inFlight_of_performed hp hsafe i
      rw [recorded_singleton, produced_singleton, report_worker hp.events,
        recordedOf_worker hp.events, List.nil_append]
      refine hpost.trans ?_
      rw [hin, (hwf.legs hx).2.1]
      rcases eq_or_ne j i with rfl | hne
      · simp
      · simp [hne]
  | _ => exact hsame

theorem recorded_append_inFlight {h : SystemHistory t I n} {s : System t I n}
    (hr : system.Run .default h s) (i : Nat) : recorded i h ++ s.inFlight i = produced i h := by
  induction hr with
  | nil => rfl
  | snoc hr hm ih =>
      rw [recorded_append, produced_append, ← ih, List.append_assoc, List.append_assoc,
        recorded_step (wf_of_run hr) hm]

/-- What the controller keeps of a worker that it sends no task: what it has recorded
last. -/
theorem stats_step {m : SystemMoment t I n} (hwf : m.pre.Wf) (hm : system.Fires m) {i : Nat}
    (hi : i < m.pre.stats.length) (hno : ∀ e ∈ m.events, e.spawnsTo i = false) :
    m.pre.stats.length ≤ m.post.stats.length ∧
      m.post.stats[i]? = (recorded i [m]).getLast?.or m.pre.stats[i]? := by
  obtain ⟨s, op, events, s'⟩ := m
  have hdoes : SystemDoes s op s' events := system_cases hwf hm
  cases hdoes with
  | added => exact ⟨by simp [System.addWorker], List.getElem?_append_left hi⟩
  | quiet hev =>
      rcases hev with rfl | ⟨out, rfl⟩ <;> exact ⟨le_rfl, rfl⟩
  | @spawned _ best cfg eventBus bus o hbus hsend =>
      have hne : best ≠ i := ne_of_spawned hsend (hno (.control o) List.mem_cons_self)
      refine ⟨(List.length_modify ..).ge, ?_⟩
      simp [recorded_singleton, SystemEvent.recordedOf, List.getElem?_modify_ne, hne]
  | @recorded j stats bus hj hrecv =>
      refine ⟨List.length_set.ge, ?_⟩
      rcases eq_or_ne j i with rfl | hne
      · simp [recorded_singleton, SystemEvent.recordedOf, List.getElem?_set_self hj]
      · simp [recorded_singleton, SystemEvent.recordedOf, hne]
  | @worker j turn x x' acts events s₂ hx hstep hperf hp =>
      have hstats : s₂.stats = s.stats := by
        rw [hp.frame, (s.answer_frame x turn).1]
      refine ⟨hstats ▸ le_rfl, ?_⟩
      rw [recorded_singleton, recordedOf_worker hp.events]
      simp [hstats]
  | _ => exact ⟨le_rfl, rfl⟩

/-- The same of a run. -/
theorem stats_of_run {h k : SystemHistory t I n} {s₀ s : System t I n}
    (hr₀ : system.Run .default h s₀) (hr : system.Run s₀ k s) {i : Nat}
    (hi : i < s₀.stats.length) (hno : ∀ m ∈ k, ∀ e ∈ m.events, e.spawnsTo i = false) :
    i < s.stats.length ∧ s.stats[i]? = (recorded i k).getLast?.or s₀.stats[i]? := by
  induction hr with
  | nil => exact ⟨hi, rfl⟩
  | @snoc k m hr hm ih =>
      obtain ⟨hlt, hstats⟩ := ih fun m' hm' ↦ hno m' (by simp [hm'])
      obtain ⟨hle, hpost⟩ := stats_step (wf_of_run (hr₀.append hr)) hm hlt (hno m (by simp))
      refine ⟨hlt.trans_le hle, ?_⟩
      rw [hpost, hstats, recorded_append, List.getLast?_append, Option.or_assoc]

/-! ## Tasks on their way to a worker -/

/-- A worker that is sent no task has none waiting if it had none. -/
theorem spawnWaiting_step {m : SystemMoment t I n} (hwf : m.pre.Wf) (hm : system.Fires m)
    {i : Nat} (hno : ∀ e ∈ m.events, e.spawnsTo i = false) (h : m.pre.spawnWaiting i = false) :
    m.post.spawnWaiting i = false := by
  obtain ⟨s, op, events, s'⟩ := m
  have hdoes : SystemDoes s op s' events := system_cases hwf hm
  cases hdoes with
  | added => simpa [System.spawnWaiting, System.addWorker] using h
  | @sent _ w safe msg pc bus o hmsg hsend =>
      obtain ⟨-, -, -, -, -, -, hother, hdest⟩ := BusSystem.offer_cases hsend
      have hspawn : msg.isSpawn = false := by
        cases msg with
        | spawn cfg => exact absurd rfl (hmsg cfg)
        | _ => rfl
      rw [spawnWaiting_eq_false] at h ⊢
      intro p hp
      rcases eq_or_ne i w with rfl | hne
      · rcases hdest with hdest | ⟨-, hdest⟩
        · rw [hdest] at hp
          rcases List.mem_append.mp hp with hp | hp
          · exact h p hp
          · obtain rfl := List.mem_singleton.mp hp
            exact hspawn
        · exact h p (hdest ▸ hp)
      · exact h p (hother i hne ▸ hp)
  | @spawned _ best cfg eventBus bus o hbus hsend =>
      obtain ⟨-, -, -, -, -, -, hother, -⟩ := BusSystem.offer_cases hsend
      have hne : best ≠ i := ne_of_spawned hsend (hno (.control o) List.mem_cons_self)
      rw [spawnWaiting_eq_false] at h ⊢
      intro p hp
      exact h p (hother i hne.symm ▸ hp)
  | @worker j turn x x' acts events s₂ hx hstep hperf hp =>
      have hbus : s₂.workerControlBus = (s.answer x turn).2.workerControlBus := by
        rw [hp.frame]
      rw [spawnWaiting_eq_false] at h ⊢
      intro p hmem
      change p ∈ s₂.workerControlBus.waiting i at hmem
      rw [hbus] at hmem
      rcases s.answer_cases x turn with ⟨ha, -⟩ | ha | ha
      · exact h p (by rwa [ha] at hmem)
      · rw [ha] at hmem
        exact h p (BusSystem.mem_waiting_of_recv hmem)
      · exact h p (by rwa [ha] at hmem)
  | _ => exact h

theorem spawnWaiting_of_run {h k : SystemHistory t I n} {s₀ s : System t I n}
    (hr₀ : system.Run .default h s₀) (hr : system.Run s₀ k s) {i : Nat}
    (hno : ∀ m ∈ k, ∀ e ∈ m.events, e.spawnsTo i = false) (h₀ : s₀.spawnWaiting i = false) :
    s.spawnWaiting i = false := by
  induction hr with
  | nil => exact h₀
  | @snoc k m hr hm ih =>
      exact spawnWaiting_step (wf_of_run (hr₀.append hr)) hm (hno m (by simp))
        (ih fun m' hm' ↦ hno m' (by simp [hm']))

/-! ## Stopping -/

/-- `process` returns `None` where it counts no running worker after `shutdown`. -/
theorem countsNone_of_stops {m : SystemMoment t I n} (hwf : m.pre.Wf) (hm : system.Fires m)
    (hs : Stops m) : m.post = m.pre ∧ CountsNone m := by
  obtain ⟨s, op, events, s'⟩ := m
  have hdoes : SystemDoes s op s' events := system_cases hwf hm
  cases hdoes with
  | quiet hev =>
      rcases hev with rfl | ⟨out, rfl⟩ <;> simp [Stops] at hs
  | finished hshutdown hrun => exact ⟨rfl, rfl, hshutdown, hrun⟩
  | worker hx hstep hperf hp =>
      cases hp.eq_worker hs (by simp) (by simp)
  | _ => simp [Stops] at hs

/-- A step in which a worker sends stats: they describe the worker, and nothing is
recorded. -/
theorem produced_cases {m : SystemMoment t I n} (hwf : m.pre.Wf) (hm : system.Fires m) {i : Nat}
    (hprod : produced i [m] ≠ []) :
    recorded i [m] = [] ∧
      ∃ x, m.post.workers[i]? = some x ∧ ∀ st ∈ produced i [m], st = x.stats := by
  obtain ⟨s, op, events, s'⟩ := m
  have hdoes : SystemDoes s op s' events := system_cases hwf hm
  cases hdoes with
  | quiet hev =>
      rcases hev with rfl | ⟨out, rfl⟩ <;> exact absurd rfl hprod
  | @worker j turn x x' acts events s₂ hx hstep hperf hp =>
      have hmove : worker.Fires ⟨x, (s.answer x turn).1, acts, x'⟩ := hstep
      rw [produced_singleton, report_worker hp.events] at hprod ⊢
      rcases eq_or_ne j i with rfl | hne
      · have hj : j < s.workers.length := (List.getElem?_eq_some_iff.mp hx).1
        refine ⟨?_, x', List.getElem?_set_self hj, ?_⟩
        · rw [recorded_singleton]
          exact recordedOf_worker hp.events j
        · intro st hst
          simp only [if_true, History.events_singleton] at hst
          obtain ⟨act, hact, hst⟩ := List.mem_filterMap.mp hst
          obtain ⟨safe, rfl⟩ := Act.stats_eq_some.mp hst
          obtain ⟨-, rfl, hsame⟩ := stats_of_step hmove hact
          exact hsame.symm
      · simp [hne] at hprod
  | _ => exact absurd rfl hprod

theorem added_cases {m : SystemMoment t I n} (hwf : m.pre.Wf) (hm : system.Fires m) {i : Nat}
    (hadd : .added i ∈ m.events) : ∃ x, m.post.workers[i]? = some x := by
  obtain ⟨s, op, events, s'⟩ := m
  have hdoes : SystemDoes s op s' events := system_cases hwf hm
  cases hdoes with
  | added =>
      obtain rfl : i = s.stats.length := by simpa using hadd
      rw [hwf.stats]
      exact ⟨_, List.getElem?_concat_length⟩
  | quiet hev =>
      rcases hev with rfl | ⟨out, rfl⟩ <;> simp at hadd
  | worker hx hstep hperf hp =>
      cases hp.eq_worker hadd (by simp) (by simp)
  | _ => simp at hadd

/-- A worker stays idle that no step makes busy. -/
theorem idle_of_run {x₀ x : Worker t I} {k : WorkerHistory t I} (hr : worker.Run x₀ k x)
    (h₀ : x₀.Idle) (hk : ∀ w ∈ k, w.pre.Idle → w.post.Idle) : x.Idle := by
  induction hr with
  | nil => exact h₀
  | @snoc k m hr hm ih => exact hk m (by simp) (ih fun w hw ↦ hk w (by simp [hw]))

/-- A worker that is up to date is what its stats say. -/
theorem idle_of_upToDate {h : SystemHistory t I n} {s : System t I n}
    (hr : system.Run .default h s) {i : Nat} (hup : UpToDate i h)
    (hstats : ∀ w ∈ s.stats, w.tasks = 0 ∨ w.isEmpty = true) :
    s.spawnWaiting i = false ∧ ∀ x, s.workers[i]? = some x → x.Idle := by
  obtain ⟨g, r, k, rfl, href, hwait, hno, hbusy⟩ := hup
  obtain ⟨hrg, hm, hrk⟩ := hr.split
  have hrr := hrg.snoc hm
  refine ⟨spawnWaiting_of_run hrr hrk hno hwait, fun x hx ↦ ?_⟩
  suffices ∃ x₀, r.post.workers[i]? = some x₀ ∧ x₀.Idle by
    obtain ⟨x₀, hx₀, hidle⟩ := this
    obtain ⟨y, hy, hrun⟩ := worker_of_run_from hrr hrk hx₀
    obtain rfl : x = y := Option.some.inj (hx.symm.trans hy)
    exact idle_of_run hrun hidle hbusy
  rcases href with ⟨hprod, hlen⟩ | ⟨-, hadd, hidle⟩
  · obtain ⟨hrec, x₀, hx₀, hdescr⟩ := produced_cases (wf_of_run hrg) hm hprod
    refine ⟨x₀, hx₀, ?_⟩
    -- the stats recorded are those sent up to `r`, and the last of these was sent at `r`
    have hfifo := recorded_append_inFlight hr i
    rw [List.append_cons, produced_append] at hfifo
    have hall := (List.append_inj hfifo (by rw [hlen, ← List.append_cons])).1
    rw [recorded_append, recorded_append, produced_append, hrec, List.append_nil,
      ← recorded_append_inFlight hrg i, List.append_assoc] at hall
    have hk := List.append_cancel_left hall
    obtain ⟨st, hst⟩ := List.getLast?_isSome.mpr hprod |> Option.isSome_iff_exists.mp
    obtain rfl := hdescr st (List.mem_of_getLast? hst)
    have hi : i < r.post.stats.length := by
      rw [(wf_of_run hrr).stats]
      exact (List.getElem?_eq_some_iff.mp hx₀).1
    have hlast := (stats_of_run hrr hrk hi hno).2
    rw [hk, List.getLast?_append, hst] at hlast
    exact hstats _ (List.mem_of_getElem? hlast)
  · obtain ⟨x₀, hx₀⟩ := added_cases (wf_of_run hrg) hm hadd
    exact ⟨x₀, hx₀, hidle x₀ hx₀⟩

/-- **A run in which every worker is up to date whenever `process` counts no running
worker after `shutdown` abandons no work.** -/
theorem graceful_of_upToDate {h : SystemHistory t I n} {s : System t I n}
    (hr : system.Run .default h s)
    (hup : ∀ h₁ m h₂, h = h₁ ++ m :: h₂ → CountsNone m →
      ∀ i < m.pre.workers.length, UpToDate i h₁) :
    ∀ h₁ m h₂, h = h₁ ++ m :: h₂ → Stops m → Graceful m.post := by
  rintro h₁ m h₂ rfl hs i x hx
  obtain ⟨hr₁, hm, -⟩ := hr.split
  obtain ⟨hpost, hnone⟩ := countsNone_of_stops (wf_of_run hr₁) hm hs
  rw [hpost] at hx ⊢
  have hi : i < m.pre.workers.length := (List.getElem?_eq_some_iff.mp hx).1
  have hstats : ∀ w ∈ m.pre.stats, w.tasks = 0 ∨ w.isEmpty = true := by
    intro w hw
    exact idle_of_countRunningWorkers hnone.2.2 hw
  obtain ⟨hwait, hidle⟩ := idle_of_upToDate hr₁ (hup h₁ m h₂ rfl hnone i hi) hstats
  exact ⟨hwait, hidle x hx⟩

/-! ## Two runs that stop -/

/-- A worker that has nothing to do says so. -/
def reporting : List (SystemOp plainTypes) :=
  [.addWorker 10 [] 0, .worker 0 (.clock 0), .worker 0 .run, .process, .controller, .controller,
    .worker 0 (.clock 0), .worker 0 .control, .worker 0 .run, .controller, .controller]

/-- The controller is then shut down. -/
def afterReport : SystemHistory plainTypes Scripted 1 × System plainTypes Scripted 1 :=
  (system.exec .default (reporting ++ [.shutdown, .controller, .controller])).get rfl

/-- `process` returns `None`. -/
def stopAfterReport : SystemMoment plainTypes Scripted 1 := system.moment afterReport.2 .process rfl

theorem run_stopAfterReport :
    system.Run .default (afterReport.1 ++ [stopAfterReport]) stopAfterReport.post :=
  (Machine.exec_run_get rfl).moment rfl

/-- Before it is shut down, the controller is asked to spawn a task. -/
def afterSpawn : SystemHistory plainTypes Scripted 1 × System plainTypes Scripted 1 :=
  (system.exec .default (reporting ++ [.spawn (), .shutdown, .controller, .controller])).get rfl

/-- `process` returns `None` all the same. -/
def stopAfterSpawn : SystemMoment plainTypes Scripted 1 := system.moment afterSpawn.2 .process rfl

theorem run_stopAfterSpawn :
    system.Run .default (afterSpawn.1 ++ [stopAfterSpawn]) stopAfterSpawn.post :=
  (Machine.exec_run_get rfl).moment rfl

/-- The worker is up to date when the controller stops after the report. -/
theorem upToDate_afterReport : UpToDate 0 afterReport.1 := by
  have hsplit : afterReport.1 =
      afterReport.1.take 8 ++ afterReport.1.get ⟨8, by decide⟩ :: afterReport.1.drop 9 := rfl
  refine ⟨_, _, _, hsplit, .inl ⟨?_, ?_⟩, ?_, ?_, ?_⟩
  all_goals decide

/-- The theorem at a run that records the stats of a worker before it stops. -/
theorem graceful_of_upToDate_report :
    recorded 0 afterReport.1 ≠ [] ∧ Stops stopAfterReport ∧ Graceful stopAfterReport.post := by
  have hstop : Stops stopAfterReport := .head _
  refine ⟨by decide, hstop, graceful_of_upToDate run_stopAfterReport ?_ _ _ [] rfl hstop⟩
  intro h₁ m h₂ he hs i hi
  have hnone : ∀ m ∈ afterReport.1, ¬ CountsNone m := by decide
  obtain ⟨rfl, rfl⟩ := eq_of_append_singleton hnone he hs
  obtain rfl : i = 0 := Nat.lt_one_iff.mp hi
  exact upToDate_afterReport

/-- **A controller that stops may have abandoned a task.** -/
theorem not_always_graceful :
    ¬ ∀ h m (s : System plainTypes Scripted 1), system.Run .default (h ++ [m]) s → Stops m →
      Graceful m.post := by
  intro hall
  have hgraceful := hall _ _ _ run_stopAfterSpawn (.head _)
  obtain ⟨hwait, -⟩ := hgraceful 0 _ rfl
  exact absurd hwait (by decide)

end SansIo
