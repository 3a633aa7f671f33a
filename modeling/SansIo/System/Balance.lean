import SansIo.Lib.Greedy
import SansIo.System.Messages
import SansIo.System.Shutdown

/-!
# Spawning balances

`spawn` gives a task to the first worker with the least load, and counts it there at once.
So while nothing is recorded, calls of `spawn` are a greedy allocation: the loads stay
together, and become level once there have been as many calls as were missing to the
greatest load (`balances_of_run`).

A load is the low half of `tasks`.  So no load may come up to `2 ^ 32`, where it starts
again.
-/

namespace SansIo

open Lib Bus Backend Collections

/-! ## Loads -/

/-- The greatest load of some. -/
def greatest (loads : List Nat) : Nat := loads.max?.getD 0

/-- The difference between the greatest and the least load. -/
def spread (loads : List Nat) : Nat := greatest loads - loads.min?.getD 0

/-- What the workers are missing to the greatest load. -/
def missing (loads : List Nat) : Nat := (loads.map (greatest loads - ·)).sum

theorem le_greatest {loads : List Nat} {a : Nat} (h : a ∈ loads) : a ≤ greatest loads := by
  cases hmax : loads.max? with
  | none => exact absurd (List.max?_eq_none_iff.1 hmax) (List.ne_nil_of_mem h)
  | some b =>
      rw [greatest, hmax]
      exact (List.max?_eq_some_iff.1 hmax).2 a h

theorem spread_le_iff {loads : List Nat} {d : Nat} : spread loads ≤ d ↔ Spread d ↑loads := by
  cases hmax : loads.max? with
  | none =>
      obtain rfl := List.max?_eq_none_iff.1 hmax
      exact iff_of_true (Nat.zero_le d) (by simp [Spread])
  | some b =>
      obtain ⟨hb, hle⟩ := List.max?_eq_some_iff.1 hmax
      cases hmin : loads.min? with
      | none =>
          obtain rfl := List.min?_eq_none_iff.1 hmin
          cases hb
      | some a =>
          obtain ⟨ha, hge⟩ := List.min?_eq_some_iff.1 hmin
          rw [spread, greatest, hmax, hmin, Option.getD_some, Option.getD_some,
            Nat.sub_le_iff_le_add']
          constructor
          · exact fun h x hx y hy ↦ (hle x hx).trans (h.trans (Nat.add_le_add_right (hge y hy) d))
          · exact fun h ↦ h b hb a ha

theorem deficit_greatest (loads : List Nat) :
    deficit (greatest loads) ↑loads = missing loads := by
  simp only [deficit, missing, Multiset.map_coe, Multiset.sum_coe]

variable {t : WorkerTypes} {I : Type} {n : Nat}

/-- The loads of the workers, as the controller has them. -/
def System.loads (s : System t I n) : List Nat := s.stats.map WorkerStats.load

/-- The best worker is one with the least load. -/
theorem bestWorker_least {stats : List WorkerStats} {i : Nat}
    (h : System.bestWorker stats = some i) :
    ∃ w, stats[i]? = some w ∧ ∀ w' ∈ stats, w.load ≤ w'.load := by
  have hi := System.bestWorker_lt h
  obtain ⟨a, hmin, rfl⟩ := Option.map_eq_some_iff.1 h
  obtain ⟨ha, hle⟩ := List.min?_eq_some_iff.1 hmin
  have hload : (stats[(stats.map WorkerStats.load).idxOf a]).load = a := by
    have hget := List.getElem_idxOf (List.idxOf_lt_length_of_mem ha)
    rwa [List.getElem_map] at hget
  refine ⟨_, List.getElem?_eq_getElem hi, fun w' hw' ↦ ?_⟩
  rw [hload]
  exact hle _ (List.mem_map_of_mem hw')

/-- Counting a task where the load is least is a greedy step. -/
theorem greedy_modify {stats : List WorkerStats} {i : Nat} (hi : System.bestWorker stats = some i)
    (hfits : ∀ w ∈ stats, w.tasks + 1 < 2 ^ 32) :
    Greedy ↑(stats.map WorkerStats.load)
      ↑((stats.modify i fun w ↦ { w with tasks := usizeAdd w.tasks 1 }).map WorkerStats.load) := by
  obtain ⟨w, hw, hleast⟩ := bestWorker_least hi
  obtain ⟨hlt, rfl⟩ := List.getElem?_eq_some_iff.1 hw
  have hload : (usizeAdd stats[i].tasks 1) % 2 ^ 32 = stats[i].load + 1 := by
    have hbound := hfits _ (List.getElem_mem hlt)
    rw [usizeAdd_of_lt (by omega), WorkerStats.load, Nat.mod_eq_of_lt hbound,
      Nat.mod_eq_of_lt (by omega)]
  have hpost : ((stats.modify i fun w ↦ { w with tasks := usizeAdd w.tasks 1 }).map
      WorkerStats.load : Multiset ℕ) =
        (stats[i].load + 1) ::ₘ ↑((stats.take i ++ stats.drop (i + 1)).map WorkerStats.load) := by
    rw [List.modify_eq_take_cons_drop hlt, List.map_append, List.map_cons, List.map_append]
    refine (Multiset.coe_eq_coe.2 List.perm_middle).trans ?_
    rw [← Multiset.cons_coe]
    exact congrArg (· ::ₘ _) hload
  rw [hpost]
  refine .step ?_ ?_
  · have hpre : stats = stats.take i ++ stats[i] :: stats.drop (i + 1) := by
      rw [List.getElem_cons_drop, List.take_append_drop]
    conv_lhs => rw [hpre]
    rw [List.map_append, List.map_cons, List.map_append]
    exact Multiset.coe_eq_coe.2 List.perm_middle
  · intro b hb
    obtain ⟨w', hw', rfl⟩ := List.mem_map.1 (Multiset.mem_coe.1 hb)
    apply hleast
    rcases List.mem_append.1 hw' with hw' | hw'
    · exact List.mem_of_mem_take hw'
    · exact List.mem_of_mem_drop hw'

/-! ## Calls of `spawn` -/

/-- The step is a call of `spawn`, of the controller's own or for a worker. -/
def Spawning (m : SystemMoment t I n) : Bool :=
  match m.pre.tells m.label with
  | some (_, .spawn _) => true
  | _ => false

/-- How often `spawn` has been called. -/
def calls (h : SystemHistory t I n) : Nat := h.countP Spawning

/-- The worker to which a `Spawn` has been sent. -/
def SystemEvent.spawned : SystemEvent t I → Option Nat
  | .control o => if o.msg.isSpawn && o.result.isOk then some o.leg else none
  | _ => none

/-- The workers to which a `Spawn` has been sent, in order. -/
def spawned (h : SystemHistory t I n) : List Nat := h.events.filterMap SystemEvent.spawned

/-- The event changes the stats that the controller has, but for `spawn`. -/
def SystemEvent.Restarts : SystemEvent t I → Prop
  | .added _ | .recorded _ _ => True
  | _ => False

instance : DecidablePred (SystemEvent.Restarts : SystemEvent t I → Prop)
  | .added _ | .recorded _ _ => inferInstanceAs (Decidable True)
  | .worker _ _ | .inner _ | .control _ | .event _ | .processed _ | .popped _ =>
    inferInstanceAs (Decidable False)

@[simp] theorem spawned_append (h h' : SystemHistory t I n) :
    spawned (h ++ h') = spawned h ++ spawned h' := by
  simp [spawned]

@[simp] theorem calls_append (h h' : SystemHistory t I n) :
    calls (h ++ h') = calls h + calls h' := List.countP_append

theorem calls_singleton (m : SystemMoment t I n) :
    calls [m] = if Spawning m = true then 1 else 0 := List.countP_singleton

/-- A `Spawn` that is sent safely is accepted. -/
theorem spawned_of_send {b b' : BusSystem UInt16 (WorkerControlIn t.ExtIn t.SCfg) Nat n} {i : Nat}
    {cfg : t.SCfg} {o : Offer UInt16 (WorkerControlIn t.ExtIn t.SCfg) Nat}
    (h : b.sendExternal i true (.spawn cfg) = .ok (o, b')) :
    (SystemEvent.control (I := I) o).spawned = some i := by
  obtain ⟨hleg, -, hmsg, -⟩ := BusSystem.offer_cases h
  obtain ⟨hsafe, -⟩ | ⟨-, ⟨len, hresult⟩, -⟩ := BusSystem.offer_result h
  · cases hsafe
  · simp [SystemEvent.spawned, hleg, hmsg, hresult, WorkerControlIn.isSpawn, Except.isOk,
      Except.toBool]

variable [DecidableEq t.ChannelId] [WorkerInner t I] [DecidableEq t.Owner]

/-- **A call of `spawn`** sends one `Spawn`, to the best worker, and counts it there. -/
theorem spawning_step {m : SystemMoment t I n} (hwf : m.pre.Wf) (hm : system.Fires m)
    (hworkers : m.pre.stats ≠ []) (hs : Spawning m = true) :
    ∃ i, System.bestWorker m.pre.stats = some i ∧ spawned [m] = [i] ∧
      m.post.stats = m.pre.stats.modify i fun w ↦ { w with tasks := usizeAdd w.tasks 1 } := by
  obtain ⟨s, op, events, s'⟩ := m
  have hspawn : ∀ (cfg : t.SCfg) (bus : BusSystem UInt16 (WorkerControlOut t.ExtOut t.SCfg) Nat n),
      { s with workerEventBus := bus }.spawn cfg = (s', events) →
      ∃ i, System.bestWorker s.stats = some i ∧ spawned [(⟨s, op, events, s'⟩ : SystemMoment t I n)]
        = [i] ∧ s'.stats = s.stats.modify i fun w ↦ { w with tasks := usizeAdd w.tasks 1 } := by
    intro cfg bus hstep
    rcases System.spawn_cases (s := { s with workerEventBus := bus })
      (hwf.stats.trans hwf.controlLegs.symm) cfg with ⟨hnone, -⟩ | ⟨i, o, bus', hbest, hsend, heq⟩
    · exact absurd (System.bestWorker_eq_none.1 hnone) hworkers
    · cases hstep.symm.trans heq
      refine ⟨i, hbest, ?_, rfl⟩
      simp [spawned, spawned_of_send hsend]
  cases op with
  | spawn cfg =>
      have hstep : system.step s (.spawn cfg) = some (s', events) := hm
      simp only [system, System.step] at hstep
      split at hstep
      · exact hspawn cfg s.workerEventBus (Option.some.inj hstep)
      · cases hstep
  | controller =>
      have hwf' : s.Wf := hwf
      have hstep : system.step s .controller = some (s', events) := hm
      simp only [system, System.step, System.controllerStep] at hstep
      split at hstep
      · rename_i hpc
        simp only [Spawning, System.tells, hpc] at hs
        cases hs
      · rename_i hpc
        simp only [Spawning, System.tells, hpc] at hs
        cases hs
      · rename_i hpc
        simp only [Spawning, System.tells, hpc] at hs
        obtain ⟨-, -, -, hrecv⟩ := s.workerEventBus.recv_cases 0
        rw [hwf'.recv_eq] at hstep hs
        generalize s.workerEventBus.recv 0 = r at hrecv hstep hs
        obtain ⟨msg, bus⟩ := r
        rcases hrecv with ⟨⟨source, msg'⟩, rfl, hwait⟩ | ⟨rfl, -⟩
        · obtain ⟨j, hj, rfl⟩ := hwf'.sources _ (hwait ▸ List.mem_cons_self)
          cases msg' with
          | spawn cfg => exact hspawn cfg bus (Option.some.inj hstep)
          | _ => cases hs
        · cases hs
      · cases hstep
  | _ => cases hs

omit [DecidableEq t.ChannelId] [WorkerInner t I] [DecidableEq t.Owner] in
/-- A worker's step spawns nothing. -/
theorem spawned_worker {j : Nat} {w : WorkerMoment t I} {events : List (SystemEvent t I)}
    (h : ∀ e ∈ events, (∃ o, e = .inner o) ∨ ∃ o, e = .event o) :
    (.worker j w :: events).filterMap SystemEvent.spawned = [] := by
  rw [List.filterMap_eq_nil_iff]
  intro e he
  rcases List.mem_cons.mp he with rfl | he
  · rfl
  · rcases h e he with ⟨o, rfl⟩ | ⟨o, rfl⟩ <;> rfl

/-- A `Spawn` is only sent by a call of `spawn`. -/
theorem spawning_of_control {m : SystemMoment t I n} (hwf : m.pre.Wf) (hm : system.Fires m)
    {o : Offer UInt16 (WorkerControlIn t.ExtIn t.SCfg) Nat} {cfg : t.SCfg}
    (hevents : m.events = [.control o]) (ho : o.msg = .spawn cfg) : Spawning m = true := by
  obtain ⟨s, op, events, s'⟩ := m
  have hdoes : Transition s op s' events := system_transition hwf hm
  cases hdoes with
  | @told op i safe msg eventBus bus o' stats pc hchosen htells hlen hpc hbus hsend =>
      cases hevents
      obtain ⟨-, -, hmsg, -⟩ := BusSystem.offer_cases hsend
      obtain rfl : msg = .spawn cfg := hmsg.symm.trans ho
      simp only [Spawning, htells]
  | turns _ _ _ hev => rcases hev with rfl | rfl <;> cases hevents
  | _ => cases hevents

/-- **Another step** sends no `Spawn`, and leaves the loads as they are. -/
theorem not_spawning_step {m : SystemMoment t I n} (hwf : m.pre.Wf) (hm : system.Fires m)
    (hs : Spawning m = false) (hkeeps : ∀ e ∈ m.events, ¬ e.Restarts) :
    spawned [m] = [] ∧ m.post.stats = m.pre.stats := by
  have hspawns : ∀ o cfg, m.events = [.control o] → o.msg = .spawn cfg → Spawning m = true :=
    fun _ _ ↦ spawning_of_control hwf hm
  obtain ⟨s, op, events, s'⟩ := m
  have hdoes : SystemDoes s op s' events := system_cases hwf hm
  rw [spawned, History.events_singleton]
  cases hdoes with
  | added => exact absurd trivial (hkeeps _ (List.mem_singleton_self _))
  | recorded => exact absurd trivial (hkeeps _ (List.mem_singleton_self _))
  | quiet hev => rcases hev with rfl | ⟨out, rfl⟩ <;> exact ⟨rfl, rfl⟩
  | @sent _ i safe msg pc bus o hmsg hsend =>
      obtain ⟨-, -, hsame, -⟩ := BusSystem.offer_cases hsend
      refine ⟨?_, rfl⟩
      cases msg with
      | spawn cfg => exact absurd rfl (hmsg cfg)
      | _ => simp [SystemEvent.spawned, hsame, WorkerControlIn.isSpawn]
  | @spawned _ best cfg eventBus bus o hbus hsend =>
      obtain ⟨-, -, hsame, -⟩ := BusSystem.offer_cases hsend
      rw [hspawns o cfg rfl hsame] at hs
      cases hs
  | @worker j turn x x' acts events s₂ hx hstep hperf hp =>
      refine ⟨spawned_worker hp.events, ?_⟩
      change s₂.stats = s.stats
      rw [hp.frame, (s.answer_frame x turn).1]
  | _ => exact ⟨rfl, rfl⟩

/-! ## Runs -/

omit [DecidableEq t.ChannelId] [WorkerInner t I] [DecidableEq t.Owner] in
/-- What is counted for a worker has been counted there at first, or by a call since. -/
theorem tasks_modify {stats : List WorkerStats} {i : Nat} {w : WorkerStats}
    (hfits : ∀ w ∈ stats, w.tasks + 1 < 2 ^ 32)
    (hw : w ∈ stats.modify i fun w ↦ { w with tasks := usizeAdd w.tasks 1 }) :
    ∃ w' ∈ stats, w.tasks ≤ w'.tasks + 1 := by
  obtain ⟨j, hj⟩ := List.mem_iff_getElem?.1 hw
  rw [List.getElem?_modify] at hj
  obtain ⟨w', hw', rfl⟩ := Option.map_eq_some_iff.1 hj
  have hmem := List.mem_of_getElem? hw'
  refine ⟨w', hmem, ?_⟩
  split
  · have hbound := hfits w' hmem
    exact (usizeAdd_of_lt (by omega)).le
  · exact Nat.le_succ _

/-- What holds after some calls of `spawn`. -/
structure Balancing (s₀ : System t I n) (k : Nat) (s : System t I n) : Prop where
  wf : s.Wf
  workers : s.stats ≠ []
  counted : ∀ w ∈ s.stats, ∃ w₀ ∈ s₀.stats, w.tasks ≤ w₀.tasks + k
  together : Spread (max 1 (spread s₀.loads)) ↑s.loads
  filling : Filling (greatest s₀.loads) (missing s₀.loads) k ↑s.loads

omit [DecidableEq t.ChannelId] [WorkerInner t I] [DecidableEq t.Owner] in
theorem balancing_zero {s : System t I n} (hwf : s.Wf) (hworkers : s.stats ≠ []) :
    Balancing s 0 s where
  wf := hwf
  workers := hworkers
  counted w hw := ⟨w, hw, Nat.le_refl _⟩
  together := spread_le_iff.1 (Nat.le_max_right ..)
  filling := by
    rw [← deficit_greatest]
    exact filling_zero fun _ ha ↦ le_greatest (Multiset.mem_coe.1 ha)

/-- **One step** keeps the loads balanced. -/
theorem Balancing.step {s₀ : System t I n} {k : Nat} {m : SystemMoment t I n}
    (h : Balancing s₀ k m.pre) (hm : system.Fires m) (hkeeps : ∀ e ∈ m.events, ¬ e.Restarts)
    (hfits : ∀ w ∈ s₀.stats, w.tasks + (k + calls [m]) < 2 ^ 32) :
    Balancing s₀ (k + calls [m]) m.post ∧ (spawned [m]).length = calls [m] := by
  rw [calls_singleton] at hfits ⊢
  cases hs : Spawning m with
  | true =>
      rw [hs] at hfits
      obtain ⟨i, hbest, hspawned, hstats⟩ := spawning_step h.wf hm h.workers hs
      have hroom : ∀ w ∈ m.pre.stats, w.tasks + 1 < 2 ^ 32 := by
        intro w hw
        obtain ⟨w₀, hw₀, hle⟩ := h.counted w hw
        have hbound := hfits w₀ hw₀
        rw [if_pos rfl] at hbound
        omega
      have hgreedy : Greedy ↑m.pre.loads ↑m.post.loads := by
        rw [System.loads, System.loads, hstats]
        exact greedy_modify hbest hroom
      refine ⟨⟨h.wf.step hm, ?_, ?_, ?_, ?_⟩, by rw [hspawned]; rfl⟩
      · rw [hstats]
        exact fun hnil ↦ h.workers (List.modify_eq_nil_iff.1 hnil)
      · intro w hw
        rw [hstats] at hw
        obtain ⟨w', hw', hle'⟩ := tasks_modify hroom hw
        obtain ⟨w₀, hw₀, hle⟩ := h.counted w' hw'
        exact ⟨w₀, hw₀, hle'.trans (Nat.add_le_add_right hle 1)⟩
      · exact hgreedy.spread (Nat.le_max_left ..) h.together
      · exact hgreedy.filling h.filling
  | false =>
      obtain ⟨hspawned, hstats⟩ := not_spawning_step h.wf hm hs hkeeps
      have hloads : m.post.loads = m.pre.loads := congrArg (List.map WorkerStats.load) hstats
      refine ⟨⟨h.wf.step hm, ?_, ?_, ?_, ?_⟩, by rw [hspawned]; rfl⟩
      · rw [hstats]
        exact h.workers
      · rw [hstats]
        exact h.counted
      · rw [hloads]
        exact h.together
      · rw [hloads]
        exact h.filling

/-- What calls of `spawn` do to the loads of the workers. -/
structure Balances (s₀ : System t I n) (h : SystemHistory t I n) (s : System t I n) : Prop where
  /-- Each of them sends one `Spawn`, to a worker with the least load. -/
  least : ∀ m ∈ h, Spawning m = true → ∃ i w, spawned [m] = [i] ∧ m.pre.stats[i]? = some w ∧
    ∀ w' ∈ m.pre.stats, w.load ≤ w'.load
  /-- There is one `Spawn` for each call. -/
  total : (spawned h).length = calls h
  /-- The loads stay together, -/
  together : ∀ m ∈ h, spread m.post.loads ≤ max 1 (spread s₀.loads)
  /-- and become level. -/
  level : missing s₀.loads ≤ calls h → spread s.loads ≤ 1

theorem balancing_of_run {s₀ s : System t I n} {h : SystemHistory t I n} (hwf : s₀.Wf)
    (hworkers : s₀.stats ≠ []) (hr : system.Run s₀ h s)
    (hkeeps : ∀ m ∈ h, ∀ e ∈ m.events, ¬ e.Restarts)
    (hfits : ∀ w ∈ s₀.stats, w.tasks + calls h < 2 ^ 32) :
    Balancing s₀ (calls h) s ∧ (spawned h).length = calls h := by
  induction hr with
  | nil => exact ⟨balancing_zero hwf hworkers, rfl⟩
  | @snoc h m hr hm ih =>
      rw [calls_append] at hfits ⊢
      obtain ⟨hpre, htotal⟩ := ih (fun m hm ↦ hkeeps m (List.mem_append_left _ hm)) fun w hw ↦ by
        have hbound := hfits w hw
        omega
      obtain ⟨hpost, hone⟩ := hpre.step hm (hkeeps m (by simp)) hfits
      refine ⟨hpost, ?_⟩
      rw [spawned_append, List.length_append, htotal, hone]

/-- **Calls of `spawn` balance the loads**, as long as nothing else changes them and none
comes up to `2 ^ 32`. -/
theorem balances_of_run {s₀ s : System t I n} {h : SystemHistory t I n} (hwf : s₀.Wf)
    (hworkers : s₀.stats ≠ []) (hr : system.Run s₀ h s)
    (hkeeps : ∀ m ∈ h, ∀ e ∈ m.events, ¬ e.Restarts)
    (hfits : ∀ w ∈ s₀.stats, w.tasks + calls h < 2 ^ 32) : Balances s₀ h s := by
  -- the steps before a step of the run are a run as well, with fewer calls
  have hstep : ∀ m ∈ h, system.Fires m ∧ ∃ k, Balancing s₀ k m.pre ∧
      Balancing s₀ (k + calls [m]) m.post := by
    intro m hm
    obtain ⟨h₁, h₂, rfl⟩ := List.append_of_mem hm
    obtain ⟨hr₁, hm, -⟩ := hr.split
    have hsum : calls (h₁ ++ m :: h₂) = calls h₁ + calls [m] + calls h₂ := by
      rw [List.append_cons, calls_append, calls_append]
    rw [hsum] at hfits
    have hpre := (balancing_of_run hwf hworkers hr₁
      (fun m hm ↦ hkeeps m (List.mem_append_left _ hm)) fun w hw ↦ by
        have hbound := hfits w hw
        omega).1
    refine ⟨hm, calls h₁, hpre, (hpre.step hm (hkeeps m (by simp)) fun w hw ↦ ?_).1⟩
    have hbound := hfits w hw
    omega
  obtain ⟨hlast, htotal⟩ := balancing_of_run hwf hworkers hr hkeeps hfits
  constructor
  · intro m hm hs
    obtain ⟨hfires, k, hpre, -⟩ := hstep m hm
    obtain ⟨i, hbest, hspawned, -⟩ := spawning_step hpre.wf hfires hpre.workers hs
    obtain ⟨w, hw, hleast⟩ := bestWorker_least hbest
    exact ⟨i, w, hspawned, hw, hleast⟩
  · exact htotal
  · intro m hm
    obtain ⟨-, k, -, hpost⟩ := hstep m hm
    exact spread_le_iff.2 hpost.together
  · exact fun hk ↦ spread_le_iff.2 (hlast.filling.level hk)

/-- A controller with two workers. -/
def twoWorkers : SystemHistory plainTypes Scripted 1 × System plainTypes Scripted 1 :=
  (system.exec .default [.addWorker 10 [] 0, .addWorker 10 [] 0]).get rfl

/-- Three tasks are spawned. -/
def threeSpawns : SystemHistory plainTypes Scripted 1 × System plainTypes Scripted 1 :=
  (system.exec twoWorkers.2 [.spawn (), .spawn (), .spawn ()]).get rfl

theorem balances_of_run_three : Balances twoWorkers.2 threeSpawns.1 threeSpawns.2 :=
  balances_of_run (wf_of_run (Machine.exec_run_get rfl)) (List.cons_ne_nil _ _)
    (Machine.exec_run_get rfl) (by decide) (by decide)

end SansIo
