import SansIo.System.Balance

/-!
# The tasks that a controller counts

The controller counts the tasks of a worker twice over: `spawn` adds one to the `tasks` that
it has recorded, and the stats that it records next overwrite them.  They may have been sent
before a `Spawn` that is still waiting for the worker, or before the controller sent it, and
then what `spawn` added is lost (`not_counted`).

`pending` are the `Spawn`s that a worker had not consumed when it sent some stats: those that
waited for it then, and those sent to it since (`pending_of_replies`).  `counted_iff` says that
the controller counts all of them, in every state of a run, as long as it records no stats with
fewer tasks.
-/

namespace SansIo

open Lib Bus Backend Collections

variable {t : WorkerTypes} {I : Type} {n : Nat}

/-! ## What a worker had consumed -/

/-- How many of some messages are a `Spawn`. -/
def countSpawns (msgs : List (WorkerControlIn t.ExtIn t.SCfg)) : Nat :=
  msgs.countP WorkerControlIn.isSpawn

/-- For each of the stats that a worker has sent, in order, how many `Spawn`s it had consumed
by then, if it has consumed `k` of them at first. -/
def stamps (k : Nat) : WorkerHistory t I → List Nat
  | [] => []
  | w :: ws => (w.events.filterMap Act.stats).map (fun _ ↦ k) ++
      stamps (k + countSpawns w.label.message.toList) ws

/-- How many `Spawn`s a worker had consumed when it sent its stats for the `r`-th time. -/
def consumed (i : Nat) (h : SystemHistory t I n) : Nat → Nat
  | 0 => 0
  | r + 1 => (stamps 0 (SystemHistory.of h i))[r]?.getD 0

/-- How many `Spawn`s have been sent to a worker that it had not consumed when it sent its
stats for the `r`-th time. -/
def pending (i : Nat) (h : SystemHistory t I n) (r : Nat) : Nat :=
  (spawned h).count i - consumed i h r

theorem length_stamps (k : Nat) (ws : WorkerHistory t I) :
    (stamps k ws).length = (ws.events.filterMap Act.stats).length := by
  induction ws generalizing k with
  | nil => rfl
  | cons w ws ih =>
      have hcons : History.events (w :: ws) = w.events ++ History.events ws := rfl
      rw [stamps, List.length_append, List.length_map, ih, hcons, List.filterMap_append,
        List.length_append]

theorem stamps_append (k : Nat) (ws ws' : WorkerHistory t I) :
    stamps k (ws ++ ws') =
      stamps k ws ++ stamps (k + countSpawns (ws.filterMap fun w ↦ w.label.message)) ws' := by
  induction ws generalizing k with
  | nil => rfl
  | cons w ws ih =>
      rw [List.cons_append, stamps, stamps, ih, List.append_assoc, List.filterMap_cons]
      cases hmsg : w.label.message with
      | none => rfl
      | some msg => simp [countSpawns, List.countP_cons, Nat.add_assoc, Nat.add_comm]

/-- What a worker had consumed does not change any more. -/
theorem consumed_append {i : Nat} {h h' : SystemHistory t I n} {r : Nat}
    (hr : r ≤ (produced i h).length) : consumed i (h ++ h') r = consumed i h r := by
  cases r with
  | zero => rfl
  | succ r =>
      have hlt : r < (stamps 0 (SystemHistory.of h i)).length := by
        rw [length_stamps]
        exact hr
      rw [consumed, consumed, SystemHistory.of_append, stamps_append,
        List.getElem?_append_left hlt]

/-- No worker has consumed more than it has taken. -/
theorem stamps_le {k : Nat} {ws : WorkerHistory t I} {c : Nat} (hc : c ∈ stamps k ws) :
    c ≤ k + countSpawns (ws.filterMap fun w ↦ w.label.message) := by
  induction ws generalizing k with
  | nil => cases hc
  | cons w ws ih =>
      rw [stamps] at hc
      rcases List.mem_append.1 hc with hc | hc
      · obtain ⟨-, -, rfl⟩ := List.mem_map.1 hc
        exact Nat.le_add_right ..
      · have hle := ih hc
        rw [List.filterMap_cons]
        cases hmsg : w.label.message with
        | none => simpa [hmsg, countSpawns] using hle
        | some msg => simpa [hmsg, countSpawns, List.countP_cons, Nat.add_assoc, Nat.add_comm,
            Nat.add_left_comm] using hle

section Steps

variable [DecidableEq t.ChannelId] [WorkerInner t I] [DecidableEq t.Owner]

/-! ## What a step does to the counts -/

/-- What a step does to the stats that the controller has. -/
inductive StatsStep (m : SystemMoment t I n) : Prop
  | added (hspawned : spawned [m] = []) (hrecorded : ∀ i, recorded i [m] = [])
      (hstats : m.post.stats = m.pre.stats ++ [.default])
  | spawned {best} (hspawned : SansIo.spawned [m] = [best]) (hrecorded : ∀ i, recorded i [m] = [])
      (hbest : best < m.pre.stats.length)
      (hstats : m.post.stats =
        m.pre.stats.modify best fun w ↦ { w with tasks := usizeAdd w.tasks 1 })
  | recorded {j stats} (hspawned : SansIo.spawned [m] = [])
      (hevents : m.events = [.recorded j stats]) (hj : j < m.pre.stats.length)
      (hstats : m.post.stats = m.pre.stats.set j stats)
  | kept (hspawned : SansIo.spawned [m] = []) (hrecorded : ∀ i, SansIo.recorded i [m] = [])
      (hstats : m.post.stats = m.pre.stats)

theorem stats_cases {m : SystemMoment t I n} (hwf : m.pre.Wf) (hm : system.Fires m) :
    StatsStep m := by
  obtain ⟨s, op, events, s'⟩ := m
  have hdoes : SystemDoes s op s' events := system_cases hwf hm
  cases hdoes with
  | added => exact .added rfl (fun _ ↦ rfl) rfl
  | quiet hev => rcases hev with rfl | ⟨out, rfl⟩ <;> exact .kept rfl (fun _ ↦ rfl) rfl
  | @sent _ i safe msg pc bus o hmsg hsend =>
      obtain ⟨-, -, hsame, -⟩ := BusSystem.offer_cases hsend
      refine .kept ?_ (fun _ ↦ rfl) rfl
      cases msg with
      | spawn cfg => exact absurd rfl (hmsg cfg)
      | _ => simp [SansIo.spawned, SystemEvent.spawned, hsame, WorkerControlIn.isSpawn]
  | @spawned _ best cfg eventBus bus o hbus hsend =>
      obtain ⟨-, -, -, -, -, hlt, -⟩ := BusSystem.offer_cases hsend
      refine .spawned ?_ (fun _ ↦ rfl) (hwf.stats.trans hwf.controlLegs.symm ▸ hlt) rfl
      simp [SansIo.spawned, spawned_of_send hsend]
  | recorded hj => exact .recorded rfl rfl hj rfl
  | @worker j turn x x' acts events s₂ hx hstep hperf hp =>
      refine .kept ?_ (fun i ↦ ?_) ?_
      · rw [SansIo.spawned, History.events_singleton]
        exact spawned_worker hp.events
      · rw [recorded_singleton]
        exact recordedOf_worker hp.events i
      · change s₂.stats = s.stats
        rw [hp.frame, (s.answer_frame x turn).1]
  | _ => exact .kept rfl (fun _ ↦ rfl) rfl

/-- A `Spawn` is only sent to a worker that there is. -/
theorem spawned_lt {h : SystemHistory t I n} {s : System t I n} (hr : system.Run .default h s) :
    ∀ i ∈ spawned h, i < s.stats.length := by
  induction hr with
  | nil => simp [spawned]
  | @snoc h m hr hm ih =>
      intro i hi
      rw [spawned_append] at hi
      have hstep := stats_cases (wf_of_run hr) hm
      have hlen : m.pre.stats.length ≤ m.post.stats.length := by
        cases hstep with
        | added _ _ hstats => simp [hstats]
        | spawned _ _ _ hstats => simp [hstats]
        | recorded _ _ _ hstats => simp [hstats]
        | kept _ _ hstats => simp [hstats]
      rcases List.mem_append.1 hi with hi | hi
      · exact (ih i hi).trans_le hlen
      · cases hstep with
        | spawned hspawned _ hbest _ =>
            rw [hspawned, List.mem_singleton] at hi
            exact hi ▸ hbest.trans_le hlen
        | added hspawned => simp [hspawned] at hi
        | recorded hspawned => simp [hspawned] at hi
        | kept hspawned => simp [hspawned] at hi

omit [DecidableEq t.ChannelId] [WorkerInner t I] [DecidableEq t.Owner] in
/-- The `Spawn`s among what a worker's leg has accepted are those sent to it. -/
theorem countSpawns_sentTo (i : Nat) (h : SystemHistory t I n) :
    countSpawns (sentTo i h) = (spawned h).count i := by
  rw [sentTo, spawned]
  induction h.events with
  | nil => rfl
  | cons e es ih =>
      cases e with
      | control o =>
          rw [List.filterMap_cons, List.filterMap_cons, SystemEvent.controlTo, SystemEvent.spawned,
            Bus.Offer.accepted]
          by_cases hleg : o.leg = i <;> cases hspawn : o.msg.isSpawn <;>
            cases hok : o.result.isOk <;>
            simpa [hleg, hspawn, hok, countSpawns, List.countP_cons, List.count_cons] using ih
      | _ => exact ih

/-- No worker has consumed more than it was sent. -/
theorem consumed_le {h : SystemHistory t I n} {s : System t I n} (hr : system.Run .default h s)
    (i r : Nat) : consumed i h r ≤ (spawned h).count i := by
  cases r with
  | zero => exact Nat.zero_le _
  | succ r =>
      rw [consumed]
      cases hc : (stamps 0 (SystemHistory.of h i))[r]? with
      | none => exact Nat.zero_le _
      | some c =>
          have hle := stamps_le (List.mem_of_getElem? hc)
          have hsent := taken_append_waiting hr i
          rw [← countSpawns_sentTo, ← hsent, countSpawns, List.countP_append]
          rw [Nat.zero_add] at hle
          exact hle.trans (Nat.le_add_right ..)

/-- The stats that have been recorded were sent before the step. -/
theorem recorded_le {h : SystemHistory t I n} {m : SystemMoment t I n}
    (hr : system.Run .default h m.pre) (hm : system.Fires m) (i : Nat) :
    (recorded i (h ++ [m])).length ≤ (produced i h).length := by
  by_cases hprod : produced i [m] = []
  · have hfifo := congrArg List.length (recorded_append_inFlight (hr.snoc hm) i)
    rw [produced_append, hprod, List.append_nil, List.length_append] at hfifo
    omega
  · have hfifo := congrArg List.length (recorded_append_inFlight hr i)
    rw [recorded_append, (produced_cases (wf_of_run hr) hm hprod).1, List.append_nil]
    rw [List.length_append] at hfifo
    omega

/-! ## Counted -/

/-- The controller counts every `Spawn` that a worker had not consumed when it sent the stats
that were recorded last. -/
def Counted (h : SystemHistory t I n) (s : System t I n) : Prop :=
  ∀ i w, s.stats[i]? = some w → pending i h (recorded i h).length ≤ w.tasks

/-- A worker sends its stats for the `r`-th time in a step. -/
def Replies (i r : Nat) (before : SystemHistory t I n) (m : SystemMoment t I n) : Prop :=
  (produced i before).length < r ∧ r ≤ (produced i (before ++ [m])).length

/-- Stats that the controller hears in a step do not have fewer tasks than there were `Spawn`s
waiting for the worker when it sent them, and `Spawn`s that were sent to it since; and what the
controller counts for a worker does not wrap. -/
structure Timely (h : SystemHistory t I n) (m : SystemMoment t I n) : Prop where
  reported : ∀ i stats, m.pre.hears m.label = some (.direct (i + 1), .stats stats) →
    ∀ h₁ reply h₂, h = h₁ ++ reply :: h₂ → Replies i ((recorded i h).length + 1) h₁ reply →
      countSpawns (reply.pre.controlWaiting i) + (spawned h₂).count i ≤ stats.tasks
  noWrap : ∀ i ∈ spawned [m], ∀ w, m.pre.stats[i]? = some w → w.tasks + 1 < 2 ^ 64

omit [DecidableEq t.ChannelId] [WorkerInner t I] [DecidableEq t.Owner] in
/-- Stats that have been sent were sent in some step. -/
theorem exists_replies {i r : Nat} {h : SystemHistory t I n} (hpos : 0 < r)
    (hle : r ≤ (produced i h).length) :
    ∃ h₁ reply h₂, h = h₁ ++ reply :: h₂ ∧ Replies i r h₁ reply := by
  induction h using List.reverseRecOn with
  | nil => exact absurd hle (Nat.not_le.2 hpos)
  | append_singleton h m ih =>
      rcases Nat.lt_or_ge (produced i h).length r with hlt | hge
      · exact ⟨h, m, [], rfl, hlt, hle⟩
      · obtain ⟨h₁, reply, h₂, rfl, hreplies⟩ := ih hge
        exact ⟨h₁, reply, h₂ ++ [m], by simp, hreplies⟩

/-- In a step that sends stats the worker goes on, and nothing is spawned. -/
theorem report_of_produced {m : SystemMoment t I n} (hwf : m.pre.Wf) (hm : system.Fires m)
    {i : Nat} (hprod : produced i [m] ≠ []) :
    spawned [m] = [] ∧ ∃ w, SystemHistory.of [m] i = [w] := by
  obtain ⟨s, op, events, s'⟩ := m
  have hdoes : SystemDoes s op s' events := system_cases hwf hm
  cases hdoes with
  | quiet hev =>
      rcases hev with rfl | ⟨out, rfl⟩ <;> exact absurd rfl hprod
  | @worker j turn x x' acts events s₂ hx hstep hperf hp =>
      rw [produced_singleton, report_worker hp.events] at hprod
      split at hprod
      · rename_i hji
        refine ⟨?_, ⟨x, (s.answer x turn).1, acts, x'⟩, ?_⟩
        · rw [spawned, History.events_singleton]
          exact spawned_worker hp.events
        · rw [SystemHistory.of, History.events_singleton, report_worker hp.events, if_pos hji]
      · exact absurd rfl hprod
  | _ => exact absurd rfl hprod

/-- What is pending behind stats waited when they were sent, or was sent since. -/
theorem pending_of_replies {h₁ h₂ : SystemHistory t I n} {reply : SystemMoment t I n}
    {s : System t I n} (hr : system.Run .default (h₁ ++ reply :: h₂) s) {i r : Nat}
    (hreplies : Replies i r h₁ reply) :
    pending i (h₁ ++ reply :: h₂) r =
      countSpawns (reply.pre.controlWaiting i) + (spawned h₂).count i := by
  obtain ⟨hbefore, hafter⟩ := hreplies
  obtain ⟨hr₁, hm, -⟩ := hr.split
  have hprod : produced i [reply] ≠ [] := by
    intro hnil
    rw [produced_append, hnil, List.append_nil] at hafter
    omega
  obtain ⟨hspawned, w, hw⟩ := report_of_produced (wf_of_run hr₁) hm hprod
  have hconsumed : consumed i (h₁ ++ [reply]) r = countSpawns (takenBy i h₁) := by
    obtain ⟨r, rfl⟩ := Nat.exists_eq_succ_of_ne_zero (Nat.ne_of_gt (Nat.zero_lt_of_lt hbefore))
    have hlen : (stamps 0 (SystemHistory.of h₁ i)).length ≤ r := by
      rw [length_stamps]
      exact Nat.le_of_lt_succ hbefore
    have hlast : r - (stamps 0 (SystemHistory.of h₁ i)).length <
        (w.events.filterMap Act.stats).length := by
      rw [length_stamps]
      simp only [produced, SystemHistory.of_append, History.events_append, hw,
        History.events_singleton, List.filterMap_append, List.length_append] at hafter hbefore ⊢
      omega
    rw [consumed, SystemHistory.of_append, stamps_append, hw, List.getElem?_append_right hlen]
    simp only [stamps, Nat.zero_add, List.append_nil]
    rw [List.getElem?_map, List.getElem?_eq_getElem hlast]
    rfl
  have hsent := taken_append_waiting hr₁ i
  have hcount : (spawned h₁).count i =
      countSpawns (takenBy i h₁) + countSpawns (reply.pre.controlWaiting i) := by
    rw [← countSpawns_sentTo, ← hsent, countSpawns, List.countP_append]
    rfl
  rw [pending, List.append_cons, consumed_append hafter, hconsumed, spawned_append,
    spawned_append, hspawned, List.append_nil, List.count_append, hcount]
  omega

/-- What the controller hears of the stats of a worker, it records. -/
theorem recorded_of_hears {m : SystemMoment t I n} (hwf : m.pre.Wf) (hm : system.Fires m)
    {i : Nat} {stats : WorkerStats} :
    m.pre.hears m.label = some (.direct (i + 1), .stats stats) ↔
      m.events = [.recorded i stats] := by
  obtain ⟨s, op, events, s'⟩ := m
  have hdoes : Transition s op s' events := system_transition hwf hm
  show s.hears op = _ ↔ events = _
  cases hdoes with
  | turns hhears _ _ hev =>
      rw [hhears]
      rcases hev with rfl | rfl <;> simp
  | told _ _ _ _ hbus =>
      rcases hbus with ⟨hhears, -⟩ | ⟨source, cfg, hhears, -⟩ <;> rw [hhears] <;> simp
  | recorded hi hhears hrecv hpc =>
      rw [hhears]
      simp
  | heard hhears hrecv hpc =>
      rw [hhears]
      simp
  | processed hhears hrecv =>
      rw [hhears]
      simp
  | _ => simp [System.hears]

theorem not_hears_of_recorded {m : SystemMoment t I n} (hwf : m.pre.Wf) (hm : system.Fires m)
    {i : Nat} (hrecorded : recorded i [m] = []) (stats : WorkerStats) :
    m.pre.hears m.label ≠ some (.direct (i + 1), .stats stats) := by
  intro hhears
  rw [recorded_singleton, (recorded_of_hears hwf hm).1 hhears] at hrecorded
  simp [SystemEvent.recordedOf] at hrecorded

/-- A step is timely that records nothing and spawns nothing. -/
theorem timely_of_none {h : SystemHistory t I n} {m : SystemMoment t I n} (hwf : m.pre.Wf)
    (hm : system.Fires m) (hspawned : spawned [m] = []) (hrecorded : ∀ i, recorded i [m] = []) :
    Timely h m where
  reported i stats hhears := absurd hhears (not_hears_of_recorded hwf hm (hrecorded i) stats)
  noWrap i hi := by
    rw [hspawned] at hi
    cases hi

/-- What is to be counted after a step. -/
theorem counted_snoc {h : SystemHistory t I n} {m : SystemMoment t I n}
    (hr : system.Run .default h m.pre) (hm : system.Fires m) :
    Counted (h ++ [m]) m.post ↔ ∀ i w, m.post.stats[i]? = some w →
      (spawned h).count i + (spawned [m]).count i -
        consumed i h ((recorded i h).length + (recorded i [m]).length) ≤ w.tasks := by
  have hpending : ∀ i, pending i (h ++ [m]) (recorded i (h ++ [m])).length =
      (spawned h).count i + (spawned [m]).count i -
        consumed i h ((recorded i h).length + (recorded i [m]).length) := by
    intro i
    rw [pending, consumed_append (recorded_le hr hm i), spawned_append, List.count_append,
      recorded_append, List.length_append]
  simp only [Counted, hpending]

/-- A new task is counted, unless the count wraps. -/
theorem counted_spawned {h : SystemHistory t I n} {m : SystemMoment t I n} {best : Nat}
    (hr : system.Run .default h m.pre) (hm : system.Fires m) (hc : Counted h m.pre)
    (hfits : ∀ w ∈ m.pre.stats, w.tasks < 2 ^ 64) (hspawned : spawned [m] = [best])
    (hrecorded : ∀ i, recorded i [m] = []) (hbest : best < m.pre.stats.length)
    (hstats : m.post.stats =
      m.pre.stats.modify best fun w ↦ { w with tasks := usizeAdd w.tasks 1 }) :
    Counted (h ++ [m]) m.post ↔ Timely h m := by
  have hpre : m.pre.stats[best]? = some m.pre.stats[best] := List.getElem?_eq_getElem hbest
  have hpost : m.post.stats[best]? = some { m.pre.stats[best] with
      tasks := usizeAdd m.pre.stats[best].tasks 1 } := by
    rw [hstats, List.getElem?_modify_eq, hpre]
    rfl
  have hother : ∀ i, i ≠ best → m.post.stats[i]? = m.pre.stats[i]? := by
    intro i hi
    simp [hstats, Ne.symm hi]
  have hcount := hc best _ hpre
  rw [pending] at hcount
  have hroom := hfits _ (List.getElem_mem hbest)
  rw [counted_snoc hr hm]
  simp only [hspawned, hrecorded, List.length_nil, Nat.add_zero]
  constructor
  · intro hall
    constructor
    · exact fun i stats hhears ↦
        absurd hhears (not_hears_of_recorded (wf_of_run hr) hm (hrecorded i) stats)
    · intro i hi w hw
      rw [hspawned, List.mem_singleton] at hi
      subst hi
      cases hpre.symm.trans hw
      -- a count that wraps is zero, and the `Spawn` that has been sent is pending
      have hle := hall _ _ hpost
      have hseen := consumed_le hr i (recorded i h).length
      simp only [List.count_singleton_self, usizeAdd] at hle
      omega
  · intro ht i w hw
    by_cases hi : i = best
    · subst hi
      cases hpost.symm.trans hw
      have hwrap := ht.noWrap i (by simp [hspawned]) _ hpre
      simp only [List.count_singleton_self, usizeAdd_of_lt hwrap]
      omega
    · rw [hother i hi] at hw
      rw [List.count_singleton, if_neg (by simpa using Ne.symm hi), Nat.add_zero]
      exact hc i w hw

/-- Stats that are recorded say how many tasks are counted. -/
theorem counted_recorded {h : SystemHistory t I n} {m : SystemMoment t I n} {j : Nat}
    {stats : WorkerStats} (hr : system.Run .default h m.pre) (hm : system.Fires m)
    (hc : Counted h m.pre) (hspawned : spawned [m] = [])
    (hevents : m.events = [.recorded j stats]) (hj : j < m.pre.stats.length)
    (hstats : m.post.stats = m.pre.stats.set j stats) :
    Counted (h ++ [m]) m.post ↔ Timely h m := by
  have hwf := wf_of_run hr
  have hrecorded : ∀ i, recorded i [m] = if j = i then [stats] else [] := by
    intro i
    rw [recorded_singleton, hevents]
    by_cases hij : j = i <;> simp [SystemEvent.recordedOf, hij]
  have hpost : m.post.stats[j]? = some stats := by
    rw [hstats, List.getElem?_set_self hj]
  rw [counted_snoc hr hm]
  simp only [hspawned, List.count_nil, Nat.add_zero, hrecorded]
  constructor
  · intro hall
    constructor
    · intro i stats' hhears
      have hsame := hevents.symm.trans ((recorded_of_hears hwf hm).1 hhears)
      cases hsame
      have hle := hall _ _ hpost
      rw [if_pos rfl] at hle
      rintro h₁ reply h₂ rfl hreplies
      exact (pending_of_replies hr hreplies) ▸ hle
    · intro i hi
      rw [hspawned] at hi
      cases hi
  · intro ht i w hw
    by_cases hij : j = i
    · subst hij
      cases hpost.symm.trans hw
      rw [if_pos rfl]
      have hsent := recorded_le hr hm j
      rw [recorded_append, hrecorded, if_pos rfl, List.length_append] at hsent
      obtain ⟨h₁, reply, h₂, hh, hreplies⟩ := exists_replies (Nat.succ_pos _) hsent
      have hle := ht.reported j _ ((recorded_of_hears hwf hm).2 hevents) h₁ reply h₂ hh hreplies
      rw [hh] at hr hreplies ⊢
      exact (pending_of_replies hr hreplies).trans_le hle
    · rw [hstats, List.getElem?_set_ne hij] at hw
      rw [if_neg hij]
      exact hc i w hw

/-- **One step** counts the `Spawn`s that are pending, as long as it is timely. -/
theorem counted_step {h : SystemHistory t I n} {m : SystemMoment t I n}
    (hr : system.Run .default h m.pre) (hm : system.Fires m) (hc : Counted h m.pre)
    (hfits : ∀ w ∈ m.pre.stats, w.tasks < 2 ^ 64) :
    Counted (h ++ [m]) m.post ↔ Timely h m := by
  have hwf := wf_of_run hr
  have hstep := stats_cases hwf hm
  cases hstep with
  | added hspawned hrecorded hstats =>
      refine iff_of_true ((counted_snoc hr hm).2 ?_) (timely_of_none hwf hm hspawned hrecorded)
      intro i w hw
      rw [hstats] at hw
      rw [hspawned, hrecorded, List.count_nil, List.length_nil, Nat.add_zero, Nat.add_zero]
      rcases Nat.lt_or_ge i m.pre.stats.length with hi | hi
      · rw [List.getElem?_append_left hi] at hw
        exact hc i w hw
      · have hnone : (spawned h).count i = 0 :=
          List.count_eq_zero.2 fun hmem ↦ absurd (spawned_lt hr i hmem) (Nat.not_lt.2 hi)
        rw [hnone, Nat.zero_sub]
        exact Nat.zero_le _
  | spawned hspawned hrecorded hbest hstats =>
      exact counted_spawned hr hm hc hfits hspawned hrecorded hbest hstats
  | recorded hspawned hevents hj hstats =>
      exact counted_recorded hr hm hc hspawned hevents hj hstats
  | kept hspawned hrecorded hstats =>
      refine iff_of_true ((counted_snoc hr hm).2 ?_) (timely_of_none hwf hm hspawned hrecorded)
      intro i w hw
      rw [hstats] at hw
      rw [hspawned, hrecorded]
      exact hc i w hw

/-- What the controller counts fits into a `usize` if what the workers say does. -/
theorem tasks_lt {h : SystemHistory t I n} {s : System t I n} (hr : system.Run .default h s)
    (htasks : ∀ i, ∀ stats ∈ produced i h, stats.tasks < 2 ^ 64) :
    ∀ w ∈ s.stats, w.tasks < 2 ^ 64 := by
  induction hr with
  | nil => intro w hw; cases hw
  | @snoc h m hr hm ih =>
      have hpre := ih fun i stats hstats ↦ htasks i stats (by
        rw [produced_append]
        exact List.mem_append_left _ hstats)
      intro w hw
      have hstep := stats_cases (wf_of_run hr) hm
      cases hstep with
      | added _ _ hstats =>
          rw [hstats] at hw
          rcases List.mem_append.1 hw with hw | hw
          · exact hpre w hw
          · rw [List.mem_singleton.1 hw]
            exact Nat.two_pow_pos 64
      | spawned _ _ _ hstats =>
          obtain ⟨i, hi⟩ := List.mem_iff_getElem?.1 hw
          rw [hstats, List.getElem?_modify, Option.map_eq_map, Option.map_eq_some_iff] at hi
          obtain ⟨w', hw', rfl⟩ := hi
          split
          · exact Nat.mod_lt _ (Nat.two_pow_pos 64)
          · exact hpre w' (List.mem_of_getElem? hw')
      | @recorded j stats _ hevents _ hstats =>
          rw [hstats] at hw
          rcases List.mem_or_eq_of_mem_set hw with hw | rfl
          · exact hpre w hw
          · apply htasks j w
            rw [← recorded_append_inFlight (hr.snoc hm) j, recorded_append, recorded_singleton,
              hevents]
            simp [SystemEvent.recordedOf]
      | kept _ _ hstats => exact hpre w (hstats ▸ hw)

/-- **The controller counts every `Spawn` that is pending**, in every state of a run, exactly if
every step is timely. -/
theorem counted_iff {h : SystemHistory t I n} {s : System t I n} (hr : system.Run .default h s)
    (htasks : ∀ i, ∀ stats ∈ produced i h, stats.tasks < 2 ^ 64) :
    Along (fun h m ↦ Counted (h ++ [m]) m.post) h ↔ Along Timely h := by
  apply hr.along_iff (I := Counted)
  · intro i w hw
    cases hw
  · rintro h₁ m h₂ rfl hr₁ hm hc
    have hlt := tasks_lt hr₁ fun i stats hstats ↦ htasks i stats (by
      rw [produced_append]
      exact List.mem_append_left _ hstats)
    have hstep := counted_step hr₁ hm hc hlt
    exact ⟨hstep, hstep.2⟩

end Steps

/-! ## A reply that is older than a task -/

/-- A worker replies, and the controller spawns a task before it hears the reply. -/
def replyingLate : List (SystemOp plainTypes) :=
  [.addWorker 10 [] 0, .worker 0 (.clock 0), .worker 0 .run, .process, .controller, .controller,
    .controller, .worker 0 (.clock 0), .worker 0 .control, .worker 0 .run, .spawn (), .process,
    .controller, .controller, .controller]

/-- What comes of it. -/
def lateReply : SystemHistory plainTypes Scripted 1 × System plainTypes Scripted 1 :=
  ((system (t := plainTypes)).exec .default replyingLate).get rfl

theorem run_lateReply : (system (t := plainTypes)).Run .default lateReply.1 lateReply.2 :=
  Machine.exec_run_get rfl

theorem counted_iff_lateReply :
    Along (fun h m ↦ Counted (h ++ [m]) m.post) lateReply.1 ↔ Along Timely lateReply.1 := by
  refine counted_iff run_lateReply fun i ↦ ?_
  cases i with
  | zero => decide
  | succ i =>
      have hnone : produced (i + 1) lateReply.1 = [] := rfl
      rw [hnone]
      exact fun stats hstats ↦ absurd hstats List.not_mem_nil

/-- **A task that was just spawned may be forgotten**, by stats that the worker sent before. -/
theorem not_counted :
    ¬ ∀ h (s : System plainTypes Scripted 1), (system (t := plainTypes)).Run .default h s →
      Counted h s := by
  intro hall
  have hcounted := hall lateReply.1 lateReply.2 run_lateReply 0 _ rfl
  exact absurd hcounted (by decide)

end SansIo
