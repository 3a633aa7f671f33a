import SansIo.Lib.Component
import SansIo.System.Basic
import SansIo.Worker.Steps

/-!
# What a step of a system does

`System.Wf` is what ties the indices of legs, threads and stats together: worker `i`
reads leg `i` of the control bus and of the bus between workers, and is leg `i + 1` of
the event bus, after the controller.  It holds in every reachable state (`wf_of_run`),
and where it holds no index is out of range: `system_cases` lists the steps that are
left.  `worker_of_run` projects the runs of a system to those of one of its workers.
-/

namespace SansIo

open Lib Bus Backend Collections

variable {t : WorkerTypes} {I : Type} {n : Nat}

/-- The legs, the threads and the stats belong together. -/
structure System.Wf (s : System t I n) : Prop where
  /-- The controller has the first leg of the event bus. -/
  workerEvent : s.workerEvent = 0
  /-- Every thread has stats. -/
  stats : s.stats.length = s.workers.length
  /-- Every thread has a leg of the bus between workers. -/
  innerLegs : s.workerInnerBus.legs.length = s.workers.length
  /-- Every thread has a leg of the control bus. -/
  controlLegs : s.workerControlBus.legs.length = s.workers.length
  /-- Every thread has a leg of the event bus, after the controller's. -/
  eventLegs : s.workerEventBus.legs.length = s.workers.length + 1
  /-- What is registered is the leg of a thread. -/
  registered : ∀ c, ∀ i ∈ s.workerInnerBus.registered c, i < s.workers.length
  /-- A thread knows its legs. -/
  legs : ∀ {i x}, s.workers[i]? = some x → x.innerBus = i ∧ x.workerOut = i + 1 ∧ x.workerIn = i
  /-- What the controller is told comes from a thread. -/
  sources : ∀ p ∈ s.workerEventBus.waiting 0, ∃ i < s.workers.length, p.1 = .direct (i + 1)

/-- The stats that an act sends to the controller. -/
def Act.stats : Act t → Option WorkerStats
  | .workerOut _ (.stats stats) => some stats
  | _ => none

theorem Act.stats_eq_some {act : Act t} {stats : WorkerStats} :
    act.stats = some stats ↔ ∃ safe, act = .workerOut safe (.stats stats) := by
  constructor
  · unfold Act.stats
    split
    · intro h
      cases h
      exact ⟨_, rfl⟩
    · intro h
      cases h
  · rintro ⟨safe, rfl⟩
    rfl

/-- The stats in a message to the controller. -/
def statsOf (p : BusEventSource UInt16 × WorkerControlOut t.ExtOut t.SCfg) :
    Option WorkerStats :=
  match p.2 with
  | .stats stats => some stats
  | _ => none

/-- Nothing an act sends to the controller may be lost if it is stats. -/
def SafeStats (act : Act t) : Prop := ∀ stats, act ≠ .workerOut false (.stats stats)

/-! ## Keeping the indices together -/

theorem wf_default : (System.default : System t I n).Wf where
  workerEvent := rfl
  stats := rfl
  innerLegs := rfl
  controlLegs := rfl
  eventLegs := rfl
  registered _ _ hi := by cases hi
  legs hx := by cases hx
  sources _ hp := by cases hp

theorem System.Wf.addWorker [WorkerInner t I] {s : System t I n} (hwf : s.Wf) (tick : Nat)
    (cfg : t.ICfg) (now : Instant) : (s.addWorker tick cfg now).Wf where
  workerEvent := hwf.workerEvent
  stats := by simp [System.addWorker, hwf.stats]
  innerLegs := by simp [System.addWorker, BusSystem.newWorker, BusSystem.setAwaker, hwf.innerLegs]
  controlLegs := by simp [System.addWorker, BusSystem.newWorker, hwf.controlLegs]
  eventLegs := by simp [System.addWorker, BusSystem.newWorker, hwf.eventLegs]
  registered c i hi := by
    have hlt := hwf.registered c i hi
    simp only [System.addWorker, List.length_append, List.length_singleton]
    omega
  legs {i x} hx := by
    simp only [System.addWorker] at hx
    rw [List.getElem?_append] at hx
    split at hx
    · exact hwf.legs hx
    · have hi : i = s.workers.length := by
        have := (List.getElem?_eq_some_iff.mp hx).1
        simp only [List.length_singleton] at this
        omega
      subst hi
      simp only [Nat.sub_self, List.getElem?_cons_zero, Option.some.injEq] at hx
      subst hx
      simp [Worker.new, BusSystem.newWorker, hwf.innerLegs, hwf.controlLegs, hwf.eventLegs]
  sources p hp := by
    obtain ⟨i, hi, hsource⟩ := hwf.sources p (by simpa [System.addWorker] using hp)
    refine ⟨i, ?_, hsource⟩
    simp only [System.addWorker, List.length_append, List.length_singleton]
    omega

section Frame

variable {s : System t I n} (hwf : s.Wf)

include hwf

/-- The controller reads its own leg. -/
theorem System.Wf.recv_eq :
    s.workerEventBus.recv s.workerEvent = s.workerEventBus.recv 0 :=
  congrArg _ hwf.workerEvent

/-- Where the controller stands does not matter. -/
theorem System.Wf.of_rest (pc : ControllerPc) (shutdown : Bool)
    (output : DynamicDeque t.ExtOut 16) :
    { s with pc, shutdown, output }.Wf :=
  ⟨hwf.workerEvent, hwf.stats, hwf.innerLegs, hwf.controlLegs, hwf.eventLegs, hwf.registered,
    hwf.legs, hwf.sources⟩

theorem System.Wf.of_stats {stats : List WorkerStats} (h : stats.length = s.stats.length) :
    { s with stats }.Wf :=
  ⟨hwf.workerEvent, h.trans hwf.stats, hwf.innerLegs, hwf.controlLegs, hwf.eventLegs,
    hwf.registered, hwf.legs, hwf.sources⟩

theorem System.Wf.of_controlBus {bus : BusSystem UInt16 (WorkerControlIn t.ExtIn t.SCfg) Nat n}
    (h : bus.legs.length = s.workerControlBus.legs.length) :
    { s with workerControlBus := bus }.Wf :=
  ⟨hwf.workerEvent, hwf.stats, hwf.innerLegs, h.trans hwf.controlLegs, hwf.eventLegs,
    hwf.registered, hwf.legs, hwf.sources⟩

theorem System.Wf.of_eventBus {bus : BusSystem UInt16 (WorkerControlOut t.ExtOut t.SCfg) Nat n}
    (h : bus.legs.length = s.workerEventBus.legs.length)
    (hsub : ∀ p ∈ bus.waiting 0, p ∈ s.workerEventBus.waiting 0 ∨
      ∃ i < s.workers.length, p.1 = .direct (i + 1)) :
    { s with workerEventBus := bus }.Wf :=
  ⟨hwf.workerEvent, hwf.stats, hwf.innerLegs, hwf.controlLegs, h.trans hwf.eventLegs,
    hwf.registered, hwf.legs, fun p hp ↦ (hsub p hp).elim (hwf.sources p) id⟩

theorem System.Wf.of_innerBus {bus : BusSystem t.ChannelId t.Event Nat n}
    (h : bus.legs.length = s.workerInnerBus.legs.length)
    (hreg : ∀ c, ∀ i ∈ bus.registered c, i < s.workers.length) :
    { s with workerInnerBus := bus }.Wf :=
  ⟨hwf.workerEvent, hwf.stats, h.trans hwf.innerLegs, hwf.controlLegs, hwf.eventLegs, hreg,
    hwf.legs, hwf.sources⟩

theorem System.Wf.of_worker {i : Nat} {x x' : Worker t I} (hx : s.workers[i]? = some x)
    (h : x'.innerBus = x.innerBus ∧ x'.workerOut = x.workerOut ∧ x'.workerIn = x.workerIn) :
    { s with workers := s.workers.set i x' }.Wf where
  workerEvent := hwf.workerEvent
  stats := hwf.stats.trans List.length_set.symm
  innerLegs := hwf.innerLegs.trans List.length_set.symm
  controlLegs := hwf.controlLegs.trans List.length_set.symm
  eventLegs := hwf.eventLegs.trans (congrArg (· + 1) List.length_set.symm)
  registered c j hj := by
    simp only [List.length_set]
    exact hwf.registered c j hj
  legs {j y} hy := by
    rw [List.getElem?_set] at hy
    split at hy
    · rename_i hij
      subst hij
      have hi : i < s.workers.length := (List.getElem?_eq_some_iff.mp hx).1
      simp only [hi, if_true, Option.some.injEq] at hy
      subst hy
      rw [h.1, h.2.1, h.2.2]
      exact hwf.legs hx
    · exact hwf.legs hy
  sources p hp := by
    simp only [List.length_set]
    exact hwf.sources p hp

/-- What `recv` leaves of the event bus. -/
theorem System.Wf.of_recv {r : Option (BusEventSource UInt16 × WorkerControlOut t.ExtOut t.SCfg)}
    {bus : BusSystem UInt16 (WorkerControlOut t.ExtOut t.SCfg) Nat n}
    (h : s.workerEventBus.recv 0 = (r, bus)) : { s with workerEventBus := bus }.Wf := by
  obtain rfl : (s.workerEventBus.recv 0).2 = bus := congrArg Prod.snd h
  exact hwf.of_eventBus (s.workerEventBus.recv_cases 0).2.1
    fun p hp ↦ .inl (BusSystem.mem_waiting_of_recv hp)

end Frame

/-! ## The acts of a worker -/

section Acts

/-- What acts do to the buses. -/
structure Performed (x : Worker t I) (acts : List (Act t)) (s s' : System t I n)
    (events : List (SystemEvent t I)) : Prop where
  /-- Only two of the buses change. -/
  frame : s' = { s with workerInnerBus := s'.workerInnerBus, workerEventBus := s'.workerEventBus }
  /-- No leg is added to the first. -/
  innerLegs : s'.workerInnerBus.legs.length = s.workerInnerBus.legs.length
  /-- Nor to the second. -/
  eventLegs : s'.workerEventBus.legs.length = s.workerEventBus.legs.length
  /-- Messages are offered on these two. -/
  events : ∀ e ∈ events, (∃ o, e = .inner o) ∨ ∃ o, e = .event o
  /-- The controller is sent what the worker has for it. -/
  sent : ∃ sent, s'.workerEventBus.waiting 0 = s.workerEventBus.waiting 0 ++ sent ∧
    (∀ p ∈ sent, p.1 = .direct x.workerOut) ∧
    ((∀ act ∈ acts, SafeStats act) → sent.filterMap statsOf = acts.filterMap Act.stats)
  /-- No other leg than the worker's own is registered or taken out. -/
  others : ∀ c j, j ≠ x.innerBus →
    (j ∈ s'.workerInnerBus.registered c ↔ j ∈ s.workerInnerBus.registered c)
  /-- And this one only by the acts that say so. -/
  channels : (∀ c, .subscribe c ∉ acts ∧ .unsubscribe c ∉ acts) →
    s'.workerInnerBus.channels = s.workerInnerBus.channels

/-- Any other event of a worker's step is the step itself. -/
theorem Performed.eq_worker {x : Worker t I} {acts : List (Act t)} {s s' : System t I n}
    {events : List (SystemEvent t I)} (h : Performed x acts s s' events) {j : Nat}
    {w : WorkerMoment t I} {e : SystemEvent t I} (he : e ∈ .worker j w :: events)
    (hinner : ∀ o, e ≠ .inner o) (hevent : ∀ o, e ≠ .event o) : e = .worker j w := by
  rcases List.mem_cons.mp he with he | he
  · exact he
  · rcases h.events e he with ⟨o, rfl⟩ | ⟨o, rfl⟩
    · exact absurd rfl (hinner o)
    · exact absurd rfl (hevent o)

/-- What is registered after them is a leg if what was before is. -/
theorem Performed.registered_lt {x : Worker t I} {acts : List (Act t)} {s s' : System t I n}
    {events : List (SystemEvent t I)} (h : Performed x acts s s' events) {N : Nat}
    (hx : x.innerBus < N) (hreg : ∀ c, ∀ i ∈ s.workerInnerBus.registered c, i < N)
    (c : t.ChannelId) (i : Nat) (hi : i ∈ s'.workerInnerBus.registered c) : i < N := by
  rcases eq_or_ne i x.innerBus with rfl | hne
  · exact hx
  · exact hreg c i ((h.others c i hne).mp hi)

/-- What acts do one after the other. -/
theorem Performed.cons {x : Worker t I} {act : Act t} {acts : List (Act t)}
    {s s₁ s₂ : System t I n} {events events' : List (SystemEvent t I)}
    (h : Performed x [act] s s₁ events) (h' : Performed x acts s₁ s₂ events') :
    Performed x (act :: acts) s s₂ (events ++ events') := by
  refine ⟨?_, h'.innerLegs.trans h.innerLegs, h'.eventLegs.trans h.eventLegs, ?_, ?_, ?_, ?_⟩
  · rw [h'.frame, h.frame]
  · intro e he
    exact (List.mem_append.mp he).elim (h.events e) (h'.events e)
  · obtain ⟨sent, hw, hsource, hstats⟩ := h.sent
    obtain ⟨sent', hw', hsource', hstats'⟩ := h'.sent
    refine ⟨sent ++ sent', by rw [hw', hw, List.append_assoc], ?_, ?_⟩
    · intro p hp
      exact (List.mem_append.mp hp).elim (hsource p) (hsource' p)
    · intro hsafe
      rw [List.filterMap_append, hstats fun a ha ↦ hsafe a (by simp_all),
        hstats' fun a ha ↦ hsafe a (by simp [ha]), ← List.filterMap_append]
      rfl
  · intro c j hj
    rw [h'.others c j hj, h.others c j hj]
  · intro hno
    rw [h'.channels fun c ↦ ⟨fun hc ↦ (hno c).1 (by simp [hc]), fun hc ↦ (hno c).2 (by simp [hc])⟩,
      h.channels fun c ↦ ⟨fun hc ↦ (hno c).1 (by simp_all), fun hc ↦ (hno c).2 (by simp_all)⟩]

variable [DecidableEq t.ChannelId]

theorem perform_ok (s : System t I n) (x : Worker t I) (act : Act t)
    (hevent : 0 < s.workerEventBus.legs.length)
    (hreg : ∀ c, ∀ i ∈ s.workerInnerBus.registered c, i < s.workerInnerBus.legs.length) :
    ∃ r, s.perform x act = .ok r := by
  cases act with
  | workerOut safe msg =>
      obtain ⟨⟨o, b⟩, h⟩ := s.workerEventBus.offer_ok (.direct x.workerOut) safe msg hevent
      exact ⟨_, bind_ok.mpr ⟨_, h, rfl⟩⟩
  | publish c safe msg =>
      obtain ⟨⟨os, b⟩, h⟩ := s.workerInnerBus.offerAll_ok (.channel x.innerBus c) safe msg (hreg c)
      rw [← BusSystem.publish_eq] at h
      exact ⟨_, bind_ok.mpr ⟨_, h, rfl⟩⟩
  | broadcast safe msg =>
      have hlegs : ∀ i ∈ List.range s.workerInnerBus.legs.length,
          i < s.workerInnerBus.legs.length := fun i hi ↦ List.mem_range.mp hi
      obtain ⟨⟨os, b⟩, h⟩ := s.workerInnerBus.offerAll_ok (.broadcast x.innerBus) safe msg hlegs
      exact ⟨_, bind_ok.mpr ⟨_, h, rfl⟩⟩
  | _ => exact ⟨_, rfl⟩

theorem performed {s s' : System t I n} {x : Worker t I} {act : Act t}
    {events : List (SystemEvent t I)} (h : s.perform x act = .ok (events, s')) :
    Performed x [act] s s' events := by
  cases act with
  | workerOut safe msg =>
      obtain ⟨⟨o, b⟩, ho, hret⟩ := bind_ok.mp h
      cases hret
      obtain ⟨-, -, -, hch, hlen, -, -, hsent⟩ := BusSystem.offer_cases ho
      refine ⟨rfl, rfl, hlen, by simp, ?_, fun _ _ _ ↦ .rfl, fun _ ↦ rfl⟩
      rcases hsent with hsent | ⟨rfl, hsent⟩
      · refine ⟨_, hsent, by simp, ?_⟩
        intro _
        cases msg <;> rfl
      · refine ⟨[], by simpa using hsent, by simp, ?_⟩
        intro hsafe
        cases msg with
        | stats stats => exact absurd rfl (hsafe _ List.mem_cons_self stats)
        | _ => rfl
  | subscribe c =>
      cases h
      refine ⟨rfl, by simp, rfl, by simp, ⟨[], by simp, by simp, by simp [Act.stats]⟩, ?_, ?_⟩
      · intro c' j hj
        simp [BusSystem.mem_subscribe, hj]
      · intro hno
        exact absurd List.mem_cons_self (hno c).1
  | unsubscribe c =>
      cases h
      refine ⟨rfl, by simp, rfl, by simp, ⟨[], by simp, by simp, by simp [Act.stats]⟩, ?_, ?_⟩
      · intro c' j hj
        simp [BusSystem.mem_unsubscribe, hj]
      · intro hno
        exact absurd List.mem_cons_self (hno c).2
  | publish c safe msg =>
      obtain ⟨⟨os, b⟩, ho, hret⟩ := bind_ok.mp h
      cases hret
      rw [BusSystem.publish_eq] at ho
      obtain ⟨-, -, hch, hlen⟩ := BusSystem.offerAll_cases ho
      exact ⟨rfl, hlen, rfl, by simp, ⟨[], by simp, by simp, by simp [Act.stats]⟩,
        fun _ _ _ ↦ by simp [BusSystem.registered, hch], fun _ ↦ hch⟩
  | broadcast safe msg =>
      obtain ⟨⟨os, b⟩, ho, hret⟩ := bind_ok.mp h
      cases hret
      obtain ⟨-, -, hch, hlen⟩ := BusSystem.offerAll_cases ho
      exact ⟨rfl, hlen, rfl, by simp, ⟨[], by simp, by simp, by simp [Act.stats]⟩,
        fun _ _ _ ↦ by simp [BusSystem.registered, hch], fun _ ↦ hch⟩
  | _ =>
      cases h
      exact ⟨rfl, rfl, rfl, by simp, ⟨[], by simp, by simp, by simp [Act.stats]⟩,
        fun _ _ _ ↦ .rfl, fun _ ↦ rfl⟩

/-- Where the legs are there, acts never fail. -/
theorem performAll_ok {s : System t I n} {x : Worker t I} (acts : List (Act t))
    (hx : x.innerBus < s.workerInnerBus.legs.length)
    (hevent : 0 < s.workerEventBus.legs.length)
    (hreg : ∀ c, ∀ i ∈ s.workerInnerBus.registered c, i < s.workerInnerBus.legs.length) :
    ∃ events s', s.performAll x acts = .ok (events, s') ∧ Performed x acts s s' events := by
  induction acts generalizing s with
  | nil =>
      exact ⟨[], s, rfl, rfl, rfl, rfl, by simp, ⟨[], by simp⟩, fun _ _ _ ↦ .rfl, fun _ ↦ rfl⟩
  | cons act acts ih =>
      obtain ⟨⟨events, s₁⟩, h⟩ := perform_ok s x act hevent hreg
      have hp := performed h
      obtain ⟨events', s₂, h', hp'⟩ := ih (hp.innerLegs ▸ hx) (hp.eventLegs ▸ hevent)
        fun c i hi ↦ hp.innerLegs ▸ hp.registered_lt hx hreg c i hi
      exact ⟨events ++ events', s₂, by simp [System.performAll, h, h'], hp.cons hp'⟩

end Acts

/-! ## The steps of a system -/

/-- There is a best worker where there is one. -/
theorem System.bestWorker_eq_none {stats : List WorkerStats} :
    System.bestWorker stats = none ↔ stats = [] := by
  simp [System.bestWorker]

/-- The worker with the lowest load is one of them. -/
theorem System.bestWorker_lt {stats : List WorkerStats} {i : Nat}
    (h : System.bestWorker stats = some i) : i < stats.length := by
  obtain ⟨m, hm, rfl⟩ := Option.map_eq_some_iff.mp h
  simpa using List.idxOf_lt_length_of_mem (List.min?_mem hm)

theorem System.sendControl_cases (s : System t I n) (worker : Nat) (safe : Bool)
    (msg : WorkerControlIn t.ExtIn t.SCfg) :
    (∃ o bus, s.workerControlBus.sendExternal worker safe msg = .ok (o, bus) ∧
      s.sendControl worker safe msg = ({ s with workerControlBus := bus }, [.control o])) ∨
    (s.workerControlBus.legs.length ≤ worker ∧
      s.sendControl worker safe msg = ({ s with pc := .panicked }, [])) := by
  unfold sendControl
  rcases Nat.lt_or_ge worker s.workerControlBus.legs.length with h | h
  · obtain ⟨⟨o, bus⟩, ho⟩ := s.workerControlBus.offer_ok .external safe msg h
    left
    exact ⟨o, bus, ho, by rw [BusSystem.sendExternal, ho]⟩
  · right
    refine ⟨h, ?_⟩
    have hnone : s.workerControlBus.legs[worker]? = none := List.getElem?_eq_none h
    simp [BusSystem.sendExternal, BusSystem.offer, index, hnone, bind, Except.bind, throw,
      throwThe, MonadExceptOf.throw]

/-- Spawning a task sends it to the best worker, if there is one. -/
theorem System.spawn_cases {s : System t I n}
    (hlen : s.stats.length = s.workerControlBus.legs.length) (cfg : t.SCfg) :
    (System.bestWorker s.stats = none ∧ s.spawn cfg = ({ s with pc := .panicked }, [])) ∨
    ∃ best o bus, System.bestWorker s.stats = some best ∧
      s.workerControlBus.sendExternal best true (.spawn cfg) = .ok (o, bus) ∧
      s.spawn cfg = ({ s with
        stats := s.stats.modify best fun w ↦ { w with tasks := usizeAdd w.tasks 1 }
        workerControlBus := bus }, [.control o]) := by
  unfold spawn
  cases hbest : System.bestWorker s.stats with
  | none =>
      left
      exact ⟨rfl, rfl⟩
  | some best =>
      right
      have hlt : best < s.workerControlBus.legs.length := hlen ▸ System.bestWorker_lt hbest
      rcases System.sendControl_cases
        { s with stats := s.stats.modify best fun w ↦ { w with tasks := usizeAdd w.tasks 1 } }
        best true (.spawn cfg) with ⟨o, bus, hsend, heq⟩ | ⟨hle, -⟩
      · exact ⟨best, o, bus, rfl, hsend, heq⟩
      · exact absurd hlt (Nat.not_lt.2 hle)

/-- The answer to a worker: a message of its leg of one of two buses, or no message. -/
theorem System.answer_cases (s : System t I n) (x : Worker t I) (turn : WorkerTurn t) :
    ((s.answer x turn).2 = s ∧ (∀ msg, (s.answer x turn).1 ≠ .control msg) ∧
      ∀ msg, (s.answer x turn).1 ≠ .bus msg) ∨
    s.answer x turn = (.control ((s.workerControlBus.recv x.workerIn).1.map Prod.snd),
      { s with workerControlBus := (s.workerControlBus.recv x.workerIn).2 }) ∨
    s.answer x turn = (.bus (s.workerInnerBus.recv x.innerBus).1,
      { s with workerInnerBus := (s.workerInnerBus.recv x.innerBus).2 }) := by
  cases turn with
  | control => exact .inr (.inl rfl)
  | bus => exact .inr (.inr rfl)
  | _ => exact .inl ⟨rfl, by simp [answer], by simp [answer]⟩

/-- An answer takes messages from legs, and leaves the rest alone. -/
theorem System.answer_frame (s : System t I n) (x : Worker t I) (turn : WorkerTurn t) :
    (s.answer x turn).2 = { s with
        workerInnerBus := (s.answer x turn).2.workerInnerBus
        workerControlBus := (s.answer x turn).2.workerControlBus } ∧
      (s.answer x turn).2.workerInnerBus.channels = s.workerInnerBus.channels ∧
      (s.answer x turn).2.workerInnerBus.legs.length = s.workerInnerBus.legs.length ∧
      (s.answer x turn).2.workerControlBus.legs.length = s.workerControlBus.legs.length := by
  rcases s.answer_cases x turn with ⟨h, -⟩ | h | h
  · rw [h]
    exact ⟨rfl, rfl, rfl, rfl⟩
  · rw [h]
    exact ⟨rfl, rfl, rfl, (s.workerControlBus.recv_cases x.workerIn).2.1⟩
  · rw [h]
    obtain ⟨hch, hlen, -⟩ := s.workerInnerBus.recv_cases x.innerBus
    exact ⟨rfl, hch, hlen, rfl⟩

/-- What a step of a worker leaves of the buses. -/
theorem System.Wf.of_performed {s s' : System t I n} (hwf : s.Wf) {i : Nat} {x : Worker t I}
    (hx : s.workers[i]? = some x) {turn : WorkerTurn t} {acts : List (Act t)}
    {events : List (SystemEvent t I)} (hp : Performed x acts (s.answer x turn).2 s' events) :
    s'.Wf := by
  obtain ⟨hframe, hch, hlen, hclen⟩ := s.answer_frame x turn
  have hi : i < s.workers.length := (List.getElem?_eq_some_iff.mp hx).1
  obtain ⟨sent, hsent, hsource, -⟩ := hp.sent
  rw [hframe] at hsent
  rw [hp.frame, hframe]
  have h₁ := hwf.of_controlBus hclen
  have h₂ := h₁.of_innerBus (hp.innerLegs.trans hlen) 
    (hp.registered_lt ((hwf.legs hx).1 ▸ hi) fun c j hj ↦
      hwf.registered c j (by simpa [BusSystem.registered, hch] using hj))
  refine h₂.of_eventBus (hp.eventLegs.trans ?_) fun p hmem ↦ ?_
  · rw [hframe]
  · rw [hsent] at hmem
    refine (List.mem_append.mp hmem).imp_right fun hmem ↦ ⟨i, hi, ?_⟩
    rw [hsource p hmem, (hwf.legs hx).2.1]

variable [DecidableEq t.ChannelId]

/-- Acts of a worker are performed on the buses of a system. -/
theorem System.Wf.performAll_ok {s : System t I n} (hwf : s.Wf) {i : Nat} {x : Worker t I}
    (hx : s.workers[i]? = some x) (turn : WorkerTurn t) (acts : List (Act t)) :
    ∃ events s', (s.answer x turn).2.performAll x acts = .ok (events, s') ∧
      Performed x acts (s.answer x turn).2 s' events := by
  obtain ⟨hframe, hch, hlen, -⟩ := s.answer_frame x turn
  have hi : i < s.workers.length := (List.getElem?_eq_some_iff.mp hx).1
  have hlegs := hlen.trans hwf.innerLegs
  apply SansIo.performAll_ok acts
  · rw [(hwf.legs hx).1, hlegs]
    exact hi
  · rw [hframe]
    have := hwf.eventLegs
    simp only
    omega
  · intro c j hj
    rw [hlegs]
    exact hwf.registered c j (by simpa [BusSystem.registered, hch] using hj)

variable [WorkerInner t I] [DecidableEq t.Owner]

/-- A turn of a worker is a step of it, whose acts are performed. -/
theorem System.Wf.workerStep_cases {s s' : System t I n} (hwf : s.Wf) {i : Nat}
    {turn : WorkerTurn t} {events : List (SystemEvent t I)}
    (h : s.workerStep i turn = some (s', events)) :
    ∃ x x' acts acted s₂, s.workers[i]? = some x ∧
      worker.step x (s.answer x turn).1 = some (x', acts) ∧
      (s.answer x turn).2.performAll x acts = .ok (acted, s₂) ∧
      Performed x acts (s.answer x turn).2 s₂ acted ∧
      s' = { s₂ with workers := s.workers.set i x' } ∧
      events = .worker i ⟨x, (s.answer x turn).1, acts, x'⟩ :: acted := by
  simp only [System.workerStep] at h
  split at h
  · cases h
  · rename_i x hx
    split at h
    · cases h
    · rename_i x' acts hstep
      obtain ⟨acted, s₂, hok, hperf⟩ := hwf.performAll_ok hx turn acts
      have hworkers : s₂.workers = s.workers := by
        rw [hperf.frame, (s.answer_frame x turn).1]
      rw [hok] at h
      cases h
      exact ⟨x, x', acts, acted, s₂, hx, hstep, hok, hperf, by rw [hworkers], rfl⟩

/-- What a system does, where its indices belong together. -/
inductive SystemDoes (s : System t I n) :
    SystemOp t → System t I n → List (SystemEvent t I) → Prop
  | added {tick cfg now} :
      SystemDoes s (.addWorker tick cfg now) (s.addWorker tick cfg now) [.added s.stats.length]
  | quiet {op pc shutdown output events} (hev : events = [] ∨ ∃ out, events = [.popped out]) :
      SystemDoes s op { s with pc, shutdown, output } events
  | finished (hs : s.shutdown = true) (hrun : s.countRunningWorkers = 0) :
      SystemDoes s .process s [.processed none]
  | sent {op worker safe msg pc bus o} (hmsg : ∀ cfg, msg ≠ .spawn cfg)
      (hsend : s.workerControlBus.sendExternal worker safe msg = .ok (o, bus)) :
      SystemDoes s op { s with workerControlBus := bus, pc } [.control o]
  | spawned {op best cfg eventBus bus o}
      (hbus : eventBus = s.workerEventBus ∨
        ∃ source, s.workerEventBus.recv 0 = (some (source, .spawn cfg), eventBus))
      (hsend : s.workerControlBus.sendExternal best true (.spawn cfg) = .ok (o, bus)) :
      SystemDoes s op
        { s with
          workerEventBus := eventBus
          workerControlBus := bus
          stats := s.stats.modify best fun w ↦ { w with tasks := usizeAdd w.tasks 1 } }
        [.control o]
  | recorded {i stats bus} (hi : i < s.stats.length)
      (hrecv : s.workerEventBus.recv 0 = (some (.direct (i + 1), .stats stats), bus)) :
      SystemDoes s .controller
        { s with workerEventBus := bus, stats := s.stats.set i stats } [.recorded i stats]
  | heard {source ext bus}
      (hrecv : s.workerEventBus.recv 0 = (some (source, .ext ext), bus)) :
      SystemDoes s .controller
        { s with workerEventBus := bus, output := s.output.pushBack ext } []
  | processed {bus} (hrecv : s.workerEventBus.recv 0 = (none, bus)) :
      SystemDoes s .controller { s with workerEventBus := bus, pc := .idle }
        [.processed (some ())]
  | worker {i turn x x' acts events s'} (hx : s.workers[i]? = some x)
      (hstep : worker.step x (s.answer x turn).1 = some (x', acts))
      (hperf : (s.answer x turn).2.performAll x acts = .ok (events, s'))
      (hp : Performed x acts (s.answer x turn).2 s' events) :
      SystemDoes s (.worker i turn) { s' with workers := s.workers.set i x' }
        (.worker i ⟨x, (s.answer x turn).1, acts, x'⟩ :: events)

/-- Telling a worker something else than to spawn a task. -/
theorem SystemDoes.of_sendControl {s s' : System t I n} {op : SystemOp t} {pc : ControllerPc}
    {worker : Nat} {safe : Bool} {msg : WorkerControlIn t.ExtIn t.SCfg}
    {events : List (SystemEvent t I)} (hmsg : ∀ cfg, msg ≠ .spawn cfg)
    (h : { s with pc }.sendControl worker safe msg = (s', events)) : SystemDoes s op s' events := by
  rcases System.sendControl_cases { s with pc } worker safe msg with
    ⟨o, bus, hsend, heq⟩ | ⟨-, heq⟩
  · cases h.symm.trans heq
    exact .sent hmsg hsend
  · cases h.symm.trans heq
    exact .quiet (.inl rfl)

/-- Spawning a task sends it to a worker, if there is one. -/
theorem SystemDoes.of_spawn {s s' : System t I n} (hwf : s.Wf) {op : SystemOp t} {cfg : t.SCfg}
    {eventBus : BusSystem UInt16 (WorkerControlOut t.ExtOut t.SCfg) Nat n}
    {events : List (SystemEvent t I)}
    (hbus : eventBus = s.workerEventBus ∨ s.stats ≠ [] ∧
      ∃ source, s.workerEventBus.recv 0 = (some (source, .spawn cfg), eventBus))
    (h : { s with workerEventBus := eventBus }.spawn cfg = (s', events)) :
    SystemDoes s op s' events := by
  rcases System.spawn_cases (s := { s with workerEventBus := eventBus })
    (hwf.stats.trans hwf.controlLegs.symm) cfg with
    ⟨hbest, heq⟩ | ⟨best, o, bus, -, hsend, heq⟩
  · cases h.symm.trans heq
    obtain rfl : eventBus = s.workerEventBus :=
      hbus.resolve_right fun hne ↦ hne.1 (System.bestWorker_eq_none.1 hbest)
    exact .quiet (.inl rfl)
  · cases h.symm.trans heq
    exact .spawned (hbus.imp_right And.right) hsend

/-- What the controller is told comes from one of its workers. -/
theorem SystemDoes.of_onWorkerEvent {s s' : System t I n} (hwf : s.Wf)
    {events : List (SystemEvent t I)}
    (h : { s with workerEventBus := (s.workerEventBus.recv 0).2 }.onWorkerEvent
      (s.workerEventBus.recv 0).1 = (s', events)) : SystemDoes s .controller s' events := by
  obtain ⟨-, -, -, hrecv⟩ := s.workerEventBus.recv_cases 0
  generalize hr : s.workerEventBus.recv 0 = r at h hrecv
  obtain ⟨msg, bus⟩ := r
  rcases hrecv with ⟨⟨source, msg'⟩, rfl, hwait⟩ | ⟨rfl, -⟩
  · obtain ⟨i, hi, rfl⟩ := hwf.sources _ (hwait ▸ List.mem_cons_self)
    rw [← hwf.stats] at hi
    cases msg' with
    | stats stats =>
        simp only [System.onWorkerEvent, if_pos hi] at h
        cases h
        exact .recorded hi hr
    | ext ext =>
        cases h
        exact .heard hr
    | spawn cfg =>
        exact .of_spawn hwf (.inr ⟨List.ne_nil_of_length_pos (Nat.zero_lt_of_lt hi), _, hr⟩) h
  · cases h
    exact .processed hr

/-- **Every step of a system is one of these**, where its indices belong together. -/
theorem system_cases {s s' : System t I n} {op : SystemOp t} {events : List (SystemEvent t I)}
    (hwf : s.Wf) (h : system.step s op = some (s', events)) : SystemDoes s op s' events := by
  cases op with
  | addWorker tick cfg now =>
      simp only [system, System.step] at h
      split at h
      · cases h
        exact .added
      · cases h
  | spawn cfg =>
      simp only [system, System.step] at h
      split at h
      · exact .of_spawn hwf (.inl rfl) (Option.some.inj h)
      · cases h
  | shutdown =>
      simp only [system, System.step] at h
      split at h
      · cases h
        exact .quiet (.inl rfl)
      · cases h
  | sendTo i ext =>
      simp only [system, System.step] at h
      split at h
      · exact .of_sendControl (by simp) (Option.some.inj h)
      · cases h
  | sendToBest ext =>
      simp only [system, System.step, System.sendToBest] at h
      split at h
      · split at h
        · cases h
          exact .quiet (.inl rfl)
        · exact .of_sendControl (by simp) (Option.some.inj h)
      · cases h
  | process =>
      simp only [system, System.step, System.process] at h
      split at h
      · split at h
        · rename_i hdone
          cases h
          exact .finished hdone.1 hdone.2
        · cases h
          exact .quiet (.inl rfl)
      · cases h
  | popEvent =>
      simp only [system, System.step] at h
      split at h
      · cases h
        exact .quiet (.inr ⟨_, rfl⟩)
      · cases h
  | controller =>
      simp only [system, System.step, System.controllerStep] at h
      split at h
      · split at h
        · exact .of_sendControl (by simp) (Option.some.inj h)
        · cases h
          exact .quiet (.inl rfl)
      · split at h
        · exact .of_sendControl (by simp) (Option.some.inj h)
        · cases h
          exact .quiet (.inl rfl)
      · rw [hwf.recv_eq] at h
        exact .of_onWorkerEvent hwf (Option.some.inj h)
      · cases h
  | worker i turn =>
      obtain ⟨x, x', acts, acted, s₂, hx, hstep, hok, hperf, rfl, rfl⟩ := hwf.workerStep_cases h
      exact .worker hx hstep hok hperf

/-! ## The indices belong together in every run -/

/-- A step keeps the legs of a worker. -/
theorem legs_of_step {x x' : Worker t I} {a : Answer t} {acts : List (Act t)}
    (h : worker.step x a = some (x', acts)) :
    x'.innerBus = x.innerBus ∧ x'.workerOut = x.workerOut ∧ x'.workerIn = x.workerIn := by
  have hdoes := worker_cases h
  cases hdoes
  case pop out inner hp hout =>
    rw [Worker.processInnerOutput_eq]
    exact ⟨rfl, rfl, rfl⟩
  all_goals exact ⟨rfl, rfl, rfl⟩

theorem System.Wf.step {m : SystemMoment t I n} (hwf : m.pre.Wf) (hm : system.Fires m) :
    m.post.Wf := by
  obtain ⟨s, op, events, s'⟩ := m
  have hdoes : SystemDoes s op s' events := system_cases hwf hm
  cases hdoes with
  | @added tick cfg now => exact hwf.addWorker tick cfg now
  | @quiet _ pc shutdown output _ _ => exact hwf.of_rest pc shutdown output
  | finished => exact hwf
  | @sent _ _ _ _ pc bus o _ hsend =>
      obtain ⟨-, -, -, -, hlen, -⟩ := BusSystem.offer_cases hsend
      exact (hwf.of_controlBus hlen).of_rest pc s.shutdown s.output
  | @spawned _ best cfg eventBus bus o hbus hsend =>
      obtain ⟨-, -, -, -, hlen, -⟩ := BusSystem.offer_cases hsend
      have hwf' : { s with workerEventBus := eventBus }.Wf := by
        rcases hbus with rfl | ⟨source, hrecv⟩
        · exact hwf
        · exact hwf.of_recv hrecv
      exact (hwf'.of_controlBus hlen).of_stats (List.length_modify ..)
  | recorded _ hrecv => exact (hwf.of_recv hrecv).of_stats List.length_set
  | heard hrecv => exact (hwf.of_recv hrecv).of_rest s.pc s.shutdown _
  | processed hrecv => exact (hwf.of_recv hrecv).of_rest .idle s.shutdown s.output
  | @worker i turn x x' acts events s₂ hx hstep hperf hp =>
      have hworkers : s₂.workers = s.workers := by
        rw [hp.frame, (s.answer_frame x turn).1]
      rw [← hworkers]
      exact (hwf.of_performed hx hp).of_worker (hworkers ▸ hx) (legs_of_step hstep)

/-- **The indices belong together in every reachable state.** -/
theorem wf_of_run {h : SystemHistory t I n} {s : System t I n} (hr : system.Run .default h s) :
    s.Wf :=
  hr.invariant (I := System.Wf) wf_default fun _ hm hwf ↦ hwf.step hm

/-! ## The runs of one worker -/

/-- A worker as `add_worker` builds it. -/
def Started (i : Nat) (x : Worker t I) : Prop :=
  ∃ now tick cfg, x = .new now tick (WorkerInner.build (.ofNat i) cfg) i (i + 1) i

/-- A step of the system is a step of one worker, or leaves the workers alone, or adds
one. -/
theorem follows_step {m : SystemMoment t I n} (hwf : m.pre.Wf) (hm : system.Fires m) (i : Nat) :
    Follows worker (Started i) m.pre.workers[i]? m.post.workers[i]?
      (m.events.filterMap (SystemEvent.report i)) := by
  have hstay (s : System t I n) : Follows worker (Started i) s.workers[i]? s.workers[i]? [] := by
    cases s.workers[i]? with
    | none => exact .absent
    | some x => exact .idle
  obtain ⟨s, op, events, s'⟩ := m
  have hdoes : SystemDoes s op s' events := system_cases hwf hm
  cases hdoes with
  | @added tick cfg now =>
      show Follows worker (Started i) s.workers[i]? (s.addWorker tick cfg now).workers[i]? []
      simp only [System.addWorker]
      rw [getElem?_concat]
      split
      · rename_i hi
        rw [hi, List.getElem?_eq_none le_rfl]
        refine .start ⟨now, tick, cfg, ?_⟩
        simp [BusSystem.newWorker, hwf.innerLegs, hwf.controlLegs, hwf.eventLegs]
      · exact hstay s
  | quiet hev =>
      rcases hev with rfl | ⟨out, rfl⟩ <;> exact hstay s
  | @worker j turn x x' acts events s₂ hx hstep hperf hp =>
      rw [report_worker hp.events]
      rcases eq_or_ne j i with rfl | hne
      · have hj : j < s.workers.length := (List.getElem?_eq_some_iff.mp hx).1
        simp only [if_true, hx, List.getElem?_set_self hj]
        exact .move (m := ⟨x, (s.answer x turn).1, acts, x'⟩) hstep
      · simp only [if_neg hne, List.getElem?_set_ne hne]
        exact hstay s
  | _ => exact hstay s

/-- **What a run of a system reports of a worker is a run of the worker.** -/
theorem worker_of_run {h : SystemHistory t I n} {s : System t I n}
    (hr : system.Run .default h s) {i : Nat} {x : Worker t I} (hx : s.workers[i]? = some x) :
    ∃ x₀, Started i x₀ ∧ worker.Run x₀ (SystemHistory.of h i) x :=
  hr.component (p := fun s ↦ s.workers[i]?) rfl
    (fun _ _ hr hm ↦ follows_step (wf_of_run hr) hm i) hx

/-- The same from a state where the worker is there. -/
theorem worker_of_run_from {s₀ s : System t I n} {h k : SystemHistory t I n}
    (hr₀ : system.Run .default h s₀) (hr : system.Run s₀ k s) {i : Nat} {x₀ : Worker t I}
    (hx₀ : s₀.workers[i]? = some x₀) :
    ∃ x, s.workers[i]? = some x ∧ worker.Run x₀ (SystemHistory.of k i) x :=
  hr.component_from (p := fun s ↦ s.workers[i]?) hx₀
    fun _ _ hr hm ↦ follows_step (wf_of_run (hr₀.append hr)) hm i

end SansIo
