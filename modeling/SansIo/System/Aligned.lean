import SansIo.System.Messages
import SansIo.System.Shutdown

/-!
# The buses stay aligned

A controller has three buses, and their legs are numbered apart.  `add_worker` takes a
leg of each in turn, so the numbers of a worker go together (`System.Wf`), and whatever is
sent by number reaches the worker that was meant.

Where a message comes from depends on the function that sent it.  Between workers there
are only a `publish` and a `broadcast` (`SentBy`), so a worker that is woken never finds
a source it does not expect; and the workers send to the controller only directly.
-/

namespace SansIo

open Lib Bus Backend Collections

variable {t : WorkerTypes} {I : Type} {n : Nat}

/-! ## Where the messages between workers come from -/

/-- A loop over legs puts nothing into them but its message. -/
theorem mem_waiting_of_offerAll {ChannelId MSG Awk : Type} {b b' : BusSystem ChannelId MSG Awk n}
    {source : BusEventSource ChannelId} {safe : Bool} {msg : MSG} {dests : List Nat}
    {os : List (Offer ChannelId MSG Awk)} (h : b.offerAll source safe msg dests = .ok (os, b'))
    {leg : Nat} {p : BusEventSource ChannelId × MSG} (hp : p ∈ b'.waiting leg) :
    p ∈ b.waiting leg ∨ p = (source, msg) := by
  induction dests generalizing b os with
  | nil =>
      cases h
      exact .inl hp
  | cons d ds ih =>
      obtain ⟨⟨o, b₁⟩, ho, h⟩ := bind_ok.mp h
      obtain ⟨⟨os', b₂⟩, hos, h⟩ := bind_ok.mp h
      cases h
      rcases ih hos with hmem | heq
      · obtain ⟨-, -, -, -, -, -, hother, hdest⟩ := BusSystem.offer_cases ho
        by_cases hleg : leg = d
        · subst hleg
          rcases hdest with hdest | ⟨-, hdest⟩
          · rw [hdest] at hmem
            exact (List.mem_append.1 hmem).imp_right List.mem_singleton.1
          · exact .inl (hdest ▸ hmem)
        · exact .inl (hother leg hleg ▸ hmem)
      · exact .inr heq

/-- An act that puts a message into the legs of other workers. -/
def Act.Puts (leg : Nat) (p : BusEventSource t.ChannelId × t.Event) : Act t → Prop
  | .broadcast _ ev => p = (.broadcast leg, ev)
  | .publish c _ ev => p = (.channel leg c, ev)
  | _ => False

/-- A message is what a worker has broadcast or published. -/
def SentBy (h : SystemHistory t I n) (p : BusEventSource t.ChannelId × t.Event) : Prop :=
  ∃ leg, ∃ w ∈ SystemHistory.of h leg, ∃ act ∈ w.events, act.Puts leg p

theorem SentBy.append {h : SystemHistory t I n} {p : BusEventSource t.ChannelId × t.Event}
    (hs : SentBy h p) (h' : SystemHistory t I n) : SentBy (h ++ h') p := by
  obtain ⟨leg, w, hw, hact⟩ := hs
  refine ⟨leg, w, ?_, hact⟩
  rw [SystemHistory.of_append]
  exact List.mem_append_left _ hw

/-- It comes from a channel or from a broadcast. -/
theorem SentBy.source {h : SystemHistory t I n} {p : BusEventSource t.ChannelId × t.Event}
    (hs : SentBy h p) : (∃ leg c, p.1 = .channel leg c) ∨ ∃ leg, p.1 = .broadcast leg := by
  obtain ⟨leg, w, -, act, -, hputs⟩ := hs
  cases act with
  | broadcast safe ev =>
      cases hputs
      exact .inr ⟨leg, rfl⟩
  | publish c safe ev =>
      cases hputs
      exact .inl ⟨leg, c, rfl⟩
  | _ => exact hputs.elim

/-- A broadcast comes from the worker that it names. -/
theorem SentBy.broadcast {h : SystemHistory t I n} {leg : Nat} {ev : t.Event}
    (hs : SentBy h (.broadcast leg, ev)) :
    ∃ w ∈ SystemHistory.of h leg, ∃ safe, .broadcast safe ev ∈ w.events := by
  obtain ⟨leg', w, hw, act, hact, hputs⟩ := hs
  cases act with
  | broadcast safe ev' =>
      cases hputs
      exact ⟨w, hw, safe, hact⟩
  | publish c safe ev' => cases hputs
  | _ => exact hputs.elim

section Performing

variable [DecidableEq t.ChannelId]

/-- What acts put into the legs of workers. -/
theorem mem_waiting_of_perform {s s' : System t I n} {x : Worker t I} {act : Act t}
    {events : List (SystemEvent t I)} (h : s.perform x act = .ok (events, s')) {leg : Nat}
    {p : BusEventSource t.ChannelId × t.Event} (hp : p ∈ s'.workerInnerBus.waiting leg) :
    p ∈ s.workerInnerBus.waiting leg ∨ act.Puts x.innerBus p := by
  cases act with
  | workerOut safe msg =>
      obtain ⟨⟨o, b⟩, ho, hret⟩ := bind_ok.mp h
      cases hret
      exact .inl hp
  | subscribe c =>
      cases h
      exact .inl (by simpa [BusSystem.waiting] using hp)
  | unsubscribe c =>
      cases h
      exact .inl (by simpa [BusSystem.waiting] using hp)
  | publish c safe msg =>
      obtain ⟨⟨os, b⟩, ho, hret⟩ := bind_ok.mp h
      cases hret
      rw [BusSystem.publish_eq] at ho
      exact mem_waiting_of_offerAll ho hp
  | broadcast safe msg =>
      obtain ⟨⟨os, b⟩, ho, hret⟩ := bind_ok.mp h
      cases hret
      exact mem_waiting_of_offerAll ho hp
  | _ =>
      cases h
      exact .inl hp

theorem mem_waiting_of_performAll {s s' : System t I n} {x : Worker t I} {acts : List (Act t)}
    {events : List (SystemEvent t I)} (h : s.performAll x acts = .ok (events, s')) {leg : Nat}
    {p : BusEventSource t.ChannelId × t.Event} (hp : p ∈ s'.workerInnerBus.waiting leg) :
    p ∈ s.workerInnerBus.waiting leg ∨ ∃ act ∈ acts, act.Puts x.innerBus p := by
  induction acts generalizing s events with
  | nil =>
      cases h
      exact .inl hp
  | cons act acts ih =>
      obtain ⟨⟨events₁, s₁⟩, hact, hrest⟩ := bind_ok.mp h
      obtain ⟨⟨events₂, s₂⟩, hacts, hret⟩ := bind_ok.mp hrest
      cases hret
      rcases ih hacts with hmem | ⟨act', hact', hputs⟩
      · refine (mem_waiting_of_perform hact hmem).imp_right fun hputs ↦ ?_
        exact ⟨act, List.mem_cons_self, hputs⟩
      · exact .inr ⟨act', List.mem_cons_of_mem act hact', hputs⟩

end Performing

/-- What an answer leaves in the legs of workers was there. -/
theorem mem_waiting_of_answer {s : System t I n} {x : Worker t I} {turn : WorkerTurn t} {leg : Nat}
    {p : BusEventSource t.ChannelId × t.Event}
    (hp : p ∈ (s.answer x turn).2.workerInnerBus.waiting leg) :
    p ∈ s.workerInnerBus.waiting leg := by
  rcases s.answer_cases x turn with ⟨h, -⟩ | h | h
  · rwa [h] at hp
  · rwa [h] at hp
  · rw [h] at hp
    exact BusSystem.mem_waiting_of_recv hp

/-- What an answer takes from them was there as well. -/
theorem mem_waiting_of_bus {s : System t I n} {x : Worker t I} {turn : WorkerTurn t}
    {p : BusEventSource t.ChannelId × t.Event} (h : (s.answer x turn).1 = .bus (some p)) :
    p ∈ s.workerInnerBus.waiting x.innerBus := by
  rcases s.answer_cases x turn with ⟨-, -, hbus⟩ | heq | heq
  · exact absurd h (hbus _)
  · rw [heq] at h
    cases h
  · rw [heq] at h
    obtain ⟨-, -, -, ⟨y, hy, hwait⟩ | ⟨hy, -⟩⟩ := s.workerInnerBus.recv_cases x.innerBus
    · rw [hy] at h
      cases h
      exact hwait ▸ List.mem_cons_self
    · rw [hy] at h
      cases h

variable [WorkerInner t I] [DecidableEq t.Owner] [DecidableEq t.ChannelId]

/-- A step puts into the legs of workers only what a worker sends in it. -/
theorem mem_waiting_step {m : SystemMoment t I n} (hwf : m.pre.Wf) (hm : system.Fires m)
    {leg : Nat} {p : BusEventSource t.ChannelId × t.Event}
    (hp : p ∈ m.post.workerInnerBus.waiting leg) :
    p ∈ m.pre.workerInnerBus.waiting leg ∨ SentBy [m] p := by
  obtain ⟨s, op, events, s'⟩ := m
  have hdoes : SystemDoes s op s' events := system_cases hwf hm
  cases hdoes with
  | added =>
      left
      simpa [System.addWorker] using hp
  | @worker j turn x x' acts events s₂ hx hstep hperf hp' =>
      rcases mem_waiting_of_performAll hperf hp with hmem | ⟨act, hact, hputs⟩
      · exact .inl (mem_waiting_of_answer hmem)
      · refine .inr ⟨j, ⟨x, (s.answer x turn).1, acts, x'⟩, ?_, act, hact, ?_⟩
        · simp [SystemHistory.of, report_worker hp'.events]
        · rw [← (hwf.legs hx).1]
          exact hputs
  | _ => exact .inl hp

/-- **What waits in the leg of a worker was sent by a worker.** -/
theorem sentBy_of_run {h : SystemHistory t I n} {s : System t I n}
    (hr : system.Run .default h s) {leg : Nat} {p : BusEventSource t.ChannelId × t.Event}
    (hp : p ∈ s.workerInnerBus.waiting leg) : SentBy h p := by
  induction hr with
  | nil => cases hp
  | @snoc h m hr hm ih =>
      rcases mem_waiting_step (wf_of_run hr) hm hp with hmem | ⟨leg', w, hw, hact⟩
      · exact (ih hmem).append [m]
      · refine ⟨leg', w, ?_, hact⟩
        rw [SystemHistory.of_append]
        exact List.mem_append_right _ hw

/-! ## What a worker does with them -/

/-- A worker only panics at a source that it does not expect. -/
theorem pc_ne_panicked {x x' : Worker t I} {a : Answer t} {acts : List (Act t)}
    (h : worker.step x a = some (x', acts)) (hx : x.pc ≠ .panicked)
    (ha : ∀ source ev, a = .bus (some (source, ev)) →
      (∃ leg c, source = .channel leg c) ∨ ∃ leg, source = .broadcast leg) : x'.pc ≠ .panicked := by
  have hdoes := worker_cases h
  cases hdoes
  case invalid source ev hp hpc hs =>
    obtain ⟨leg, c, rfl⟩ | ⟨leg, rfl⟩ := ha source ev rfl
    · rcases hs with hs | ⟨leg', hs⟩ <;> cases hs
    · rcases hs with hs | ⟨leg', hs⟩ <;> cases hs
  case pop out inner hp hout =>
    rw [Worker.pc_processInnerOutput]
    exact hx
  all_goals simp_all

/-- A broadcast that is handed over has just been received. -/
theorem broadcast_of_step {x x' : Worker t I} {a : Answer t} {acts : List (Act t)}
    (h : worker.step x a = some (x', acts)) {source : UInt16} {ev : t.Event}
    (hact : .input (.onEvent (.bus (.broadcast source ev))) ∈ acts) :
    ∃ leg, a = .bus (some (.broadcast leg, ev)) ∧ source = .ofNat leg := by
  have hdoes := worker_cases h
  cases hdoes
  case broadcast leg ev' hp hpc =>
    cases List.mem_singleton.1 hact
    exact ⟨leg, rfl, rfl⟩
  case pop out inner hp hout =>
    rcases List.mem_cons.1 hact with hact | hact
    · cases hact
    · exact absurd rfl ((Worker.processInnerOutput_acts _ out hact).1 _)
  all_goals simp at hact

/-- The step of a worker that a moment reports. -/
theorem worker_of_mem {m : SystemMoment t I n} (hwf : m.pre.Wf) (hm : system.Fires m) {i : Nat}
    {w : WorkerMoment t I} (hw : .worker i w ∈ m.events) :
    ∃ turn, m.pre.workers[i]? = some w.pre ∧ w.label = (m.pre.answer w.pre turn).1 ∧
      worker.Fires w ∧ m.post.workers = m.pre.workers.set i w.post := by
  obtain ⟨s, op, events, s'⟩ := m
  have hdoes : SystemDoes s op s' events := system_cases hwf hm
  cases hdoes with
  | quiet hev =>
      rcases hev with rfl | ⟨out, rfl⟩
      · cases hw
      · cases List.mem_singleton.1 hw
  | @worker j turn x x' acts events s₂ hx hstep hperf hp =>
      cases hp.eq_worker hw nofun nofun
      exact ⟨turn, hx, rfl, hstep, rfl⟩
  | heard => cases hw
  | _ => cases List.mem_singleton.1 hw

/-- Workers only come. -/
theorem workers_le {m : SystemMoment t I n} (hwf : m.pre.Wf) (hm : system.Fires m) :
    m.pre.workers.length ≤ m.post.workers.length := by
  obtain ⟨s, op, events, s'⟩ := m
  have hdoes : SystemDoes s op s' events := system_cases hwf hm
  cases hdoes with
  | added => simp [System.addWorker]
  | worker => exact Nat.le_of_eq List.length_set.symm
  | _ => exact Nat.le_refl _

/-- What is reported is reported of workers. -/
theorem lt_of_report {h : SystemHistory t I n} {s : System t I n}
    (hr : system.Run .default h s) {i : Nat} {w : WorkerMoment t I}
    (hw : w ∈ SystemHistory.of h i) : i < s.workers.length := by
  induction hr with
  | nil => cases hw
  | @snoc h m hr hm ih =>
      have hwf := wf_of_run hr
      rw [SystemHistory.of_append] at hw
      rcases List.mem_append.1 hw with hw | hw
      · exact Nat.lt_of_lt_of_le (ih hw) (workers_le hwf hm)
      · rw [SystemHistory.of, History.events_singleton] at hw
        obtain ⟨e, he, hreport⟩ := List.mem_filterMap.1 hw
        have hworker : e = .worker i w := by
          unfold SystemEvent.report at hreport
          split at hreport
          · split at hreport
            · rename_i hji
              cases hreport
              rw [hji]
            · cases hreport
          · cases hreport
        obtain ⟨turn, hx, -⟩ := worker_of_mem hwf hm (hworker ▸ he)
        exact Nat.lt_of_lt_of_le (List.getElem?_eq_some_iff.1 hx).1 (workers_le hwf hm)

/-- **No worker panics.** -/
theorem workers_of_run {h : SystemHistory t I n} {s : System t I n}
    (hr : system.Run .default h s) {i : Nat} {x : Worker t I} (hx : s.workers[i]? = some x) :
    x.pc ≠ .panicked := by
  induction hr generalizing i x with
  | nil => cases hx
  | @snoc h m hr hm ih =>
      obtain ⟨s, op, events, s'⟩ := m
      have hdoes : SystemDoes s op s' events := system_cases (wf_of_run hr) hm
      cases hdoes with
      | @added tick cfg now =>
          simp only [System.addWorker] at hx
          rw [List.getElem?_append] at hx
          split at hx
          · exact ih hx
          · obtain ⟨-, rfl⟩ : _ ∧ _ = x := by
              simpa using List.getElem?_eq_some_iff.1 hx
            rintro ⟨⟩
      | @worker j turn y y' acts events s₂ hy hstep hperf hp =>
          rw [List.getElem?_set] at hx
          split at hx
          · rename_i hji
            split at hx
            · cases hx
              refine pc_ne_panicked hstep (ih hy) fun source ev ha ↦ ?_
              exact (sentBy_of_run hr (mem_waiting_of_bus ha)).source
            · cases hx
          · exact ih hx
      | _ => exact ih hx

/-- The controller does not panic for itself. -/
theorem controller_step {m : SystemMoment t I n} (hwf : m.pre.Wf) (hm : system.Fires m)
    (hop : m.label = .controller ∨ m.label = .process) : m.post.pc ≠ .panicked := by
  obtain ⟨s, op, events, s'⟩ := m
  have hdoes : Transition s op s' events := system_transition hwf hm
  cases hdoes with
  | turns _ _ hpc => exact hpc hop
  | told _ _ _ hpc => exact hpc
  | recorded _ _ _ hpc =>
      change s.pc ≠ _
      rw [hpc]
      nofun
  | heard _ _ hpc =>
      change s.pc ≠ _
      rw [hpc]
      nofun
  | processed => nofun
  | _ => rcases hop with hop | hop <;> cases hop

/-! ## All of it -/

/-- What holds after a run of a system. -/
structure Aligned (h : SystemHistory t I n) (s : System t I n) : Prop where
  /-- Worker `i` has leg `i` of the control bus and of the bus between workers, and leg
  `i + 1` of the event bus. -/
  legs : ∀ (i : Nat) (x : Worker t I), s.workers[i]? = some x →
    x.workerIn = i ∧ x.innerBus = i ∧ x.workerOut = i + 1
  /-- There are no other legs, but the first of the event bus. -/
  counts : s.workerControlBus.legs.length = s.workers.length ∧
    s.workerInnerBus.legs.length = s.workers.length ∧
    s.workerEventBus.legs.length = s.workers.length + 1 ∧ s.workerEvent = 0
  /-- It was built with index `i`, and has run since. -/
  built : ∀ (i : Nat) (x : Worker t I), s.workers[i]? = some x →
    ∃ now tick cfg index, index.toNat = i ∧
      worker.Run (.new now tick (WorkerInner.build index cfg) i (i + 1) i) (SystemHistory.of h i) x
  /-- Stats are stored in an entry that there is, -/
  stored : ∀ m ∈ h, ∀ i stats, .recorded i stats ∈ m.events →
    i < m.pre.stats.length ∧ m.post.stats = m.pre.stats.set i stats
  /-- which is the one of the worker that sent them. -/
  credited : ∀ i, recorded i h ++ s.inFlight i = produced i h
  /-- What the controller tells a worker goes into the leg of the entry it has chosen, -/
  chosen : ∀ m ∈ h, ∀ o, .control o ∈ m.events →
    m.pre.chosen m.label = some o.leg ∧ o.leg < m.pre.stats.length
  /-- and reaches the worker of that entry. -/
  reaches : ∀ i, takenBy i h ++ s.controlWaiting i = sentTo i h
  /-- A broadcast that is handed over names the worker that sent it. -/
  named : ∀ h₁ m h₂, h = h₁ ++ m :: h₂ → ∀ i w, .worker i w ∈ m.events → ∀ source ev,
    .input (.onEvent (.bus (.broadcast source ev))) ∈ w.events →
      ∃ w' ∈ SystemHistory.of h₁ source.toNat, ∃ safe, .broadcast safe ev ∈ w'.events
  /-- What is sent to the controller is sent directly, by a worker. -/
  direct : ∀ p ∈ s.workerEventBus.waiting 0, ∃ i < s.workers.length, p.1 = .direct (i + 1)
  /-- What is sent to a worker by others comes from a channel or a broadcast. -/
  indirect : ∀ i, ∀ p ∈ s.workerInnerBus.waiting i,
    (∃ leg c, p.1 = .channel leg c) ∨ ∃ leg, p.1 = .broadcast leg
  /-- So `process` does not panic, -/
  controller : ∀ m ∈ h, m.label = .controller ∨ m.label = .process → m.post.pc ≠ .panicked
  /-- and no worker does. -/
  worker : ∀ (i : Nat) (x : Worker t I), s.workers[i]? = some x → x.pc ≠ .panicked

/-- The stats that a step records. -/
theorem stored_of_step {m : SystemMoment t I n} (hwf : m.pre.Wf) (hm : system.Fires m) {i : Nat}
    {stats : WorkerStats} (he : .recorded i stats ∈ m.events) :
    i < m.pre.stats.length ∧ m.post.stats = m.pre.stats.set i stats := by
  obtain ⟨s, op, events, s'⟩ := m
  have hdoes : SystemDoes s op s' events := system_cases hwf hm
  cases hdoes with
  | recorded hi hrecv =>
      cases List.mem_singleton.1 he
      exact ⟨hi, rfl⟩
  | quiet hev =>
      rcases hev with rfl | ⟨out, rfl⟩
      · cases he
      · cases List.mem_singleton.1 he
  | worker hx hstep hperf hp => cases hp.eq_worker he nofun nofun
  | heard => cases he
  | _ => cases List.mem_singleton.1 he

/-- The worker that is told something. -/
theorem chosen_of_step {m : SystemMoment t I n} (hwf : m.pre.Wf) (hm : system.Fires m)
    {o : Offer UInt16 (WorkerControlIn t.ExtIn t.SCfg) Nat} (he : .control o ∈ m.events) :
    m.pre.chosen m.label = some o.leg ∧ o.leg < m.pre.stats.length := by
  obtain ⟨s, op, events, s'⟩ := m
  have hdoes : Transition s op s' events := system_transition hwf hm
  cases hdoes with
  | told hchosen htells hlen hpc hbus hsend =>
      cases List.mem_singleton.1 he
      obtain ⟨rfl, -, -, -, -, hlt, -⟩ := BusSystem.offer_cases hsend
      refine ⟨hchosen, ?_⟩
      rw [hwf.stats, ← hwf.controlLegs]
      exact hlt
  | turns _ _ _ hev =>
      rcases hev with rfl | rfl
      · cases he
      · cases List.mem_singleton.1 he
  | worker hx hstep hperf hp => cases hp.eq_worker he nofun nofun
  | heard => cases he
  | _ => cases List.mem_singleton.1 he

/-- **The buses stay aligned**, and no branch that panics at a message is reached. -/
theorem aligned_of_run {h : SystemHistory t I n} {s : System t I n}
    (hr : system.Run .default h s) (hn : s.workers.length < 65535) : Aligned h s where
  legs i x hx := by
    obtain ⟨hinner, hout, hin⟩ := (wf_of_run hr).legs hx
    exact ⟨hin, hinner, hout⟩
  counts := by
    have hwf := wf_of_run hr
    exact ⟨hwf.controlLegs, hwf.innerLegs, hwf.eventLegs, hwf.workerEvent⟩
  built i x hx := by
    obtain ⟨x₀, ⟨now, tick, cfg, rfl⟩, hrun⟩ := worker_of_run hr hx
    have hi : i < s.workers.length := (List.getElem?_eq_some_iff.1 hx).1
    refine ⟨now, tick, cfg, .ofNat i, UInt16.toNat_ofNat_of_lt' ?_, hrun⟩
    exact Nat.lt_trans hi (Nat.lt_of_lt_of_le hn (by decide))
  stored := by
    intro m hm i stats he
    obtain ⟨h₁, h₂, rfl⟩ := List.append_of_mem hm
    obtain ⟨hr₁, hm, -⟩ := hr.split
    exact stored_of_step (wf_of_run hr₁) hm he
  credited := recorded_append_inFlight hr
  chosen := by
    intro m hm o he
    obtain ⟨h₁, h₂, rfl⟩ := List.append_of_mem hm
    obtain ⟨hr₁, hm, -⟩ := hr.split
    exact chosen_of_step (wf_of_run hr₁) hm he
  reaches := taken_append_waiting hr
  named := by
    rintro h₁ m h₂ rfl i w hw source ev hact
    obtain ⟨hr₁, hm, hr₂⟩ := hr.split
    obtain ⟨turn, -, hlabel, hstep, -⟩ := worker_of_mem (wf_of_run hr₁) hm hw
    obtain ⟨leg, hbus, rfl⟩ := broadcast_of_step hstep hact
    obtain ⟨w', hw', safe, hsent⟩ :=
      (sentBy_of_run hr₁ (mem_waiting_of_bus (hlabel.symm.trans hbus))).broadcast
    have hleg : leg < s.workers.length := by
      refine lt_of_report hr (i := leg) (w := w') ?_
      rw [SystemHistory.of_append]
      exact List.mem_append_left _ hw'
    have hindex : (UInt16.ofNat leg).toNat = leg :=
      UInt16.toNat_ofNat_of_lt' (Nat.lt_trans hleg (Nat.lt_of_lt_of_le hn (by decide)))
    exact ⟨w', hindex.symm ▸ hw', safe, hsent⟩
  direct := (wf_of_run hr).sources
  indirect i p hp := (sentBy_of_run hr hp).source
  controller := by
    intro m hm hop
    obtain ⟨h₁, h₂, rfl⟩ := List.append_of_mem hm
    obtain ⟨hr₁, hm, -⟩ := hr.split
    exact controller_step (wf_of_run hr₁) hm hop
  worker i x hx := workers_of_run hr hx

/-- Two workers: one broadcasts, the other is asked for its stats, and is woken. -/
def broadcasting : List (SystemOp plainTypes) :=
  [.addWorker 10 [some (.broadcast true 9)] 0, .addWorker 10 [] 0, .worker 0 (.clock 0),
    .worker 0 .run, .worker 1 (.clock 0), .worker 1 .run, .process, .controller, .controller,
    .controller, .worker 1 (.clock 0), .worker 1 .control, .worker 1 .run, .worker 1 .control,
    .controller, .worker 1 .run, .worker 1 .run, .worker 1 (.elapsed 0),
    .worker 1 (.incoming (some .awake)), .worker 1 .bus]

/-- What comes of it. -/
def broadcasted : SystemHistory plainTypes Scripted 1 × System plainTypes Scripted 1 :=
  (system.exec .default broadcasting).get (by decide +kernel)

/-- The theorem there: the stats of the second worker are in the second entry. -/
theorem aligned_of_run_broadcasted :
    broadcasted.2.stats = [⟨0, 0, false⟩, ⟨0, 0, true⟩] ∧ Aligned broadcasted.1 broadcasted.2 :=
  ⟨by decide +kernel, aligned_of_run (Machine.exec_run_get _) (by decide +kernel)⟩

end SansIo
