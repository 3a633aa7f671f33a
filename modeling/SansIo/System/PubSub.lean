import SansIo.System.Steps
import SansIo.Worker.Delivery

/-!
# The two levels of publish and subscribe

A worker's hub lists the owners of the worker that have subscribed to a channel, and
the bus that the workers share lists the workers.  A worker registers when its hub
says that an owner is the first subscriber of a channel, and takes itself out when the
hub says that the last one has left.

`Agrees` is what keeps the two lists in step: a worker is registered for the channels
that have subscribers in its hub, and for no others.  `pubsub_agrees` draws the
conclusions for what a `Publish` offers and for what a message that was received is
handed over to.
-/

namespace SansIo

open Lib Bus Backend Collections

variable {t : WorkerTypes} {I : Type} {n : Nat}

/-- The workers registered for a channel are those whose hub has subscribers for it. -/
def Agrees (s : System t I n) : Prop :=
  ∀ (i : Nat) (x : Worker t I), s.workers[i]? = some x → ∀ c,
    i ∈ s.workerInnerBus.registered c ↔ x.busLocalHub.subscribers c ≠ []

/-- The step processes a `Publish`. -/
def Publishes (c : t.ChannelId) (safe : Bool) (ev : t.Event) (m : WorkerMoment t I) : Prop :=
  ∃ o, .popOutput (some (.bus (.channel o (.publish c safe ev)))) ∈ m.events

/-- The offers on the bus between workers among the events of a step. -/
def SystemEvent.innerOffer : SystemEvent t I → Option (Offer t.ChannelId t.Event Nat)
  | .inner o => some o
  | _ => none

theorem innerOffer_inner (i : Nat) (m : WorkerMoment t I)
    (os : List (Offer t.ChannelId t.Event Nat)) :
    (.worker i m :: os.map SystemEvent.inner).filterMap SystemEvent.innerOffer = os := by
  rw [List.filterMap_cons, List.filterMap_map]
  exact List.filterMap_some

/-- The channel has a subscriber in the worker with this leg. -/
def Subscribed (s : System t I n) (c : t.ChannelId) (leg : Nat) : Prop :=
  ∃ x ∈ s.workers, x.innerBus = leg ∧ x.busLocalHub.subscribers c ≠ []

/-- What is registered are the legs of the workers with subscribers. -/
theorem Agrees.mem_registered_iff {s : System t I n} (h : Agrees s) (hwf : s.Wf)
    (c : t.ChannelId) (leg : Nat) :
    leg ∈ s.workerInnerBus.registered c ↔ Subscribed s c leg := by
  constructor
  · intro hleg
    have hlt : leg < s.workers.length := hwf.registered c leg hleg
    have hx : s.workers[leg]? = some s.workers[leg] := List.getElem?_eq_getElem hlt
    exact ⟨_, List.getElem_mem hlt, (hwf.legs hx).1, (h leg _ hx c).mp hleg⟩
  · rintro ⟨x, hmem, rfl, hne⟩
    obtain ⟨i, hx⟩ := List.mem_iff_getElem?.mp hmem
    rw [(hwf.legs hx).1]
    exact (h i x hx c).mpr hne

variable [DecidableEq t.Owner] [DecidableEq t.ChannelId] [WorkerInner t I]

/-- **A worker registers for a channel with the first subscriber**, and takes itself
out with the last one. -/
theorem registration_cases {m : WorkerMoment t I} (hm : worker.Fires m) :
    ((∀ c, .subscribe c ∉ m.events ∧ .unsubscribe c ∉ m.events) ∧
      ∀ c, m.post.busLocalHub.subscribers c ≠ [] ↔ m.pre.busLocalHub.subscribers c ≠ []) ∨
    (∃ out c, m.events = [.popOutput out, .subscribe c] ∧ m.pre.busLocalHub.subscribers c = [] ∧
      ∀ c', m.post.busLocalHub.subscribers c' ≠ [] ↔
        c' = c ∨ m.pre.busLocalHub.subscribers c' ≠ []) ∨
    (∃ out c, m.events = [.popOutput out, .unsubscribe c] ∧
      m.pre.busLocalHub.subscribers c ≠ [] ∧
      ∀ c', m.post.busLocalHub.subscribers c' ≠ [] ↔
        c' ≠ c ∧ m.pre.busLocalHub.subscribers c' ≠ []) := by
  obtain ⟨pre, a, acts, post⟩ := m
  have hdoes : WorkerDoes pre a post acts := worker_cases hm
  cases hdoes
  case pop out inner hp hout =>
    rcases out with _ | (⟨o, c | c | _⟩ | _) | _ | _ | _
    case bus.channel.subscribe =>
      have hne := pre.busLocalHub.subscribe_ne_nil o c
      by_cases hfirst : (pre.busLocalHub.subscribe o c).1 = true
      · refine .inr (.inl ⟨some (.bus (.channel o (.subscribe c))), c, ?_,
          (BusLocalHub.subscribe_fst _ _ _).mp hfirst, hne⟩)
        simp [Worker.processInnerOutput, hfirst]
      · refine .inl ⟨by simp [Worker.processInnerOutput, hfirst], fun c' ↦ (hne c').trans ?_⟩
        refine or_iff_right_of_imp ?_
        rintro rfl hnil
        exact hfirst ((BusLocalHub.subscribe_fst _ _ _).mpr hnil)
    case bus.channel.unsubscribe =>
      have hne := pre.busLocalHub.unsubscribe_ne_nil o c
      by_cases hlast : (pre.busLocalHub.unsubscribe o c).1 = true
      · refine .inr (.inr ⟨some (.bus (.channel o (.unsubscribe c))), c, ?_, ?_, fun c' ↦ ?_⟩)
        · simp [Worker.processInnerOutput, hlast]
        · intro hnil
          have hlast := (BusLocalHub.unsubscribe_fst _ _ _).mp hlast
          simp [hnil] at hlast
        · refine (hne c').trans ?_
          simp [hlast]
      · refine .inl ⟨by simp [Worker.processInnerOutput, hlast], fun c' ↦ (hne c').trans ?_⟩
        simp [hlast]
    all_goals exact .inl ⟨by simp [Worker.processInnerOutput], fun _ ↦ .rfl⟩
  all_goals exact .inl ⟨by simp, by simp⟩

/-- **The two levels stay in step.** -/
theorem Agrees.step {m : SystemMoment t I n} (h : Agrees m.pre) (hwf : m.pre.Wf)
    (hm : system.Fires m) : Agrees m.post := by
  obtain ⟨s, op, events, s'⟩ := m
  have hdoes : SystemDoes s op s' events := system_cases hwf hm
  cases hdoes with
  | @added tick cfg now =>
      intro i x hx c
      show i ∈ s.workerInnerBus.registered c ↔ _
      simp only [System.addWorker] at hx
      rw [List.getElem?_append] at hx
      split at hx
      · exact h i x hx c
      · rename_i hi
        obtain rfl : x = .new now tick _ _ _ _ := by
          simpa using List.mem_of_getElem? hx
        have hnot : i ∉ s.workerInnerBus.registered c := fun hreg ↦ hi (hwf.registered c i hreg)
        simp [hnot, Worker.new]
  | @worker i turn x x' acts events s₂ hx hstep hperf hp =>
      obtain ⟨-, hch, -⟩ := s.answer_frame x turn
      have hbus : x.innerBus = i := (hwf.legs hx).1
      have hanswer (c : t.ChannelId) (j : Nat) :
          j ∈ (s.answer x turn).2.workerInnerBus.registered c ↔
            j ∈ s.workerInnerBus.registered c := by
        simp only [BusSystem.registered, hch]
      intro j y hy c
      show j ∈ s₂.workerInnerBus.registered c ↔ _
      rcases eq_or_ne j i with rfl | hne
      · -- the worker itself: its hub and the bus change together
        obtain rfl : x' = y := by
          simpa [List.getElem?_set_self (List.getElem?_eq_some_iff.mp hx).1] using hy
        have hold := h j x hx c
        obtain ⟨hno, hhub⟩ | ⟨out, c', rfl, -, hhub⟩ | ⟨out, c', rfl, -, hhub⟩ :=
          registration_cases (m := ⟨x, (s.answer x turn).1, _, x'⟩) hstep
        · rw [hhub c, ← hold, ← hanswer c j, BusSystem.registered, BusSystem.registered,
            hp.channels hno]
        · cases hperf
          simp only [BusSystem.mem_subscribe, hanswer, hbus, true_and]
          rw [hhub c, hold]
        · cases hperf
          simp only [BusSystem.mem_unsubscribe, hanswer, hbus, true_and]
          rw [hhub c, hold]
      · rw [hp.others c j (hbus ▸ hne), hanswer]
        exact h j y (by simpa [List.getElem?_set_ne hne.symm] using hy) c
  | _ => exact h

/-- **The two levels agree** in every reachable state. -/
theorem agrees_of_run {h : SystemHistory t I n} {s : System t I n}
    (hr : system.Run .default h s) : Agrees s := by
  induction hr with
  | nil => exact fun i x hx ↦ by cases hx
  | snoc hr hm ih => exact ih.step (wf_of_run hr) hm

/-- A step that processes a `Publish` publishes, and does nothing else. -/
theorem events_of_publishes {m : WorkerMoment t I} (hm : worker.Fires m) {c : t.ChannelId}
    {safe : Bool} {ev : t.Event} (hpub : Publishes c safe ev m) :
    ∃ out, m.events = [.popOutput out, .publish c safe ev] := by
  obtain ⟨o, hpub⟩ := hpub
  obtain ⟨pre, a, acts, post⟩ := m
  have hdoes : WorkerDoes pre a post acts := worker_cases hm
  cases hdoes
  case pop out inner hp hout =>
    obtain rfl := (mem_popOutput_iff _ _ _).mp hpub
    exact ⟨_, rfl⟩
  all_goals simp at hpub

/-- **A `Publish` offers one copy to each worker that has a subscriber**, and to no
other. -/
theorem offers_of_publish {m : SystemMoment t I n} (hwf : m.pre.Wf) (hagrees : Agrees m.pre)
    (hm : system.Fires m) {i : Nat} {w : WorkerMoment t I} (hw : .worker i w ∈ m.events)
    {c : t.ChannelId} {safe : Bool} {ev : t.Event} (hpub : Publishes c safe ev w) :
    (∀ o ∈ m.events.filterMap SystemEvent.innerOffer, o.source = .channel i c ∧ o.msg = ev) ∧
      ∀ leg,
        (Subscribed m.pre c leg →
          ((m.events.filterMap SystemEvent.innerOffer).map Offer.leg).count leg = 1) ∧
        (¬ Subscribed m.pre c leg →
          ((m.events.filterMap SystemEvent.innerOffer).map Offer.leg).count leg = 0) := by
  obtain ⟨s, op, events, s'⟩ := m
  have hdoes : SystemDoes s op s' events := system_cases hwf hm
  cases hdoes with
  | quiet hev =>
      rcases hev with rfl | ⟨out, rfl⟩ <;> simp at hw
  | @worker j turn x x' acts events s₂ hx hstep hperf hp =>
      have hmove : worker.Fires ⟨x, (s.answer x turn).1, acts, x'⟩ := hstep
      obtain ⟨rfl, rfl⟩ : i = j ∧ w = ⟨x, (s.answer x turn).1, acts, x'⟩ := by
        cases hp.eq_worker hw (by simp) (by simp)
        exact ⟨rfl, rfl⟩
      obtain ⟨out, hacts⟩ := events_of_publishes hmove hpub
      obtain rfl : acts = [.popOutput out, .publish c safe ev] := hacts
      obtain ⟨os, b, ho, rfl⟩ : ∃ os b, (s.answer x turn).2.workerInnerBus.publish x.innerBus c
          safe ev = .ok (os, b) ∧ events = os.map .inner := by
        simp only [System.performAll, System.perform, ok_bind, List.nil_append] at hperf
        obtain ⟨⟨events₁, s₁⟩, hperf, hret⟩ := bind_ok.mp hperf
        obtain ⟨⟨events₂, s₃⟩, hperf, hret'⟩ := bind_ok.mp hperf
        obtain ⟨⟨os, b⟩, ho, hret''⟩ := bind_ok.mp hperf
        cases hret''
        cases hret'
        cases hret
        exact ⟨os, b, ho, by simp⟩
      obtain ⟨-, hch, -⟩ := s.answer_frame x turn
      have hreg : (s.answer x turn).2.workerInnerBus.registered c =
          s.workerInnerBus.registered c := by
        simp only [BusSystem.registered, hch]
      rw [BusSystem.publish_eq, hreg, (hwf.legs hx).1] at ho
      obtain ⟨hlegs, hall, -⟩ := BusSystem.offerAll_cases ho
      rw [innerOffer_inner, hlegs]
      refine ⟨hall, ?_⟩
      intro leg
      constructor
      · intro hsub
        apply List.count_eq_one_of_mem (s.workerInnerBus.nodup_registered c)
        exact (hagrees.mem_registered_iff hwf c leg).mpr hsub
      · intro hsub
        rw [List.count_eq_zero]
        intro hmem
        exact hsub ((hagrees.mem_registered_iff hwf c leg).mp hmem)
  | _ => simp at hw

/-- A worker that asks for a message has nothing left to deliver. -/
theorem pending_of_bus {m : WorkerMoment t I} (hm : worker.Fires m)
    {msg : Option (BusEventSource t.ChannelId × t.Event)} (hmsg : m.label = .bus msg) :
    m.pre.pc.pending = [] := by
  obtain ⟨pre, a, acts, post⟩ := m
  have hdoes : WorkerDoes pre a post acts := worker_cases hm
  cases hdoes <;> simp_all [Pc.pending]

/-- How the two levels agree, after a run. -/
structure PubSub (h : SystemHistory t I n) (s : System t I n) : Prop where
  /-- A worker's leg is registered once for a channel that has subscribers in its hub, and
  not at all for one that has none. -/
  registered : ∀ {i : Nat} {x : Worker t I}, s.workers[i]? = some x → ∀ c,
    (x.busLocalHub.subscribers c ≠ [] →
      (s.workerInnerBus.registered c).count x.innerBus = 1) ∧
    (x.busLocalHub.subscribers c = [] →
      (s.workerInnerBus.registered c).count x.innerBus = 0)
  /-- A hub lists no owner twice. -/
  nodup : ∀ {i : Nat} {x : Worker t I}, s.workers[i]? = some x → ∀ c,
    (x.busLocalHub.subscribers c).Nodup
  /-- It lists the owners whose last control was a `Subscribe`. -/
  listed : ∀ {i : Nat} {x : Worker t I}, s.workers[i]? = some x → ∀ o c,
    o ∈ x.busLocalHub.subscribers c ↔
      Since (fun m ↦ ¬ Unsubscribes o c m) (Subscribes o c) (SystemHistory.of h i)
  /-- A `Publish` offers one copy to the leg of each worker with a subscriber, and none to
  any other leg. -/
  offered : ∀ h₁ m h₂, h = h₁ ++ m :: h₂ → ∀ i w c safe ev, .worker i w ∈ m.events →
    Publishes c safe ev w →
    (∀ o ∈ m.events.filterMap SystemEvent.innerOffer, o.source = .channel i c ∧ o.msg = ev) ∧
      ∀ leg,
        (Subscribed m.pre c leg →
          ((m.events.filterMap SystemEvent.innerOffer).map Offer.leg).count leg = 1) ∧
        (¬ Subscribed m.pre c leg →
          ((m.events.filterMap SystemEvent.innerOffer).map Offer.leg).count leg = 0)
  /-- A copy that was received is being handed over to the owners listed then, in order. -/
  handing : ∀ {i : Nat} {x : Worker t I}, s.workers[i]? = some x → ∀ g r k c ev,
    SystemHistory.of h i = g ++ r :: k →
    Receives c ev r → (∀ m ∈ k, ∀ c ev, ¬ Receives c ev m) →
    handed k ++ x.pc.pending = (r.pre.busLocalHub.subscribers c).map fun o ↦ (o, c, ev)
  /-- When the worker asks for the next message, each of them has been handed one. -/
  delivered : ∀ {i : Nat} {x : Worker t I}, s.workers[i]? = some x → ∀ g r k r' l c ev msg,
    SystemHistory.of h i = g ++ r :: (k ++ r' :: l) → Receives c ev r →
    (∀ m ∈ k, ∀ c ev, ¬ Receives c ev m) → r'.label = .bus msg →
    handed k = (r.pre.busLocalHub.subscribers c).map fun o ↦ (o, c, ev)

/-- **The two levels of publish and subscribe agree**, under every interleaving. -/
theorem pubsub_agrees {h : SystemHistory t I n} {s : System t I n}
    (hr : system.Run .default h s) : PubSub h s where
  registered {i x} hx c := by
    have hreg := agrees_of_run hr i x hx c
    rw [((wf_of_run hr).legs hx).1]
    constructor
    · intro hne
      exact List.count_eq_one_of_mem (s.workerInnerBus.nodup_registered c) (hreg.mpr hne)
    · intro hnil
      exact List.count_eq_zero.mpr fun hmem ↦ hreg.mp hmem hnil
  nodup {i x} _ c := x.busLocalHub.nodup_subscribers c
  listed {i x} hx o c := by
    obtain ⟨x₀, ⟨now, tick, cfg, rfl⟩, hrun⟩ := worker_of_run hr hx
    rw [subscribed_iff hrun o c]
    simp [Worker.new]
  offered h₁ m h₂ he i w c safe ev hw hpub := by
    subst he
    obtain ⟨hr₁, hm, -⟩ := hr.split
    exact offers_of_publish (wf_of_run hr₁) (agrees_of_run hr₁) hm hw hpub
  handing {i x} hx g r k c ev he hrec hk := by
    obtain ⟨x₀, -, hrun⟩ := worker_of_run hr hx
    rw [he] at hrun
    obtain ⟨-, hfr, hrunk⟩ := hrun.split
    exact handed_append_pending hfr hrec hrunk hk
  delivered {i x} hx g r k r' l c ev msg he hrec hk hmsg := by
    obtain ⟨x₀, -, hrun⟩ := worker_of_run hr hx
    rw [he] at hrun
    obtain ⟨-, hfr, hrunk⟩ := hrun.split
    obtain ⟨hrunk, hfr', -⟩ := hrunk.split
    rw [← handed_append_pending hfr hrec hrunk hk, pending_of_bus hfr' hmsg, List.append_nil]

/-- Two owners of one worker subscribe to channel 5, and another worker publishes to it. -/
def publishing : List (SystemOp plainTypes) :=
  [.addWorker 10 [some (.channel 0 (.subscribe 5)), some (.channel 1 (.subscribe 5))] 0,
    .addWorker 10 [some (.channel 0 (.publish 5 true 9))] 0,
    .worker 0 (.clock 0), .worker 0 .run, .worker 0 .run, .worker 1 (.clock 0), .worker 1 .run]

/-- What comes of it. -/
def published : SystemHistory plainTypes Scripted 1 × System plainTypes Scripted 1 :=
  (system.exec .default publishing).get rfl

/-- The theorem there. -/
theorem pubsub_agrees_published :
    published.2.workerInnerBus.registered 5 = [0] ∧ published.2.workerInnerBus.legs.length = 2 ∧
      PubSub published.1 published.2 :=
  ⟨rfl, rfl, pubsub_agrees (Machine.exec_run_get rfl)⟩

end SansIo
