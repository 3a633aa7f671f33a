import SansIo.Worker.Steps

/-!
# Subscriptions and deliveries of a worker

An owner subscribes and unsubscribes through the outputs of the inner value, and
`on_awake` delivers a message of a channel to the owners that the hub lists.

* `subscribed_iff`: the hub lists the owners whose last control was a `Subscribe`;
* `handed_append_pending`: the copies handed over since a message was received, and
  those still to hand over, are one for each owner listed when it was received.

The list is a copy (`get_subscribers` clones it), so it does not follow what happens
to the hub while it is worked off.  An owner that unsubscribes in the meantime is
delivered to all the same (`not_always_subscribed`).  `delivered_of_received` says how
far that goes: to messages received before, and no others.
-/

namespace SansIo

open Lib Bus Backend

variable {t : WorkerTypes} {I : Type}

/-- The step processes a `Subscribe` of an owner. -/
def Subscribes (o : t.Owner) (c : t.ChannelId) (m : WorkerMoment t I) : Prop :=
  .popOutput (some (.bus (.channel o (.subscribe c)))) ∈ m.events

/-- The step processes an `Unsubscribe` of an owner. -/
def Unsubscribes (o : t.Owner) (c : t.ChannelId) (m : WorkerMoment t I) : Prop :=
  .popOutput (some (.bus (.channel o (.unsubscribe c)))) ∈ m.events

/-- The step receives a message of a channel. -/
def Receives (c : t.ChannelId) (ev : t.Event) (m : WorkerMoment t I) : Prop :=
  ∃ leg, m.label = .bus (some (.channel leg c, ev))

/-- What an act delivers: an owner, a channel and a message. -/
def Act.delivered : Act t → Option (t.Owner × t.ChannelId × t.Event)
  | .input (.onEvent (.bus (.channel o c ev))) => some (o, c, ev)
  | _ => none

theorem Act.delivered_eq_some {a : Act t} {o : t.Owner} {c : t.ChannelId} {ev : t.Event} :
    a.delivered = some (o, c, ev) ↔ a = .input (.onEvent (.bus (.channel o c ev))) := by
  constructor
  · unfold Act.delivered
    split
    · intro h
      cases h
      rfl
    · intro h
      cases h
  · rintro rfl
    rfl

/-- What a history has delivered, in order. -/
def handed (h : WorkerHistory t I) : List (t.Owner × t.ChannelId × t.Event) :=
  h.events.filterMap Act.delivered

/-- What is still to deliver. -/
def Pc.pending : Pc t → List (t.Owner × t.ChannelId × t.Event)
  | .deliver subscribers c ev => subscribers.map fun o ↦ (o, c, ev)
  | _ => []

@[simp] theorem handed_nil : handed ([] : WorkerHistory t I) = [] := rfl

@[simp] theorem handed_snoc (h : WorkerHistory t I) (m : WorkerMoment t I) :
    handed (h ++ [m]) = handed h ++ m.events.filterMap Act.delivered := by
  simp [handed]

variable [DecidableEq t.Owner] [DecidableEq t.ChannelId]

/-- What an output does to the lists of the hub. -/
theorem mem_processInnerOutput (x : Worker t I) (out : WorkerInnerOutput t) (o : t.Owner)
    (c : t.ChannelId) :
    o ∈ (x.processInnerOutput out).1.busLocalHub.subscribers c ↔
      out = .bus (.channel o (.subscribe c)) ∨
        (out ≠ .bus (.channel o (.unsubscribe c)) ∧ o ∈ x.busLocalHub.subscribers c) := by
  rcases out with _ | (⟨o', c' | c' | _⟩ | _) | _ | _ | _
  case bus.channel.subscribe =>
    simp only [Worker.processInnerOutput, BusLocalHub.mem_subscribe]
    simp [eq_comm]
  case bus.channel.unsubscribe =>
    simp only [Worker.processInnerOutput, BusLocalHub.mem_unsubscribe]
    simp [eq_comm]
  all_goals simp [Worker.processInnerOutput]

/-- A step that pops an output processes that one. -/
theorem mem_popOutput_iff (x : Worker t I) (out out' : WorkerInnerOutput t) :
    .popOutput (some out') ∈ Act.popOutput (some out) :: (x.processInnerOutput out).2 ↔
      out' = out := by
  constructor
  · intro h
    rcases List.mem_cons.mp h with h | h
    · cases h
      rfl
    · exact absurd rfl ((x.processInnerOutput_acts out h).2.1 _)
  · rintro rfl
    exact List.mem_cons_self

variable [WorkerInner t I]

/-- What a step does to the lists of the hub. -/
theorem mem_subscribers_iff {m : WorkerMoment t I} (hm : worker.Fires m) (o : t.Owner)
    (c : t.ChannelId) :
    o ∈ m.post.busLocalHub.subscribers c ↔
      Subscribes o c m ∨ (¬ Unsubscribes o c m ∧ o ∈ m.pre.busLocalHub.subscribers c) := by
  obtain ⟨pre, a, acts, post⟩ := m
  have hdoes : WorkerDoes pre a post acts := worker_cases hm
  cases hdoes
  case pop out inner hp hout =>
    rw [mem_processInnerOutput]
    simp only [Subscribes, Unsubscribes, mem_popOutput_iff, eq_comm (b := out), ne_eq]
  all_goals simp [Subscribes, Unsubscribes]

/-- A step processes one output. -/
theorem not_subscribes {m : WorkerMoment t I} (hm : worker.Fires m) {o : t.Owner}
    {c : t.ChannelId} (hu : Unsubscribes o c m) : ¬ Subscribes o c m := by
  obtain ⟨pre, a, acts, post⟩ := m
  have hdoes : WorkerDoes pre a post acts := worker_cases hm
  cases hdoes
  case pop out inner hp hout =>
    rw [Unsubscribes, mem_popOutput_iff] at hu
    rw [Subscribes, mem_popOutput_iff, ← hu]
    simp
  all_goals simp_all [Unsubscribes]

/-- **The hub lists the owners whose last control was a `Subscribe`**, and those that
it listed at first and that have not unsubscribed. -/
theorem subscribed_iff {x₀ x : Worker t I} {h : WorkerHistory t I} (hr : worker.Run x₀ h x)
    (o : t.Owner) (c : t.ChannelId) :
    o ∈ x.busLocalHub.subscribers c ↔
      Since (fun m ↦ ¬ Unsubscribes o c m) (Subscribes o c) h ∨
        (o ∈ x₀.busLocalHub.subscribers c ∧ ∀ m ∈ h, ¬ Unsubscribes o c m) := by
  induction hr with
  | nil => simp
  | @snoc h m hr hm ih =>
      rw [mem_subscribers_iff hm, since_snoc, ih]
      simp only [List.mem_append, List.mem_singleton, or_imp, forall_and, forall_eq]
      tauto

/-- An owner that has unsubscribed is not listed until it subscribes again. -/
theorem not_subscribed {u : WorkerMoment t I} {k : WorkerHistory t I} {x : Worker t I}
    (hm : worker.Fires u) (hr : worker.Run u.post k x) {o : t.Owner} {c : t.ChannelId}
    (hu : Unsubscribes o c u) (hk : ∀ s ∈ k, ¬ Subscribes o c s) :
    o ∉ x.busLocalHub.subscribers c := by
  rw [subscribed_iff hr o c, mem_subscribers_iff hm o c]
  rintro (⟨k₁, s, k₂, rfl, hs, -⟩ | ⟨hs | ⟨hnot, -⟩, -⟩)
  · exact hk s (by simp) hs
  · exact not_subscribes hm hu hs
  · exact hnot hu

/-- A step hands over the first copy that is still to deliver, or none; unless it
receives a message of a channel, which leaves one copy to deliver for each owner
listed. -/
theorem delivery_cases {m : WorkerMoment t I} (hm : worker.Fires m) :
    (∃ c ev, Receives c ev m ∧ m.events = [] ∧
      m.post.pc.pending = (m.pre.busLocalHub.subscribers c).map fun o ↦ (o, c, ev)) ∨
    ((∀ c ev, ¬ Receives c ev m) ∧
      m.events.filterMap Act.delivered ++ m.post.pc.pending = m.pre.pc.pending) := by
  obtain ⟨pre, a, acts, post⟩ := m
  have hdoes : WorkerDoes pre a post acts := worker_cases hm
  cases hdoes
  case receive leg c ev subs hp hpc hc =>
    exact .inl ⟨c, ev, ⟨leg, rfl⟩, rfl, by simp [Pc.pending, BusLocalHub.getSubscribers_some hc]⟩
  case ignore leg c ev hp hpc hc =>
    exact .inl ⟨c, ev, ⟨leg, rfl⟩, rfl, by
      simp [Pc.pending, hpc, BusLocalHub.getSubscribers_none hc]⟩
  case invalid source ev hp hpc hs =>
    rcases hs with rfl | ⟨leg, rfl⟩ <;> simp [Receives, Pc.pending, hpc]
  case pop out inner hp hout =>
    have hacts : ({ pre with inner }.processInnerOutput out).2.filterMap Act.delivered = [] := by
      rw [List.filterMap_eq_nil_iff]
      intro a ha
      by_contra hne
      obtain ⟨⟨o, c, ev⟩, hd⟩ := Option.ne_none_iff_exists'.mp hne
      exact (Worker.processInnerOutput_acts _ out ha).1 _ (Act.delivered_eq_some.mp hd)
    right
    simp only [List.filterMap_cons, Act.delivered, hacts]
    simp [Receives]
  all_goals simp_all [Receives, Pc.pending, Act.delivered]

/-- **Between two receptions** the copies handed over and those still to hand over are
one for each owner that the hub listed at the first. -/
theorem handed_append_pending {r : WorkerMoment t I} {k : WorkerHistory t I} {x : Worker t I}
    {c : t.ChannelId} {ev : t.Event} (hr : worker.Fires r) (hc : Receives c ev r)
    (hrun : worker.Run r.post k x) (hk : ∀ m ∈ k, ∀ c ev, ¬ Receives c ev m) :
    handed k ++ x.pc.pending = (r.pre.busLocalHub.subscribers c).map fun o ↦ (o, c, ev) := by
  induction hrun with
  | nil =>
      obtain ⟨c', ev', ⟨leg', hc'⟩, -, hpend⟩ | ⟨hno, -⟩ := delivery_cases hr
      · obtain ⟨leg, hc⟩ := hc
        obtain ⟨⟨-, rfl⟩, rfl⟩ : (leg = leg' ∧ c = c') ∧ ev = ev' := by
          simpa using hc.symm.trans hc'
        simpa using hpend
      · exact absurd hc (hno c ev)
  | @snoc k m hrun hm ih =>
      obtain ⟨c', ev', hc', -⟩ | ⟨-, hpend⟩ := delivery_cases hm
      · exact absurd hc' (hk m (by simp) c' ev')
      · rw [← ih fun m' hm' ↦ hk m' (by simp [hm']), ← hpend, handed_snoc, List.append_assoc]

/-! ## What an owner is delivered after it has unsubscribed -/

/-- What is still to deliver was received last, and from a hub that listed the owner. -/
theorem received_of_pending {x₀ x : Worker t I} {h : WorkerHistory t I}
    (hr : worker.Run x₀ h x) (h₀ : x₀.pc.pending = []) {o : t.Owner} {c : t.ChannelId}
    {ev : t.Event} (hp : (o, c, ev) ∈ x.pc.pending) :
    Since (fun m ↦ ∀ c ev, ¬ Receives c ev m)
      (fun m ↦ Receives c ev m ∧ o ∈ m.pre.busLocalHub.subscribers c) h := by
  induction hr with
  | nil =>
      rw [h₀] at hp
      cases hp
  | @snoc h m hr hm ih =>
      rw [since_snoc]
      obtain ⟨c', ev', hc', -, hpend⟩ | ⟨hno, hpend⟩ := delivery_cases hm
      · rw [hpend] at hp
        obtain ⟨o', ho', he⟩ := List.mem_map.mp hp
        cases he
        exact .inl ⟨hc', ho'⟩
      · refine .inr ⟨hno, ih ?_⟩
        rw [← hpend]
        exact List.mem_append_right _ hp

/-- **A delivery goes to an owner that was subscribed when the message was received.**
It was received last; and an owner that has unsubscribed and not subscribed again is
delivered no message received after that. -/
theorem delivered_of_received {now : Instant} {tick : Nat} {inner : I} {i j k : Nat}
    {x : Worker t I} {h₁ h₂ : WorkerHistory t I} {m : WorkerMoment t I} {o : t.Owner}
    {c : t.ChannelId} {ev : t.Event}
    (hr : worker.Run (.new now tick inner i j k) (h₁ ++ m :: h₂) x)
    (hd : .input (.onEvent (.bus (.channel o c ev))) ∈ m.events) :
    (∃ g r k, h₁ = g ++ r :: k ∧ Receives c ev r ∧ (∀ y ∈ k, ∀ c ev, ¬ Receives c ev y) ∧
      o ∈ r.pre.busLocalHub.subscribers c ∧
      (o ∉ m.pre.busLocalHub.subscribers c → ∃ u ∈ k, Unsubscribes o c u)) ∧
    (∀ g u k, h₁ = g ++ u :: k → Unsubscribes o c u →
      (∃ s ∈ k, Subscribes o c s) ∨ ∀ y ∈ k, ∀ c ev, ¬ Receives c ev y) := by
  obtain ⟨hr₁, hm, -⟩ := hr.split
  have hpend : (o, c, ev) ∈ m.pre.pc.pending := by
    obtain ⟨_, _, -, hev, -⟩ | ⟨-, hpend⟩ := delivery_cases hm
    · rw [hev] at hd
      cases hd
    · rw [← hpend]
      exact List.mem_append_left _ (List.mem_filterMap.mpr ⟨_, hd, rfl⟩)
  obtain ⟨g, r, k, rfl, ⟨hrec, ho⟩, hk⟩ := received_of_pending hr₁ rfl hpend
  obtain ⟨hrg, hfr, hrk⟩ := hr₁.split
  refine ⟨⟨g, r, k, rfl, hrec, hk, ho, fun hnot ↦ ?_⟩, fun g' u k' he hu ↦ ?_⟩
  · -- the reception itself processes no output, so the owner is still listed after it
    have hpost : o ∈ r.post.busLocalHub.subscribers c := by
      obtain ⟨_, _, -, hev, -⟩ | ⟨hno, -⟩ := delivery_cases hfr
      · rw [mem_subscribers_iff hfr]
        exact .inr ⟨by simp [Unsubscribes, hev], ho⟩
      · exact absurd hrec (hno c ev)
    by_contra hall
    simp only [not_exists, not_and] at hall
    exact hnot ((subscribed_iff hrk o c).mpr (.inr ⟨hpost, hall⟩))
  · rcases List.append_eq_append_iff.mp he with ⟨l, rfl, hl⟩ | ⟨l, rfl, hl⟩
    · right
      cases l with
      | nil =>
          obtain ⟨-, rfl⟩ := List.cons.inj hl
          exact hk
      | cons _ l =>
          obtain ⟨-, rfl⟩ := List.cons.inj hl
          exact fun y hy ↦ hk y (by simp [hy])
    · cases l with
      | nil =>
          obtain ⟨-, rfl⟩ := List.cons.inj hl
          exact .inr hk
      | cons _ l =>
          obtain ⟨rfl, rfl⟩ := List.cons.inj hl
          obtain ⟨-, hfu, hru⟩ := hrg.split
          left
          by_contra hall
          simp only [not_exists, not_and] at hall
          exact not_subscribed hfu hru hu (fun s hs ↦ hall s (by simp [hs])) ho

/-- Two owners subscribe to channel 5; the outputs after the first delivery unsubscribe
the second one. -/
def unsubscribing : List (Option (BusControl Nat Nat Nat)) :=
  [some (.channel 0 (.subscribe 5)), some (.channel 1 (.subscribe 5)), none, none,
    some (.channel 1 (.unsubscribe 5)), none]

/-- `init`, then a `process` that ticks and receives a message of channel 5, up to the
second delivery. -/
def untilSecondDelivery : List (Answer plainTypes) :=
  [.clock 0, .run, .run, .run, .clock 1, .control none, .run, .run, .elapsed 0,
    .incoming (some .awake), .bus (some (.channel 0 5, 9)), .run, .run, .run]

/-- The history up to there, and the worker there. -/
def beforeSecondDelivery :
    WorkerHistory plainTypes Scripted × Worker plainTypes Scripted :=
  (worker.exec (scriptedWorker unsubscribing) untilSecondDelivery).get rfl

/-- The second delivery. -/
def secondDelivery : WorkerMoment plainTypes Scripted :=
  worker.moment beforeSecondDelivery.2 .run rfl

theorem run_secondDelivery :
    worker.Run (scriptedWorker unsubscribing) (beforeSecondDelivery.1 ++ [secondDelivery])
      secondDelivery.post :=
  (Machine.exec_run_get rfl).moment rfl

/-- The theorem at that delivery, to an owner that is no longer subscribed. -/
theorem delivered_of_received_stale :
    1 ∉ secondDelivery.pre.busLocalHub.subscribers 5 ∧
      ∃ (g : WorkerHistory plainTypes Scripted)
        (r : WorkerMoment plainTypes Scripted),
        (∃ k, beforeSecondDelivery.1 = g ++ r :: k ∧
          ∃ u ∈ k, Unsubscribes (t := plainTypes) 1 5 u) ∧
          Receives (t := plainTypes) 5 9 r ∧ 1 ∈ r.pre.busLocalHub.subscribers 5 := by
  have hnot : 1 ∉ secondDelivery.pre.busLocalHub.subscribers 5 := by decide
  have hd : .input (.onEvent (.bus (.channel 1 5 9))) ∈ secondDelivery.events :=
    List.mem_singleton.mpr rfl
  obtain ⟨⟨g, r, k, hh, hrec, -, ho, hu⟩, -⟩ := delivered_of_received run_secondDelivery hd
  exact ⟨hnot, g, r, ⟨k, hh, hu hnot⟩, hrec, ho⟩

/-- **A delivery does not always go to an owner that is subscribed.** -/
theorem not_always_subscribed :
    ¬ ∀ h m x, worker.Run (scriptedWorker unsubscribing) (h ++ [m]) x → ∀ o c ev,
      .input (.onEvent (.bus (.channel o c ev))) ∈ m.events →
        o ∈ m.pre.busLocalHub.subscribers c := by
  intro hall
  have hmem := hall _ _ _ run_secondDelivery 1 5 9 (List.mem_singleton.mpr rfl)
  exact absurd hmem (by decide)

end SansIo
