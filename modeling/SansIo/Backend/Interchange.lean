import SansIo.Backend.Ports

/-!
# Backends are interchangeable

A `PortTable` is a backend whose actions do to its ports what `Ports.onAction` says, and
whose other steps leave them alone.  What it holds, answers and sends is then what its
actions make of no ports at all (`ports_of_run`), whenever it waits and whatever it reads in
between.

Both backends are one.  So an owner cannot tell which of them it uses
(`interchangeable_of_runs`), what it sends leaves through the sockets that were announced
(`leaves_of_runs`), and a backend can be dropped once every slot has been unlistened
(`dropped_of_runs`).
-/

namespace SansIo.Backend

open Lib Collections

variable {Owner : Type} {n q : Nat}

/-- The answer that is popped. -/
def Seen.listenResult : Seen Owner → Option (ListenResult Owner)
  | .popped (some out) => Backend.listenResult out
  | _ => none

/-- What is only queued is not popped. -/
theorem listenResult_queued (queue : List (BackendIncomingInternal Owner)) :
    (queue.map Seen.queued).filterMap Seen.listenResult = [] := by
  rw [List.filterMap_map]
  exact List.filterMap_eq_nil_iff.mpr fun _ _ ↦ rfl

/-- A backend that does to its ports what the actions say. -/
structure PortTable (σ lab Owner : Type) where
  /-- The backend, -/
  machine : Machine σ lab (Seen Owner)
  /-- at first. -/
  start : σ
  /-- The slot of the first port. -/
  first : Nat
  /-- The ports that it has. -/
  has : σ → Ports Owner → Prop
  /-- The output queue. -/
  queue : σ → List (BackendIncomingInternal Owner)
  /-- Labels that are actions. -/
  action : lab → Option (Action Owner)
  /-- What a step hands to `send_to`. -/
  sends : σ → lab → List Datagram
  /-- There are no ports at first, -/
  has_start : has start []
  /-- and no answers. -/
  queue_start : queue start = []
  /-- An action is one on the ports. -/
  acts : ∀ m, machine.Fires m → ∀ ports, has m.pre ports → ∀ owner opening a,
    action m.label = some (owner, opening, a) →
      has m.post (ports.onAction first owner opening a).1 ∧
      listenResults (queue m.post) =
        listenResults (queue m.pre) ++ (ports.onAction first owner opening a).2.1 ∧
      sends m.pre m.label = (ports.onAction first owner opening a).2.2 ∧
      m.events.filterMap Seen.listenResult = []
  /-- Any other step leaves them alone, sends nothing, and may pop an answer. -/
  stays : ∀ m, machine.Fires m → ∀ ports, has m.pre ports → action m.label = none →
    has m.post ports ∧
    listenResults (queue m.pre) =
      m.events.filterMap Seen.listenResult ++ listenResults (queue m.post) ∧
    sends m.pre m.label = []

namespace PortTable

variable {σ lab : Type} (B : PortTable σ lab Owner)

/-- The actions of a history. -/
def actions (h : History σ lab (Seen Owner)) : List (Action Owner) :=
  h.filterMap fun m ↦ B.action m.label

/-- The datagrams that it sends. -/
def sent (h : History σ lab (Seen Owner)) : List Datagram :=
  h.flatMap fun m ↦ B.sends m.pre m.label

/-- The answers that it pops, and those that are still in the queue. -/
def answers (h : History σ lab (Seen Owner)) (s : σ) : List (ListenResult Owner) :=
  h.events.filterMap Seen.listenResult ++ listenResults (B.queue s)

/-- **A backend is what its actions make of its ports**, whenever it waits and whatever it
reads in between. -/
theorem ports_of_run {h : History σ lab (Seen Owner)} {s : σ} (hr : B.machine.Run B.start h s) :
    B.has s (Ports.run B.first [] (B.actions h)).1 ∧
      B.answers h s = (Ports.run B.first [] (B.actions h)).2.1 ∧
      B.sent h = (Ports.run B.first [] (B.actions h)).2.2 := by
  induction hr with
  | nil =>
      refine ⟨B.has_start, ?_, rfl⟩
      rw [answers, B.queue_start]
      rfl
  | @snoc h m hr hm ih =>
      obtain ⟨hports, hanswers, hsent⟩ := ih
      have hactions : B.actions (h ++ [m]) = B.actions h ++ (B.action m.label).toList := by
        rw [actions, List.filterMap_append]
        cases haction : B.action m.label with
        | none => simp [actions, haction]
        | some a => simp [actions, haction]
      have hsends : B.sent (h ++ [m]) = B.sent h ++ B.sends m.pre m.label := by
        simp [sent, List.flatMap_append]
      rw [hsends, hsent, answers, History.events_append, History.events_singleton,
        List.filterMap_append, List.append_assoc, hactions]
      cases haction : B.action m.label with
      | none =>
          obtain ⟨hstays, hpops, hnone⟩ := B.stays m hm _ hports haction
          rw [Option.toList_none, List.append_nil, hnone, List.append_nil, ← hpops]
          exact ⟨hstays, hanswers, rfl⟩
      | some a =>
          obtain ⟨owner, opening, action⟩ := a
          obtain ⟨hacts, hqueues, hsends', hpops⟩ := B.acts m hm _ hports _ _ _ haction
          rw [Option.toList_some, Ports.run_snoc, hpops, List.nil_append, hqueues,
            ← List.append_assoc, hsends']
          exact ⟨hacts, congrArg (· ++ _) hanswers, rfl⟩

/-- **Two backends that are given the same actions agree**: they have the same ports, answer
the same and send the same, but for the slots. -/
theorem agree {σ' lab' : Type} (B' : PortTable σ' lab' Owner) {k : Nat}
    (hfirst : B'.first = B.first + k) {h : History σ lab (Seen Owner)} {s : σ}
    (hr : B.machine.Run B.start h s)
    {h' : History σ' lab' (Seen Owner)} {s' : σ'} (hr' : B'.machine.Run B'.start h' s')
    (hactions : B'.actions h' = (B.actions h).map (Action.shift k)) :
    (∃ ports, B.has s ports ∧ B'.has s' ports) ∧
      B'.answers h' s' = (B.answers h s).map (ListenResult.shift k) ∧ B'.sent h' = B.sent h := by
  obtain ⟨hports, hanswers, hsent⟩ := B.ports_of_run hr
  obtain ⟨hports', hanswers', hsent'⟩ := B'.ports_of_run hr'
  rw [hactions, hfirst, Ports.run_shift] at hports' hanswers' hsent'
  exact ⟨⟨_, hports, hports'⟩, by rw [hanswers', hanswers], by rw [hsent', hsent]⟩

/-- What a step sends goes through the sockets that have been announced in their slots and
not been unlistened since. -/
def Leaves {S : Type} (A : SlotTable σ lab Owner S) (h : History σ lab (Seen Owner)) : Prop :=
  ∀ h₁ m h₂, h = h₁ ++ m :: h₂ → ∃ port, (∀ slot l, port slot = some l ↔ A.Open h₁ slot l) ∧
    B.sends m.pre m.label = match B.action m.label with
      | some (_, _, action) => action.through port
      | none => []

/-- So it is where the ports are the sockets of a table. -/
theorem leaves_of_run {S : Type} {A : SlotTable σ lab Owner S} (hmachine : A.machine = B.machine)
    (hstart : A.start = B.start)
    (hports : ∀ s ports, B.has s ports → ∀ slot, A.udpAt s slot = ports.portAt B.first slot)
    {h : History σ lab (Seen Owner)} {s : σ} (hr : B.machine.Run B.start h s) : B.Leaves A h := by
  rintro h₁ m h₂ rfl
  obtain ⟨hr₁, hm, -⟩ := hr.split
  obtain ⟨hhas, -, -⟩ := B.ports_of_run hr₁
  refine ⟨Ports.portAt B.first (Ports.run B.first [] (B.actions h₁)).1, fun slot l ↦ ?_, ?_⟩
  · rw [← hports _ _ hhas]
    rw [← hmachine, ← hstart] at hr₁
    exact (A.exclusive_of_run hr₁).udpAt_iff slot l
  · cases haction : B.action m.label with
    | none => exact (B.stays m hm _ hhas haction).2.2
    | some a =>
        obtain ⟨owner, opening, action⟩ := a
        rw [(B.acts m hm _ hhas _ _ _ haction).2.2.1, Ports.onAction_sent]

end PortTable

/-! ## Both -/

/-- `PollBackend` does to its ports what the actions say. -/
def PollBackend.portTable (Owner : Type) (n q : Nat) :
    PortTable (PollBackend Owner n q) (PollLabel Owner) Owner where
  machine := machine Owner n q
  start := .default
  first := 0
  has := HasPorts
  queue b := b.output.toList
  action
    | .onAction owner createUdp action => some (owner, .ofResult createUdp, action)
    | _ => none
  sends b
    | .onAction owner createUdp action => match b.onAction owner createUdp action with
      | .ok (_, sent) => sent
      | .error _ => []
    | _ => []
  has_start := rfl
  queue_start := rfl
  acts := by
    intro m hm ports hports owner opening a haction
    obtain ⟨pre, label, events, post⟩ := m
    cases label with
    | onAction owner' createUdp action =>
        cases haction
        obtain ⟨out, -, -, rfl, -⟩ := step_onAction hm
        have hstep : pre.step (.onAction owner createUdp a) = some (post, out.map .queued) := hm
        rw [step] at hstep
        split at hstep
        · rename_i post' sent honAction
          obtain ⟨rfl, -⟩ := Prod.mk.inj (Option.some.inj hstep)
          obtain ⟨hpost, hqueue, hsent⟩ := onAction_ports hports honAction
          refine ⟨hpost, hqueue, ?_, ?_⟩
          · simp only [honAction, hsent]
          · exact listenResult_queued out
        · cases hstep
    | pollIncoming => cases haction
    | popIncoming recv => cases haction
  stays := by
    intro m hm ports hports haction
    obtain ⟨pre, label, events, post⟩ := m
    cases label with
    | onAction owner createUdp action => cases haction
    | pollIncoming =>
        obtain ⟨hsockets, hqueue⟩ := pollIncoming_answer pre
        have hstep : pre.step .pollIncoming = some (post, events) := hm
        obtain ⟨rfl, rfl⟩ := Prod.mk.inj (Option.some.inj hstep)
        refine ⟨?_, ?_, rfl⟩
        · change Holds _ _ _ _
          rw [hsockets]
          exact hports
        · dsimp only
          rw [hqueue, queuedBetween, listenResult_queued, List.nil_append]
    | popIncoming recv =>
        obtain ⟨out, hpop, rfl⟩ := step_popIncoming hm
        refine ⟨?_, ?_, rfl⟩
        · change Holds _ _ _ _
          rw [popIncoming_sockets hpop]
          exact hports
        · rw [popIncoming_answer hpop]
          cases out with
          | none => rfl
          | some x => rfl

/-- `PollingBackend` does to its ports what the actions say. -/
def PollingBackend.portTable (Owner : Type) (n q : Nat) :
    PortTable (PollingBackend Owner n q) (PollingLabel Owner) Owner where
  machine := machine Owner n q
  start := .default
  first := 1
  has := HasPorts
  queue b := b.output.toList
  action
    | .onAction owner opening action => some (owner, opening, action)
    | _ => none
  sends b
    | .onAction owner opening action => match b.onAction owner opening action with
      | .ok (_, sent) => sent
      | .error _ => []
    | _ => []
  has_start := by
    rw [HasPorts, Holds, default, DynamicVec.toList_push]
    rfl
  queue_start := rfl
  acts := by
    intro m hm ports hports owner opening a haction
    obtain ⟨pre, label, events, post⟩ := m
    cases label with
    | onAction owner' opening' action =>
        cases haction
        obtain ⟨out, -, rfl, -⟩ := step_onAction hm
        have hstep : pre.step (.onAction owner opening a) = some (post, out.map .queued) := hm
        rw [step] at hstep
        split at hstep
        · rename_i post' sent honAction
          obtain ⟨rfl, -⟩ := Prod.mk.inj (Option.some.inj hstep)
          obtain ⟨hpost, hqueue, hsent⟩ := onAction_ports hports honAction
          refine ⟨hpost, hqueue, ?_, ?_⟩
          · simp only [honAction, hsent]
          · exact listenResult_queued out
        · cases hstep
    | awake => cases haction
    | pollIncoming wait => cases haction
    | popIncoming os => cases haction
  stays := by
    have hkept {b b' : PollingBackend Owner n q} {ports : Ports Owner} (hb : b.HasPorts ports)
        (hsockets : b'.sockets = b.sockets) (houtput : b'.output = b.output) :
        b'.HasPorts ports ∧ listenResults b.output.toList = listenResults b'.output.toList := by
      rw [houtput]
      refine ⟨?_, rfl⟩
      rw [HasPorts, hsockets]
      exact hb
    intro m hm ports hports haction
    obtain ⟨pre, label, events, post⟩ := m
    cases label with
    | onAction owner opening action => cases haction
    | awake =>
        obtain ⟨hsockets, houtput, rfl⟩ := step_awake hm
        obtain ⟨hpost, hqueue⟩ := hkept hports hsockets houtput
        exact ⟨hpost, hqueue, rfl⟩
    | pollIncoming wait =>
        obtain ⟨hsockets, houtput, rfl⟩ := step_pollIncoming hm
        obtain ⟨hpost, hqueue⟩ := hkept hports hsockets houtput
        exact ⟨hpost, hqueue, rfl⟩
    | popIncoming os =>
        obtain ⟨out, hpop, rfl⟩ := step_popIncoming hm
        refine ⟨?_, ?_, rfl⟩
        · change Holds _ _ _ _
          rw [(popIncoming_does hpop).1]
          exact hports
        · rw [popIncoming_answer hpop]
          cases out with
          | none => rfl
          | some x => rfl

/-- **The two backends are interchangeable.**  Given the same actions, with slots that are
one further on in a `PollingBackend`, they hold the same sockets, give the same answers in
the same order, and send the same datagrams through the same sockets; however many of each
they keep on the stack, and whatever is polled, read or awoken in between. -/
theorem interchangeable_of_runs {n q n' q' : Nat}
    {h : History (PollBackend Owner n q) (PollLabel Owner) (Seen Owner)}
    {b : PollBackend Owner n q} (hr : (PollBackend.machine Owner n q).Run .default h b)
    {h' : History (PollingBackend Owner n' q') (PollingLabel Owner) (Seen Owner)}
    {b' : PollingBackend Owner n' q'}
    (hr' : (PollingBackend.machine Owner n' q').Run .default h' b')
    (hactions : (PollingBackend.portTable Owner n' q').actions h' =
      ((PollBackend.portTable Owner n q).actions h).map (Action.shift 1)) :
    b'.sockets.toList =
        some .waker :: b.sockets.toList.map
          (Option.map fun s ↦ .udp s.socket s.localAddr s.owner) ∧
      (PollingBackend.portTable Owner n' q').answers h' b' =
        ((PollBackend.portTable Owner n q).answers h b).map (ListenResult.shift 1) ∧
      (PollingBackend.portTable Owner n' q').sent h' =
        (PollBackend.portTable Owner n q).sent h := by
  obtain ⟨⟨ports, hports, hports'⟩, hanswers, hsent⟩ :=
    (PollBackend.portTable Owner n q).agree (PollingBackend.portTable Owner n' q') rfl hr hr'
      hactions
  refine ⟨?_, hanswers, hsent⟩
  have hsockets : b.sockets.toList = ports.map (Option.map PollBackend.udp) := hports
  have hsockets' : b'.sockets.toList = some .waker :: ports.map (Option.map PollingBackend.udp) :=
    hports'
  rw [hsockets, hsockets', List.map_map, Option.map_comp_map]
  rfl

/-- A socket is listened, its slot sent through twice, once after it has been unlistened. -/
def pollSent :
    History (PollBackend Unit 2 2) (PollLabel Unit) (Seen Unit) × PollBackend Unit 2 2 :=
  ((PollBackend.machine Unit 2 2).exec .default
    [.onAction () (.ok (7, anyPort)) (.udpListen anyPort false), .pollIncoming,
      .onAction () (.error "") (.udpPacket 0 anyPort (.filled 0 0 [5])),
      .popIncoming fun _ _ ↦ none, .onAction () (.error "") (.udpUnlisten 0),
      .onAction () (.error "") (.udpPacket 0 anyPort (.filled 0 0 [6]))]).get (by decide +kernel)

/-- The same, one slot further on. -/
def pollingSent :
    History (PollingBackend Unit 1 1) (PollingLabel Unit) (Seen Unit) × PollingBackend Unit 1 1 :=
  ((PollingBackend.machine Unit 1 1).exec .default
    [.awake, .onAction () (.opened 7 anyPort) (.udpListen anyPort false),
      .onAction () (.refused "") (.udpPacket 1 anyPort (.filled 0 0 [5])),
      .onAction () (.refused "") (.udpUnlisten 1), .pollIncoming (.ok [1]),
      .onAction () (.refused "") (.udpPacket 1 anyPort (.filled 0 0 [6]))]).get
    (by decide +kernel)

theorem pollSent_run : (PollBackend.machine Unit 2 2).Run .default pollSent.1 pollSent.2 :=
  Machine.exec_run_get _

theorem pollingSent_run :
    (PollingBackend.machine Unit 1 1).Run .default pollingSent.1 pollingSent.2 :=
  Machine.exec_run_get _

/-- The theorem there. -/
theorem interchangeable_of_runs_sent :
    (PollBackend.portTable Unit 2 2).sent pollSent.1 = [(7, anyPort, [5])] ∧
      (PollingBackend.portTable Unit 1 1).answers pollingSent.1 pollingSent.2 =
        [((), anyPort, .ok (anyPort, 1))] ∧
      (PollingBackend.portTable Unit 1 1).sent pollingSent.1 = [(7, anyPort, [5])] := by
  obtain ⟨-, hanswers, hsent⟩ := interchangeable_of_runs pollSent_run pollingSent_run rfl
  exact ⟨rfl, hanswers, hsent⟩

/-- The sockets of a `PollBackend` are its ports, -/
theorem PollBackend.udpAt_eq {b : PollBackend Owner n q} {ports : Ports Owner}
    (hb : b.HasPorts ports) (slot : Nat) :
    (slotTable Owner n q).udpAt b slot = ports.portAt 0 slot := by
  have hheld : Slots.held b.sockets slot = (ports.portAt 0 slot).map udp :=
    hb.held (Nat.zero_le slot)
  change (Slots.held b.sockets slot).bind _ = ports.portAt 0 slot
  rw [hheld]
  cases ports.portAt 0 slot with
  | none => rfl
  | some l => rfl

/-- and so are those of a `PollingBackend`. -/
theorem PollingBackend.udpAt_eq {b : PollingBackend Owner n q} {ports : Ports Owner}
    (hb : b.HasPorts ports) (slot : Nat) :
    (slotTable Owner n q).udpAt b slot = ports.portAt 1 slot := by
  change (Slots.held b.sockets slot).bind asUdp = ports.portAt 1 slot
  cases slot with
  | zero =>
      rw [held_zero hb]
      rfl
  | succ slot =>
      have hheld : Slots.held b.sockets (slot + 1) = (ports.portAt 1 (slot + 1)).map udp :=
        hb.held (Nat.le_add_left 1 slot)
      rw [hheld]
      cases ports.portAt 1 (slot + 1) with
      | none => rfl
      | some l => rfl

/-- **What is sent leaves through the socket that was announced in its slot**, in the order of
the action, and not at all where the slot has been unlistened; whoever sends it. -/
theorem leaves_of_runs :
    (∀ (h : History (PollBackend Owner n q) (PollLabel Owner) (Seen Owner))
      (b : PollBackend Owner n q), (PollBackend.machine Owner n q).Run .default h b →
        (PollBackend.portTable Owner n q).Leaves (PollBackend.slotTable Owner n q) h) ∧
    ∀ (h : History (PollingBackend Owner n q) (PollingLabel Owner) (Seen Owner))
      (b : PollingBackend Owner n q), (PollingBackend.machine Owner n q).Run .default h b →
        (PollingBackend.portTable Owner n q).Leaves (PollingBackend.slotTable Owner n q) h := by
  constructor
  · intro h b hr
    apply (PollBackend.portTable Owner n q).leaves_of_run rfl rfl _ hr
    exact fun b ports ↦ PollBackend.udpAt_eq
  · intro h b hr
    apply (PollingBackend.portTable Owner n q).leaves_of_run rfl rfl _ hr
    exact fun b ports ↦ PollingBackend.udpAt_eq

/-- The theorem there. -/
theorem leaves_of_runs_sent :
    (PollBackend.portTable Unit 2 2).Leaves (PollBackend.slotTable Unit 2 2) pollSent.1 ∧
      (PollingBackend.portTable Unit 1 1).Leaves (PollingBackend.slotTable Unit 1 1)
        pollingSent.1 :=
  ⟨leaves_of_runs.1 _ _ pollSent_run, leaves_of_runs.2 _ _ pollingSent_run⟩

/-! ## Dropping -/

/-- There is no socket where no slot has a port. -/
theorem Ports.countP_eq_zero_iff (first : Nat) (ports : Ports Owner) :
    ports.countP Option.isSome = 0 ↔ ∀ slot, ports.portAt first slot = none := by
  rw [List.countP_eq_zero]
  constructor
  · intro h slot
    rw [portAt]
    split
    · cases hget : ports[slot - first]? with
      | none => rfl
      | some o => exact Option.not_isSome_iff_eq_none.mp (h o (List.mem_of_getElem? hget))
    · rfl
  · intro h o ho
    obtain ⟨i, hget⟩ := List.mem_iff_getElem?.mp ho
    have hport := h (first + i)
    rw [portAt, if_pos (Nat.le_add_right first i), Nat.add_sub_cancel_left, hget] at hport
    rw [Option.not_isSome_iff_eq_none]
    exact hport

/-- The slots that are not ports are counted too. -/
theorem Holds.countP_eq {S : Type} {front : List S} {udp : Listening Owner → S}
    {v : DynamicVec (Option S) n} {ports : Ports Owner} (h : Holds front udp v ports) :
    v.toList.countP Option.isSome = front.length + ports.countP Option.isSome := by
  have hfront : (front.map some).countP Option.isSome = front.length := by
    rw [List.countP_map]
    exact List.countP_eq_length.mpr fun _ _ ↦ rfl
  have hports : (ports.map (Option.map udp)).countP Option.isSome =
      ports.countP Option.isSome := by
    rw [List.countP_map]
    exact List.countP_congr fun o _ ↦ by simp
  rw [h, List.countP_append, hfront, hports]

theorem asserts_iff {p : Prop} [Decidable p] {message : String} :
    (if p then .ok () else throw message : Panics Unit) = .ok () ↔ p := by
  by_cases h : p
  · rw [if_pos h]
    exact iff_of_true rfl h
  · rw [if_neg h]
    exact iff_of_false nofun h

/-- `drop` of a `PollBackend`. -/
def PollBackend.drop (b : PollBackend Owner n q) : Panics Unit :=
  if b.socketCount = 0 then .ok () else throw "sockets should be empty"

/-- `drop` of a `PollingBackend`, which always keeps its waker. -/
def PollingBackend.drop (b : PollingBackend Owner n q) : Panics Unit :=
  if b.socketCount = 1 then .ok () else throw "sockets should be empty"

/-- **A backend is dropped without a panic exactly when every slot that it announced has been
unlistened.** -/
theorem dropped_of_runs :
    (∀ (h : History (PollBackend Owner n q) (PollLabel Owner) (Seen Owner))
      (b : PollBackend Owner n q), (PollBackend.machine Owner n q).Run .default h b →
        (b.drop = .ok () ↔ ∀ slot l, ¬ (PollBackend.slotTable Owner n q).Open h slot l)) ∧
    ∀ (h : History (PollingBackend Owner n q) (PollingLabel Owner) (Seen Owner))
      (b : PollingBackend Owner n q), (PollingBackend.machine Owner n q).Run .default h b →
        (b.drop = .ok () ↔ ∀ slot l, ¬ (PollingBackend.slotTable Owner n q).Open h slot l) := by
  constructor
  · intro h b hr
    obtain ⟨hports, -, -⟩ := (PollBackend.portTable Owner n q).ports_of_run hr
    have hcount : b.socketCount = 0 + _ := Holds.countP_eq hports
    have hopen := ((PollBackend.slotTable Owner n q).exclusive_of_run hr).udpAt_iff
    simp only [← hopen, ← Option.eq_none_iff_forall_ne_some, PollBackend.udpAt_eq hports]
    rw [← Ports.countP_eq_zero_iff, PollBackend.drop, asserts_iff, hcount, Nat.zero_add]
  · intro h b hr
    obtain ⟨hports, -, -⟩ := (PollingBackend.portTable Owner n q).ports_of_run hr
    have hcount : b.socketCount = 1 + _ := Holds.countP_eq hports
    have hopen := ((PollingBackend.slotTable Owner n q).exclusive_of_run hr).udpAt_iff
    simp only [← hopen, ← Option.eq_none_iff_forall_ne_some, PollingBackend.udpAt_eq hports]
    rw [← Ports.countP_eq_zero_iff, PollingBackend.drop, asserts_iff, hcount, Nat.add_eq_left]

/-- The theorem there. -/
theorem dropped_of_runs_sent :
    (∀ slot l, ¬ (PollBackend.slotTable Unit 2 2).Open pollSent.1 slot l) ∧
      ∀ slot l, ¬ (PollingBackend.slotTable Unit 1 1).Open pollingSent.1 slot l :=
  ⟨(dropped_of_runs.1 _ _ pollSent_run).mp rfl, (dropped_of_runs.2 _ _ pollingSent_run).mp rfl⟩

end SansIo.Backend
