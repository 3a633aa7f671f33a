import SansIo.Backend.Ports
import SansIo.Worker.Steps

/-!
# A worker and its backend

A worker owns its backend: `Worker::new` creates it, and nothing else calls it.  A `Node` is
both of them, here with a `PollBackend`.  What is left to the world is the clock, the buses,
and the operating system below the sockets.

A run of a node is a run of its worker and one of its backend (`components_of_run`), so what
is known of either alone is known of it here.  `Node.received` and `Node.sent` are the
datagrams that come in and go out, with their sockets.
-/

namespace SansIo

open Lib Bus Backend

variable {t : WorkerTypes} {I : Type} {n q : Nat}

/-- A worker, and the backend that it owns. -/
structure Node (t : WorkerTypes) (I : Type) (n q : Nat) where
  /-- The worker. -/
  worker : Worker t I
  /-- Its field `backend`. -/
  backend : PollBackend t.Owner n q

/-- What the world answers to a node. -/
structure NodeAnswer (t : WorkerTypes) where
  /-- What the worker is answered, unless it asks its backend. -/
  answer : Option (Answer t)
  /-- What the read of a socket gives. -/
  recv : Nat → UdpSocket → Option (SocketAddr × List UInt8)
  /-- What opening a socket gives. -/
  createUdp : Except IoError (UdpSocket × SocketAddr)

/-- A moment of a backend. -/
abbrev BackendMoment (t : WorkerTypes) (n q : Nat) :=
  Moment (PollBackend t.Owner n q) (PollLabel t.Owner) (Seen t.Owner)

/-- What happens in a node. -/
inductive NodeEvent (t : WorkerTypes) (I : Type) (n q : Nat) where
  /-- The worker makes a step. -/
  | worker (m : WorkerMoment t I)
  /-- The backend makes one. -/
  | backend (m : BackendMoment t n q)
  /-- A datagram is read, from this socket. -/
  | received (datagram : Datagram)
  /-- A datagram is handed to `send_to`, of this socket. -/
  | sent (datagram : Datagram)

namespace Node

/-- The datagram that was read for an event, if it is a packet. -/
def readFor (b : PollBackend t.Owner n q)
    (recv : Nat → UdpSocket → Option (SocketAddr × List UInt8)) :
    Option (BackendIncomingInternal t.Owner) → Option Datagram
  | some (.event _ (.udpPacket slot _ _)) => b.givesAt recv slot
  | _ => none

/-- What the worker is answered, which may take a call of `pop_incoming`. -/
def answered (x : Node t I n q) (w : NodeAnswer t) :
    Option (Answer t × PollBackend t.Owner n q × List (NodeEvent t I n q)) :=
  match w.answer with
  | some (.incoming _) => none
  | some a => some (a, x.backend, [])
  | none => match x.backend.popIncoming w.recv with
    | .ok (event, backend) => some (.incoming event, backend,
        .backend ⟨x.backend, .popIncoming w.recv, [.popped event], backend⟩ ::
          (readFor x.backend w.recv event).toList.map .received)
    | .error _ => none

/-- What an act of the worker asks of the backend. -/
def perform (createUdp : Except IoError (UdpSocket × SocketAddr)) (b : PollBackend t.Owner n q) :
    Act t → Panics (PollBackend t.Owner n q × List (NodeEvent t I n q))
  | .onAction owner action => match b.onAction owner createUdp action with
    | .ok (b', sent) => .ok (b', .backend ⟨b, .onAction owner createUdp action,
        queuedBetween b.output b'.output, b'⟩ :: sent.map .sent)
    | .error e => .error e
  | .pollIncoming _ => .ok (b.pollIncoming, [.backend ⟨b, .pollIncoming,
      queuedBetween b.output b.pollIncoming.output, b.pollIncoming⟩])
  | _ => .ok (b, [])

/-- The same of one act after the other. -/
def performAll (createUdp : Except IoError (UdpSocket × SocketAddr)) :
    PollBackend t.Owner n q → List (Act t) →
      Panics (PollBackend t.Owner n q × List (NodeEvent t I n q))
  | b, [] => .ok (b, [])
  | b, a :: acts => do
    let (b, events) ← perform createUdp b a
    let (b, events') ← performAll createUdp b acts
    return (b, events ++ events')

variable [WorkerInner t I] [DecidableEq t.Owner] [DecidableEq t.ChannelId]

/-- One step of the thread.  One that panics is none. -/
def step (x : Node t I n q) (w : NodeAnswer t) :
    Option (Node t I n q × List (NodeEvent t I n q)) := do
  let (a, backend, asked) ← x.answered w
  let (worker, acts) ← x.worker.step a
  let (backend, performed) ← (performAll w.createUdp backend acts).toOption
  return (⟨worker, backend⟩, asked ++ .worker ⟨x.worker, a, acts, worker⟩ :: performed)

end Node

variable [WorkerInner t I] [DecidableEq t.Owner] [DecidableEq t.ChannelId]

/-- A worker and its backend, in every world. -/
def node (t : WorkerTypes) (I : Type) (n q : Nat) [WorkerInner t I] [DecidableEq t.Owner]
    [DecidableEq t.ChannelId] : Machine (Node t I n q) (NodeAnswer t) (NodeEvent t I n q) :=
  ⟨Node.step⟩

/-- A history of a node. -/
abbrev NodeHistory (t : WorkerTypes) (I : Type) (n q : Nat) :=
  History (Node t I n q) (NodeAnswer t) (NodeEvent t I n q)

/-- A moment of a node. -/
abbrev NodeMoment (t : WorkerTypes) (I : Type) (n q : Nat) :=
  Moment (Node t I n q) (NodeAnswer t) (NodeEvent t I n q)

namespace NodeEvent

/-- The moment of the worker. -/
def workerMoment : NodeEvent t I n q → Option (WorkerMoment t I)
  | .worker m => some m
  | .backend _ | .received _ | .sent _ => none

/-- The moment of the backend. -/
def backendMoment : NodeEvent t I n q → Option (BackendMoment t n q)
  | .backend m => some m
  | .worker _ | .received _ | .sent _ => none

/-- The datagram that is read. -/
def receivedDatagram : NodeEvent t I n q → Option Datagram
  | .received datagram => some datagram
  | .worker _ | .backend _ | .sent _ => none

/-- The datagram that is sent. -/
def sentDatagram : NodeEvent t I n q → Option Datagram
  | .sent datagram => some datagram
  | .worker _ | .backend _ | .received _ => none

omit [WorkerInner t I] [DecidableEq t.Owner] [DecidableEq t.ChannelId] in
/-- What is not looked for is not found. -/
theorem filterMap_map_eq_nil {α β : Type} {wrap : α → NodeEvent t I n q}
    {find : NodeEvent t I n q → Option β} (h : ∀ x, find (wrap x) = none) (l : List α) :
    (l.map wrap).filterMap find = [] := by
  rw [List.filterMap_map]
  exact List.filterMap_eq_nil_iff.mpr fun x _ ↦ h x

section Datagrams

omit [WorkerInner t I] [DecidableEq t.Owner] [DecidableEq t.ChannelId]

variable (l : List Datagram)

@[simp] theorem workerMoment_received :
    (l.map (received (t := t) (I := I) (n := n) (q := q))).filterMap workerMoment = [] :=
  filterMap_map_eq_nil (fun _ ↦ rfl) l

@[simp] theorem backendMoment_received :
    (l.map (received (t := t) (I := I) (n := n) (q := q))).filterMap backendMoment = [] :=
  filterMap_map_eq_nil (fun _ ↦ rfl) l

@[simp] theorem sentDatagram_received :
    (l.map (received (t := t) (I := I) (n := n) (q := q))).filterMap sentDatagram = [] :=
  filterMap_map_eq_nil (fun _ ↦ rfl) l

@[simp] theorem workerMoment_sent :
    (l.map (sent (t := t) (I := I) (n := n) (q := q))).filterMap workerMoment = [] :=
  filterMap_map_eq_nil (fun _ ↦ rfl) l

@[simp] theorem backendMoment_sent :
    (l.map (sent (t := t) (I := I) (n := n) (q := q))).filterMap backendMoment = [] :=
  filterMap_map_eq_nil (fun _ ↦ rfl) l

@[simp] theorem sentDatagram_sent :
    (l.map (sent (t := t) (I := I) (n := n) (q := q))).filterMap sentDatagram = l := by
  rw [List.filterMap_map]
  exact List.filterMap_some

@[simp] theorem receivedDatagram_sent :
    (l.map (sent (t := t) (I := I) (n := n) (q := q))).filterMap receivedDatagram = [] :=
  filterMap_map_eq_nil (fun _ ↦ rfl) l

end Datagrams

end NodeEvent

namespace Node

/-- The datagrams that a node has read, oldest first. -/
def received (h : NodeHistory t I n q) : List Datagram :=
  h.events.filterMap NodeEvent.receivedDatagram

/-- The datagrams that it has sent. -/
def sent (h : NodeHistory t I n q) : List Datagram := h.events.filterMap NodeEvent.sentDatagram

/-- What its worker has done. -/
def ofWorker (h : NodeHistory t I n q) : WorkerHistory t I :=
  h.events.filterMap NodeEvent.workerMoment

/-- What its backend has done. -/
def ofBackend (h : NodeHistory t I n q) :
    History (PollBackend t.Owner n q) (PollLabel t.Owner) (Seen t.Owner) :=
  h.events.filterMap NodeEvent.backendMoment

/-- How the worker got its answer: from the world, or from the backend. -/
inductive Asks (x : Node t I n q) (w : NodeAnswer t) :
    Answer t → PollBackend t.Owner n q → List (NodeEvent t I n q) → Prop
  | world {a} (ha : ∀ event, a ≠ .incoming event) : Asks x w a x.backend []
  | backend {event backend} (hpop : x.backend.popIncoming w.recv = .ok (event, backend)) :
      Asks x w (.incoming event) backend
        (.backend ⟨x.backend, .popIncoming w.recv, [.popped event], backend⟩ ::
          (readFor x.backend w.recv event).toList.map .received)

omit [WorkerInner t I] [DecidableEq t.Owner] [DecidableEq t.ChannelId] in
theorem asks_of_answered {x : Node t I n q} {w : NodeAnswer t} {a : Answer t}
    {backend : PollBackend t.Owner n q} {asked : List (NodeEvent t I n q)}
    (h : x.answered w = some (a, backend, asked)) : Asks x w a backend asked := by
  unfold answered at h
  split at h
  · cases h
  · rename_i hother _
    cases h
    refine .world ?_
    rintro event rfl
    exact hother event rfl
  · split at h
    · rename_i hpop
      cases h
      exact .backend hpop
    · cases h

/-- **A step of a node** asks, is one of the worker, and performs what the worker does. -/
structure Steps (m : NodeMoment t I n q) (a : Answer t) (backend : PollBackend t.Owner n q)
    (asked : List (NodeEvent t I n q)) (acts : List (Act t))
    (performed : List (NodeEvent t I n q)) : Prop where
  /-- The worker gets its answer, -/
  asks : Asks m.pre m.label a backend asked
  /-- goes on with it, -/
  does : SansIo.worker.Fires ⟨m.pre.worker, a, acts, m.post.worker⟩
  /-- and what it does of the backend is performed. -/
  performs : performAll m.label.createUdp backend acts = .ok (m.post.backend, performed)
  /-- So it is seen. -/
  events_eq : m.events = asked ++ .worker ⟨m.pre.worker, a, acts, m.post.worker⟩ :: performed

theorem steps_of_fires {m : NodeMoment t I n q} (hm : (node t I n q).Fires m) :
    ∃ a backend asked acts performed, Steps m a backend asked acts performed := by
  obtain ⟨pre, w, events, post⟩ := m
  change pre.step w = some (post, events) at hm
  rw [step] at hm
  obtain ⟨⟨a, backend, asked⟩, hasks, hm⟩ := Option.bind_eq_some_iff.mp hm
  obtain ⟨⟨x, acts⟩, hdoes, hm⟩ := Option.bind_eq_some_iff.mp hm
  obtain ⟨⟨b, performed⟩, hperforms, hm⟩ := Option.bind_eq_some_iff.mp hm
  cases hm
  exact ⟨a, backend, asked, acts, performed,
    asks_of_answered hasks, hdoes, toOption_eq_some.mp hperforms, rfl⟩

/-- What an act asks of the backend: an action, a poll, or nothing. -/
inductive Performs (createUdp : Except IoError (UdpSocket × SocketAddr))
    (b : PollBackend t.Owner n q) :
    Act t → PollBackend t.Owner n q → List (NodeEvent t I n q) → Prop
  | action {owner action b' sent} (h : b.onAction owner createUdp action = .ok (b', sent)) :
      Performs createUdp b (.onAction owner action) b'
        (.backend ⟨b, .onAction owner createUdp action, queuedBetween b.output b'.output, b'⟩ ::
          sent.map .sent)
  | poll {d} : Performs createUdp b (.pollIncoming d) b.pollIncoming
      [.backend ⟨b, .pollIncoming, queuedBetween b.output b.pollIncoming.output, b.pollIncoming⟩]
  | nothing {a} : Performs createUdp b a b []

omit [WorkerInner t I] [DecidableEq t.Owner] [DecidableEq t.ChannelId] in
theorem performs_of_perform {createUdp : Except IoError (UdpSocket × SocketAddr)}
    {b b' : PollBackend t.Owner n q} {a : Act t} {events : List (NodeEvent t I n q)}
    (h : perform createUdp b a = .ok (b', events)) : Performs createUdp b a b' events := by
  unfold perform at h
  split at h
  · split at h
    · rename_i honAction
      cases h
      exact .action honAction
    · cases h
  · cases h
    exact .poll
  · cases h
    exact .nothing

omit [WorkerInner t I] [DecidableEq t.Owner] [DecidableEq t.ChannelId] in
/-- Performing an act is a step of the backend, or none; and it is no more than that. -/
theorem Performs.run {createUdp : Except IoError (UdpSocket × SocketAddr)}
    {b b' : PollBackend t.Owner n q} {a : Act t} {events : List (NodeEvent t I n q)}
    (h : Performs createUdp b a b' events) :
    (PollBackend.machine t.Owner n q).Run b (events.filterMap NodeEvent.backendMoment) b' ∧
      events.filterMap NodeEvent.workerMoment = [] ∧
      events.filterMap NodeEvent.receivedDatagram = [] := by
  cases h with
  | @action owner action _ sent honAction =>
      have hstep : b.step (.onAction owner createUdp action) =
          some (b', queuedBetween b.output b'.output) := by
        rw [PollBackend.step, honAction]
      have hfires : (PollBackend.machine t.Owner n q).Fires
          ⟨b, .onAction owner createUdp action, queuedBetween b.output b'.output, b'⟩ := hstep
      refine ⟨?_, NodeEvent.workerMoment_sent sent, NodeEvent.receivedDatagram_sent sent⟩
      change Machine.Run _ b (_ :: (sent.map NodeEvent.sent).filterMap NodeEvent.backendMoment) b'
      rw [NodeEvent.backendMoment_sent]
      exact Machine.Run.nil.snoc hfires
  | poll =>
      have hfires : (PollBackend.machine t.Owner n q).Fires
          ⟨b, .pollIncoming, queuedBetween b.output b.pollIncoming.output, b.pollIncoming⟩ := rfl
      exact ⟨Machine.Run.nil.snoc hfires, rfl, rfl⟩
  | nothing => exact ⟨.nil, rfl, rfl⟩

omit [WorkerInner t I] [DecidableEq t.Owner] [DecidableEq t.ChannelId] in
/-- The same of all acts of a step. -/
theorem performAll_run {createUdp : Except IoError (UdpSocket × SocketAddr)}
    {b b' : PollBackend t.Owner n q} {acts : List (Act t)} {performed : List (NodeEvent t I n q)}
    (h : performAll createUdp b acts = .ok (b', performed)) :
    (PollBackend.machine t.Owner n q).Run b (performed.filterMap NodeEvent.backendMoment) b' ∧
      performed.filterMap NodeEvent.workerMoment = [] ∧
      performed.filterMap NodeEvent.receivedDatagram = [] := by
  induction acts generalizing b performed with
  | nil =>
      cases h
      exact ⟨.nil, rfl, rfl⟩
  | cons a acts ih =>
      obtain ⟨⟨b₁, events⟩, hact, h⟩ := bind_ok.1 h
      obtain ⟨⟨b₂, events'⟩, hacts, h⟩ := bind_ok.1 h
      cases h
      obtain ⟨hfirst, hworker, hreceived⟩ := (performs_of_perform hact).run
      obtain ⟨hrest, hworker', hreceived'⟩ := ih hacts
      simp only [List.filterMap_append, hworker, hworker', hreceived, hreceived', List.append_nil,
        and_self, and_true]
      exact hfirst.append hrest

omit [WorkerInner t I] [DecidableEq t.Owner] [DecidableEq t.ChannelId] in
/-- An action that is popped is performed. -/
theorem performAll_action {createUdp : Except IoError (UdpSocket × SocketAddr)}
    {b b' : PollBackend t.Owner n q} {out : Option (WorkerInnerOutput t)} {owner : t.Owner}
    {action : BackendOutgoing} {performed : List (NodeEvent t I n q)}
    (h : performAll createUdp b [.popOutput out, .onAction owner action] = .ok (b', performed)) :
    ∃ sent, b.onAction owner createUdp action = .ok (b', sent) ∧
      performed = .backend ⟨b, .onAction owner createUdp action,
        queuedBetween b.output b'.output, b'⟩ :: sent.map .sent := by
  obtain ⟨⟨b₁, events⟩, hpopped, h⟩ := bind_ok.1 h
  cases hpopped
  obtain ⟨⟨b₁, events⟩, hrest, h⟩ := bind_ok.1 h
  cases h
  obtain ⟨⟨b₂, events'⟩, hact, h⟩ := bind_ok.1 hrest
  obtain ⟨⟨b₃, events''⟩, hnil, h⟩ := bind_ok.1 h
  cases hnil
  cases h
  unfold perform at hact
  dsimp only at hact
  split at hact
  · rename_i sent honAction
    cases hact
    exact ⟨sent, honAction, by rw [List.nil_append, List.append_nil]⟩
  · cases hact

omit [WorkerInner t I] [DecidableEq t.Owner] [DecidableEq t.ChannelId] in
/-- What it sends is what the backend sends. -/
theorem performAll_popped {createUdp : Except IoError (UdpSocket × SocketAddr)}
    {b b' : PollBackend t.Owner n q} {out : Option (WorkerInnerOutput t)} {owner : t.Owner}
    {action : BackendOutgoing} {performed : List (NodeEvent t I n q)}
    (h : performAll createUdp b [.popOutput out, .onAction owner action] = .ok (b', performed)) :
    b.onAction owner createUdp action =
      .ok (b', performed.filterMap NodeEvent.sentDatagram) := by
  obtain ⟨sent, honAction, rfl⟩ := performAll_action h
  rw [honAction]
  change _ = Except.ok (_, (sent.map NodeEvent.sent).filterMap NodeEvent.sentDatagram)
  rw [NodeEvent.sentDatagram_sent]

omit [WorkerInner t I] [DecidableEq t.Owner] [DecidableEq t.ChannelId] in
/-- Getting an answer is a step of the backend, or none; and nothing is sent in it. -/
theorem Asks.run {x : Node t I n q} {w : NodeAnswer t} {a : Answer t}
    {backend : PollBackend t.Owner n q} {asked : List (NodeEvent t I n q)}
    (h : Asks x w a backend asked) :
    (PollBackend.machine t.Owner n q).Run x.backend (asked.filterMap NodeEvent.backendMoment)
        backend ∧
      asked.filterMap NodeEvent.workerMoment = [] ∧
      asked.filterMap NodeEvent.sentDatagram = [] := by
  cases h with
  | world => exact ⟨.nil, rfl, rfl⟩
  | @backend event _ hpop =>
      have hstep : x.backend.step (.popIncoming w.recv) = some (backend, [.popped event]) := by
        rw [PollBackend.step, hpop]
      have hfires : (PollBackend.machine t.Owner n q).Fires
          ⟨x.backend, .popIncoming w.recv, [.popped event], backend⟩ := hstep
      refine ⟨?_, NodeEvent.workerMoment_received _, NodeEvent.sentDatagram_received _⟩
      change Machine.Run _ x.backend
        (_ :: (List.map NodeEvent.received _).filterMap NodeEvent.backendMoment) backend
      rw [NodeEvent.backendMoment_received]
      exact Machine.Run.nil.snoc hfires

/-- **A run of a node is a run of its worker and one of its backend.** -/
theorem components_of_run {x₀ x : Node t I n q} {h : NodeHistory t I n q}
    (hr : (node t I n q).Run x₀ h x) :
    SansIo.worker.Run x₀.worker (ofWorker h) x.worker ∧
      (PollBackend.machine t.Owner n q).Run x₀.backend (ofBackend h) x.backend := by
  induction hr with
  | nil => exact ⟨.nil, .nil⟩
  | @snoc h m hr hm ih =>
      obtain ⟨hworker, hbackend⟩ := ih
      obtain ⟨a, backend, asked, acts, performed, hsteps⟩ := steps_of_fires hm
      obtain ⟨hasked, hnone, -⟩ := hsteps.asks.run
      obtain ⟨hperformed, hnone', -⟩ := performAll_run hsteps.performs
      have hofWorker : ofWorker (h ++ [m]) =
          ofWorker h ++ [⟨m.pre.worker, a, acts, m.post.worker⟩] := by
        simp [ofWorker, hsteps.events_eq, hnone, hnone', NodeEvent.workerMoment]
      have hofBackend : ofBackend (h ++ [m]) =
          ofBackend h ++ (asked.filterMap NodeEvent.backendMoment ++
            performed.filterMap NodeEvent.backendMoment) := by
        simp [ofBackend, hsteps.events_eq, List.filterMap_cons, NodeEvent.backendMoment]
      rw [hofWorker, hofBackend]
      exact ⟨hworker.snoc hsteps.does, hbackend.append (hasked.append hperformed)⟩

end Node

end SansIo
