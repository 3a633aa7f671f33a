import SansIo.Backend.Interchange
import SansIo.Lib.Refine

/-!
# The network behind a backend

What the owners in an inner value know of the network is what they ask of it and what they
are told; what their peers know is the datagrams.  A `Network` is no more than that: ports,
and answers that wait to be told.  It promises that an owner is told of its slot before it is
told of any packet, and of none after the slot has been unlistened (`knowsSlot_of_network`).

A `NetworkTable` is a backend that does to its ports what the actions say and reads them once
nothing else is queued, and so refines the network (`NetworkTable.refines`).  Both backends
are one.
-/

namespace SansIo

open Lib Collections Places Backend

/-- What is seen of a network. -/
inductive NetworkEvent (Owner : Type) where
  /-- An owner asks for something. -/
  | asked (owner : Owner) (action : BackendOutgoing)
  /-- A datagram leaves. -/
  | sent (datagram : Datagram)
  /-- An owner is told what came of its `UdpListen`. -/
  | answered (result : ListenResult Owner)
  /-- A datagram arrives. -/
  | arrived (datagram : Datagram)
  /-- An owner is told of a packet. -/
  | told (owner : Owner) (slot : Nat) (sender : SocketAddr) (data : List UInt8)

/-- What may happen in a network. -/
inductive NetworkLabel (Owner : Type) where
  /-- An owner asks for something. -/
  | act (action : Action Owner)
  /-- The oldest answer is told. -/
  | answer
  /-- A datagram arrives at a slot. -/
  | arrive (slot : Nat) (sender : SocketAddr) (datagram : List UInt8)

/-- A network, as its owners know it. -/
structure Network (Owner : Type) where
  /-- The ports, by their slots. -/
  ports : Ports Owner
  /-- The answers that have not been told, oldest first. -/
  pending : List (ListenResult Owner)

namespace Network

variable {Owner : Type}

/-- A network without ports. -/
def empty : Network Owner := ⟨[], []⟩

/-- One step, where the first port has the slot `first`.  No datagram is read before all
answers have been told. -/
def step (first : Nat) (net : Network Owner) :
    NetworkLabel Owner → Option (Network Owner × List (NetworkEvent Owner))
  | .act (owner, opening, action) =>
    let (ports, told, sent) := net.ports.onAction first owner opening action
    some (⟨ports, net.pending ++ told⟩, .asked owner action :: sent.map .sent)
  | .answer => match net.pending with
    | [] => none
    | result :: pending => some ({ net with pending }, [.answered result])
  | .arrive slot sender datagram => match net.pending, net.ports.portAt first slot with
    | [], some (socket, _, owner) => some (net, [.arrived (socket, sender, datagram),
        .told owner slot sender (datagram.take 1500)])
    | _, _ => none

end Network

/-- The network, whatever happens in it. -/
def network (first : Nat) (Owner : Type) :
    Machine (Network Owner) (NetworkLabel Owner) (NetworkEvent Owner) := ⟨Network.step first⟩

/-! ## What a network promises -/

section Promises

variable {Owner : Type} {first : Nat}

/-- An owner has been told that a slot is its, and nobody has unlistened it since. -/
def Announced (owner : Owner) (slot : Nat) (before : List (NetworkEvent Owner)) : Prop :=
  Since (fun e ↦ ∀ o, e ≠ .asked o (.udpUnlisten slot))
    (fun e ↦ ∃ bind addr, e = .answered (owner, bind, .ok (addr, slot))) before

/-- Who is told of a packet knows its slot. -/
def KnowsSlot (before : List (NetworkEvent Owner)) (e : NetworkEvent Owner) : Prop :=
  ∀ owner slot sender data, e = .told owner slot sender data → Announced owner slot before

/-- The owner of a port has been told of it, or will be. -/
def Network.Answers (first : Nat) (net : Network Owner) (before : List (NetworkEvent Owner)) :
    Prop :=
  ∀ slot l, net.ports.portAt first slot = some l →
    (∃ bind, (l.2.2, bind, .ok (l.2.1, slot)) ∈ net.pending) ∨ Announced l.2.2 slot before

theorem Backend.Ports.portAt_eq_some {ports : Ports Owner} {slot : Nat} {l : Listening Owner} :
    ports.portAt first slot = some l ↔ first ≤ slot ∧ (ports[slot - first]?).join = some l := by
  rw [Ports.portAt]
  split
  · rename_i hle
    exact (and_iff_right hle).symm
  · rename_i hlt
    exact iff_of_false (Option.some_ne_none l).symm fun h ↦ hlt h.1

/-- A port is there after an action because the action has made it, and is answered so, or
because it was there. -/
theorem Backend.Ports.portAt_onAction {ports : Ports Owner} {asker : Owner} {opening : Opening}
    {action : BackendOutgoing} {slot : Nat} {l : Listening Owner}
    (h : Ports.portAt first (ports.onAction first asker opening action).1 slot = some l) :
    (∃ bind, (l.2.2, bind, .ok (l.2.1, slot)) ∈
        (ports.onAction first asker opening action).2.1) ∨
      ports.portAt first slot = some l := by
  cases action with
  | udpListen bind reuse =>
      cases opening with
      | refused e => exact .inr h
      | unregistered socket' addr' e => exact .inr (Ports.portAt_reserve.symm.trans h)
      | opened socket' addr' =>
          rw [Ports.onAction, Ports.portAt_place] at h
          split at h
          · rename_i hslot
            cases h
            exact .inl ⟨bind, by rw [hslot]; exact List.mem_singleton_self _⟩
          · exact .inr h
  | udpUnlisten slot' =>
      rw [Ports.onAction, Ports.portAt_vacate] at h
      split at h
      · cases h
      · exact .inr h
  | udpPacket slot' dest data => exact .inr h
  | udpPackets slot' dests data => exact .inr h
  | udpPackets2 dests data => exact .inr h

/-- It is not there after it has been unlistened. -/
theorem Backend.Ports.portAt_unlisten (ports : Ports Owner) (asker : Owner) (opening : Opening)
    (slot : Nat) :
    Ports.portAt first (ports.onAction first asker opening (.udpUnlisten slot)).1 slot =
      none := by
  rw [Ports.onAction, Ports.portAt_vacate, if_pos rfl]

variable {net net' : Network Owner} {before events : List (NetworkEvent Owner)}

/-- Who asks for something is told nothing, and unlistens no slot that is still there. -/
theorem answers_act {action : Action Owner}
    (hstep : net.step first (.act action) = some (net', events))
    (hanswers : net.Answers first before) (hknows : Along KnowsSlot before) :
    net'.Answers first (before ++ events) ∧ Along KnowsSlot (before ++ events) := by
  obtain ⟨asker, opening, action⟩ := action
  cases hstep
  constructor
  · intro slot l hport
    rcases Ports.portAt_onAction hport with ⟨bind, htold⟩ | hbefore
    · exact .inl ⟨bind, List.mem_append_right _ htold⟩
    · rcases hanswers slot l hbefore with ⟨bind, hpending⟩ | htold
      · exact .inl ⟨bind, List.mem_append_left _ hpending⟩
      · refine .inr (htold.append fun e he o hask ↦ ?_)
        subst hask
        rcases List.mem_cons.mp he with he | he
        · cases he
          cases hport.symm.trans (Ports.portAt_unlisten net.ports asker opening slot)
        · obtain ⟨d, -, hd⟩ := List.mem_map.mp he
          cases hd
  · refine hknows.append fun e he before' owner slot sender data htold ↦ ?_
    subst htold
    rcases List.mem_cons.mp he with he | he
    · cases he
    · obtain ⟨d, -, hd⟩ := List.mem_map.mp he
      cases hd

/-- An answer that is told announces a slot. -/
theorem answers_answer (hstep : net.step first .answer = some (net', events))
    (hanswers : net.Answers first before) (hknows : Along KnowsSlot before) :
    net'.Answers first (before ++ events) ∧ Along KnowsSlot (before ++ events) := by
  rw [Network.step] at hstep
  split at hstep
  · cases hstep
  · rename_i result pending hpending
    cases hstep
    constructor
    · intro slot l hport
      rcases hanswers slot l hport with ⟨bind, hmem⟩ | htold
      · rw [hpending] at hmem
        rcases List.mem_cons.mp hmem with rfl | hmem
        · exact .inr (since_snoc.mpr (.inl ⟨bind, l.2.1, rfl⟩))
        · exact .inl ⟨bind, hmem⟩
      · exact .inr (since_snoc.mpr (.inr ⟨nofun, htold⟩))
    · exact along_snoc.mpr ⟨hknows, nofun⟩

/-- Where a datagram arrives, all slots have been announced. -/
theorem answers_arrive {slot : Nat} {sender : SocketAddr} {datagram : List UInt8}
    (hstep : net.step first (.arrive slot sender datagram) = some (net', events))
    (hanswers : net.Answers first before) (hknows : Along KnowsSlot before) :
    net'.Answers first (before ++ events) ∧ Along KnowsSlot (before ++ events) := by
  rw [Network.step] at hstep
  split at hstep
  · rename_i socket addr owner hpending hport
    cases hstep
    have hthere {slot : Nat} {l : Listening Owner}
        (hport : net.ports.portAt first slot = some l) : Announced l.2.2 slot before := by
      rcases hanswers slot l hport with ⟨bind, hmem⟩ | htold
      · rw [hpending] at hmem
        cases hmem
      · exact htold
    constructor
    · intro slot' l hport'
      refine .inr ((hthere hport').append ?_)
      rintro e he o rfl
      simp at he
    · rw [List.append_cons, along_snoc, along_snoc]
      refine ⟨⟨hknows, nofun⟩, ?_⟩
      rintro _ _ _ _ ⟨⟩
      exact since_snoc.mpr (.inr ⟨nofun, hthere hport⟩)
  · cases hstep

/-- **An owner is told of its slot first**, and of no packet after it has been unlistened. -/
theorem knowsSlot_of_network {h : History (Network Owner) (NetworkLabel Owner)
      (NetworkEvent Owner)} (hr : (network first Owner).Run .empty h net) :
    Along KnowsSlot h.events := by
  suffices hboth : net.Answers first h.events ∧ Along KnowsSlot h.events from hboth.2
  induction hr with
  | nil =>
      refine ⟨fun slot l hport ↦ ?_, along_nil⟩
      cases (Ports.portAt_eq_some.mp hport).2
  | @snoc h m hr hm ih =>
      obtain ⟨hanswers, hknows⟩ := ih
      have hstep : m.pre.step first m.label = some (m.post, m.events) := hm
      rw [History.events_append, History.events_singleton]
      cases hlabel : m.label with
      | act action => exact answers_act (hlabel ▸ hstep) hanswers hknows
      | answer => exact answers_answer (hlabel ▸ hstep) hanswers hknows
      | arrive slot sender datagram => exact answers_arrive (hlabel ▸ hstep) hanswers hknows

end Promises

namespace Backend

variable {Owner : Type} {n q : Nat}

/-! ## Backends -/

/-- What is seen of the network in what is seen of a backend.  `read` is what the socket in a
slot has given. -/
def Seen.ofNetwork (read : Nat → Option Datagram) : Seen Owner → List (NetworkEvent Owner)
  | .popped (some (.event owner (.udpListenResult bind result))) =>
    [.answered (owner, bind, result)]
  | .popped (some (.event owner (.udpPacket slot sender data))) =>
    (read slot).toList.map .arrived ++ [.told owner slot sender data.deref]
  | _ => []

/-- Nothing is seen in what is only queued. -/
theorem ofNetwork_queued (read : Nat → Option Datagram)
    (queue : List (BackendIncomingInternal Owner)) :
    (queue.map Seen.queued).flatMap (Seen.ofNetwork read) = [] := by
  rw [List.flatMap_map]
  exact List.flatMap_eq_nil_iff.mpr fun _ _ ↦ rfl

/-- A backend that does to its ports what the actions say, and reads them where it has told
all answers. -/
structure NetworkTable (σ lab Owner : Type) extends PortTable σ lab Owner where
  /-- What it keeps besides. -/
  keeps : σ → Prop
  /-- What the socket in a slot gives in a step. -/
  read : Moment σ lab (Seen Owner) → Nat → Option Datagram
  keeps_start : keeps start
  keeps_step : ∀ m, machine.Fires m → keeps m.pre → keeps m.post
  /-- What is no action pops something, or only queues. -/
  pops : ∀ m, machine.Fires m → action m.label = none →
    (∃ out, m.events = [.popped out]) ∨
      ∃ queue : List (BackendIncomingInternal Owner), m.events = queue.map .queued
  /-- A packet is read from the socket of a port, where no answers are queued. -/
  packet : ∀ m, machine.Fires m → action m.label = none → keeps m.pre →
    ∀ ports, has m.pre ports → ∀ owner slot sender data,
      m.events = [.popped (some (.event owner (.udpPacket slot sender data)))] →
      listenResults (queue m.pre) = [] ∧ ∃ socket addr datagram,
        ports.portAt first slot = some (socket, addr, owner) ∧
        read m slot = some (socket, sender, datagram) ∧ data.deref = datagram.take 1500

namespace NetworkTable

variable {σ lab : Type} (B : NetworkTable σ lab Owner)

/-- What is seen of the network in a step. -/
def seen (m : Moment σ lab (Seen Owner)) : List (NetworkEvent Owner) :=
  match B.action m.label with
  | some (owner, _, action) => .asked owner action :: (B.sends m.pre m.label).map .sent
  | none => m.events.flatMap (Seen.ofNetwork (B.read m))

/-- A backend has a network. -/
structure Carries (s : σ) (net : Network Owner) : Prop where
  /-- It keeps what it has to, -/
  keeps : B.keeps s
  /-- has the ports, -/
  has : B.has s net.ports
  /-- and queues the answers. -/
  pending : listenResults (B.queue s) = net.pending

theorem carries_start : B.Carries B.start .empty :=
  ⟨B.keeps_start, B.has_start, congrArg listenResults B.queue_start⟩

variable {B} {m : Moment σ lab (Seen Owner)} {net : Network Owner}

/-- An action is one of the network. -/
theorem Carries.acts (h : B.Carries m.pre net) (hm : B.machine.Fires m) {owner : Owner}
    {opening : Opening} {action : BackendOutgoing}
    (haction : B.action m.label = some (owner, opening, action)) :
    ∃ net', (network B.first Owner).step net (.act (owner, opening, action)) =
      some (net', B.seen m) ∧ B.Carries m.post net' := by
  obtain ⟨hhas, hqueue, hsends, -⟩ := B.acts m hm _ h.has _ _ _ haction
  rw [h.pending] at hqueue
  refine ⟨⟨_, _⟩, ?_, B.keeps_step m hm h.keeps, hhas, hqueue⟩
  simp only [seen, haction, hsends]
  rfl

/-- A step that tells no answer and no packet is none of the network. -/
theorem Carries.stays (h : B.Carries m.pre net) (hm : B.machine.Fires m)
    (haction : B.action m.label = none) (hnone : m.events.filterMap Seen.listenResult = []) :
    B.Carries m.post net := by
  obtain ⟨hhas, hqueue, -⟩ := B.stays m hm _ h.has haction
  rw [hnone, List.nil_append] at hqueue
  exact ⟨B.keeps_step m hm h.keeps, hhas, hqueue.symm.trans h.pending⟩

/-- An answer is told in its turn. -/
theorem Carries.answers (h : B.Carries m.pre net) (hm : B.machine.Fires m)
    (haction : B.action m.label = none) {owner : Owner} {bind : SocketAddr}
    {result : Except IoError (SocketAddr × Nat)}
    (hevents : m.events = [.popped (some (.event owner (.udpListenResult bind result)))]) :
    ∃ net', (network B.first Owner).step net .answer = some (net', B.seen m) ∧
      B.Carries m.post net' := by
  obtain ⟨hhas, hqueue, -⟩ := B.stays m hm _ h.has haction
  rw [h.pending, hevents] at hqueue
  refine ⟨⟨net.ports, listenResults (B.queue m.post)⟩, ?_, B.keeps_step m hm h.keeps, hhas, rfl⟩
  change net.step B.first .answer = _
  rw [Network.step, hqueue]
  simp only [seen, haction, hevents]
  rfl

/-- A packet has arrived at its port, and all answers have been told. -/
theorem Carries.arrives (h : B.Carries m.pre net) (hm : B.machine.Fires m)
    (haction : B.action m.label = none) {owner : Owner} {slot : Nat} {sender : SocketAddr}
    {data : Buffer}
    (hevents : m.events = [.popped (some (.event owner (.udpPacket slot sender data)))]) :
    ∃ datagram, (network B.first Owner).step net (.arrive slot sender datagram) =
      some (net, B.seen m) ∧ B.Carries m.post net := by
  obtain ⟨hnone, socket, addr, datagram, hport, hread, hdata⟩ :=
    B.packet m hm haction h.keeps _ h.has _ _ _ _ hevents
  rw [h.pending] at hnone
  refine ⟨datagram, ?_, h.stays hm haction (by rw [hevents]; rfl)⟩
  change net.step B.first (.arrive slot sender datagram) = _
  rw [Network.step, hnone, hport]
  simp only [seen, haction, hevents, List.flatMap_singleton, Seen.ofNetwork, hread, hdata]
  rfl

variable (B)

/-- **A backend refines the network.** -/
theorem refines : B.machine.Refines (network B.first Owner) B.Carries B.seen := by
  intro m hm net h
  cases haction : B.action m.label with
  | some a =>
      obtain ⟨owner, opening, action⟩ := a
      obtain ⟨net', hstep, hpost⟩ := h.acts hm haction
      exact Machine.moves hstep hpost
  | none =>
      have hseen : B.seen m = m.events.flatMap (Seen.ofNetwork (B.read m)) := by
        rw [seen, haction]
      rcases B.pops m hm haction with ⟨out, hevents⟩ | ⟨queue, hevents⟩
      · rcases out with _ | ⟨owner, ⟨bind, result⟩ | ⟨slot, sender, data⟩⟩ | _
        · refine Machine.stays (h.stays hm haction ?_) (by rw [hseen, hevents]; rfl)
          rw [hevents]
          rfl
        · obtain ⟨net', hstep, hpost⟩ := h.answers hm haction hevents
          exact Machine.moves hstep hpost
        · obtain ⟨datagram, hstep, hpost⟩ := h.arrives hm haction hevents
          exact Machine.moves hstep hpost
        · refine Machine.stays (h.stays hm haction ?_) (by rw [hseen, hevents]; rfl)
          rw [hevents]
          rfl
      · refine Machine.stays (h.stays hm haction ?_) ?_
        · rw [hevents]
          exact listenResult_queued queue
        · rw [hseen, hevents]
          exact ofNetwork_queued _ queue

variable {B} {h : History σ lab (Seen Owner)} {s : σ}

/-- **A run of a backend is one of the network**, and the same is seen of both. -/
theorem network_run (hr : B.machine.Run B.start h s) :
    ∃ g net, (network B.first Owner).Run .empty g net ∧ B.Carries s net ∧
      g.events = h.flatMap B.seen := B.refines.run B.carries_start hr

theorem knowsSlot_run (hr : B.machine.Run B.start h s) : Along KnowsSlot (h.flatMap B.seen) :=
  B.refines.safe B.carries_start (fun _ _ hrun ↦ knowsSlot_of_network hrun) hr

end NetworkTable

/-! ## Both -/

namespace PollBackend

/-- What the socket in a slot gives in a step. -/
def readIn (m : Moment (PollBackend Owner n q) (PollLabel Owner) (Seen Owner)) (slot : Nat) :
    Option Datagram :=
  match m.label with
  | .popIncoming recv => m.pre.givesAt recv slot
  | _ => none

/-- A packet is read where nothing is queued. -/
theorem queue_of_packet (hq : 0 < q) {b b' : PollBackend Owner n q} (hclean : b.Clean)
    {recv : Nat → UdpSocket → Option (SocketAddr × List UInt8)} {owner : Owner} {slot : Nat}
    {sender : SocketAddr} {data : Buffer}
    (h : b.popIncoming recv = .ok (some (.event owner (.udpPacket slot sender data)), b')) :
    b.output.toList = [] := by
  obtain ⟨hfront, -⟩ := DynamicDeque.popFront_spec hq b.output
  cases hlist : b.output.toList with
  | nil => rfl
  | cons x rest =>
      rw [hlist] at hfront
      rw [popIncoming,
        show b.output.popFront = (some x, b.output.popFront.2) from Prod.ext hfront rfl] at h
      cases h
      have hmem := List.mem_cons_self (a := BackendIncomingInternal.event owner
        (.udpPacket slot sender data)) (l := rest)
      exact absurd (hlist ▸ hmem) (hclean.noPackets owner slot sender data)

/-- `PollBackend` has a network. -/
def networkTable (Owner : Type) (n : Nat) {q : Nat} (hq : 0 < q) :
    NetworkTable (PollBackend Owner n q) (PollLabel Owner) Owner where
  toPortTable := portTable Owner n q
  keeps := Clean
  read := readIn
  keeps_start := ⟨fun _ _ _ _ h ↦ absurd h List.not_mem_nil, rfl⟩
  keeps_step := clean_step
  pops := by
    intro m hm haction
    obtain ⟨pre, label, events, post⟩ := m
    cases label with
    | onAction owner createUdp action => cases haction
    | pollIncoming =>
        obtain ⟨out, -, -, rfl, -⟩ := step_pollIncoming hm
        exact .inr ⟨out, rfl⟩
    | popIncoming recv =>
        obtain ⟨out, -, rfl⟩ := step_popIncoming hm
        exact .inl ⟨out, rfl⟩
  packet := by
    intro m hm haction hclean ports hports owner slot sender data hevents
    obtain ⟨pre, label, events, post⟩ := m
    cases label with
    | onAction owner createUdp action => cases haction
    | pollIncoming =>
        obtain ⟨out, -, -, rfl, -⟩ := step_pollIncoming hm
        cases out <;> cases hevents
    | popIncoming recv =>
        obtain ⟨out, hpop, rfl⟩ := step_popIncoming hm
        cases hevents
        obtain ⟨-, -, hfrom⟩ := popIncoming_does hclean.buf hclean.noPackets hpop
        obtain ⟨socket, addr, datagram, hheld, hrecv, rfl⟩ := hfrom _ _ _ _ rfl
        have hport : ports.portAt 0 slot = some (socket, addr, owner) := by
          have hudp := (Holds.held hports (Nat.zero_le slot)).symm.trans hheld
          obtain ⟨l, hl, hsame⟩ := Option.map_eq_some_iff.mp hudp
          cases hsame
          exact hl
        refine ⟨congrArg listenResults (queue_of_packet hq hclean hpop), socket, addr, datagram,
          hport, ?_, deref_received datagram⟩
        have hsocket : pre.socketAt slot = some socket := by
          rw [socketAt_eq hports, hport]
          rfl
        simp only [readIn, givesAt, hsocket, Option.bind_some, hrecv, Option.map_some]

end PollBackend

namespace PollingBackend

/-- What the socket in a slot gives in a step, for the token that the step has come to. -/
def readIn (m : Moment (PollingBackend Owner n q) (PollingLabel Owner) (Seen Owner))
    (slot : Nat) : Option Datagram :=
  match m.label with
  | .popIncoming os => (m.pre.socketAt slot).bind fun socket ↦
    (os socket m.post.eventBuffer2.length).map (socket, ·)
  | _ => none

/-- A packet is read for the token that the loop has come to. -/
theorem Popping.packet {os : UdpSocket → Nat → Recv} {b t b' : PollingBackend Owner n q}
    (ht : Popping b t) {owner : Owner} {slot : Nat} {sender : SocketAddr} {data : Buffer}
    (h : t.turn (b.recvOf os) =
      .inr (.ok (some (.event owner (.udpPacket slot sender data)), b'))) :
    ∃ socket addr datagram, Slots.held b.sockets slot = some (udp (socket, addr, owner)) ∧
      os socket b'.eventBuffer2.length = some (sender, datagram) ∧ data = received datagram := by
  cases hlist : t.eventBuffer2.toList with
  | nil =>
      simp only [PollingBackend.turn, hlist] at h
      cases h
  | cons token tokens =>
      rw [turn_eq hlist] at h
      split at h
      · rename_i out hready
        cases h
        have hbehind : t.eventBuffer2.popFront.2.length = tokens.length := by
          rw [← Bounded.length_toList, Bounded.toList_popFront, hlist, List.tail_cons]
        rw [readiness] at hready
        split at hready
        · rename_i socket addr owner' hget
          split at hready
          · rename_i sender' datagram hrecv
            cases hready
            rw [ht.sockets] at hget
            have hsocket : b.socketAt slot = some socket := by rw [socketAt, hget]
            simp only [recvOf, ht.front hlist, hsocket] at hrecv
            exact ⟨socket, addr, datagram, Slots.held_eq_some.2 hget, hbehind ▸ hrecv, rfl⟩
          · cases hready
        · cases hready
        · cases hready
        · cases hready
      · cases h
      · cases h

/-- And where nothing is queued. -/
theorem packet_of_popIncoming (hq : 0 < q) {os : UdpSocket → Nat → Recv}
    {b b' : PollingBackend Owner n q} (hno : NoPackets b.output.toList) {owner : Owner}
    {slot : Nat} {sender : SocketAddr} {data : Buffer}
    (h : b.popIncoming (b.recvOf os) =
      .ok (some (.event owner (.udpPacket slot sender data)), b')) :
    b.output.toList = [] ∧ ∃ socket addr datagram,
      Slots.held b.sockets slot = some (udp (socket, addr, owner)) ∧
      os socket b'.eventBuffer2.length = some (sender, datagram) ∧ data = received datagram := by
  obtain ⟨hfront, -⟩ := DynamicDeque.popFront_spec hq b.output
  rw [popIncoming, popCachedEvent] at h
  cases hlist : b.output.toList with
  | nil =>
      rw [hlist] at hfront
      rw [show b.output.popFront = (none, b.output.popFront.2) from Prod.ext hfront rfl] at h
      have hreturns : Loop.Returns (turn (b.recvOf os)) { b with output := b.output.popFront.2 }
          (.ok (some (.event owner (.udpPacket slot sender data)), b')) := by
        rw [← h]
        exact Loop.returns_run _
      obtain ⟨t, hvisits, hturn⟩ := hreturns.exit
      have ht : Popping { b with output := b.output.popFront.2 } t :=
        hvisits.invariant (fun _ _ ht hb ↦ ht.turn hb) ⟨rfl, rfl, List.suffix_refl _⟩
      exact ⟨rfl, ht.packet hturn⟩
  | cons x rest =>
      rw [hlist] at hfront
      rw [show b.output.popFront = (some x, b.output.popFront.2) from Prod.ext hfront rfl] at h
      cases h
      rw [hlist] at hno
      exact absurd List.mem_cons_self (hno owner slot sender data)

/-- `PollingBackend` has a network. -/
def networkTable (Owner : Type) (n : Nat) {q : Nat} (hq : 0 < q) :
    NetworkTable (PollingBackend Owner n q) (PollingLabel Owner) Owner where
  toPortTable := portTable Owner n q
  keeps b := NoPackets b.output.toList
  read := readIn
  keeps_start _ _ _ _ h := absurd h List.not_mem_nil
  keeps_step := noPackets_step
  pops := by
    intro m hm haction
    obtain ⟨pre, label, events, post⟩ := m
    cases label with
    | onAction owner opening action => cases haction
    | awake =>
        obtain ⟨-, -, rfl⟩ := step_awake hm
        exact .inr ⟨[], rfl⟩
    | pollIncoming wait =>
        obtain ⟨-, -, rfl⟩ := step_pollIncoming hm
        exact .inr ⟨[], rfl⟩
    | popIncoming os =>
        obtain ⟨out, -, rfl⟩ := step_popIncoming hm
        exact .inl ⟨out, rfl⟩
  packet := by
    intro m hm haction hno ports hports owner slot sender data hevents
    obtain ⟨pre, label, events, post⟩ := m
    cases label with
    | onAction owner opening action => cases haction
    | awake =>
        obtain ⟨-, -, rfl⟩ := step_awake hm
        cases hevents
    | pollIncoming wait =>
        obtain ⟨-, -, rfl⟩ := step_pollIncoming hm
        cases hevents
    | popIncoming os =>
        obtain ⟨out, hpop, rfl⟩ := step_popIncoming hm
        cases hevents
        obtain ⟨hqueue, socket, addr, datagram, hheld, hos, rfl⟩ :=
          packet_of_popIncoming hq hno hpop
        have hport : ports.portAt 1 slot = some (socket, addr, owner) := by
          cases slot with
          | zero => cases (held_zero hports).symm.trans hheld
          | succ slot =>
              have hudp := (Holds.held hports (Nat.le_add_left 1 slot)).symm.trans hheld
              obtain ⟨⟨socket', addr', owner'⟩, hl, hsame⟩ := Option.map_eq_some_iff.mp hudp
              cases hsame
              exact hl
        refine ⟨congrArg listenResults hqueue, socket, addr, datagram, hport, ?_,
          deref_received datagram⟩
        have hsocket : pre.socketAt slot = some socket := by
          rw [socketAt_eq hports, hport]
          rfl
        simp only [readIn, hsocket, Option.bind_some, hos, Option.map_some]

end PollingBackend

/-- What owners see of a run is seen of a run of the network, so that they know their slots. -/
def NetworkTable.Follows {σ lab : Type} (B : NetworkTable σ lab Owner)
    (h : History σ lab (Seen Owner)) (s : σ) : Prop :=
  (∃ g net, (network B.first Owner).Run .empty g net ∧ B.Carries s net ∧
    g.events = h.flatMap B.seen) ∧ Along KnowsSlot (h.flatMap B.seen)

/-- A socket is listened, a datagram read from it, and one sent through it. -/
def pollRead : History (PollBackend Unit 1 1) (PollLabel Unit) (Seen Unit) × PollBackend Unit 1 1 :=
  ((PollBackend.machine Unit 1 1).exec .default
    [.onAction () (.ok (7, anyPort)) (.udpListen anyPort false), .popIncoming fun _ _ ↦ none,
      .pollIncoming, .popIncoming fun _ _ ↦ none, .popIncoming fun _ _ ↦ some (anyPort, [1]),
      .onAction () (.ok (7, anyPort)) (.udpPacket 0 anyPort (.filled 0 0 [2]))]).get
    (by decide +kernel)

/-- The same with the other backend. -/
def pollingRead :
    History (PollingBackend Unit 1 1) (PollingLabel Unit) (Seen Unit) × PollingBackend Unit 1 1 :=
  ((PollingBackend.machine Unit 1 1).exec .default
    [.onAction () (.opened 7 anyPort) (.udpListen anyPort false), .popIncoming fun _ _ ↦ none,
      .awake, .pollIncoming (.ok [1]), .popIncoming fun _ _ ↦ none,
      .popIncoming fun _ _ ↦ some (anyPort, [1]),
      .onAction () (.refused "") (.udpPacket 1 anyPort (.filled 0 0 [2]))]).get
    (by decide +kernel)

theorem pollRead_run : (PollBackend.machine Unit 1 1).Run .default pollRead.1 pollRead.2 :=
  Machine.exec_run_get _

theorem pollingRead_run :
    (PollingBackend.machine Unit 1 1).Run .default pollingRead.1 pollingRead.2 :=
  Machine.exec_run_get _

end Backend

end SansIo
