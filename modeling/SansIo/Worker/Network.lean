import SansIo.Backend.Network
import SansIo.Worker.Node

/-!
# The network of a node

A worker passes on what its inner value asks and what its backend tells, and nothing else
(`seen_step`).  So a node has the network of its backend, whatever its inner value does
(`network_of_run`), and keeps what that promises (`knowsSlot_of_run`).
-/

namespace SansIo

open Lib Collections Bus Backend

variable {t : WorkerTypes} {I : Type} {n q : Nat}

/-- What is seen of the network in what a worker does. -/
def Act.ofNetwork : Act t → Option (NetworkEvent t.Owner)
  | .popOutput (some (.net owner action)) => some (.asked owner action)
  | .input (.onEvent (.net owner (.udpListenResult bind result))) =>
    some (.answered (owner, bind, result))
  | .input (.onEvent (.net owner (.udpPacket slot sender data))) =>
    some (.told owner slot sender data.deref)
  | _ => none

/-- What is seen of it in what happens in a node. -/
def NodeEvent.ofNetwork : NodeEvent t I n q → List (NetworkEvent t.Owner)
  | .worker m => m.events.filterMap Act.ofNetwork
  | .backend _ => []
  | .received datagram => [.arrived datagram]
  | .sent datagram => [.sent datagram]

namespace Node

variable [WorkerInner t I] [DecidableEq t.Owner] [DecidableEq t.ChannelId]

omit [WorkerInner t I] [DecidableEq t.Owner] [DecidableEq t.ChannelId] in
/-- What is read is seen. -/
theorem ofNetwork_received (read : Option Datagram) :
    (read.toList.map (NodeEvent.received (t := t) (I := I) (n := n) (q := q))).flatMap
      NodeEvent.ofNetwork = read.toList.map .arrived := by
  cases read <;> rfl

omit [WorkerInner t I] [DecidableEq t.Owner] [DecidableEq t.ChannelId] in
/-- What is sent is seen. -/
theorem ofNetwork_sent (sent : List Datagram) :
    (sent.map (NodeEvent.sent (t := t) (I := I) (n := n) (q := q))).flatMap
      NodeEvent.ofNetwork = sent.map .sent := by
  rw [List.flatMap_map]
  exact List.map_eq_flatMap.symm

/-- **What is seen of a node is seen of its backend.** -/
theorem seen_step (hq : 0 < q) {m : NodeMoment t I n q} (hm : (node t I n q).Fires m) :
    m.events.flatMap NodeEvent.ofNetwork =
      (ofBackend [m]).flatMap (PollBackend.networkTable t.Owner n hq).seen := by
  obtain ⟨a, backend, asked, acts, performed, hasks, hdoes, hperforms, hevents⟩ :=
    steps_of_fires hm
  obtain ⟨⟨x, b⟩, w, events, ⟨x', b'⟩⟩ := m
  dsimp only at hasks hdoes hperforms hevents
  have hworker : WorkerDoes x a x' acts := worker_cases hdoes
  clear hm hdoes
  subst hevents
  rw [ofBackend, History.events_singleton]
  cases hasks with
  | world ha =>
      cases hworker with
      | init | cycle | statsRequest | reply | controlled | tick | notDue | receive | ignore
      | invalid | drained | delivered | spawn | ext | broadcast | deliver | shutdown | popped =>
          cases hperforms
          rfl
      | poll hp hpc =>
          cases hperforms
          exact (ofNetwork_queued _ _).symm.trans (List.append_nil _).symm
      | woken => exact absurd rfl (ha _)
      | net => exact absurd rfl (ha _)
      | polled => exact absurd rfl (ha _)
      | @pop out inner hp hout =>
          have hpassed := Worker.passedOn { x with inner } out
          generalize (Worker.processInnerOutput { x with inner } out).2 = passed
            at hpassed hperforms
          cases hpassed with
          | @net owner action =>
              obtain ⟨sent, honAction, rfl⟩ := performAll_action hperforms
              have hseen : (PollBackend.networkTable t.Owner n hq).seen
                  ⟨b, .onAction owner w.createUdp action, queuedBetween b.output b'.output, b'⟩ =
                    .asked owner action :: sent.map .sent := by
                simp only [NetworkTable.seen, PollBackend.networkTable, PollBackend.portTable,
                  honAction]
              change .asked owner action :: (sent.map NodeEvent.sent).flatMap NodeEvent.ofNetwork =
                ((_ :: (sent.map NodeEvent.sent).filterMap NodeEvent.backendMoment).flatMap _)
              rw [NodeEvent.backendMoment_sent, List.flatMap_singleton, hseen, ofNetwork_sent]
          | spawn | subscribe | unsubscribe | publish | broadcast | ext | hub | «continue» =>
              cases hperforms
              rfl
  | @backend event backend hpop =>
      cases hworker with
      | woken hp hpc =>
          cases hperforms
          rfl
      | polled hp hpc =>
          cases hperforms
          rfl
      | @net owner event hp hpc =>
          cases hperforms
          cases event with
          | udpListenResult bind result => rfl
          | udpPacket slot sender data =>
              let read := b.givesAt w.recv slot
              have hseen : (PollBackend.networkTable t.Owner n hq).seen
                  ⟨b, .popIncoming w.recv,
                    [.popped (some (.event owner (.udpPacket slot sender data)))], backend⟩ =
                    read.toList.map .arrived ++ [.told owner slot sender data.deref] :=
                List.append_nil _
              change (read.toList.map NodeEvent.received ++ _).flatMap NodeEvent.ofNetwork =
                ((_ :: (read.toList.map NodeEvent.received ++ _).filterMap
                  NodeEvent.backendMoment).flatMap _)
              rw [List.flatMap_append, ofNetwork_received, List.filterMap_append,
                NodeEvent.backendMoment_received]
              exact hseen.symm.trans (List.append_nil _).symm

/-- The same of a run. -/
theorem seen_of_run (hq : 0 < q) {x₀ x : Node t I n q} {h : NodeHistory t I n q}
    (hr : (node t I n q).Run x₀ h x) :
    h.events.flatMap NodeEvent.ofNetwork =
      (ofBackend h).flatMap (PollBackend.networkTable t.Owner n hq).seen := by
  induction hr with
  | nil => rfl
  | @snoc h m hr hm ih =>
      have hofBackend : ofBackend (h ++ [m]) = ofBackend h ++ ofBackend [m] := by
        simp [ofBackend]
      rw [hofBackend, History.events_append, History.events_singleton, List.flatMap_append,
        List.flatMap_append, ih, seen_step hq hm]

/-- **The owners of a node know their slots** when they are told of a packet. -/
theorem knowsSlot_of_run (hq : 0 < q) {w : Worker t I} {h : NodeHistory t I n q}
    {x : Node t I n q} (hr : (node t I n q).Run ⟨w, .default⟩ h x) :
    Along KnowsSlot (h.events.flatMap NodeEvent.ofNetwork) := by
  rw [seen_of_run hq hr]
  exact NetworkTable.knowsSlot_run (B := PollBackend.networkTable t.Owner n hq)
    (components_of_run hr).2

end Node

/-- Types for an inner value that is a script of what it asks for. -/
abbrev askerTypes : WorkerTypes :=
  ⟨Unit, Unit, Unit, Unit, Unit, List (Option BackendOutgoing), Unit⟩

/-- An inner value that asks for what its script says, one call after the other. -/
structure Asker where
  /-- What `pop_output` is to return. -/
  script : List (Option BackendOutgoing)

instance : WorkerInner askerTypes Asker where
  build _ script := ⟨script⟩
  tasks _ := 1
  isEmpty _ := false
  spawn i _ _ := i
  onTick i _ := i
  onEvent i _ _ := i
  onShutdown i _ := i
  popOutput i _ := (i.script.head?.join.map (.net ()), ⟨i.script.tail⟩)

namespace Asker

/-- The worker is answered. -/
def answers (a : Answer askerTypes) : NodeAnswer askerTypes :=
  ⟨some a, fun _ _ ↦ none, .ok (7, anyPort)⟩

/-- The worker asks its backend. -/
def asks (datagram : Option (List UInt8)) : NodeAnswer askerTypes :=
  ⟨none, fun _ _ ↦ datagram.map (anyPort, ·), .ok (7, anyPort)⟩

/-- A worker that asks for a socket, and sends through it later on. -/
def asker : Worker askerTypes Asker :=
  .new 0 10 ⟨[some (.udpListen anyPort false), none, none, none,
    some (.udpPacket 0 anyPort (.filled 0 0 [5]))]⟩ 0 1 0

/-- A packet arrives before that. -/
def afterPacket : NodeHistory askerTypes Asker 1 1 × Node askerTypes Asker 1 1 :=
  ((node askerTypes Asker 1 1).exec ⟨asker, .default⟩
    [answers (.clock 0), answers .run, answers .run, answers (.clock 1), answers (.control none),
      answers .run, answers .run, answers (.elapsed 0), asks none, answers .run, asks (some [1, 2]),
      answers .run, answers .run]).get (by decide +kernel)

theorem afterPacket_run :
    (node askerTypes Asker 1 1).Run ⟨asker, .default⟩ afterPacket.1 afterPacket.2 :=
  Machine.exec_run_get _

end Asker

/-- And the other. -/
theorem knowsSlot_of_run_packet :
    Along KnowsSlot (Asker.afterPacket.1.events.flatMap NodeEvent.ofNetwork) :=
  Node.knowsSlot_of_run Nat.zero_lt_one Asker.afterPacket_run

end SansIo
