import SansIo.Backend.Exclusive
import SansIo.Lib.Places

/-!
# Ports

What an owner sees of a backend are its ports: the slots that it was told, and where a
datagram goes that is sent through one.  `Ports.onAction` says what an action does to them,
with nothing of how a backend reads, waits or is woken, and `Ports.run_shift` that it does
not matter where the slots begin.

Both backends do to their ports what it says (`PollBackend.onAction_ports` and
`PollingBackend.onAction_ports`).  In a `PollingBackend` the slot of the waker comes before
the ports.
-/

namespace SansIo.Backend

open Lib Collections Places

variable {Owner : Type} {n q : Nat}

/-- The ports of a backend, in the order of their slots. -/
abbrev Ports (Owner : Type) := List (Option (Listening Owner))

/-- The answer to a `UdpListen`, and who gets it. -/
abbrev ListenResult (Owner : Type) :=
  Owner × SocketAddr × Except IoError (SocketAddr × Nat)

/-- An action of an owner, and what the operating system answers where it is to open a
socket. -/
abbrev Action (Owner : Type) := Owner × Opening × BackendOutgoing

namespace Ports

variable (first : Nat) (ports : Ports Owner)

/-- The port with a slot, where the first of them is `first`. -/
def portAt (slot : Nat) : Option (Listening Owner) :=
  if first ≤ slot then (ports[slot - first]?).join else none

/-- Sending through a slot. -/
def send (slot : Nat) (dest : SocketAddr) (data : Buffer) : List Datagram :=
  (ports.portAt first slot).toList.map fun l ↦ (l.1, dest, data.deref)

/-- What an action does to the ports, who is told what, and what is sent. -/
def onAction (owner : Owner) (opening : Opening) :
    BackendOutgoing → Ports Owner × List (ListenResult Owner) × List Datagram
  | .udpListen bind _reuse => match opening with
    | .refused e => (ports, [(owner, bind, .error e)], [])
    | .unregistered _ _ _ => (reserve ports, [], [])
    | .opened socket localAddr =>
      (place ports (socket, localAddr, owner),
        [(owner, bind, .ok (localAddr, first + vacant ports))], [])
  | .udpUnlisten slot => (if first ≤ slot then ports.set (slot - first) none else ports, [], [])
  | .udpPacket slot dest data => (ports, [], ports.send first slot dest data)
  | .udpPackets slot dests data =>
    (ports, [], dests.flatMap fun dest ↦ ports.send first slot dest data)
  | .udpPackets2 dests data =>
    (ports, [], dests.flatMap fun (slot, dest) ↦ ports.send first slot dest data)

/-- One action after the other. -/
def run : Ports Owner → List (Action Owner) →
    Ports Owner × List (ListenResult Owner) × List Datagram
  | ports, [] => (ports, [], [])
  | ports, (owner, opening, action) :: actions =>
    let (next, told, sent) := ports.onAction first owner opening action
    let (last, told', sent') := run next actions
    (last, told ++ told', sent ++ sent')

end Ports

/-- The datagrams of an action, with their slots. -/
def BackendOutgoing.datagrams : BackendOutgoing → List (Nat × SocketAddr × List UInt8)
  | .udpListen _ _ | .udpUnlisten _ => []
  | .udpPacket slot dest data => [(slot, dest, data.deref)]
  | .udpPackets slot dests data => dests.map (slot, ·, data.deref)
  | .udpPackets2 dests data => dests.map fun (slot, dest) ↦ (slot, dest, data.deref)

/-- They go out one by one, each through the socket of its slot, if it has one. -/
def BackendOutgoing.through (action : BackendOutgoing) (port : Nat → Option (Listening Owner)) :
    List Datagram :=
  action.datagrams.flatMap fun (slot, dest, bytes) ↦ (port slot).toList.map (·.1, dest, bytes)

theorem Ports.onAction_sent (first : Nat) (ports : Ports Owner) (owner : Owner)
    (opening : Opening) (action : BackendOutgoing) :
    (ports.onAction first owner opening action).2.2 = action.through (ports.portAt first) := by
  cases action with
  | udpListen bind reuse => cases opening <;> rfl
  | udpUnlisten slot => rfl
  | udpPacket slot dest data => exact (List.flatMap_singleton ..).symm
  | udpPackets slot dests data =>
      rw [BackendOutgoing.through, BackendOutgoing.datagrams, List.flatMap_map]
      rfl
  | udpPackets2 dests data =>
      rw [BackendOutgoing.through, BackendOutgoing.datagrams, List.flatMap_map]
      rfl

/-! ## Ports, one by one -/

namespace Ports

variable {first : Nat} {ports : Ports Owner} {slot : Nat}

theorem portAt_reserve : Ports.portAt first (reserve ports) slot = ports.portAt first slot := by
  rw [portAt, portAt, join_getElem?_reserve]

theorem portAt_place (l : Listening Owner) :
    Ports.portAt first (place ports l) slot =
      if slot = first + vacant ports then some l else ports.portAt first slot := by
  rw [portAt, portAt]
  by_cases hle : first ≤ slot
  · have hslot : slot - first = vacant ports ↔ slot = first + vacant ports := by omega
    simp only [if_pos hle, getElem?_place, hslot]
    split <;> rfl
  · rw [if_neg hle, if_neg hle, if_neg (by omega)]

theorem portAt_vacant : ports.portAt first (first + vacant ports) = none := by
  rw [portAt, if_pos (Nat.le_add_right first _), Nat.add_sub_cancel_left, join_getElem?_vacant]

theorem portAt_vacate (slot' : Nat) :
    Ports.portAt first (if first ≤ slot' then ports.set (slot' - first) none else ports) slot =
      if slot = slot' then none else ports.portAt first slot := by
  split
  · rename_i hle'
    rw [portAt, portAt]
    by_cases hle : first ≤ slot
    · have hslot : slot' - first = slot - first ↔ slot = slot' := by omega
      simp only [if_pos hle, List.getElem?_set, hslot]
      split
      · split <;> rfl
      · rfl
    · rw [if_neg hle, if_neg hle, ite_self]
  · rename_i hle'
    split
    · rename_i hslot
      rw [portAt, if_neg (hslot ▸ hle')]
    · rfl

end Ports

/-! ## Slots that are shifted -/

/-- The same action, on slots that are further on. -/
def BackendOutgoing.shift (k : Nat) : BackendOutgoing → BackendOutgoing
  | .udpListen addr reuse => .udpListen addr reuse
  | .udpUnlisten slot => .udpUnlisten (slot + k)
  | .udpPacket slot dest data => .udpPacket (slot + k) dest data
  | .udpPackets slot dests data => .udpPackets (slot + k) dests data
  | .udpPackets2 dests data => .udpPackets2 (dests.map fun (slot, dest) ↦ (slot + k, dest)) data

/-- The same of an action with what is answered to it. -/
def Action.shift (k : Nat) (a : Action Owner) : Action Owner := (a.1, a.2.1, a.2.2.shift k)

/-- The same answer, with a slot that is further on. -/
def ListenResult.shift (k : Nat) (r : ListenResult Owner) : ListenResult Owner :=
  (r.1, r.2.1, r.2.2.map fun (localAddr, slot) ↦ (localAddr, slot + k))

namespace Ports

variable (first k : Nat) (ports : Ports Owner)

theorem portAt_shift (slot : Nat) :
    ports.portAt (first + k) (slot + k) = ports.portAt first slot := by
  simp only [portAt, Nat.add_le_add_iff_right, Nat.add_sub_add_right]

theorem send_shift (slot : Nat) (dest : SocketAddr) (data : Buffer) :
    ports.send (first + k) (slot + k) dest data = ports.send first slot dest data := by
  rw [send, send, portAt_shift]

theorem onAction_shift (owner : Owner) (opening : Opening) (action : BackendOutgoing) :
    ports.onAction (first + k) owner opening (action.shift k) =
      ((ports.onAction first owner opening action).1,
        (ports.onAction first owner opening action).2.1.map (ListenResult.shift k),
        (ports.onAction first owner opening action).2.2) := by
  cases action with
  | udpListen addr reuse =>
      cases opening with
      | refused e => rfl
      | unregistered socket localAddr e => rfl
      | opened socket localAddr =>
          have hslot : first + k + vacant ports = first + vacant ports + k := by omega
          simp only [BackendOutgoing.shift, onAction, hslot]
          rfl
  | udpUnlisten slot =>
      simp only [BackendOutgoing.shift, onAction, Nat.add_le_add_iff_right, Nat.add_sub_add_right]
      rfl
  | udpPacket slot dest data =>
      simp only [BackendOutgoing.shift, onAction, send_shift]
      rfl
  | udpPackets slot dests data =>
      simp only [BackendOutgoing.shift, onAction, send_shift]
      rfl
  | udpPackets2 dests data =>
      simp only [BackendOutgoing.shift, onAction, List.flatMap_map, send_shift]
      rfl

/-- **Ports do not care about their numbers**: actions on slots that are further on do the
same to the ports, send the same, and are answered by slots that are further on. -/
theorem run_shift (actions : List (Action Owner)) :
    run (first + k) ports (actions.map (Action.shift k)) =
      ((run first ports actions).1, (run first ports actions).2.1.map (ListenResult.shift k),
        (run first ports actions).2.2) := by
  induction actions generalizing ports with
  | nil => rfl
  | cons a actions ih =>
      obtain ⟨owner, opening, action⟩ := a
      rw [List.map_cons]
      simp only [Action.shift, run, onAction_shift, ih, List.map_append]

/-- One action more. -/
theorem run_snoc (actions : List (Action Owner)) (a : Action Owner) :
    run first ports (actions ++ [a]) =
      (((run first ports actions).1.onAction first a.1 a.2.1 a.2.2).1,
        (run first ports actions).2.1 ++
          ((run first ports actions).1.onAction first a.1 a.2.1 a.2.2).2.1,
        (run first ports actions).2.2 ++
          ((run first ports actions).1.onAction first a.1 a.2.1 a.2.2).2.2) := by
  induction actions generalizing ports with
  | nil => simp only [List.nil_append, run, List.append_nil]
  | cons b actions ih => simp only [List.cons_append, run, ih, List.append_assoc]

end Ports

/-! ## Slots that hold ports -/

/-- A vector of slots holds ports, behind some entries that are not. -/
def Holds {S : Type} (front : List S) (udp : Listening Owner → S) (v : DynamicVec (Option S) n)
    (ports : Ports Owner) : Prop :=
  v.toList = front.map some ++ ports.map (Option.map udp)

namespace Holds

variable {S : Type} {front : List S} {udp : Listening Owner → S} {v : DynamicVec (Option S) n}
  {ports : Ports Owner}

/-- Selecting a slot is reserving the first vacant place. -/
theorem select_eq (v : DynamicVec (Option S) n) :
    (Slots.select v).1 = vacant v.toList ∧ (Slots.select v).2.toList = reserve v.toList := by
  obtain ⟨hfind, hreserve⟩ | ⟨hfind, hvacant, hreserve⟩ := findIdx?_isNone v.toList
  · simp only [Slots.select, hfind, hreserve, and_self]
  · simp only [Slots.select, hfind, hreserve, hvacant, DynamicVec.len_eq, DynamicVec.toList_push,
      List.length_append, List.length_singleton, Nat.add_sub_cancel, and_self]

theorem selected (h : Holds front udp v ports) :
    (Slots.select v).1 = front.length + vacant ports := by
  rw [(select_eq v).1, h, vacant_append, vacant_map]

theorem reserved (h : Holds front udp v ports) :
    Holds front udp (Slots.select v).2 (reserve ports) := by
  rw [Holds, (select_eq v).2, h, reserve_append, reserve_map]

theorem placed (h : Holds front udp v ports) (l : Listening Owner) :
    Holds front udp ((Slots.select v).2.modify (Slots.select v).1 fun _ ↦ some (udp l))
      (place ports l) := by
  have hset : ∀ (xs : List (Option S)) (i : Nat) (o : Option S),
      xs.modify i (fun _ ↦ o) = xs.set i o := fun xs i o ↦ (List.set_eq_modify o i xs).symm
  rw [Holds, DynamicVec.toList_modify, hset, (select_eq v).1, (select_eq v).2, set_reserve, h,
    place_append, place_map]

theorem held (h : Holds front udp v ports) {slot : Nat} (hslot : front.length ≤ slot) :
    Slots.held v slot = (ports.portAt front.length slot).map udp := by
  rw [Slots.held, DynamicVec.get_eq, h, List.getElem?_append_right (by simpa using hslot),
    List.length_map, List.getElem?_map, Ports.portAt, if_pos hslot]
  cases ports[slot - front.length]? with
  | none => rfl
  | some o => rfl

theorem vacated (h : Holds front udp v ports) {slot : Nat} (hslot : front.length ≤ slot) :
    Holds front udp (v.modify slot fun _ ↦ none) (ports.set (slot - front.length) none) := by
  rw [Holds, DynamicVec.toList_modify, h, ← List.set_eq_modify,
    List.set_append_right _ _ (by simpa using hslot), List.length_map, List.map_set,
    Option.map_none]

/-- Taking a socket out of a vacant port does nothing. -/
theorem set_of_portAt {first slot : Nat} (hslot : first ≤ slot)
    (h : ports.portAt first slot = none) : ports.set (slot - first) none = ports := by
  rw [Ports.portAt, if_pos hslot] at h
  apply List.ext_getElem?
  intro i
  rw [List.getElem?_set]
  split
  · rename_i hi
    subst hi
    cases hget : ports[slot - first]? with
    | none =>
        rw [if_neg]
        exact Nat.not_lt.mpr (List.getElem?_eq_none_iff.mp hget)
    | some o =>
        rw [if_pos (List.getElem?_eq_some_iff.mp hget).1]
        rw [hget] at h
        exact congrArg some h.symm
  · rfl

end Holds

/-- The order in which datagrams to several go does not matter where they have one socket. -/
theorem flatMap_socket (socket : Option UdpSocket) (dests : List SocketAddr)
    (bytes : List UInt8) :
    (socket.toList.flatMap fun socket ↦ dests.map (socket, ·, bytes)) =
      dests.flatMap fun dest ↦ socket.toList.map (·, dest, bytes) := by
  cases socket with
  | none => simp
  | some socket => simp [List.map_eq_flatMap]

/-! ## Answers -/

/-- What is given to a worker is the answer to a `UdpListen`. -/
def listenResult : BackendIncomingInternal Owner → Option (ListenResult Owner)
  | .event owner (.udpListenResult bind result) => some (owner, bind, result)
  | _ => none

/-- The answers in an output queue. -/
def listenResults (queue : List (BackendIncomingInternal Owner)) : List (ListenResult Owner) :=
  queue.filterMap listenResult

theorem listenResults_append (queue queue' : List (BackendIncomingInternal Owner)) :
    listenResults (queue ++ queue') = listenResults queue ++ listenResults queue' :=
  List.filterMap_append

/-- Popping takes an answer from the front of the queue, or leaves the answers alone. -/
def PopsAnswer (before after : List (BackendIncomingInternal Owner))
    (out : Option (BackendIncomingInternal Owner)) : Prop :=
  listenResults before = listenResults out.toList ++ listenResults after

theorem popsAnswer_cons (out : BackendIncomingInternal Owner)
    (queue : List (BackendIncomingInternal Owner)) : PopsAnswer (out :: queue) queue (some out) :=
  listenResults_append [out] queue

theorem popsAnswer_of_eq {queue queue' : List (BackendIncomingInternal Owner)}
    (h : queue = queue') {out : Option (BackendIncomingInternal Owner)}
    (hout : listenResults out.toList = []) : PopsAnswer queue queue' out := by
  rw [PopsAnswer, h, hout, List.nil_append]

/-! ## `PollBackend` -/

/-- What this backend gets where it opens a socket. -/
def Opening.ofResult : Except IoError (UdpSocket × SocketAddr) → Opening
  | .ok (socket, localAddr) => .opened socket localAddr
  | .error e => .refused e

namespace PollBackend

/-- A backend holds ports. -/
def HasPorts (b : PollBackend Owner n q) (ports : Ports Owner) : Prop :=
  Holds [] udp b.sockets ports

theorem socketAt_eq {b : PollBackend Owner n q} {ports : Ports Owner} (hb : b.HasPorts ports)
    (slot : Nat) : b.socketAt slot = (ports.portAt 0 slot).map Prod.fst := by
  have hheld := hb.held (Nat.zero_le slot)
  rw [List.length_nil] at hheld
  have hsocket : b.socketAt slot = (Slots.held b.sockets slot).map PollSocket.socket := by
    rw [socketAt, Slots.held]
    rcases b.sockets.get slot with _ | _ | s <;> rfl
  rw [hsocket, hheld, Option.map_map]
  rfl

/-- What the socket in a slot gives. -/
def givesAt (b : PollBackend Owner n q)
    (recv : Nat → UdpSocket → Option (SocketAddr × List UInt8)) (slot : Nat) : Option Datagram :=
  (b.socketAt slot).bind fun socket ↦ (recv slot socket).map (socket, ·)

/-- Sending goes through the port. -/
theorem send_eq {b : PollBackend Owner n q} {ports : Ports Owner} (hb : b.HasPorts ports)
    (slot : Nat) (dest : SocketAddr) (data : Buffer) :
    (b.socketAt slot).toList.map (·, dest, data.deref) = ports.send 0 slot dest data := by
  rw [socketAt_eq hb, Ports.send]
  cases ports.portAt 0 slot with
  | none => rfl
  | some l => rfl

/-- **An action on a `PollBackend` is one on its ports.** -/
theorem onAction_ports {b b' : PollBackend Owner n q} {ports : Ports Owner}
    (hb : b.HasPorts ports) {owner : Owner}
    {createUdp : Except IoError (UdpSocket × SocketAddr)} {action : BackendOutgoing}
    {sent : List Datagram} (h : b.onAction owner createUdp action = .ok (b', sent)) :
    b'.HasPorts (ports.onAction 0 owner (.ofResult createUdp) action).1 ∧
      listenResults b'.output.toList = listenResults b.output.toList ++
        (ports.onAction 0 owner (.ofResult createUdp) action).2.1 ∧
      sent = (ports.onAction 0 owner (.ofResult createUdp) action).2.2 := by
  cases action with
  | udpListen bind reuse =>
      cases createUdp with
      | error e =>
          cases h
          refine ⟨hb, ?_, rfl⟩
          rw [DynamicDeque.toList_pushBack, listenResults_append]
          rfl
      | ok created =>
          obtain ⟨socket, localAddr⟩ := created
          rw [onAction_created] at h
          cases h
          refine ⟨hb.placed (socket, localAddr, owner), ?_, rfl⟩
          rw [DynamicDeque.toList_pushBack, listenResults_append, hb.selected, List.length_nil]
          rfl
  | udpUnlisten slot =>
      have hheld := hb.held (Nat.zero_le slot)
      rw [List.length_nil] at hheld
      rw [onAction] at h
      split at h
      · cases h
        refine ⟨?_, (List.append_nil _).symm, rfl⟩
        rw [Ports.onAction, if_pos (Nat.zero_le slot)]
        exact hb.vacated (Nat.zero_le slot)
      · rename_i hvacant
        cases h
        refine ⟨?_, (List.append_nil _).symm, rfl⟩
        have hnone : ports.portAt 0 slot = none := by
          cases hport : ports.portAt 0 slot with
          | none => rfl
          | some l =>
              rw [hport] at hheld
              exact absurd (Slots.held_eq_some.1 hheld) (hvacant _)
        rw [Ports.onAction, if_pos (Nat.zero_le slot)]
        dsimp only
        rwa [Holds.set_of_portAt (Nat.zero_le slot) hnone]
  | udpPacket slot dest data =>
      obtain ⟨datagrams, hsend, h⟩ := bind_ok.mp h
      cases h
      refine ⟨hb, (List.append_nil _).symm, (sendAll_ok hsend).trans ?_⟩
      rw [List.map_map]
      exact send_eq hb slot dest data
  | udpPackets slot dests data =>
      obtain ⟨datagrams, hsend, h⟩ := bind_ok.mp h
      cases h
      refine ⟨hb, (List.append_nil _).symm, (sendAll_ok hsend).trans ?_⟩
      simp only [List.map_flatMap, List.map_map, Function.comp_def, flatMap_socket, send_eq hb]
      rfl
  | udpPackets2 dests data =>
      obtain ⟨datagrams, hsend, h⟩ := bind_ok.mp h
      cases h
      refine ⟨hb, (List.append_nil _).symm, (sendAll_ok hsend).trans ?_⟩
      simp only [List.map_flatMap, List.map_map, Function.comp_def, send_eq hb]
      rfl

/-- A turn that leaves finds no answer. -/
theorem turn_answer {recv : Nat → UdpSocket → Option (SocketAddr × List UInt8)}
    {b b' : PollBackend Owner n q} {slot : Nat} {out : Option (BackendIncomingInternal Owner)}
    (h : b.turn recv slot = .inr (.ok (out, b'))) :
    b'.output = b.output ∧ listenResults out.toList = [] := by
  rw [turn_eq] at h
  split at h
  · rw [packet] at h
    dsimp only at h
    split at h
    · cases h
      exact ⟨rfl, rfl⟩
    · cases h
  · split at h
    · cases h
      exact ⟨rfl, rfl⟩
    · split at h
      · cases h
      · cases h

theorem popIncoming_answer {recv : Nat → UdpSocket → Option (SocketAddr × List UInt8)}
    {b b' : PollBackend Owner n q} {out : Option (BackendIncomingInternal Owner)}
    (h : b.popIncoming recv = .ok (out, b')) : PopsAnswer b.output.toList b'.output.toList out := by
  rw [popIncoming] at h
  obtain ⟨x, hx, hlist⟩ | ⟨hnone, hlist⟩ := b.output.popFront_cases
  · rw [show b.output.popFront = (some x, b.output.popFront.2) from Prod.ext hx rfl] at h
    cases h
    rw [hlist]
    exact popsAnswer_cons x _
  · rw [show b.output.popFront = (none, b.output.popFront.2) from Prod.ext hnone rfl] at h
    dsimp only at h
    split at h
    · cases h
      exact popsAnswer_of_eq hlist.symm rfl
    · have hreturns : Loop.Returns (turn recv { b with output := b.output.popFront.2 })
          (b.lastPollSocket.getD 0) (.ok (out, b')) := by
        rw [← h]
        exact Loop.returns_run _
      obtain ⟨slot, -, hturn⟩ := hreturns.exit
      obtain ⟨houtput, hout⟩ := turn_answer (b := { b with output := b.output.popFront.2 }) hturn
      exact popsAnswer_of_eq (by rw [houtput, hlist]) hout

/-- Polling leaves the sockets and the answers alone. -/
theorem pollIncoming_answer (b : PollBackend Owner n q) :
    b.pollIncoming.sockets = b.sockets ∧
      listenResults b.pollIncoming.output.toList = listenResults b.output.toList := by
  obtain ⟨out, hqueue, -, -, hsockets, hawake⟩ := step_pollIncoming (b := b) rfl
  refine ⟨hsockets, ?_⟩
  have hnone : listenResults out = [] :=
    List.filterMap_eq_nil_iff.mpr fun x hx ↦ by rw [hawake x hx]; rfl
  rw [hqueue, listenResults_append, hnone, List.append_nil]

end PollBackend

/-! ## `PollingBackend` -/

namespace PollingBackend

/-- A backend holds ports, behind the waker. -/
def HasPorts (b : PollingBackend Owner n q) (ports : Ports Owner) : Prop :=
  Holds [.waker] udp b.sockets ports

/-- The slot of the waker is that, and no port. -/
theorem held_zero {b : PollingBackend Owner n q} {ports : Ports Owner} (hb : b.HasPorts ports) :
    Slots.held b.sockets 0 = some .waker := by
  rw [Slots.held, DynamicVec.get_eq, hb]
  rfl

theorem socketAt_held (b : PollingBackend Owner n q) (slot : Nat) :
    b.socketAt slot = (Slots.held b.sockets slot).bind fun s ↦ (asUdp s).map Prod.fst := by
  rw [socketAt, Slots.held]
  rcases b.sockets.get slot with _ | _ | _ | _ <;> rfl

theorem socketAt_eq {b : PollingBackend Owner n q} {ports : Ports Owner} (hb : b.HasPorts ports)
    (slot : Nat) : b.socketAt slot = (ports.portAt 1 slot).map Prod.fst := by
  rw [socketAt_held]
  cases slot with
  | zero =>
      rw [held_zero hb]
      rfl
  | succ slot =>
      have hheld := hb.held (Nat.le_add_left 1 slot)
      rw [List.length_singleton] at hheld
      rw [hheld, Option.bind_map]
      cases ports.portAt 1 (slot + 1) with
      | none => rfl
      | some l => rfl

theorem send_eq {b : PollingBackend Owner n q} {ports : Ports Owner} (hb : b.HasPorts ports)
    (slot : Nat) (dest : SocketAddr) (data : Buffer) :
    (b.socketAt slot).toList.map (·, dest, data.deref) = ports.send 1 slot dest data := by
  rw [socketAt_eq hb, Ports.send]
  cases ports.portAt 1 slot with
  | none => rfl
  | some l => rfl

/-- **An action on a `PollingBackend` is one on its ports.** -/
theorem onAction_ports {b b' : PollingBackend Owner n q} {ports : Ports Owner}
    (hb : b.HasPorts ports) {owner : Owner} {opening : Opening} {action : BackendOutgoing}
    {sent : List Datagram} (h : b.onAction owner opening action = .ok (b', sent)) :
    b'.HasPorts (ports.onAction 1 owner opening action).1 ∧
      listenResults b'.output.toList = listenResults b.output.toList ++
        (ports.onAction 1 owner opening action).2.1 ∧
      sent = (ports.onAction 1 owner opening action).2.2 := by
  cases action with
  | udpListen bind reuse =>
      cases opening with
      | refused e =>
          cases h
          refine ⟨hb, ?_, rfl⟩
          rw [DynamicDeque.toList_pushBack, listenResults_append]
          rfl
      | unregistered socket localAddr e =>
          cases h
          rw [selectSlot_eq]
          exact ⟨hb.reserved, (List.append_nil _).symm, rfl⟩
      | opened socket localAddr =>
          rw [onAction_opened] at h
          cases h
          refine ⟨hb.placed (socket, localAddr, owner), ?_, rfl⟩
          rw [DynamicDeque.toList_pushBack, listenResults_append, hb.selected,
            List.length_singleton]
          rfl
  | udpUnlisten slot =>
      rw [onAction] at h
      cases slot with
      | zero =>
          rw [Slots.held_eq_some.1 (held_zero hb)] at h
          cases h
          exact ⟨hb, (List.append_nil _).symm, rfl⟩
      | succ slot =>
          have hle := Nat.le_add_left 1 slot
          have hheld := hb.held hle
          rw [List.length_singleton] at hheld
          split at h
          · cases h
            refine ⟨?_, (List.append_nil _).symm, rfl⟩
            rw [Ports.onAction, if_pos hle]
            exact hb.vacated hle
          · rename_i hvacant
            cases h
            refine ⟨?_, (List.append_nil _).symm, rfl⟩
            have hnone : ports.portAt 1 (slot + 1) = none := by
              cases hport : ports.portAt 1 (slot + 1) with
              | none => rfl
              | some l =>
                  rw [hport] at hheld
                  exact absurd (Slots.held_eq_some.1 hheld) (hvacant _ _ _)
            rw [Ports.onAction, if_pos hle]
            dsimp only
            rwa [Holds.set_of_portAt hle hnone]
  | udpPacket slot dest data =>
      obtain ⟨datagrams, hsend, h⟩ := bind_ok.mp h
      cases h
      refine ⟨hb, (List.append_nil _).symm, (sendAll_ok hsend).trans ?_⟩
      rw [List.map_map]
      exact send_eq hb slot dest data
  | udpPackets slot dests data =>
      obtain ⟨datagrams, hsend, h⟩ := bind_ok.mp h
      cases h
      refine ⟨hb, (List.append_nil _).symm, (sendAll_ok hsend).trans ?_⟩
      simp only [List.map_flatMap, List.map_map, Function.comp_def, flatMap_socket, send_eq hb]
      rfl
  | udpPackets2 dests data =>
      obtain ⟨datagrams, hsend, h⟩ := bind_ok.mp h
      cases h
      refine ⟨hb, (List.append_nil _).symm, (sendAll_ok hsend).trans ?_⟩
      simp only [List.map_flatMap, List.map_map, Function.comp_def, send_eq hb]
      rfl

/-- A turn that leaves finds no answer. -/
theorem turn_answer {recv : Nat → Recv} {b b' : PollingBackend Owner n q}
    {out : Option (BackendIncomingInternal Owner)}
    (h : b.turn recv = .inr (.ok (out, b'))) : listenResults out.toList = [] := by
  rw [turn] at h
  split at h
  · cases h
    rfl
  · dsimp only at h
    split at h
    · split at h
      · obtain ⟨data, -, hdata⟩ := bind_ok.1 (Sum.inr.inj h)
        cases hdata
        rfl
      · cases h
    · cases h
      rfl
    · cases h
    · cases h

theorem popIncoming_answer {os : UdpSocket → Nat → Recv} {b b' : PollingBackend Owner n q}
    {out : Option (BackendIncomingInternal Owner)}
    (h : b.popIncoming (b.recvOf os) = .ok (out, b')) :
    PopsAnswer b.output.toList b'.output.toList out := by
  rw [popIncoming, popCachedEvent] at h
  obtain ⟨x, hx, hlist⟩ | ⟨hnone, hlist⟩ := b.output.popFront_cases
  · rw [show b.output.popFront = (some x, b.output.popFront.2) from Prod.ext hx rfl] at h
    cases h
    rw [hlist]
    exact popsAnswer_cons x _
  · rw [show b.output.popFront = (none, b.output.popFront.2) from Prod.ext hnone rfl] at h
    dsimp only at h
    have hreturns : Loop.Returns (turn (b.recvOf os)) { b with output := b.output.popFront.2 }
        (.ok (out, b')) := by
      rw [← h]
      exact Loop.returns_run _
    obtain ⟨t, hvisits, hturn⟩ := hreturns.exit
    have ht : Popping { b with output := b.output.popFront.2 } t :=
      hvisits.invariant (fun _ _ ht hb ↦ ht.turn hb) ⟨rfl, rfl, List.suffix_refl _⟩
    obtain ⟨-, houtput, -⟩ := ht.turn_inr hturn
    exact popsAnswer_of_eq (by rw [houtput, hlist]) (turn_answer hturn)

end PollingBackend

end SansIo.Backend
