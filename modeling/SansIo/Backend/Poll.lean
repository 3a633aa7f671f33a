import SansIo.Backend.Basic
import SansIo.Collections.Dequeue
import SansIo.Collections.Slots
import SansIo.Lib.Loop

/-!
# `PollBackend`

`src/backend/poll.rs`, with the default features.  This backend has no poller: it
reads its sockets one after another, and `poll_incoming` only sleeps and wakes the
worker.

What the operating system answers is an argument: `create_udp` gives a socket with its
address or fails, and `recv slot socket` is what the read of a socket in a slot gives.
The cycle counter is left out, since nothing reads it.
-/

namespace SansIo.Backend

open Lib Collections

/-- `SocketType<Owner>` of this backend. -/
structure PollSocket (Owner : Type) where
  /-- The socket. -/
  socket : UdpSocket
  /-- Its address. -/
  localAddr : SocketAddr
  /-- Who listened it. -/
  owner : Owner

/-- `PollBackend<Owner, SOCKET_STACK_SIZE, QUEUE_STACK_SIZE>`. -/
structure PollBackend (Owner : Type) (n q : Nat) where
  /-- The slots. -/
  sockets : DynamicVec (Option (PollSocket Owner)) n
  /-- What is to be given to the worker before anything is read. -/
  output : DynamicDeque (BackendIncomingInternal Owner) q
  /-- Where the next scan starts. -/
  lastPollSocket : Option Nat
  /-- What the next datagram is read into. -/
  buf : Buffer

namespace PollBackend

variable {Owner : Type} {n q : Nat}

/-- `Default::default`. -/
def default : PollBackend Owner n q where
  sockets := .default
  output := .default
  lastPollSocket := none
  buf := .new 100 1500

/-- `socket_count`. -/
def socketCount (b : PollBackend Owner n q) : Nat := b.sockets.toList.countP Option.isSome

/-- `select_slot`. -/
def selectSlot (b : PollBackend Owner n q) : Nat × PollBackend Owner n q :=
  match b.sockets.toList.findIdx? Option.isNone with
  | some i => (i, b)
  | none =>
    let sockets := b.sockets.push none
    (sockets.len - 1, { b with sockets })

/-- `poll_incoming`. -/
def pollIncoming (b : PollBackend Owner n q) : PollBackend Owner n q :=
  if !b.output.isEmpty then b else { b with output := b.output.pushBack .awake }

/-- The packet that is made of a datagram. -/
def packet (b : PollBackend Owner n q) (slot : Nat) (owner : Owner) (sender : SocketAddr)
    (datagram : List UInt8) :
    Panics (Option (BackendIncomingInternal Owner) × PollBackend Owner n q) :=
  let (len, buf) := recvFrom b.buf datagram
  match buf.moveBackRight len with
  | some data => .ok (some (.event owner (.udpPacket slot sender data)),
      { b with buf := .new 100 1500 })
  | none => throw "Should not overflow"

/-- One turn of the loop of `pop_incoming`, at a slot.  Behind the last slot there is
none to read, and the index is counted up until it overflows, which panics in a debug
build. -/
def turn (recv : Nat → UdpSocket → Option (SocketAddr × List UInt8)) (b : PollBackend Owner n q)
    (slot : Nat) :
    Nat ⊕ Panics (Option (BackendIncomingInternal Owner) × PollBackend Owner n q) :=
  let received := match b.sockets.get slot with
    | some (some s) => (recv slot s.socket).map (s.owner, ·)
    | _ => none
  match received with
  | some (owner, sender, datagram) => .inr (b.packet slot owner sender datagram)
  | none =>
    if slot = b.sockets.len - 1 then .inr (.ok (none, { b with lastPollSocket := none }))
    else if slot < b.sockets.len then .inl (slot + 1)
    else .inr (throw "attempt to add with overflow")

theorem turn_inl {recv : Nat → UdpSocket → Option (SocketAddr × List UInt8)}
    {b : PollBackend Owner n q} {slot slot' : Nat} (h : b.turn recv slot = .inl slot') :
    slot' = slot + 1 ∧ slot' < b.sockets.len := by
  unfold turn at h
  dsimp only at h
  split at h
  · cases h
  · split at h
    · cases h
    · split at h
      · cases h
        omega
      · cases h

theorem turn_lt {recv : Nat → UdpSocket → Option (SocketAddr × List UInt8)}
    {b : PollBackend Owner n q} {slot slot' : Nat} (h : b.turn recv slot = .inl slot') :
    b.sockets.len - slot' < b.sockets.len - slot := by
  obtain ⟨rfl, hlt⟩ := turn_inl h
  omega

/-- `pop_incoming`. -/
def popIncoming (recv : Nat → UdpSocket → Option (SocketAddr × List UInt8))
    (b : PollBackend Owner n q) :
    Panics (Option (BackendIncomingInternal Owner) × PollBackend Owner n q) :=
  match b.output.popFront with
  | (some out, output) => .ok (some out, { b with output })
  | (none, output) =>
    let b := { b with output }
    if b.sockets.isEmpty then .ok (none, b)
    else
      Loop.run (b.turn recv) (b.sockets.len - ·) (fun _ _ h ↦ turn_lt h) (b.lastPollSocket.getD 0)

/-- The socket in a slot, where there is one. -/
def socketAt (b : PollBackend Owner n q) (slot : Nat) : Option UdpSocket :=
  match b.sockets.get slot with
  | some (some s) => some s.socket
  | _ => none

/-- `on_action`, and the datagrams handed to `send_to`, with their sockets. -/
def onAction (b : PollBackend Owner n q) (owner : Owner)
    (createUdp : Except IoError (UdpSocket × SocketAddr)) :
    BackendOutgoing →
      Panics (PollBackend Owner n q × List Datagram)
  | .udpListen addr _reuse => match createUdp with
    | .ok (socket, localAddr) => do
      let (slot, b) := b.selectSlot
      let output := b.output.pushBack
        (.event owner (.udpListenResult addr (.ok (localAddr, slot))))
      let sockets ← b.sockets.modifyOrPanic slot fun _ ↦ some ⟨socket, localAddr, owner⟩
      return ({ b with output, sockets }, [])
    | .error e => .ok ({ b with
        output := b.output.pushBack (.event owner (.udpListenResult addr (.error e))) }, [])
  | .udpUnlisten slot => match b.sockets.get slot with
    | some (some _) => .ok ({ b with sockets := b.sockets.modify slot fun _ ↦ none }, [])
    | _ => .ok (b, [])
  | .udpPacket slot dest data => do
    let sent ← sendAll data ((b.socketAt slot).toList.map (·, dest))
    return (b, sent)
  | .udpPackets slot dests data => do
    let sent ← sendAll data ((b.socketAt slot).toList.flatMap fun socket ↦ dests.map (socket, ·))
    return (b, sent)
  | .udpPackets2 dests data => do
    let sent ← sendAll data (dests.flatMap fun (slot, dest) ↦
      (b.socketAt slot).toList.map (·, dest))
    return (b, sent)

end PollBackend

end SansIo.Backend
