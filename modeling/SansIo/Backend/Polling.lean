import SansIo.Backend.Basic
import SansIo.Collections.Dequeue
import SansIo.Collections.Vec
import SansIo.Lib.Loop

/-!
# `PollingBackend`

`src/backend/polling.rs`, with the default features.  The backend keeps its
sockets in slots, and polls with the slot numbers as keys, here called tokens.
`poll_incoming` puts the tokens that are ready on a queue of fixed size, and
`pop_incoming` goes through that queue, reading from one socket for each token.

What the operating system answers is an argument: `poll.wait` fails, or leaves
events with certain keys in `event_buffer`; opening a socket and registering it
with the poller may fail; and `recv_from` gives a datagram or fails.  The loop of
`pop_cached_event` may read several sockets in one call, so it takes a function:
`recv k` is what the read gives that is made for the token with `k` tokens behind
it.

`event_buffer` is no field here.  `poll_incoming` hands it to `poll.wait` and goes
through it right after, and nothing else looks at it, so its whole content after
the wait is an argument of `poll_incoming`.  The backend never clears it and
`poll.wait` appends to it: the list of a wait can repeat the events of earlier
waits, with keys that come twice, or of sources that are gone by then.  Nothing is
assumed of it.

The cycle counter is left out, since nothing reads it.
-/

namespace SansIo.Backend

open Lib Collections

/-- `QUEUE_PKT_NUM`. -/
def queuePktNum : Nat := 512

/-- A slot number, as the key of a source that is polled. -/
abbrev Token := Nat

/-- `SocketType<Owner>`. -/
inductive SocketType (Owner : Type) where
  | waker
  | udp (socket : UdpSocket) (localAddr : SocketAddr) (owner : Owner)

/-- `PollingBackend<Owner, SOCKET_STACK_SIZE, QUEUE_STACK_SIZE>`. -/
structure PollingBackend (Owner : Type) (n q : Nat) where
  /-- The tokens found ready. -/
  eventBuffer2 : Bounded Token queuePktNum
  /-- The slots. -/
  sockets : DynamicVec (Option (SocketType Owner)) n
  /-- What is to be given to the worker before any token. -/
  output : DynamicDeque (BackendIncomingInternal Owner) q
  /-- Set by the awaker, in any thread. -/
  awakeFlag : Bool

/-- What a read of a socket gives: a datagram and its sender, or a failure. -/
abbrev Recv := Option (SocketAddr × List UInt8)

/-- What the operating system answers where a socket is to be opened. -/
inductive Opening where
  | /-- The socket cannot be created or bound. -/
    refused (e : IoError)
  | /-- It can, but not registered with the poller. -/
    unregistered (socket : UdpSocket) (localAddr : SocketAddr) (e : IoError)
  | /-- It is bound and registered. -/
    opened (socket : UdpSocket) (localAddr : SocketAddr)

namespace PollingBackend

variable {Owner : Type} {n q : Nat}

/-- `Default::default`: the waker has slot 0. -/
def default : PollingBackend Owner n q where
  eventBuffer2 := .empty
  sockets := DynamicVec.default.push (some .waker)
  output := .default
  awakeFlag := false

/-- `socket_count`. -/
def socketCount (b : PollingBackend Owner n q) : Nat := b.sockets.toList.countP Option.isSome

/-- `select_slot`. -/
def selectSlot (b : PollingBackend Owner n q) : Nat × PollingBackend Owner n q :=
  match b.sockets.toList.findIdx? Option.isNone with
  | some i => (i, b)
  | none =>
    let sockets := b.sockets.push none
    (sockets.len - 1, { b with sockets })

/-- One turn of the loop of `pop_cached_event`. -/
def turn (recv : Nat → Recv) (b : PollingBackend Owner n q) :
    PollingBackend Owner n q ⊕
      Panics (Option (BackendIncomingInternal Owner) × PollingBackend Owner n q) :=
  match b.eventBuffer2.toList with
  | [] => .inr (.ok (none, b))
  | slotIndex :: _ =>
    let rest := b.eventBuffer2.popFront.2
    match b.sockets.get slotIndex with
    | some (some (.udp _ _ owner)) =>
      match recv rest.length with
      | some (sender, datagram) => .inr do
        let data ← receive datagram
        return (some (.event owner (.udpPacket slotIndex sender data)),
          { b with eventBuffer2 := rest })
      | none =>
        -- the token has been removed before the read, and the next one goes with it
        .inl { b with eventBuffer2 := rest.popFront.2 }
    | some (some .waker) => .inr (.ok (some .awake, { b with eventBuffer2 := rest }))
    | some none | none => .inl { b with eventBuffer2 := rest }

theorem turn_lt {recv : Nat → Recv} {b b' : PollingBackend Owner n q}
    (h : b.turn recv = .inl b') : b'.eventBuffer2.length < b.eventBuffer2.length := by
  unfold turn at h
  split at h
  · cases h
  · rename_i token tokens htokens
    have hpos : b.eventBuffer2.length = tokens.length + 1 := by
      rw [← Bounded.length_toList, htokens, List.length_cons]
    dsimp only at h
    split at h
    · split at h
      · cases h
      · cases h
        simp only [Bounded.length_popFront]
        omega
    · cases h
    · cases h
      simp only [Bounded.length_popFront]
      omega
    · cases h
      simp only [Bounded.length_popFront]
      omega

/-- `pop_cached_event`. -/
def popCachedEvent (recv : Nat → Recv) (b : PollingBackend Owner n q) :
    Panics (Option (BackendIncomingInternal Owner) × PollingBackend Owner n q) :=
  match b.output.popFront with
  | (some wait, output) => .ok (some wait, { b with output })
  | (none, output) =>
    Loop.run (turn recv) (·.eventBuffer2.length) (fun _ _ h ↦ turn_lt h) { b with output }

/-- `push_back(token).expect("Should not full")` on the queue of tokens. -/
def pushToken (b : PollingBackend Owner n q) (token : Token) : Panics (PollingBackend Owner n q) :=
  match b.eventBuffer2.push token with
  | .ok eventBuffer2 => .ok { b with eventBuffer2 }
  | .error _ => throw "Should not full"

/-- `poll_incoming`, where `poll.wait` fails, or `event_buffer` holds events with
these keys after it. -/
def pollIncoming (b : PollingBackend Owner n q) (wait : Except IoError (List Token)) :
    Panics (PollingBackend Owner n q) :=
  match wait with
  | .error _ => .ok b
  | .ok events => do
    let b ← if b.awakeFlag then pushToken { b with awakeFlag := false } 0 else pure b
    events.foldlM pushToken b

/-- `pop_incoming`. -/
def popIncoming (recv : Nat → Recv) (b : PollingBackend Owner n q) :
    Panics (Option (BackendIncomingInternal Owner) × PollingBackend Owner n q) :=
  b.popCachedEvent recv

/-- `PollingAwaker::awake`. -/
def awake (b : PollingBackend Owner n q) : PollingBackend Owner n q :=
  if b.awakeFlag then b else { b with awakeFlag := true }

/-- The socket in a slot, where there is one. -/
def socketAt (b : PollingBackend Owner n q) (slot : Nat) : Option UdpSocket :=
  match b.sockets.get slot with
  | some (some (.udp socket _ _)) => some socket
  | _ => none

/-- `on_action`, and the datagrams handed to `send_to`, with their sockets. -/
def onAction (b : PollingBackend Owner n q) (owner : Owner) (opening : Opening) :
    BackendOutgoing →
      Panics (PollingBackend Owner n q × List Datagram)
  | .udpListen addr _reuse => match opening with
    | .refused e => .ok ({ b with
        output := b.output.pushBack (.event owner (.udpListenResult addr (.error e))) }, [])
    | .unregistered _ _ _ => .ok (b.selectSlot.2, [])
    | .opened socket localAddr => do
      let (slot, b) := b.selectSlot
      let output := b.output.pushBack
        (.event owner (.udpListenResult addr (.ok (localAddr, slot))))
      let sockets ← b.sockets.modifyOrPanic slot fun _ ↦ some (.udp socket localAddr owner)
      return ({ b with output, sockets }, [])
  | .udpUnlisten slot => match b.sockets.get slot with
    | some (some (.udp _ _ _)) => .ok ({ b with sockets := b.sockets.modify slot fun _ ↦ none }, [])
    | _ => .ok (b, [])
  | .udpPacket slot dest data => do
    let sent ← sendAll data ((b.socketAt slot).toList.map (·, dest))
    return (b, sent)
  | .udpPackets slot dests data => do
    let sent ← sendAll data ((b.socketAt slot).toList.flatMap fun socket ↦ dests.map (socket, ·))
    return (b, sent)
  | .udpPackets2 dests data => do
    let sent ← sendAll data (dests.flatMap fun (slot, dest) ↦
      (b.socketAt slot).toList.map (·, dest))
    return (b, sent)

end PollingBackend

end SansIo.Backend
