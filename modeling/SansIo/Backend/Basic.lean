import SansIo.Buffer

/-!
# What backends exchange with workers

`src/backend.rs`, with the default features: UDP, and no tun-tap devices.  Sockets,
addresses and errors come from the operating system; a backend only passes them
on.
-/

namespace SansIo.Backend

open Lib

/-- `std::net::SocketAddr`: 4 or 16 bytes and a port. -/
structure SocketAddr where
  /-- The address. -/
  ip : List UInt8
  /-- The port. -/
  port : UInt16
deriving DecidableEq, Repr

/-- `std::io::Error`. -/
abbrev IoError := String

/-- A socket, as a handle of the operating system. -/
abbrev UdpSocket := Nat

/-- `BackendIncoming`. -/
inductive BackendIncoming where
  | udpListenResult (bind : SocketAddr) (result : Except IoError (SocketAddr × Nat))
  | udpPacket (slot : Nat) (sender : SocketAddr) (data : Buffer)

/-- `BackendIncomingInternal<Owner>`. -/
inductive BackendIncomingInternal (Owner : Type) where
  | event (owner : Owner) (event : BackendIncoming)
  | awake

/-- `BackendOutgoing`. -/
inductive BackendOutgoing where
  | udpListen (addr : SocketAddr) (reuse : Bool)
  | udpUnlisten (slot : Nat)
  | udpPacket (slot : Nat) (dest : SocketAddr) (data : Buffer)
  | udpPackets (slot : Nat) (dests : List SocketAddr) (data : Buffer)
  | udpPackets2 (dests : List (Nat × SocketAddr)) (data : Buffer)

/-- What is handed to `send_to`, and its socket. -/
abbrev Datagram := UdpSocket × SocketAddr × List UInt8

/-- `socket.send_to(&data, dest)`, one after the other: the datagrams.  Each time the bytes of
the buffer are dereferenced. -/
def sendAll (data : Buffer) : List (UdpSocket × SocketAddr) → Panics (List Datagram)
  | [] => .ok []
  | (socket, dest) :: rest => do
    let bytes ← data.visible
    let sent ← sendAll data rest
    return (socket, dest, bytes) :: sent

/-- Without a panic the datagrams hold the bytes of the buffer. -/
theorem sendAll_ok {data : Buffer} {dests : List (UdpSocket × SocketAddr)} {sent : List Datagram}
    (h : sendAll data dests = .ok sent) :
    sent = dests.map fun (socket, dest) ↦ (socket, dest, data.deref) := by
  induction dests generalizing sent with
  | nil =>
      cases h
      rfl
  | cons dest dests ih =>
      obtain ⟨bytes, hbytes, h⟩ := bind_ok.mp h
      obtain ⟨rest, hrest, h⟩ := bind_ok.mp h
      cases h
      rw [List.map_cons, ← ih hrest, Buffer.deref_of_visible hbytes]

end SansIo.Backend
