import Mathlib.Algebra.Group.Nat.Defs
import SansIo.Lib.Slice

/-!
# Buffers

`src/buffer.rs`, as far as the backends use it to receive a datagram: a `Buffer`
is a vector of bytes with a window of it that counts as the contents.  Sums of
`usize` wrap at `2 ^ 64`, as in a release build.
-/

namespace SansIo

open Lib

/-- `a + b` on `usize`, where overflows are not checked. -/
def usizeAdd (a b : Nat) : Nat := (a + b) % 2 ^ 64

theorem usizeAdd_of_lt {a b : Nat} (h : a + b < 2 ^ 64) : usizeAdd a b = a + b :=
  Nat.mod_eq_of_lt h

/-- `Buffer`. -/
structure Buffer where
  /-- The bytes. -/
  buf : List UInt8
  /-- `range.start`. -/
  start : Nat
  /-- `range.end`. -/
  stop : Nat
deriving DecidableEq

namespace Buffer

/-- `new`. -/
def new (left main : Nat) : Buffer := ⟨List.replicate (left + main) 0, left, left⟩

/-- The bytes in the window, which is what `deref` gives. -/
def deref (b : Buffer) : List UInt8 := (b.buf.take b.stop).drop b.start

/-- `deref`, which panics when the window is not one of the bytes. -/
def visible (b : Buffer) : Panics (List UInt8) := slice b.buf b.start b.stop

theorem deref_of_visible {b : Buffer} {v : List UInt8} (h : b.visible = .ok v) : b.deref = v :=
  (slice_eq_ok.1 h).2.2

/-- The length of the slice that `remain_mut` gives. -/
def remainLen (b : Buffer) : Nat := b.buf.length - b.start

/-- Write to the start of the slice that `remain_mut` gives. -/
def writeRemain (b : Buffer) (data : List UInt8) : Buffer :=
  { b with buf := b.buf.take b.start ++ data ++ b.buf.drop (b.start + data.length) }

/-- `move_back_right`. -/
def moveBackRight (b : Buffer) (len : Nat) : Option Buffer :=
  if usizeAdd b.stop len > b.buf.length then none
  else some { b with stop := usizeAdd b.stop len }

/-- A new buffer after `data` has been written behind its headroom. -/
def filled (left main : Nat) (data : List UInt8) : Buffer where
  buf := List.replicate left 0 ++ data ++ List.replicate (main - data.length) 0
  start := left
  stop := left + data.length

theorem remainLen_new (left main : Nat) : (new left main).remainLen = main := by
  simp [remainLen, new]

theorem writeRemain_new (left main : Nat) (data : List UInt8) :
    (new left main).writeRemain data = { filled left main data with stop := left } := by
  simp only [writeRemain, new, filled, List.take_replicate, List.drop_replicate,
    Nat.min_eq_left (Nat.le_add_right left main), Nat.add_sub_add_left]

/-- Data that fits into the free part can be made part of the window. -/
theorem moveBackRight_written {left main : Nat} {data : List UInt8} (hdata : data.length ≤ main)
    (hsize : left + main < 2 ^ 64) :
    ((new left main).writeRemain data).moveBackRight data.length =
      some (filled left main data) := by
  have hlen : (filled left main data).buf.length = left + main := by
    simp only [filled, List.length_append, List.length_replicate]
    omega
  rw [writeRemain_new]
  simp only [moveBackRight]
  rw [usizeAdd_of_lt (by omega), if_neg (by omega)]
  rfl

/-- The window of it is the data. -/
theorem deref_filled (left main : Nat) (data : List UInt8) :
    (filled left main data).deref = data := by
  have htake : (filled left main data).buf.take (left + data.length) =
      List.replicate left 0 ++ data := List.take_left' (by simp)
  exact (congrArg (List.drop left) htake).trans (List.drop_left' List.length_replicate)

theorem visible_filled (left main : Nat) (data : List UInt8) :
    (filled left main data).visible = .ok data := by
  have hlen : (filled left main data).stop ≤ (filled left main data).buf.length := by
    simp only [filled, List.length_append, List.length_replicate]
    exact Nat.le_add_right ..
  exact slice_eq_ok.2 ⟨Nat.le_add_right .., hlen, deref_filled left main data⟩

end Buffer

/-- `UdpSocket::recv_from(buf.remain_mut())`, where a datagram has arrived: as much
of it as fits is written, and its length is returned. -/
def recvFrom (b : Buffer) (datagram : List UInt8) : Nat × Buffer :=
  let data := datagram.take b.remainLen
  (data.length, b.writeRemain data)

/-- A datagram is received into a new buffer, up to the `expect`. -/
def receiveInto (left main : Nat) (datagram : List UInt8) : Panics Buffer :=
  let (len, buf) := recvFrom (.new left main) datagram
  match buf.moveBackRight len with
  | some buf => .ok buf
  | none => throw "Should not overflow"

/-- What the backends do with a datagram. -/
def receive (datagram : List UInt8) : Panics Buffer := receiveInto 100 1500 datagram

/-- The buffer that holds a datagram: at most 1500 bytes of it, behind 100 bytes of
headroom. -/
def received (datagram : List UInt8) : Buffer := .filled 100 1500 (datagram.take 1500)

theorem receiveInto_eq {left main : Nat} (hsize : left + main < 2 ^ 64) (datagram : List UInt8) :
    receiveInto left main datagram = .ok (.filled left main (datagram.take main)) := by
  have hlen : (datagram.take main).length ≤ main := List.length_take_le ..
  simp only [receiveInto, recvFrom, Buffer.remainLen_new, Buffer.moveBackRight_written hlen hsize]

/-- A datagram always fits. -/
theorem receive_eq (datagram : List UInt8) : receive datagram = .ok (received datagram) :=
  receiveInto_eq (by decide) datagram

/-- The contents of the buffer are the datagram. -/
theorem deref_received (datagram : List UInt8) :
    (received datagram).deref = datagram.take 1500 := Buffer.deref_filled ..

/-- It can be dereferenced. -/
theorem visible_received (datagram : List UInt8) :
    (received datagram).visible = .ok (datagram.take 1500) := Buffer.visible_filled ..

end SansIo
