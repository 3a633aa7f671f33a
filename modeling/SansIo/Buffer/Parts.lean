import SansIo.Buffer.Window
import SansIo.Lib.Machine

/-!
# A buffer is three byte strings

The functions of `src/buffer.rs` that move the window or grow the buffer to the back, on
`Parts`: the headroom, the visible bytes and the tailroom.  There every function is a few
list operations, and `Parts.step` says which.

`Buffer.parts` and `Parts.toBuffer` are inverse to each other on well-formed buffers, so
that a step of a buffer is one of its parts (`Buffer.perform_eq`).  A vector has less than
`2 ^ 63` bytes, and growing beyond that panics.
-/

namespace SansIo

open Lib

/-- `BufferInner::allocate_back`. -/
def allocateBack (v : List UInt8) (more : Nat) : Panics (List UInt8) := do
  let other ← zeroes more
  if v.length + other.length < 2 ^ 63 then .ok (v ++ other) else throw "capacity overflow"

theorem allocateBack_of_lt {v : List UInt8} {more : Nat} (h : v.length + more < 2 ^ 63) :
    allocateBack v more = .ok (v ++ List.replicate more 0) := by
  have hmore : more < 2 ^ 63 := Nat.lt_of_le_of_lt (Nat.le_add_left ..) h
  simp only [allocateBack, zeroes, if_pos hmore, ok_bind, List.length_replicate, if_pos h]

theorem take_append_drop_append (xs ys : List UInt8) (n : Nat) :
    xs.take n ++ (xs.drop n ++ ys) = xs ++ ys := by
  rw [← List.append_assoc, List.take_append_drop]

namespace Buffer

/-- `ensure_back`. -/
def ensureBack (b : Buffer) (more : Nat) : Panics Buffer :=
  if b.buf.length ≥ b.stop then
    let remain := usizeSub b.buf.length b.stop
    if remain < more then do
      let buf ← allocateBack b.buf (usizeSub more remain)
      pure { b with buf }
    else pure b
  else throw "assertion failed: self.buf.len() >= self.range.end"

/-- `push_back`. -/
def pushBack (b : Buffer) (data : List UInt8) : Panics Buffer := do
  let b ← b.ensureBack data.length
  let stop := usizeAdd b.stop data.length
  let buf ← copyFromSlice b.buf b.stop stop data
  pure { b with buf, stop }

/-- `back_mut`: the buffer, and the range of it that the slice borrows. -/
def backMut (b : Buffer) (len : Nat) : Panics (Buffer × Nat × Nat) := do
  let b ← b.ensureBack len
  let _ ← slice b.buf b.stop (usizeAdd b.stop len)
  pure (b, b.stop, usizeAdd b.stop len)

/-- `back_mut(data.len()).copy_from_slice(data)`. -/
def writeBack (b : Buffer) (data : List UInt8) : Panics Buffer := do
  let (b, lo, hi) ← b.backMut data.length
  let buf ← copyFromSlice b.buf lo hi data
  pure { b with buf }

end Buffer

/-- The functions that move the window or grow the buffer to the back. -/
inductive BufferOp where
  | window (op : WindowOp) (len : Nat)
  | pushBack (data : List UInt8)
  | ensureBack (more : Nat)
  | /-- `back_mut`, where the slice is filled with `data`. -/
    writeBack (data : List UInt8)

/-- The three parts of a buffer. -/
structure Parts where
  /-- The bytes before the window. -/
  headroom : List UInt8
  /-- The bytes in the window. -/
  visible : List UInt8
  /-- The bytes behind the window. -/
  tailroom : List UInt8
deriving DecidableEq

namespace Parts

/-- The buffer with these parts. -/
def toBuffer (p : Parts) : Buffer where
  buf := p.headroom ++ p.visible ++ p.tailroom
  start := p.headroom.length
  stop := p.headroom.length + p.visible.length

/-- The part that a function takes bytes off. -/
def source (p : Parts) : WindowOp → List UInt8
  | .moveFrontLeft => p.headroom
  | .moveBackRight => p.tailroom
  | _ => p.visible

/-- The bytes that a function returns. -/
def taken (p : Parts) (len : Nat) : WindowOp → List UInt8
  | .popBack => p.visible.drop (p.visible.length - len)
  | .popFront => p.visible.take len
  | _ => []

/-- The parts after a function has taken bytes off one of them. -/
def moved (p : Parts) (len : Nat) : WindowOp → Parts
  | .truncate => { p with
      visible := p.visible.take len
      tailroom := p.visible.drop len ++ p.tailroom }
  | .popBack | .moveBackLeft => { p with
      visible := p.visible.take (p.visible.length - len)
      tailroom := p.visible.drop (p.visible.length - len) ++ p.tailroom }
  | .popFront | .moveFrontRight => { p with
      headroom := p.headroom ++ p.visible.take len
      visible := p.visible.drop len }
  | .moveFrontLeft => { p with
      headroom := p.headroom.take (p.headroom.length - len)
      visible := p.headroom.drop (p.headroom.length - len) ++ p.visible }
  | .moveBackRight => { p with
      visible := p.visible ++ p.tailroom.take len
      tailroom := p.tailroom.drop len }

/-- Room for more bytes at the back. -/
def room (p : Parts) (more : Nat) : Parts :=
  { p with tailroom := p.tailroom ++ List.replicate (more - p.tailroom.length) 0 }

/-- What a function returns, `none` for `None`, and the parts afterwards. -/
def step (p : Parts) : BufferOp → Option (List UInt8) × Parts
  | .window op len =>
    if len ≤ (p.source op).length then (some (p.taken len op), p.moved len op) else (none, p)
  | .pushBack data => (some [], { p with
      visible := p.visible ++ data
      tailroom := p.tailroom.drop data.length })
  | .ensureBack more => (some [], p.room more)
  | .writeBack data => (some [], { p with
      tailroom := data ++ p.tailroom.drop data.length })

end Parts

/-- Three byte strings, under the functions of a buffer. -/
def threeParts : Machine Parts BufferOp (Option (List UInt8)) where
  step p op := some ((p.step op).2, [(p.step op).1])

namespace Buffer

/-- The parts of a buffer. -/
def parts (b : Buffer) : Parts := ⟨b.headroom, b.deref, b.tailroom⟩

/-- A function of a buffer: the bytes that it returns, `none` for `None`, and the buffer
afterwards. -/
def perform (b : Buffer) : BufferOp → Panics (Option (List UInt8) × Buffer)
  | .window .popBack len => do
    let out ← BufferView.shown (b.popBack len).1
    pure (out, (b.popBack len).2)
  | .window .popFront len => do
    let out ← BufferView.shown (b.popFront len).1
    pure (out, (b.popFront len).2)
  | .window op len => .ok (if (b.run len op).1 then some [] else none, (b.run len op).2)
  | .pushBack data => do
    let b ← b.pushBack data
    pure (some [], b)
  | .ensureBack more => do
    let b ← b.ensureBack more
    pure (some [], b)
  | .writeBack data => do
    let b ← b.writeBack data
    pure (some [], b)

/-- One step of a buffer.  A step that panics is not one. -/
def step (b : Buffer) (op : BufferOp) : Option (Buffer × List (Option (List UInt8))) :=
  match b.perform op with
  | .ok (out, b') => some (b', [out])
  | .error _ => none

/-- A buffer, under its functions. -/
def machine : Machine Buffer BufferOp (Option (List UInt8)) := ⟨step⟩

/-- The sums are those of `usize`, and of a vector where the buffer may have to grow. -/
def Fits (b : Buffer) : BufferOp → Prop
  | .window op len => b.NoWrap len op
  | .pushBack data | .writeBack data => b.stop + data.length < 2 ^ 63
  | .ensureBack more => b.stop + more < 2 ^ 63

instance (b : Buffer) (len : Nat) : DecidablePred (b.NoWrap len)
  | .moveFrontRight => inferInstanceAs (Decidable (b.start + len < 2 ^ 64))
  | .moveBackRight => inferInstanceAs (Decidable (b.stop + len < 2 ^ 64))
  | .truncate | .popBack | .popFront | .moveFrontLeft | .moveBackLeft =>
    inferInstanceAs (Decidable True)

instance (b : Buffer) : DecidablePred b.Fits
  | .window op len => inferInstanceAs (Decidable (b.NoWrap len op))
  | .pushBack data | .writeBack data => inferInstanceAs (Decidable (b.stop + data.length < 2 ^ 63))
  | .ensureBack more => inferInstanceAs (Decidable (b.stop + more < 2 ^ 63))

/-! ## Buffers and parts -/

/-- A well-formed buffer is its parts, -/
theorem toBuffer_parts {b : Buffer} (hb : b.WellFormed) : b.parts.toBuffer = b := by
  have hhead := hb.length_headroom
  have hview := hb.length_deref
  have hbuf : b.headroom ++ b.deref ++ b.tailroom = b.buf := by
    have hcut : b.headroom = (b.buf.take b.stop).take b.start := by
      rw [List.take_take, Nat.min_eq_left hb.start_le, headroom]
    rw [hcut, deref, List.take_append_drop, tailroom, List.take_append_drop]
  obtain ⟨buf, start, stop⟩ := b
  simp only [Parts.toBuffer, parts, hbuf, hhead, hview, Nat.add_sub_cancel' hb.start_le]

/-- and conversely. -/
@[simp] theorem parts_toBuffer (p : Parts) : p.toBuffer.parts = p := by
  have htake : (p.headroom ++ p.visible ++ p.tailroom).take
      (p.headroom.length + p.visible.length) = p.headroom ++ p.visible :=
    List.take_left' List.length_append
  have hdrop : (p.headroom ++ p.visible ++ p.tailroom).drop
      (p.headroom.length + p.visible.length) = p.tailroom :=
    List.drop_left' List.length_append
  simp only [parts, headroom, deref, tailroom, Parts.toBuffer, htake, hdrop]
  simp

theorem wellFormed_toBuffer {p : Parts} (hlen : p.toBuffer.buf.length < 2 ^ 63) :
    p.toBuffer.WellFormed where
  start_le := Nat.le_add_right ..
  stop_le := by
    simp only [Parts.toBuffer, List.length_append]
    exact Nat.le_add_right ..
  length_lt := hlen

theorem source_parts (b : Buffer) (op : WindowOp) : b.parts.source op = b.source op := by
  cases op <;> rfl

/-- The window moves over the bytes as the parts say. -/
theorem moved_toBuffer {p : Parts} {op : WindowOp} {len : Nat}
    (hlen : len ≤ (p.source op).length) :
    p.toBuffer.moved len op = (p.moved len op).toBuffer := by
  cases op <;>
  · simp only [Parts.source] at hlen
    simp only [moved, Parts.moved, Parts.toBuffer, Buffer.mk.injEq, List.append_assoc,
      take_append_drop_append, List.take_append_drop, List.length_append, List.length_take,
      List.length_drop, true_and]
    try omega

/-! ## The functions on the parts -/

theorem length_toBuffer (p : Parts) :
    p.toBuffer.buf.length = p.headroom.length + p.visible.length + p.tailroom.length := by
  simp only [Parts.toBuffer, List.length_append]

theorem ensureBack_toBuffer (p : Parts) (more : Nat) (hmore : p.toBuffer.stop + more < 2 ^ 63)
    (hlen : p.toBuffer.buf.length < 2 ^ 63) :
    p.toBuffer.ensureBack more = .ok (p.room more).toBuffer := by
  have hsum := length_toBuffer p
  have hstop : p.toBuffer.stop = p.headroom.length + p.visible.length := rfl
  have hremain : usizeSub p.toBuffer.buf.length p.toBuffer.stop = p.tailroom.length := by
    rw [usizeSub_of_le (by omega) (by omega)]
    omega
  simp only [ensureBack, hremain]
  rw [if_pos (by omega)]
  by_cases hroom : p.tailroom.length < more
  · have hsub : usizeSub more p.tailroom.length = more - p.tailroom.length :=
      usizeSub_of_le (Nat.le_of_lt hroom) (by omega)
    rw [if_pos hroom, hsub, allocateBack_of_lt (by omega), ok_bind, pure_eq_ok]
    simp only [Parts.toBuffer, Parts.room, List.append_assoc]
  · have hnone : more - p.tailroom.length = 0 := by omega
    rw [if_neg hroom, Parts.room, hnone, List.replicate_zero, List.append_nil, pure_eq_ok]

/-- With room for the data, what is dropped off the tailroom is what it had. -/
theorem drop_room (p : Parts) (more : Nat) :
    (p.room more).tailroom.drop more = p.tailroom.drop more := by
  rw [Parts.room, List.drop_append, List.drop_replicate, Nat.sub_self, List.replicate_zero,
    List.append_nil]

theorem copyFromSlice_room (p : Parts) (data : List UInt8) :
    copyFromSlice (p.room data.length).toBuffer.buf p.toBuffer.stop
        (p.toBuffer.stop + data.length) data =
      .ok (p.headroom ++ p.visible ++ (data ++ p.tailroom.drop data.length)) := by
  have hroom : data.length ≤ (p.room data.length).tailroom.length := by
    simp only [Parts.room, List.length_append, List.length_replicate]
    omega
  have hstop : p.toBuffer.stop = (p.headroom ++ p.visible).length := List.length_append.symm
  rw [hstop, ← drop_room]
  exact copyFromSlice_append hroom

theorem pushBack_toBuffer (p : Parts) (data : List UInt8)
    (hdata : p.toBuffer.stop + data.length < 2 ^ 63) (hlen : p.toBuffer.buf.length < 2 ^ 63) :
    p.toBuffer.pushBack data = .ok (p.step (.pushBack data)).2.toBuffer := by
  have hstop : (p.room data.length).toBuffer.stop = p.toBuffer.stop := rfl
  have hadd : usizeAdd p.toBuffer.stop data.length = p.toBuffer.stop + data.length :=
    usizeAdd_of_lt (by omega)
  simp only [pushBack, ensureBack_toBuffer p _ hdata hlen, ok_bind, hstop, hadd, copyFromSlice_room,
    pure_eq_ok]
  simp only [Parts.toBuffer, Parts.step, Parts.room, List.append_assoc, List.length_append,
    Nat.add_assoc]

theorem writeBack_toBuffer (p : Parts) (data : List UInt8)
    (hdata : p.toBuffer.stop + data.length < 2 ^ 63) (hlen : p.toBuffer.buf.length < 2 ^ 63) :
    p.toBuffer.writeBack data = .ok (p.step (.writeBack data)).2.toBuffer := by
  have hstop : (p.room data.length).toBuffer.stop = p.toBuffer.stop := rfl
  have hadd : usizeAdd p.toBuffer.stop data.length = p.toBuffer.stop + data.length :=
    usizeAdd_of_lt (by omega)
  have hslice : ∃ bytes, slice (p.room data.length).toBuffer.buf p.toBuffer.stop
      (p.toBuffer.stop + data.length) = .ok bytes := by
    obtain ⟨bytes, hbytes, -⟩ := bind_ok.1 (copyFromSlice_room p data)
    exact ⟨bytes, hbytes⟩
  obtain ⟨bytes, hbytes⟩ := hslice
  simp only [writeBack, backMut, ensureBack_toBuffer p _ hdata hlen, ok_bind, hstop, hadd, hbytes,
    copyFromSlice_room, pure_eq_ok]
  simp only [Parts.toBuffer, Parts.step, Parts.room]

theorem perform_window {b : Buffer} (hb : b.WellFormed) {op : WindowOp} {len : Nat}
    (hwrap : b.NoWrap len op) :
    b.perform (.window op len) =
      .ok (if len ≤ (b.source op).length then some (b.parts.taken len op) else none,
        (b.run len op).2) := by
  cases op with
  | popBack =>
      have hshown := (BufferView.deref_popBack hb.toView hb.deref_toView len).1
      simp only [perform, toView_popBack, hshown, ok_bind, pure_eq_ok]
      rfl
  | popFront =>
      have hshown := (BufferView.deref_popFront hb.toView hb.deref_toView len).1
      simp only [perform, toView_popFront, hshown, ok_bind, pure_eq_ok]
      rfl
  | _ =>
      simp only [perform, run_eq hb hwrap]
      split <;> rfl

/-- **A step of a buffer is the step of its parts**, and keeps it well-formed. -/
theorem perform_eq {b : Buffer} (hb : b.WellFormed) {op : BufferOp} (hfits : b.Fits op) :
    b.perform op = .ok ((b.parts.step op).1, (b.parts.step op).2.toBuffer) ∧
      (b.parts.step op).2.toBuffer.WellFormed := by
  have hb' := toBuffer_parts hb
  have hsize : b.parts.toBuffer.buf.length < 2 ^ 63 := by
    rw [hb']
    exact hb.length_lt
  have hsum := length_toBuffer b.parts
  have hstop : b.parts.headroom.length + b.parts.visible.length = b.stop :=
    congrArg Buffer.stop hb'
  cases op with
  | window op len =>
      have hwrap : b.NoWrap len op := hfits
      have hrun := run_eq hb hwrap
      rw [perform_window hb hwrap]
      simp only [Parts.step, source_parts]
      by_cases hle : len ≤ (b.source op).length
      · have hmoved : b.moved len op = (b.parts.moved len op).toBuffer := by
          rw [← moved_toBuffer (by rwa [source_parts]), hb']
        rw [if_pos hle] at hrun
        rw [if_pos hle, if_pos hle, hrun, ← hmoved]
        exact ⟨rfl, hb.moved hle⟩
      · rw [if_neg hle] at hrun
        rw [if_neg hle, if_neg hle, hrun, hb']
        exact ⟨rfl, hb⟩
  | pushBack data =>
      have hfits : b.stop + data.length < 2 ^ 63 := hfits
      have hpush := pushBack_toBuffer b.parts data (by rwa [hb']) hsize
      rw [hb'] at hpush
      constructor
      · simp only [perform, hpush, ok_bind, pure_eq_ok]
        rfl
      · apply wellFormed_toBuffer
        simp only [length_toBuffer, Parts.step, List.length_append, List.length_drop]
        omega
  | ensureBack more =>
      have hfits : b.stop + more < 2 ^ 63 := hfits
      have hensure := ensureBack_toBuffer b.parts more (by rwa [hb']) hsize
      rw [hb'] at hensure
      constructor
      · simp only [perform, hensure, ok_bind, pure_eq_ok]
        rfl
      · apply wellFormed_toBuffer
        simp only [length_toBuffer, Parts.step, Parts.room, List.length_append,
          List.length_replicate]
        omega
  | writeBack data =>
      have hfits : b.stop + data.length < 2 ^ 63 := hfits
      have hwrite := writeBack_toBuffer b.parts data (by rwa [hb']) hsize
      rw [hb'] at hwrite
      constructor
      · simp only [perform, hwrite, ok_bind, pure_eq_ok]
        rfl
      · apply wellFormed_toBuffer
        simp only [length_toBuffer, Parts.step, List.length_append, List.length_drop]
        omega

end Buffer

end SansIo
