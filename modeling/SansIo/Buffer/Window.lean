import SansIo.Buffer.View

/-!
# Moving the window of a buffer

`src/buffer.rs`, the functions that move an end of the window over the bytes.  A well-formed
buffer is three parts: the headroom before the window, the window, and the tailroom behind
it.  Each of these functions takes bytes off one part, which has to have as many
(`Buffer.run_eq`).

The guards are written in different ways.  Those that subtract are right for every length;
`move_front_right` and `move_back_right` add the length first, and a sum that wraps passes
the guard (`Buffer.exact_iff`).
-/

namespace SansIo

open Lib

/-- The functions that move the window. -/
inductive WindowOp where
  | truncate
  | popBack
  | popFront
  | moveFrontRight
  | moveFrontLeft
  | moveBackRight
  | moveBackLeft
deriving DecidableEq

namespace Buffer

/-- `truncate`. -/
def truncate (b : Buffer) (len : Nat) : Option Buffer :=
  if usizeSub b.stop b.start ≥ len then some { b with stop := usizeAdd b.start len } else none

/-- `pop_back`: a view of the part that is taken off, and the buffer afterwards. -/
def popBack (b : Buffer) (len : Nat) : Option BufferView × Buffer :=
  match Span.popBack ⟨b.start, b.stop⟩ len with
  | some (taken, rest) => (some ⟨b.buf, taken⟩, ⟨b.buf, rest.start, rest.stop⟩)
  | none => (none, b)

/-- `pop_front`. -/
def popFront (b : Buffer) (len : Nat) : Option BufferView × Buffer :=
  match Span.popFront ⟨b.start, b.stop⟩ len with
  | some (taken, rest) => (some ⟨b.buf, taken⟩, ⟨b.buf, rest.start, rest.stop⟩)
  | none => (none, b)

/-- `move_front_right`. -/
def moveFrontRight (b : Buffer) (len : Nat) : Option Buffer :=
  if usizeAdd b.start len > b.stop then none
  else some { b with start := usizeAdd b.start len }

/-- `move_back_left`. -/
def moveBackLeft (b : Buffer) (len : Nat) : Option Buffer :=
  if b.stop < len ∨ usizeSub b.stop len < b.start then none
  else some { b with stop := usizeSub b.stop len }

/-- A function that moves the window: whether it returns `Some`, and the buffer
afterwards. -/
def run (b : Buffer) (len : Nat) : WindowOp → Bool × Buffer
  | .truncate => ((b.truncate len).isSome, (b.truncate len).getD b)
  | .popBack => ((b.popBack len).1.isSome, (b.popBack len).2)
  | .popFront => ((b.popFront len).1.isSome, (b.popFront len).2)
  | .moveFrontRight => ((b.moveFrontRight len).isSome, (b.moveFrontRight len).getD b)
  | .moveFrontLeft => ((b.moveFrontLeft len).isSome, (b.moveFrontLeft len).getD b)
  | .moveBackRight => ((b.moveBackRight len).isSome, (b.moveBackRight len).getD b)
  | .moveBackLeft => ((b.moveBackLeft len).isSome, (b.moveBackLeft len).getD b)

/-! ## The three parts -/

/-- The bytes before the window. -/
def headroom (b : Buffer) : List UInt8 := b.buf.take b.start

/-- The bytes behind the window. -/
def tailroom (b : Buffer) : List UInt8 := b.buf.drop b.stop

/-- The part that a function takes bytes off. -/
def source (b : Buffer) : WindowOp → List UInt8
  | .moveFrontLeft => b.headroom
  | .moveBackRight => b.tailroom
  | _ => b.deref

/-- The window after a function has taken `len` bytes off that part. -/
def moved (b : Buffer) (len : Nat) : WindowOp → Buffer
  | .truncate => { b with stop := b.start + len }
  | .popBack | .moveBackLeft => { b with stop := b.stop - len }
  | .popFront | .moveFrontRight => { b with start := b.start + len }
  | .moveFrontLeft => { b with start := b.start - len }
  | .moveBackRight => { b with stop := b.stop + len }

/-- The sum that the guard of a function adds up is one of `usize`. -/
def NoWrap (b : Buffer) (len : Nat) : WindowOp → Prop
  | .moveFrontRight => b.start + len < 2 ^ 64
  | .moveBackRight => b.stop + len < 2 ^ 64
  | _ => True

theorem WellFormed.within {b : Buffer} (hb : b.WellFormed) :
    Span.Within ⟨b.start, b.stop⟩ b.buf := ⟨hb.start_le, hb.stop_le, hb.length_lt⟩

theorem WellFormed.length_headroom {b : Buffer} (hb : b.WellFormed) :
    b.headroom.length = b.start := by
  rw [headroom, List.length_take, Nat.min_eq_left (Nat.le_trans hb.start_le hb.stop_le)]

theorem length_tailroom (b : Buffer) : b.tailroom.length = b.buf.length - b.stop :=
  List.length_drop

theorem WellFormed.length_deref {b : Buffer} (hb : b.WellFormed) :
    b.deref.length = b.stop - b.start := by
  rw [deref, List.length_drop, List.length_take, Nat.min_eq_left hb.stop_le]

/-- The window as a view of the bytes. -/
def toView (b : Buffer) : BufferView := ⟨b.buf, b.start, b.stop⟩

theorem WellFormed.toView {b : Buffer} (hb : b.WellFormed) : b.toView.WellFormed := hb.within

theorem WellFormed.deref_toView {b : Buffer} (hb : b.WellFormed) : b.toView.deref = .ok b.deref :=
  hb.toView.deref_eq

/-- A pop of a buffer is one of its window. -/
theorem toView_popFront (b : Buffer) (len : Nat) :
    (b.popFront len).1 = (b.toView.popFront len).1 ∧
      (b.popFront len).2.toView = (b.toView.popFront len).2 := by
  simp only [popFront, BufferView.popFront, toView]
  cases Span.popFront ⟨b.start, b.stop⟩ len <;> exact ⟨rfl, rfl⟩

theorem toView_popBack (b : Buffer) (len : Nat) :
    (b.popBack len).1 = (b.toView.popBack len).1 ∧
      (b.popBack len).2.toView = (b.toView.popBack len).2 := by
  simp only [popBack, BufferView.popBack, toView]
  cases Span.popBack ⟨b.start, b.stop⟩ len <;> exact ⟨rfl, rfl⟩

/-- A window that was moved as far as its part allows is one of the bytes. -/
theorem WellFormed.moved {b : Buffer} (hb : b.WellFormed) {op : WindowOp} {len : Nat}
    (hlen : len ≤ (b.source op).length) : (b.moved len op).WellFormed := by
  have hhead := hb.length_headroom
  have htail := b.length_tailroom
  have hview := hb.length_deref
  obtain ⟨hstart, hstop, hsize⟩ := hb
  cases op <;>
  · simp only [source] at hlen
    constructor <;>
    · simp only [Buffer.moved]
      omega

/-- **What a function that moves the window does**, where its guard does not wrap. -/
theorem run_eq {b : Buffer} (hb : b.WellFormed) {op : WindowOp} {len : Nat}
    (hwrap : b.NoWrap len op) :
    b.run len op = if len ≤ (b.source op).length then (true, b.moved len op) else (false, b) := by
  have hhead := hb.length_headroom
  have htail := b.length_tailroom
  have hview := hb.length_deref
  have hwithin := hb.within
  obtain ⟨hstart, hstop, hsize⟩ := hb
  have hsub : usizeSub b.stop b.start = b.stop - b.start := usizeSub_of_le hstart (by omega)
  cases op with
  | truncate =>
      simp only [run, truncate, source, hview, hsub]
      by_cases hle : len ≤ b.stop - b.start
      · rw [if_pos hle, if_pos hle, usizeAdd_of_lt (by omega)]
        rfl
      · rw [if_neg hle, if_neg hle]
        rfl
  | popBack =>
      simp only [run, popBack, source, hview, hwithin.popBack_eq]
      by_cases hle : len ≤ b.stop - b.start
      · rw [if_pos hle, if_pos hle]
        rfl
      · rw [if_neg hle, if_neg hle]
        rfl
  | popFront =>
      simp only [run, popFront, source, hview, hwithin.popFront_eq]
      by_cases hle : len ≤ b.stop - b.start
      · rw [if_pos hle, if_pos hle]
        rfl
      · rw [if_neg hle, if_neg hle]
        rfl
  | moveFrontRight =>
      have hadd : usizeAdd b.start len = b.start + len := usizeAdd_of_lt hwrap
      simp only [run, moveFrontRight, source, hview, hadd]
      by_cases hle : len ≤ b.stop - b.start
      · rw [if_pos hle, if_neg (by omega)]
        rfl
      · rw [if_neg hle, if_pos (by omega)]
        rfl
  | moveFrontLeft =>
      simp only [run, moveFrontLeft, source, hhead]
      by_cases hle : len ≤ b.start
      · rw [if_pos hle, if_neg (by omega), usizeSub_of_le hle (by omega)]
        rfl
      · rw [if_neg hle, if_pos (by omega)]
        rfl
  | moveBackRight =>
      have hadd : usizeAdd b.stop len = b.stop + len := usizeAdd_of_lt hwrap
      simp only [run, moveBackRight, source, htail, hadd]
      by_cases hle : len ≤ b.buf.length - b.stop
      · rw [if_pos hle, if_neg (by omega)]
        rfl
      · rw [if_neg hle, if_pos (by omega)]
        rfl
  | moveBackLeft =>
      simp only [run, moveBackLeft, source, hview]
      by_cases hle : len ≤ b.stop - b.start
      · have hsub' : usizeSub b.stop len = b.stop - len := usizeSub_of_le (by omega) (by omega)
        rw [if_pos hle, hsub', if_neg (by omega)]
        rfl
      · rw [if_neg hle, if_pos]
        · rfl
        · rcases Nat.lt_or_ge b.stop len with hlt | hge
          · exact .inl hlt
          · right
            rw [usizeSub_of_le hge (by omega)]
            omega

/-! ## Lengths near the end of `usize` -/

/-- A function moves the window exactly where its part has as many bytes: then the buffer
stays well-formed, and otherwise it is unchanged. -/
structure Exact (b : Buffer) (len : Nat) (op : WindowOp) : Prop where
  some_iff : (b.run len op).1 = true ↔ len ≤ (b.source op).length
  wellFormed : (b.run len op).1 = true → (b.run len op).2.WellFormed
  unchanged : (b.run len op).1 = false → (b.run len op).2 = b

/-- A sum that wraps passes the guard. -/
theorem run_of_wrap {b : Buffer} (hb : b.WellFormed) {op : WindowOp} {len : Nat}
    (hlen : len < 2 ^ 64) (hwrap : ¬ b.NoWrap len op) :
    (b.run len op).1 = true ∧ (b.source op).length < len := by
  have htail := b.length_tailroom
  have hview := hb.length_deref
  obtain ⟨hstart, hstop, hsize⟩ := hb
  cases op with
  | moveFrontRight =>
      have hover : ¬ b.start + len < 2 ^ 64 := hwrap
      have hadd : usizeAdd b.start len = b.start + len - 2 ^ 64 := by
        unfold usizeAdd
        omega
      simp only [run, moveFrontRight, source, hview, hadd]
      rw [if_neg (by omega)]
      exact ⟨rfl, by omega⟩
  | moveBackRight =>
      have hover : ¬ b.stop + len < 2 ^ 64 := hwrap
      have hadd : usizeAdd b.stop len = b.stop + len - 2 ^ 64 := by
        unfold usizeAdd
        omega
      simp only [run, moveBackRight, source, htail, hadd]
      rw [if_neg (by omega)]
      exact ⟨rfl, by omega⟩
  | _ => exact absurd trivial hwrap

/-- **A function that moves the window is exact unless the sum in its guard wraps.** -/
theorem exact_iff {b : Buffer} (hb : b.WellFormed) {len : Nat} (hlen : len < 2 ^ 64)
    (op : WindowOp) : b.Exact len op ↔ b.NoWrap len op := by
  constructor
  · intro hexact
    by_contra hwrap
    obtain ⟨hsome, hlt⟩ := run_of_wrap hb hlen hwrap
    exact absurd (hexact.some_iff.1 hsome) (Nat.not_le.2 hlt)
  · intro hwrap
    have heq := run_eq hb hwrap
    by_cases hle : len ≤ (b.source op).length
    · rw [if_pos hle] at heq
      constructor <;> rw [heq]
      · exact iff_of_true rfl hle
      · exact fun _ ↦ hb.moved hle
      · intro h
        cases h
    · rw [if_neg hle] at heq
      constructor <;> rw [heq]
      · exact iff_of_false Bool.false_ne_true hle
      · intro h
        cases h
      · exact fun _ ↦ rfl

/-- Every length up to the end of the window can be cut off, and no other. -/
theorem exact_iff_build :
    (build [1, 2, 3] 1 1).Exact 4 .moveFrontRight ↔
      (build [1, 2, 3] 1 1).NoWrap 4 .moveFrontRight :=
  exact_iff (wellFormed_build (by decide)) (by decide) .moveFrontRight

/-- With the greatest length both guards wrap: the front of the window moves to the left
by one byte, and so does its back. -/
theorem not_exact_build :
    (build [1, 2, 3] 1 1).WellFormed ∧
      (build [1, 2, 3] 1 1).moveFrontRight (2 ^ 64 - 1) = some ⟨[0, 1, 2, 3, 0], 0, 4⟩ ∧
      (build [1, 2, 3] 1 1).moveBackRight (2 ^ 64 - 1) = some ⟨[0, 1, 2, 3, 0], 1, 3⟩ ∧
      ¬ (build [1, 2, 3] 1 1).Exact (2 ^ 64 - 1) .moveFrontRight ∧
      ¬ (build [1, 2, 3] 1 1).Exact (2 ^ 64 - 1) .moveBackRight := by
  refine ⟨wellFormed_build (by decide), by decide, by decide, ?_, ?_⟩
  · intro h
    exact absurd (h.some_iff.1 (by decide)) (by decide)
  · intro h
    exact absurd (h.some_iff.1 (by decide)) (by decide)

end Buffer

end SansIo
