import SansIo.Buffer.Laws

/-!
# Layers

What the headroom of a `Buffer` is for, as the comment on `new` has it: a protocol puts a header
in front of the contents and a trailer behind them, the protocol below it does the same, and
whoever receives the bytes takes them off again, outermost first.

`unwrapAll_wrapAll` is the round trip.  The headers have to fit into the headroom together,
as `push_front` loses bytes where a headroom is too short for it (`Prependable`); the vector
does not grow where the trailers fit into the tailroom.
-/

namespace SansIo

open Lib

/-- A header and a trailer. -/
structure Layer where
  /-- What is put in front. -/
  header : List UInt8
  /-- What is put behind. -/
  trailer : List UInt8

namespace Layer

/-- How many bytes layers put in front. -/
def front : List Layer → Nat
  | [] => 0
  | l :: layers => l.header.length + front layers

/-- How many bytes they put behind. -/
def back : List Layer → Nat
  | [] => 0
  | l :: layers => l.trailer.length + back layers

/-- The bytes with layers around them, outermost first. -/
def framed (bytes : List UInt8) : List Layer → List UInt8
  | [] => bytes
  | l :: layers => l.header ++ framed bytes layers ++ l.trailer

/-- What one has to know of layers in order to take them off. -/
def sizes (layers : List Layer) : List (Nat × Nat) :=
  layers.map fun l ↦ (l.header.length, l.trailer.length)

@[simp] theorem front_cons (l : Layer) (layers : List Layer) :
    front (l :: layers) = l.header.length + front layers := rfl

@[simp] theorem back_cons (l : Layer) (layers : List Layer) :
    back (l :: layers) = l.trailer.length + back layers := rfl

end Layer

namespace Buffer

/-- A layer is put around the contents. -/
def wrap (b : Buffer) (l : Layer) : Panics Buffer := do
  let b ← b.pushFront l.header
  b.pushBack l.trailer

/-- One layer after the other is, the outermost last. -/
def wrapAll (b : Buffer) : List Layer → Panics Buffer
  | [] => pure b
  | l :: layers => do
    let b ← b.wrapAll layers
    b.wrap l

/-- A layer is taken off, where there are as many bytes. -/
def unwrap (b : Buffer) (front back : Nat) : Panics (Option (Layer × Buffer)) := do
  match ← BufferView.shown (b.popFront front).1 with
  | none => pure none
  | some header =>
    let b := (b.popFront front).2
    match ← BufferView.shown (b.popBack back).1 with
    | none => pure none
    | some trailer => pure (some (⟨header, trailer⟩, (b.popBack back).2))

/-- One layer after the other is, the outermost first. -/
def unwrapAll (b : Buffer) : List (Nat × Nat) → Panics (Option (List Layer × Buffer))
  | [] => pure (some ([], b))
  | (front, back) :: sizes => do
    match ← b.unwrap front back with
    | none => pure none
    | some (l, b) => match ← b.unwrapAll sizes with
      | none => pure none
      | some (layers, b) => pure (some (l :: layers, b))

/-! ## Putting on -/

/-- `push_front` into the headroom moves the window over the data, and nothing else. -/
theorem pushFront_toBuffer (p : Parts) {data : List UInt8}
    (hdata : data.length ≤ p.headroom.length) (hlen : p.toBuffer.buf.length < 2 ^ 63) :
    p.toBuffer.pushFront data = .ok (Parts.toBuffer
      ⟨p.headroom.take (p.headroom.length - data.length), data ++ p.visible, p.tailroom⟩) := by
  let kept := p.headroom.take (p.headroom.length - data.length)
  let gone := p.headroom.drop (p.headroom.length - data.length)
  have hkept : kept.length = p.headroom.length - data.length := by
    rw [List.length_take, Nat.min_eq_left (Nat.sub_le _ _)]
  have hgone : gone.length = data.length := by
    rw [List.length_drop, Nat.sub_sub_self hdata]
  have hbuf : p.toBuffer.buf = kept ++ (gone ++ (p.visible ++ p.tailroom)) := by
    rw [← List.append_assoc kept, List.take_append_drop, ← List.append_assoc]
    rfl
  have hstart : kept.length + data.length = p.toBuffer.start := by
    rw [hkept, Nat.sub_add_cancel hdata]
    rfl
  have hroom' : data.length ≤ (gone ++ (p.visible ++ p.tailroom)).length := by
    rw [List.length_append, hgone]
    exact Nat.le_add_right _ _
  have hwrite : copyFromSlice (kept ++ (gone ++ (p.visible ++ p.tailroom))) kept.length
      (kept.length + data.length) data = _ := copyFromSlice_append hroom'
  rw [← hbuf, hstart, List.drop_left' hgone] at hwrite
  have hroom : p.toBuffer.ensureFront data.length = .ok p.toBuffer := ensureFront_of_le hdata
  rw [pushFront_eq_ok (wellFormed_toBuffer hlen) hroom]
  refine ⟨_, hkept ▸ hwrite, ?_⟩
  simp only [Parts.toBuffer, List.append_assoc, List.length_append, ← Nat.add_assoc]
  rw [show (p.headroom.take (p.headroom.length - data.length)).length + data.length =
    p.headroom.length from hstart]
  exact congrArg (Buffer.mk _ · _) hkept

/-- Putting a layer around the contents puts it around the visible part. -/
theorem wrap_toBuffer (p : Parts) {l : Layer} (hfront : l.header.length ≤ p.headroom.length)
    (hlen : p.toBuffer.buf.length + l.trailer.length < 2 ^ 63) :
    p.toBuffer.wrap l = .ok (Parts.toBuffer
      ⟨p.headroom.take (p.headroom.length - l.header.length),
        l.header ++ p.visible ++ l.trailer, p.tailroom.drop l.trailer.length⟩) := by
  let pushed : Parts := ⟨p.headroom.take (p.headroom.length - l.header.length),
    l.header ++ p.visible, p.tailroom⟩
  have hlen' : pushed.toBuffer.buf.length = p.toBuffer.buf.length := by
    simp only [length_toBuffer, pushed, List.length_take, List.length_append]
    omega
  have hstop : pushed.toBuffer.stop ≤ pushed.toBuffer.buf.length :=
    (wellFormed_toBuffer (by omega)).stop_le
  have hpush := pushFront_toBuffer p hfront (by omega)
  rw [wrap, hpush, ok_bind]
  exact pushBack_toBuffer pushed l.trailer (by omega) (by omega)

/-- What putting layers around the contents comes to. -/
structure Wraps (b : Buffer) (layers : List Layer) (b' : Buffer) : Prop where
  wellFormed : b'.WellFormed
  /-- The contents are within the layers, -/
  deref_eq : b'.deref = Layer.framed b.deref layers
  /-- for which the window has grown to the front -/
  start_eq : b'.start + Layer.front layers = b.start
  /-- and to the back, -/
  stop_eq : b'.stop = b.stop + Layer.back layers
  /-- and the vector only where the tailroom is used up. -/
  length_eq : b'.buf.length = max b.buf.length b'.stop

/-- One layer is put on where its header fits into the headroom. -/
theorem wrap_ok {b : Buffer} (hb : b.WellFormed) {l : Layer} (hfront : l.header.length ≤ b.start)
    (hlen : b.buf.length + l.trailer.length < 2 ^ 63) :
    ∃ b', b.wrap l = .ok b' ∧ b.Wraps [l] b' := by
  have hhead : b.parts.headroom.length = b.start := hb.length_headroom
  have hview : b.parts.visible.length = b.stop - b.start := hb.length_deref
  have htail : b.parts.tailroom.length = b.buf.length - b.stop := b.length_tailroom
  have hwrap := wrap_toBuffer b.parts (hhead.symm ▸ hfront) ((toBuffer_parts hb).symm ▸ hlen)
  rw [toBuffer_parts hb] at hwrap
  refine ⟨_, hwrap, ?_⟩
  generalize hp : Parts.mk _ _ _ = p
  have hhead' : p.headroom.length = b.start - l.header.length := by
    rw [← hp, List.length_take, hhead, Nat.min_eq_left (Nat.sub_le _ _)]
  have hview' : p.visible.length =
      l.header.length + (b.stop - b.start) + l.trailer.length := by
    rw [← hp, List.length_append, List.length_append, hview]
  have htail' : p.tailroom.length = b.buf.length - b.stop - l.trailer.length := by
    rw [← hp, List.length_drop, htail]
  have hstart' : p.toBuffer.start = p.headroom.length := rfl
  have hstop' : p.toBuffer.stop = p.headroom.length + p.visible.length := rfl
  have hlength' := length_toBuffer p
  have hstart := hb.start_le
  have hstop := hb.stop_le
  have hfront' : Layer.front [l] = l.header.length := Nat.add_zero _
  have hback' : Layer.back [l] = l.trailer.length := Nat.add_zero _
  refine ⟨wellFormed_toBuffer (by omega), ?_, by omega, by omega, by omega⟩
  have hvisible : p.toBuffer.deref = p.visible := congrArg Parts.visible (parts_toBuffer p)
  rw [hvisible, ← hp]
  rfl

/-- One more layer is put on. -/
theorem Wraps.cons {b b₁ b₂ : Buffer} {layers : List Layer} {l : Layer} (h : b.Wraps layers b₁)
    (hl : b₁.Wraps [l] b₂) : b.Wraps (l :: layers) b₂ := by
  have hstart := hl.start_eq
  have hstop := hl.stop_eq
  have hlength := hl.length_eq
  have hfront : Layer.front [l] = l.header.length := Nat.add_zero _
  have hback : Layer.back [l] = l.trailer.length := Nat.add_zero _
  rw [hfront] at hstart
  rw [hback] at hstop
  refine ⟨hl.wellFormed, ?_, ?_, ?_, ?_⟩
  · rw [hl.deref_eq, h.deref_eq]
    rfl
  · rw [Layer.front_cons, ← Nat.add_assoc, hstart, h.start_eq]
  · rw [hstop, h.stop_eq, Layer.back_cons, Nat.add_assoc, Nat.add_comm l.trailer.length]
  · have hle : b₁.stop ≤ b₂.stop := hstop ▸ Nat.le_add_right _ _
    rw [hlength, h.length_eq, Nat.max_assoc, Nat.max_eq_right hle]

/-- **Layers are put on** where the headers fit into the headroom. -/
theorem wrapAll_ok {b : Buffer} (hb : b.WellFormed) (layers : List Layer)
    (hfront : Layer.front layers ≤ b.start)
    (hlen : b.buf.length + Layer.back layers < 2 ^ 63) :
    ∃ b', b.wrapAll layers = .ok b' ∧ b.Wraps layers b' := by
  induction layers with
  | nil =>
      refine ⟨b, rfl, hb, rfl, rfl, rfl, ?_⟩
      exact (Nat.max_eq_left hb.stop_le).symm
  | cons l layers ih =>
      rw [Layer.front_cons] at hfront
      rw [Layer.back_cons] at hlen
      obtain ⟨b₁, hok, hwraps⟩ := ih (by omega) (by omega)
      have hstart := hwraps.start_eq
      have hstop := hwraps.stop_eq
      have hlength := hwraps.length_eq
      have hbound := hb.stop_le
      obtain ⟨b₂, hok', hwraps'⟩ := wrap_ok hwraps.wellFormed (l := l) (by omega) (by omega)
      exact ⟨b₂, by rw [wrapAll, hok, ok_bind, hok'], hwraps.cons hwraps'⟩

/-! ## Taking off -/

/-- A layer is taken off where it is. -/
theorem unwrap_ok {b : Buffer} (hb : b.WellFormed) {l : Layer} {bytes : List UInt8}
    (hbytes : b.deref = l.header ++ bytes ++ l.trailer) :
    ∃ b', b.unwrap l.header.length l.trailer.length = .ok (some (l, b')) ∧ b'.WellFormed ∧
      b'.deref = bytes ∧ b'.start = b.start + l.header.length ∧
      b'.stop + l.trailer.length = b.stop := by
  have hlen : b.deref.length = l.header.length + bytes.length + l.trailer.length := by
    rw [hbytes, List.length_append, List.length_append]
  have hfront : l.header.length ≤ b.deref.length := by omega
  obtain ⟨hheader, hrest⟩ := deref_popFront hb l.header.length
  rw [if_pos hfront, hbytes, List.append_assoc, List.take_left' rfl] at hheader
  rw [if_pos hfront, hbytes, List.append_assoc, List.drop_left' rfl] at hrest
  have hmoved := popFront_snd hb hfront
  have hb₁ : (b.popFront l.header.length).2.WellFormed := by
    rw [hmoved]
    exact hb.moved hfront
  have hback : l.trailer.length ≤ (b.popFront l.header.length).2.deref.length := by
    rw [hrest, List.length_append]
    exact Nat.le_add_left _ _
  obtain ⟨htrailer, hinner⟩ := deref_popBack hb₁ l.trailer.length
  rw [if_pos hback, hrest, List.length_append, Nat.add_sub_cancel, List.drop_left' rfl] at htrailer
  rw [if_pos hback, hrest, List.length_append, Nat.add_sub_cancel, List.take_left' rfl] at hinner
  have hmoved' := popBack_snd hb₁ hback
  refine ⟨_, by simp only [unwrap, hheader, htrailer, ok_bind, pure_eq_ok], ?_, hinner, ?_, ?_⟩
  · rw [hmoved']
    exact hb₁.moved hback
  · rw [hmoved', hmoved]
    rfl
  · have hview := hb.length_deref
    have hstop : l.trailer.length ≤ b.stop := by omega
    rw [hmoved', hmoved]
    exact Nat.sub_add_cancel hstop

/-- Layers are taken off where they are. -/
theorem unwrapAll_ok {b : Buffer} (hb : b.WellFormed) (layers : List Layer) {bytes : List UInt8}
    (hbytes : b.deref = Layer.framed bytes layers) :
    ∃ b', b.unwrapAll (Layer.sizes layers) = .ok (some (layers, b')) ∧ b'.deref = bytes ∧
      b'.start = b.start + Layer.front layers ∧ b'.stop + Layer.back layers = b.stop := by
  induction layers generalizing b with
  | nil => exact ⟨b, rfl, hbytes, rfl, rfl⟩
  | cons l layers ih =>
      obtain ⟨b₁, hok, hb₁, hderef, hstart, hstop⟩ := unwrap_ok hb hbytes
      obtain ⟨b₂, hok', hderef', hstart', hstop'⟩ := ih hb₁ hderef
      refine ⟨b₂, ?_, hderef', ?_, ?_⟩
      · change Buffer.unwrapAll b ((l.header.length, l.trailer.length) :: Layer.sizes layers) = _
        rw [unwrapAll, hok, ok_bind]
        dsimp only
        rw [hok', ok_bind]
        rfl
      · rw [hstart', hstart, Layer.front_cons, Nat.add_assoc]
      · rw [Layer.back_cons, Nat.add_comm l.trailer.length, ← Nat.add_assoc, hstop', hstop]

/-- **Layers that are put on come off again**, whoever takes them off: in any buffer that shows
the same bytes they are found one after the other, with the contents within.  In the same
buffer that leaves the window where it was. -/
theorem unwrapAll_wrapAll {b : Buffer} (hb : b.WellFormed) (layers : List Layer)
    (hfront : Layer.front layers ≤ b.start)
    (hlen : b.buf.length + Layer.back layers < 2 ^ 63) :
    ∃ b', b.wrapAll layers = .ok b' ∧ b.Wraps layers b' ∧
      ∀ r : Buffer, r.WellFormed → r.deref = b'.deref →
        ∃ r', r.unwrapAll (Layer.sizes layers) = .ok (some (layers, r')) ∧ r'.deref = b.deref ∧
          (r = b' → r'.start = b.start ∧ r'.stop = b.stop) := by
  obtain ⟨b', hok, hwraps⟩ := wrapAll_ok hb layers hfront hlen
  refine ⟨b', hok, hwraps, fun r hr hsame ↦ ?_⟩
  obtain ⟨r', hok', hderef, hstart, hstop⟩ := unwrapAll_ok hr layers (hsame.trans hwraps.deref_eq)
  refine ⟨r', hok', hderef, ?_⟩
  rintro rfl
  constructor
  · rw [hstart, hwraps.start_eq]
  · exact Nat.add_right_cancel (hstop.trans hwraps.stop_eq)

/-- Two layers around two bytes, with a headroom of three. -/
theorem unwrapAll_wrapAll_two :
    ∃ b', (build [1, 2] 3 1).wrapAll [⟨[8], [9, 9]⟩, ⟨[6, 7], []⟩] = .ok b' ∧
      b'.deref = [8, 6, 7, 1, 2, 9, 9] ∧
      ∀ r : Buffer, r.WellFormed → r.deref = b'.deref →
        ∃ r', r.unwrapAll [(1, 2), (2, 0)] = .ok (some ([⟨[8], [9, 9]⟩, ⟨[6, 7], []⟩], r')) ∧
          r'.deref = [1, 2] := by
  obtain ⟨b', hok, hwraps, hoff⟩ := unwrapAll_wrapAll (wellFormed_build (by decide))
    [⟨[8], [9, 9]⟩, ⟨[6, 7], []⟩] (b := build [1, 2] 3 1) (by decide) (by decide)
  refine ⟨b', hok, hwraps.deref_eq, fun r hr hsame ↦ ?_⟩
  obtain ⟨r', hok', hderef, -⟩ := hoff r hr hsame
  exact ⟨r', hok', hderef⟩

end Buffer

end SansIo
