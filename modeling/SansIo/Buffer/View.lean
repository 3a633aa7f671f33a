import SansIo.Buffer.Front

/-!
# Views

`src/buffer.rs`, `BufferView`: a range of bytes that belong to someone else.  A view can
be narrowed from both ends, and a part of it is a view again.

No function checks its range before it subtracts the ends or slices the bytes, so a view
is sound only as long as its range is one of the bytes (`BufferView.WellFormed`).  Taking a
part off one of its ends keeps that.
-/

namespace SansIo

open Lib

/-- `Range<usize>`. -/
structure Span where
  /-- `start`. -/
  start : Nat
  /-- `end`. -/
  stop : Nat
deriving DecidableEq, Repr

namespace Span

/-- What `pop_back` does to the range of a view or of a buffer: the part that is taken
off, and what is left. -/
def popBack (r : Span) (len : Nat) : Option (Span × Span) :=
  if usizeSub r.stop r.start ≥ len then
    let stop := usizeSub r.stop len
    some (⟨stop, usizeAdd stop len⟩, ⟨r.start, stop⟩)
  else none

/-- What `pop_front` does to the range of a view or of a buffer. -/
def popFront (r : Span) (len : Nat) : Option (Span × Span) :=
  if usizeSub r.stop r.start ≥ len then
    let start := usizeAdd r.start len
    some (⟨usizeSub start len, start⟩, ⟨start, r.stop⟩)
  else none

/-- The range is one of the bytes. -/
structure Within (r : Span) (buf : List UInt8) : Prop where
  start_le : r.start ≤ r.stop
  stop_le : r.stop ≤ buf.length
  length_lt : buf.length < 2 ^ 63

variable {r : Span} {buf : List UInt8} {len : Nat}

theorem Within.usizeSub_eq (h : r.Within buf) : usizeSub r.stop r.start = r.stop - r.start := by
  obtain ⟨hstart, hstop, hlen⟩ := h
  exact usizeSub_of_le hstart (by omega)

/-- The part that `pop_back` takes off ends where the range ends. -/
theorem Within.popBack_eq (h : r.Within buf) (len : Nat) :
    r.popBack len = if len ≤ r.stop - r.start then
      some (⟨r.stop - len, r.stop⟩, ⟨r.start, r.stop - len⟩) else none := by
  rw [popBack, h.usizeSub_eq]
  obtain ⟨hstart, hstop, hlen⟩ := h
  by_cases hle : len ≤ r.stop - r.start
  · have hsub : usizeSub r.stop len = r.stop - len := usizeSub_of_le (by omega) (by omega)
    have hadd : usizeAdd (r.stop - len) len = r.stop := by
      rw [usizeAdd_of_lt (by omega)]
      omega
    simp only [ge_iff_le, if_pos hle, hsub, hadd]
  · simp only [ge_iff_le, if_neg hle]

/-- The part that `pop_front` takes off starts where the range starts. -/
theorem Within.popFront_eq (h : r.Within buf) (len : Nat) :
    r.popFront len = if len ≤ r.stop - r.start then
      some (⟨r.start, r.start + len⟩, ⟨r.start + len, r.stop⟩) else none := by
  rw [popFront, h.usizeSub_eq]
  obtain ⟨hstart, hstop, hlen⟩ := h
  by_cases hle : len ≤ r.stop - r.start
  · have hadd : usizeAdd r.start len = r.start + len := usizeAdd_of_lt (by omega)
    have hsub : usizeSub (r.start + len) len = r.start := by
      rw [usizeSub_of_le (by omega) (by omega)]
      omega
    simp only [ge_iff_le, if_pos hle, hadd, hsub]
  · simp only [ge_iff_le, if_neg hle]

/-- Both parts are ranges of the same bytes. -/
theorem Within.popBack (h : r.Within buf) {taken rest : Span}
    (hpop : r.popBack len = some (taken, rest)) : taken.Within buf ∧ rest.Within buf := by
  rw [h.popBack_eq] at hpop
  obtain ⟨hstart, hstop, hlen⟩ := h
  split at hpop
  · cases hpop
    constructor
    · exact ⟨Nat.sub_le .., hstop, hlen⟩
    · exact ⟨show r.start ≤ r.stop - len by omega, show r.stop - len ≤ _ by omega, hlen⟩
  · cases hpop

theorem Within.popFront (h : r.Within buf) {taken rest : Span}
    (hpop : r.popFront len = some (taken, rest)) : taken.Within buf ∧ rest.Within buf := by
  rw [h.popFront_eq] at hpop
  obtain ⟨hstart, hstop, hlen⟩ := h
  split at hpop
  · cases hpop
    constructor
    · exact ⟨Nat.le_add_right .., show r.start + len ≤ _ by omega, hlen⟩
    · exact ⟨show r.start + len ≤ r.stop by omega, hstop, hlen⟩
  · cases hpop

end Span

/-- `BufferView`. -/
structure BufferView where
  /-- The bytes. -/
  buf : List UInt8
  /-- The range of them that the view shows. -/
  range : Span
deriving DecidableEq, Repr

namespace BufferView

/-- `From<&[u8]>`. -/
def ofSlice (value : List UInt8) : BufferView := ⟨value, 0, value.length⟩

/-- `deref`, which panics when the range is not one of the bytes. -/
def deref (v : BufferView) : Panics (List UInt8) := slice v.buf v.range.start v.range.stop

/-- `to_slice2`. -/
def toSlice2 (v : BufferView) : Panics (List UInt8) := slice v.buf v.range.start v.range.stop

/-- `eq`. -/
def eq (v other : BufferView) : Panics Bool := do
  let bytes ← v.deref
  let bytes' ← other.deref
  pure (bytes == bytes')

/-- `view`. -/
def view (v : BufferView) (range : Span) : Option BufferView :=
  if usizeSub v.range.stop v.range.start ≥ range.stop then
    some ⟨v.buf, usizeAdd v.range.start range.start, usizeAdd v.range.start range.stop⟩
  else none

/-- `pop_back`: the part that is taken off, and the view afterwards. -/
def popBack (v : BufferView) (len : Nat) : Option BufferView × BufferView :=
  match v.range.popBack len with
  | some (taken, rest) => (some ⟨v.buf, taken⟩, ⟨v.buf, rest⟩)
  | none => (none, v)

/-- `pop_front`. -/
def popFront (v : BufferView) (len : Nat) : Option BufferView × BufferView :=
  match v.range.popFront len with
  | some (taken, rest) => (some ⟨v.buf, taken⟩, ⟨v.buf, rest⟩)
  | none => (none, v)

/-- The bytes that a view shows, where there is one. -/
def shown : Option BufferView → Panics (Option (List UInt8))
  | some v => some <$> v.deref
  | none => .ok none

/-- The range of the view is one of its bytes. -/
def WellFormed (v : BufferView) : Prop := v.range.Within v.buf

variable {v : BufferView} {bytes : List UInt8}

theorem WellFormed.deref_eq (hv : v.WellFormed) :
    v.deref = .ok ((v.buf.take v.range.stop).drop v.range.start) :=
  slice_eq_ok.2 ⟨hv.start_le, hv.stop_le, rfl⟩

/-- Both views that a pop leaves are ranges of the bytes. -/
theorem WellFormed.popBack (hv : v.WellFormed) (len : Nat) :
    (∀ w, (v.popBack len).1 = some w → w.WellFormed) ∧ (v.popBack len).2.WellFormed := by
  simp only [BufferView.popBack]
  cases hpop : v.range.popBack len with
  | none => exact ⟨by simp, hv⟩
  | some r =>
      obtain ⟨htaken, hrest⟩ := Span.Within.popBack hv hpop
      exact ⟨fun w hw ↦ Option.some.inj hw ▸ htaken, hrest⟩

theorem WellFormed.popFront (hv : v.WellFormed) (len : Nat) :
    (∀ w, (v.popFront len).1 = some w → w.WellFormed) ∧ (v.popFront len).2.WellFormed := by
  simp only [BufferView.popFront]
  cases hpop : v.range.popFront len with
  | none => exact ⟨by simp, hv⟩
  | some r =>
      obtain ⟨htaken, hrest⟩ := Span.Within.popFront hv hpop
      exact ⟨fun w hw ↦ Option.some.inj hw ▸ htaken, hrest⟩

theorem length_of_deref (hbytes : v.deref = .ok bytes) :
    bytes.length = v.range.stop - v.range.start := length_slice hbytes

/-- **What `pop_front` returns**: the first bytes, and it leaves the others. -/
theorem deref_popFront (hv : v.WellFormed) (hbytes : v.deref = .ok bytes) (len : Nat) :
    shown (v.popFront len).1 =
        .ok (if len ≤ bytes.length then some (bytes.take len) else none) ∧
      (v.popFront len).2.deref = .ok (if len ≤ bytes.length then bytes.drop len else bytes) := by
  have hsize := length_of_deref hbytes
  have hstop : v.range.start + bytes.length = v.range.stop := by
    have := hv.start_le
    omega
  simp only [popFront, Span.Within.popFront_eq hv, ← hsize]
  by_cases hle : len ≤ bytes.length
  · have htaken := (slice_slice hbytes hle).1 (slice_take hle)
    have hrest := (slice_slice hbytes (Nat.le_refl _)).1 (slice_drop hle)
    rw [Nat.add_zero] at htaken
    rw [hstop] at hrest
    simp only [if_pos hle, shown, deref, htaken, hrest]
    exact ⟨rfl, trivial⟩
  · simp only [if_neg hle, shown, hbytes, and_self]

/-- **What `pop_back` returns**: the last bytes, and it leaves the others. -/
theorem deref_popBack (hv : v.WellFormed) (hbytes : v.deref = .ok bytes) (len : Nat) :
    shown (v.popBack len).1 =
        .ok (if len ≤ bytes.length then some (bytes.drop (bytes.length - len)) else none) ∧
      (v.popBack len).2.deref =
        .ok (if len ≤ bytes.length then bytes.take (bytes.length - len) else bytes) := by
  have hsize := length_of_deref hbytes
  have hstart := hv.start_le
  have hstop : v.range.start + bytes.length = v.range.stop := by omega
  simp only [popBack, Span.Within.popBack_eq hv, ← hsize]
  by_cases hle : len ≤ bytes.length
  · have hcut : v.range.start + (bytes.length - len) = v.range.stop - len := by omega
    have htaken := (slice_slice hbytes (Nat.le_refl _)).1 (slice_drop (Nat.sub_le bytes.length len))
    have hrest := (slice_slice hbytes (Nat.sub_le bytes.length len)).1
      (slice_take (Nat.sub_le bytes.length len))
    rw [hcut, hstop] at htaken
    rw [hcut, Nat.add_zero] at hrest
    simp only [if_pos hle, shown, deref, htaken, hrest]
    exact ⟨rfl, trivial⟩
  · simp only [if_neg hle, shown, hbytes, and_self]

end BufferView

end SansIo
