import SansIo.Buffer.Window
import SansIo.Lib.Machine

/-!
# Ranges that the caller gives

`src/buffer.rs`, `from_vec_raw` and `view`: a buffer is built over a vector, and a view over
a part of another one, with a range that the caller gives.  Everything else relies on it:
`deref` slices the bytes by the range, and every guard subtracts its ends.

Both functions only look at the end of the range.  One that starts behind its end is
accepted as well, and what is built from it panics later, in another function.  `Object`
is whatever has been derived from a vector of bytes, and `sound_iff` says that all of it is
sound as long as no such range is given.
-/

namespace SansIo

open Lib

/-! ## Checked arithmetic

In a debug build a sum or a difference that does not fit panics.  Where these functions
return, they return what the others do. -/

/-- `a - b` on `usize`, in a debug build. -/
def checkedSub (a b : Nat) : Panics Nat :=
  if b ≤ a then .ok (a - b) else throw "attempt to subtract with overflow"

/-- `a + b` on `usize`, in a debug build. -/
def checkedAdd (a b : Nat) : Panics Nat :=
  if a + b < 2 ^ 64 then .ok (a + b) else throw "attempt to add with overflow"

theorem checkedSub_of_le {a b : Nat} (h : b ≤ a) : checkedSub a b = .ok (a - b) := if_pos h

theorem checkedAdd_of_lt {a b : Nat} (h : a + b < 2 ^ 64) : checkedAdd a b = .ok (a + b) :=
  if_pos h

namespace Span

/-- The range that `truncate` leaves. -/
def truncate (r : Span) (len : Nat) : Option Span :=
  if usizeSub r.stop r.start ≥ len then some ⟨r.start, usizeAdd r.start len⟩ else none

/-- The range of a view. -/
def view (r range : Span) : Option Span :=
  if usizeSub r.stop r.start ≥ range.stop then
    some ⟨usizeAdd r.start range.start, usizeAdd r.start range.stop⟩
  else none

/-- `popBack` in a debug build. -/
def checkedPopBack (r : Span) (len : Nat) : Panics (Option (Span × Span)) := do
  let size ← checkedSub r.stop r.start
  if size ≥ len then
    let stop ← checkedSub r.stop len
    let last ← checkedAdd stop len
    pure (some (⟨stop, last⟩, ⟨r.start, stop⟩))
  else pure none

/-- `popFront` in a debug build. -/
def checkedPopFront (r : Span) (len : Nat) : Panics (Option (Span × Span)) := do
  let size ← checkedSub r.stop r.start
  if size ≥ len then
    let start ← checkedAdd r.start len
    let first ← checkedSub start len
    pure (some (⟨first, start⟩, ⟨start, r.stop⟩))
  else pure none

/-- `truncate` in a debug build. -/
def checkedTruncate (r : Span) (len : Nat) : Panics (Option Span) := do
  let size ← checkedSub r.stop r.start
  if size ≥ len then
    let stop ← checkedAdd r.start len
    pure (some ⟨r.start, stop⟩)
  else pure none

/-- `view` in a debug build. -/
def checkedView (r range : Span) : Panics (Option Span) := do
  let size ← checkedSub r.stop r.start
  if size ≥ range.stop then
    let start ← checkedAdd r.start range.start
    let stop ← checkedAdd r.start range.stop
    pure (some ⟨start, stop⟩)
  else pure none

variable {r range : Span} {buf : List UInt8} {len : Nat}

theorem Within.checkedPopBack (h : r.Within buf) (len : Nat) :
    r.checkedPopBack len = .ok (r.popBack len) := by
  rw [h.popBack_eq, Span.checkedPopBack, checkedSub_of_le h.start_le, ok_bind]
  obtain ⟨hstart, hstop, hlen⟩ := h
  by_cases hle : len ≤ r.stop - r.start
  · have hback : r.stop - len + len = r.stop := Nat.sub_add_cancel (by omega)
    rw [if_pos hle, if_pos hle, checkedSub_of_le (by omega), ok_bind,
      checkedAdd_of_lt (by omega), hback]
    rfl
  · rw [if_neg hle, if_neg hle]
    rfl

theorem Within.checkedPopFront (h : r.Within buf) (len : Nat) :
    r.checkedPopFront len = .ok (r.popFront len) := by
  rw [h.popFront_eq, Span.checkedPopFront, checkedSub_of_le h.start_le, ok_bind]
  obtain ⟨hstart, hstop, hlen⟩ := h
  by_cases hle : len ≤ r.stop - r.start
  · rw [if_pos hle, if_pos hle, checkedAdd_of_lt (by omega), ok_bind,
      checkedSub_of_le (Nat.le_add_left ..), Nat.add_sub_cancel]
    rfl
  · rw [if_neg hle, if_neg hle]
    rfl

theorem Within.truncate_eq (h : r.Within buf) (len : Nat) :
    r.truncate len = if len ≤ r.stop - r.start then some ⟨r.start, r.start + len⟩ else none := by
  rw [Span.truncate, h.usizeSub_eq]
  obtain ⟨hstart, hstop, hlen⟩ := h
  by_cases hle : len ≤ r.stop - r.start
  · rw [if_pos hle, if_pos hle, usizeAdd_of_lt (by omega)]
  · rw [if_neg hle, if_neg hle]

theorem Within.checkedTruncate (h : r.Within buf) (len : Nat) :
    r.checkedTruncate len = .ok (r.truncate len) := by
  rw [h.truncate_eq, Span.checkedTruncate, checkedSub_of_le h.start_le, ok_bind]
  obtain ⟨hstart, hstop, hlen⟩ := h
  by_cases hle : len ≤ r.stop - r.start
  · rw [if_pos hle, if_pos hle, checkedAdd_of_lt (by omega)]
    rfl
  · rw [if_neg hle, if_neg hle]
    rfl

theorem Within.truncate (h : r.Within buf) {rest : Span} (hcut : r.truncate len = some rest) :
    rest.Within buf := by
  rw [h.truncate_eq] at hcut
  obtain ⟨hstart, hstop, hlen⟩ := h
  split at hcut
  · cases hcut
    exact ⟨Nat.le_add_right .., show r.start + len ≤ _ by omega, hlen⟩
  · cases hcut

/-- Where the range that is given is one of the visible bytes, or ends behind them, the
guard of `view` is right. -/
theorem Within.view_eq (h : r.Within buf)
    (hrange : range.start ≤ range.stop ∨ r.stop - r.start < range.stop) :
    r.view range = if range.stop ≤ r.stop - r.start then
      some ⟨r.start + range.start, r.start + range.stop⟩ else none := by
  rw [Span.view, h.usizeSub_eq]
  obtain ⟨hstart, hstop, hlen⟩ := h
  by_cases hle : range.stop ≤ r.stop - r.start
  · rw [if_pos hle, if_pos hle, usizeAdd_of_lt (by omega), usizeAdd_of_lt (by omega)]
  · rw [if_neg hle, if_neg hle]

theorem Within.checkedView (h : r.Within buf)
    (hrange : range.start ≤ range.stop ∨ r.stop - r.start < range.stop) :
    r.checkedView range = .ok (r.view range) := by
  rw [h.view_eq hrange, Span.checkedView, checkedSub_of_le h.start_le, ok_bind]
  obtain ⟨hstart, hstop, hlen⟩ := h
  by_cases hle : range.stop ≤ r.stop - r.start
  · rw [if_pos hle, if_pos hle, checkedAdd_of_lt (by omega), ok_bind, checkedAdd_of_lt (by omega)]
    rfl
  · rw [if_neg hle, if_neg hle]
    rfl

theorem Within.view (h : r.Within buf)
    (hrange : range.start ≤ range.stop ∨ r.stop - r.start < range.stop) {part : Span}
    (hview : r.view range = some part) : part.Within buf := by
  rw [h.view_eq hrange] at hview
  obtain ⟨hstart, hstop, hlen⟩ := h
  split at hview
  · rename_i hle
    have horder := hrange.resolve_right (Nat.not_lt.2 hle)
    cases hview
    exact ⟨Nat.add_le_add_left horder _, show r.start + range.stop ≤ _ by omega, hlen⟩
  · cases hview

end Span

/-- `from_vec_raw`. -/
def fromVecRaw (data : List UInt8) (range : Span) : Panics Buffer :=
  if range.stop ≤ data.length then .ok ⟨data, range.start, range.stop⟩
  else throw "assertion failed: range.end <= data.len()"

/-- `Buffer::eq`. -/
def Buffer.eq (b other : Buffer) : Panics Bool := do
  let bytes ← b.visible
  let bytes' ← other.visible
  pure (bytes == bytes')

/-! ## What is derived from a vector -/

/-- A vector of bytes, and what is built over it. -/
inductive Object where
  | bytes (data : List UInt8)
  | buffer (b : Buffer)
  | view (v : BufferView)

/-- What an object is derived from another one by. -/
inductive Derive where
  | /-- `from_vec_raw`. -/ build (range : Span)
  | /-- `From<&[u8]>`. -/ borrow
  | view (range : Span)
  | truncate (len : Nat)
  | popBack (len : Nat)
  | popFront (len : Nat)
  | /-- The view that `pop_back` returns. -/ takeBack (len : Nat)
  | /-- The view that `pop_front` returns. -/ takeFront (len : Nat)

namespace Object

/-- The bytes below. -/
def buf : Object → List UInt8
  | .bytes data => data
  | .buffer b => b.buf
  | .view v => v.buf

/-- The range of them that an object shows. -/
def range : Object → Span
  | .bytes data => ⟨0, data.length⟩
  | .buffer b => ⟨b.start, b.stop⟩
  | .view v => v.range

/-- `deref`. -/
def deref : Object → Panics (List UInt8)
  | .bytes data => .ok data
  | .buffer b => b.visible
  | .view v => v.deref

/-- `eq`, of two buffers and of two views. -/
def eq : Object → Object → Panics Bool
  | .buffer b, .buffer other => b.eq other
  | .view v, .view other => v.eq other
  | _, _ => .ok false

/-- An object that is given out, or the one that there was. -/
def orKeep (o : Object) (o' : Option Object) : Option (Object × List Bool) :=
  some (o'.getD o, [o'.isSome])

/-- One derivation, and whether it was accepted. -/
def derive : Object → Derive → Option (Object × List Bool)
  | .bytes data, .build range => match fromVecRaw data range with
    | .ok b => some (.buffer b, [true])
    | .error _ => some (.bytes data, [false])
  | .bytes data, .borrow => some (.view (.ofSlice data), [true])
  | .buffer b, .truncate len => orKeep (.buffer b) ((b.truncate len).map .buffer)
  | .buffer b, .popBack len => some (.buffer (b.popBack len).2, [(b.popBack len).1.isSome])
  | .buffer b, .popFront len => some (.buffer (b.popFront len).2, [(b.popFront len).1.isSome])
  | .buffer b, .takeBack len => orKeep (.buffer b) ((b.popBack len).1.map .view)
  | .buffer b, .takeFront len => orKeep (.buffer b) ((b.popFront len).1.map .view)
  | .view v, .view range => orKeep (.view v) ((v.view range).map .view)
  | .view v, .popBack len => some (.view (v.popBack len).2, [(v.popBack len).1.isSome])
  | .view v, .popFront len => some (.view (v.popFront len).2, [(v.popFront len).1.isSome])
  | .view v, .takeBack len => orKeep (.view v) ((v.popBack len).1.map .view)
  | .view v, .takeFront len => orKeep (.view v) ((v.popFront len).1.map .view)
  | _, _ => none

/-- Everything that can be derived from a vector of bytes. -/
def machine : Machine Object Derive Bool := ⟨derive⟩

/-- The range of the object is one of its bytes. -/
def WellFormed (o : Object) : Prop := o.range.Within o.buf

/-- No function of the object panics, nor does its arithmetic in a debug build. -/
structure Safe (o : Object) : Prop where
  deref : ∃ bytes, o.deref = .ok bytes
  toSlice2 : ∀ v, o = .view v → ∃ bytes, v.toSlice2 = .ok bytes
  eq : ∀ o' : Object, (∃ bytes, o'.deref = .ok bytes) → ∃ same, o.eq o' = .ok same
  popBack : ∀ len, o.range.checkedPopBack len = .ok (o.range.popBack len)
  popFront : ∀ len, o.range.checkedPopFront len = .ok (o.range.popFront len)
  truncate : ∀ len, o.range.checkedTruncate len = .ok (o.range.truncate len)

/-- `from_vec_raw` accepts the ranges of the bytes, and shows the bytes of the range. -/
structure BuildExact (data : List UInt8) (range : Span) : Prop where
  accepts : (∃ b, fromVecRaw data range = .ok b) ↔
    range.start ≤ range.stop ∧ range.stop ≤ data.length
  shows : ∀ b, fromVecRaw data range = .ok b → b.visible = slice data range.start range.stop

/-- `view` accepts the ranges of the bytes that are shown, and shows the bytes of the
range. -/
structure ViewExact (v : BufferView) (range : Span) (bytes : List UInt8) : Prop where
  accepts : (∃ w, v.view range = some w) ↔ range.start ≤ range.stop ∧ range.stop ≤ bytes.length
  shows : ∀ w, v.view range = some w → w.deref = slice bytes range.start range.stop
  checked : v.range.checkedView range = .ok (v.range.view range)

/-- A range is taken as it should be. -/
def Exact : Object → Derive → Prop
  | .bytes data, .build range => BuildExact data range
  | .view v, .view range => ∀ bytes, v.deref = .ok bytes → ViewExact v range bytes
  | _, _ => True

/-- A range that is given does not start behind its end, or ends behind the bytes. -/
def Ordered : Object → Derive → Prop
  | .bytes data, .build range => range.start ≤ range.stop ∨ data.length < range.stop
  | .view v, .view range => range.start ≤ range.stop ∨ v.range.stop - v.range.start < range.stop
  | _, _ => True

/-! ## The invariant -/

theorem WellFormed.deref {o : Object} (ho : o.WellFormed) : ∃ bytes, o.deref = .ok bytes := by
  cases o with
  | bytes data => exact ⟨data, rfl⟩
  | buffer b => exact ⟨_, slice_eq_ok.2 ⟨ho.start_le, ho.stop_le, rfl⟩⟩
  | view v => exact ⟨_, BufferView.WellFormed.deref_eq ho⟩

/-- Two objects are compared by what they show. -/
theorem eq_ok {o o' : Object} {bytes bytes' : List UInt8} (ho : o.deref = .ok bytes)
    (ho' : o'.deref = .ok bytes') : ∃ same, o.eq o' = .ok same := by
  unfold Object.deref at ho ho'
  unfold Object.eq
  split
  · refine ⟨bytes == bytes', ?_⟩
    simp only [Buffer.eq, ho, ho', ok_bind, pure_eq_ok]
  · refine ⟨bytes == bytes', ?_⟩
    simp only [BufferView.eq, ho, ho', ok_bind, pure_eq_ok]
  · exact ⟨false, rfl⟩

theorem WellFormed.safe {o : Object} (ho : o.WellFormed) : o.Safe where
  deref := ho.deref
  toSlice2 v hv := by
    subst hv
    exact ho.deref
  eq o' ho' := by
    obtain ⟨bytes, hbytes⟩ := ho.deref
    obtain ⟨bytes', hbytes'⟩ := ho'
    exact eq_ok hbytes hbytes'
  popBack len := Span.Within.checkedPopBack ho len
  popFront len := Span.Within.checkedPopFront ho len
  truncate len := Span.Within.checkedTruncate ho len

theorem orKeep_wellFormed {o o' : Object} {new : Option Object} {accepted : List Bool}
    (ho : o.WellFormed) (hnew : ∀ p, new = some p → p.WellFormed)
    (h : orKeep o new = some (o', accepted)) : o'.WellFormed := by
  cases new with
  | none =>
      cases h
      exact ho
  | some p =>
      cases h
      exact hnew _ rfl

theorem truncate_eq_map (b : Buffer) (len : Nat) :
    b.truncate len =
      (Span.truncate ⟨b.start, b.stop⟩ len).map fun r ↦ ⟨b.buf, r.start, r.stop⟩ := by
  unfold Buffer.truncate Span.truncate
  split <;> rfl

theorem view_eq_map (v : BufferView) (range : Span) :
    v.view range = (v.range.view range).map fun r ↦ ⟨v.buf, r⟩ := by
  unfold BufferView.view Span.view
  split <;> rfl

/-- **One derivation** keeps the range within the bytes. -/
theorem derive_wellFormed {o o' : Object} {l : Derive} {accepted : List Bool}
    (ho : o.WellFormed) (hl : Ordered o l) (h : o.derive l = some (o', accepted)) :
    o'.WellFormed := by
  cases o with
  | bytes data =>
      cases l with
      | build range =>
          simp only [derive, fromVecRaw] at h
          by_cases hle : range.stop ≤ data.length
          · rw [if_pos hle] at h
            cases h
            exact ⟨hl.resolve_right (Nat.not_lt.2 hle), hle, ho.length_lt⟩
          · rw [if_neg hle] at h
            cases h
            exact ho
      | borrow =>
          cases h
          exact ho
      | _ => cases h
  | buffer b =>
      have hb : b.toView.WellFormed := ho
      cases l with
      | truncate len =>
          refine orKeep_wellFormed ho ?_ h
          intro p hp
          rw [truncate_eq_map, Option.map_map] at hp
          obtain ⟨r, hr, rfl⟩ := Option.map_eq_some_iff.1 hp
          exact Span.Within.truncate ho hr
      | popBack len =>
          cases h
          have hrest := (hb.popBack len).2
          rw [← (b.toView_popBack len).2] at hrest
          exact hrest
      | popFront len =>
          cases h
          have hrest := (hb.popFront len).2
          rw [← (b.toView_popFront len).2] at hrest
          exact hrest
      | takeBack len =>
          refine orKeep_wellFormed ho ?_ h
          intro p hp
          rw [(b.toView_popBack len).1] at hp
          obtain ⟨w, hw, rfl⟩ := Option.map_eq_some_iff.1 hp
          exact (hb.popBack len).1 w hw
      | takeFront len =>
          refine orKeep_wellFormed ho ?_ h
          intro p hp
          rw [(b.toView_popFront len).1] at hp
          obtain ⟨w, hw, rfl⟩ := Option.map_eq_some_iff.1 hp
          exact (hb.popFront len).1 w hw
      | _ => cases h
  | view v =>
      have hv : v.WellFormed := ho
      cases l with
      | view range =>
          refine orKeep_wellFormed ho ?_ h
          intro p hp
          rw [view_eq_map, Option.map_map] at hp
          obtain ⟨r, hr, rfl⟩ := Option.map_eq_some_iff.1 hp
          exact Span.Within.view ho hl hr
      | popBack len =>
          cases h
          exact (hv.popBack len).2
      | popFront len =>
          cases h
          exact (hv.popFront len).2
      | takeBack len =>
          refine orKeep_wellFormed ho ?_ h
          intro p hp
          obtain ⟨w, hw, rfl⟩ := Option.map_eq_some_iff.1 hp
          exact (hv.popBack len).1 w hw
      | takeFront len =>
          refine orKeep_wellFormed ho ?_ h
          intro p hp
          obtain ⟨w, hw, rfl⟩ := Option.map_eq_some_iff.1 hp
          exact (hv.popFront len).1 w hw
      | _ => cases h

theorem fromVecRaw_ok {data : List UInt8} {range : Span} :
    (∃ b, fromVecRaw data range = .ok b) ↔ range.stop ≤ data.length := by
  unfold fromVecRaw
  by_cases hle : range.stop ≤ data.length
  · rw [if_pos hle]
    exact iff_of_true ⟨_, rfl⟩ hle
  · rw [if_neg hle]
    refine iff_of_false ?_ hle
    rintro ⟨b, hb⟩
    cases hb

theorem view_some {v : BufferView} (hv : v.WellFormed) {range : Span} :
    (∃ w, v.view range = some w) ↔ range.stop ≤ v.range.stop - v.range.start := by
  unfold BufferView.view
  rw [hv.usizeSub_eq]
  by_cases hle : range.stop ≤ v.range.stop - v.range.start
  · rw [if_pos hle]
    exact iff_of_true ⟨_, rfl⟩ hle
  · rw [if_neg hle]
    refine iff_of_false ?_ hle
    rintro ⟨w, hw⟩
    cases hw

/-- A guard that only looks at the end is right for these ranges. -/
theorem guard_iff {range : Span} {len : Nat} :
    (range.stop ≤ len ↔ range.start ≤ range.stop ∧ range.stop ≤ len) ↔
      range.start ≤ range.stop ∨ len < range.stop := by
  rw [← Nat.not_le, or_iff_not_imp_right, not_not]
  exact ⟨fun h hle ↦ (h.1 hle).1, fun h ↦ ⟨fun hle ↦ ⟨h hle, hle⟩, And.right⟩⟩

theorem buildExact_iff {data : List UInt8} {range : Span} :
    BuildExact data range ↔ Ordered (.bytes data) (.build range) := by
  constructor
  · intro hexact
    exact guard_iff.1 (fromVecRaw_ok.symm.trans hexact.accepts)
  · intro hordered
    constructor
    · exact fromVecRaw_ok.trans (guard_iff.2 hordered)
    · intro b hb
      have hle := fromVecRaw_ok.1 ⟨b, hb⟩
      rw [fromVecRaw, if_pos hle] at hb
      cases hb
      rfl

theorem viewExact_iff {v : BufferView} (hv : v.WellFormed) {range : Span} {bytes : List UInt8}
    (hbytes : v.deref = .ok bytes) :
    ViewExact v range bytes ↔ Ordered (.view v) (.view range) := by
  have hlen := BufferView.length_of_deref hbytes
  have hsome : (∃ w, v.view range = some w) ↔ range.stop ≤ bytes.length := by
    rw [hlen]
    exact view_some hv
  have hguard : Ordered (.view v) (.view range) ↔
      (range.stop ≤ bytes.length ↔ range.start ≤ range.stop ∧ range.stop ≤ bytes.length) := by
    rw [hlen]
    exact guard_iff.symm
  constructor
  · intro hexact
    exact hguard.2 (hsome.symm.trans hexact.accepts)
  · intro hordered
    constructor
    · exact hsome.trans (hguard.1 hordered)
    · intro w hw
      have hle := hsome.1 ⟨w, hw⟩
      rw [view_eq_map, Span.Within.view_eq hv hordered, if_pos (by rwa [← hlen])] at hw
      cases hw
      have horder := ((hguard.1 hordered).1 hle).1
      have hslice : slice bytes range.start range.stop =
          .ok ((bytes.take range.stop).drop range.start) := slice_eq_ok.2 ⟨horder, hle, rfl⟩
      exact ((slice_slice hbytes hle).1 hslice).trans hslice.symm
    · exact Span.Within.checkedView hv hordered

/-- **One call takes its range as it should exactly when the range is in order.** -/
theorem exact_iff_ordered {o : Object} (ho : o.WellFormed) (l : Derive) :
    Exact o l ↔ Ordered o l := by
  cases o with
  | bytes data =>
      cases l with
      | build range => exact buildExact_iff
      | _ => exact Iff.rfl
  | buffer b => exact Iff.rfl
  | view v =>
      cases l with
      | view range =>
          obtain ⟨bytes, hbytes⟩ := ho.deref
          constructor
          · exact fun h ↦ (viewExact_iff ho hbytes).1 (h bytes hbytes)
          · exact fun h bytes hbytes ↦ (viewExact_iff ho hbytes).2 h
      | _ => exact Iff.rfl

/-- **All that is derived from a vector is sound, and every range is taken as it should be,
exactly when no range that is accepted starts behind its end.** -/
theorem sound_iff {data : List UInt8} (hdata : data.length < 2 ^ 63)
    {h : History Object Derive Bool} {o : Object} (hr : machine.Run (.bytes data) h o) :
    (∀ m ∈ h, Exact m.pre m.label ∧ m.post.Safe) ↔ ∀ m ∈ h, Ordered m.pre m.label := by
  have hinit : WellFormed (.bytes data) := ⟨Nat.zero_le _, Nat.le_refl _, hdata⟩
  rw [← along_forall, ← along_forall]
  refine hr.along_iff (I := fun _ o ↦ o.WellFormed) hinit fun h m _ _ hr hm ho ↦ ?_
  have hpost := fun hnow : Ordered m.pre m.label ↦ derive_wellFormed ho hnow hm
  have hexact := exact_iff_ordered ho m.label
  constructor
  · exact ⟨fun h ↦ hexact.1 h.1, fun hnow ↦ ⟨hexact.2 hnow, (hpost hnow).safe⟩⟩
  · exact hpost

/-- A view of a view. -/
def nested : List Derive := [.borrow, .view ⟨1, 4⟩, .view ⟨1, 3⟩, .popFront 1, .view ⟨0, 7⟩]

theorem sound_iff_nested :
    (∀ m ∈ ((machine.exec (.bytes [1, 2, 3, 4, 5]) nested).get (by decide)).1,
        Exact m.pre m.label ∧ m.post.Safe) ↔
      ∀ m ∈ ((machine.exec (.bytes [1, 2, 3, 4, 5]) nested).get (by decide)).1,
        Ordered m.pre m.label :=
  sound_iff (by decide) (Machine.exec_run_get _)

/-- A range that starts behind its end is accepted.  The buffer then panics when it is
read, and in a debug build when something is popped off it, and so does a view. -/
theorem not_exact_backwards :
    fromVecRaw [1, 2, 3] ⟨2, 1⟩ = .ok ⟨[1, 2, 3], 2, 1⟩ ∧
      (BufferView.ofSlice [1, 2, 3]).view ⟨2, 1⟩ = some ⟨[1, 2, 3], 2, 1⟩ ∧
      Span.checkedPopBack ⟨2, 1⟩ 1 = .error "attempt to subtract with overflow" ∧
      ¬ Safe (.buffer ⟨[1, 2, 3], 2, 1⟩) ∧ ¬ Safe (.view ⟨[1, 2, 3], 2, 1⟩) ∧
      ¬ BuildExact [1, 2, 3] ⟨2, 1⟩ ∧ ¬ ViewExact (.ofSlice [1, 2, 3]) ⟨2, 1⟩ [1, 2, 3] := by
  refine ⟨rfl, rfl, rfl, ?_, ?_, ?_, ?_⟩
  · intro hsafe
    obtain ⟨bytes, hbytes⟩ := hsafe.deref
    have hslice : slice [1, 2, 3] 2 1 = .ok bytes := hbytes
    exact absurd (slice_eq_ok.1 hslice).1 (by decide)
  · intro hsafe
    obtain ⟨bytes, hbytes⟩ := hsafe.deref
    have hslice : slice [1, 2, 3] 2 1 = .ok bytes := hbytes
    exact absurd (slice_eq_ok.1 hslice).1 (by decide)
  · intro hexact
    exact absurd (hexact.accepts.1 ⟨_, rfl⟩).1 (by decide)
  · intro hexact
    exact absurd (hexact.accepts.1 ⟨_, rfl⟩).1 (by decide)

end Object

end SansIo
