import SansIo.Buffer.Parts

/-!
# Receiving into a buffer

The backends receive a datagram with `remain_mut` and `move_back_right`: they write to the
slice that the first one gives, and then make what has been written part of the window.

The slice starts where the window starts, and not behind it.  So what is written covers the
window, and the window is then extended by bytes that nothing has been written to.  On an
empty window, which is what the backends have, that makes no difference
(`Buffer.receivable_of_isEmpty`); `Buffer.receives_iff` says when it makes none.
-/

namespace SansIo

open Lib

/-- What stands in front of `data` is also what follows from writing `data` over it. -/
theorem append_eq_overwritten_iff {view data tail : List UInt8} :
    view ++ data = data ++ ((view ++ tail).drop data.length).take view.length ↔
      data <+: view ++ data ∧ (tail.take data.length).drop (data.length - view.length) =
        data.drop (data.length - view.length) := by
  have hcut : ((view ++ tail).drop data.length).take view.length =
      (view ++ tail.take data.length).drop data.length := by
    rw [List.take_drop, Nat.add_comm, List.take_length_add_append]
  rw [hcut]
  constructor
  · intro h
    have hdrop := congrArg (List.drop data.length) h
    rw [List.drop_left' rfl, List.drop_append, List.drop_append, List.append_cancel_left_eq]
      at hdrop
    exact ⟨⟨_, h.symm⟩, hdrop.symm⟩
  · rintro ⟨⟨rest, hrest⟩, hbehind⟩
    have hdrop := congrArg (List.drop data.length) hrest
    rw [List.drop_left' rfl] at hdrop
    rw [List.drop_append, hbehind, ← List.drop_append, ← hdrop, hrest]

namespace Buffer

/-- Write to the slice that `remain_mut` gives, and then `move_back_right`. -/
def receiveRemain (b : Buffer) (data : List UInt8) : Option Buffer :=
  (b.writeRemain data).moveBackRight data.length

/-- The data has been appended to the window. -/
def Receives (b : Buffer) (data : List UInt8) : Prop :=
  ∃ b', b.receiveRemain data = some b' ∧ b'.deref = b.deref ++ data

/-- Nothing is lost when the data is written over the window. -/
structure Receivable (b : Buffer) (data : List UInt8) : Prop where
  /-- The data fits behind the window, -/
  room : data.length ≤ b.tailroom.length
  /-- it repeats the window, -/
  repeats : data <+: b.deref ++ data
  /-- and where it ends, as far as the window has bytes, it is already behind it. -/
  behind : (b.tailroom.take data.length).drop (data.length - b.deref.length) =
    data.drop (data.length - b.deref.length)

/-- The data is written over the window and over what is behind it. -/
theorem writeRemain_toBuffer (p : Parts) (data : List UInt8) :
    p.toBuffer.writeRemain data =
      ⟨p.headroom ++ (data ++ (p.visible ++ p.tailroom).drop data.length), p.toBuffer.start,
        p.toBuffer.stop⟩ := by
  simp only [writeRemain, Parts.toBuffer, List.append_assoc, List.take_left,
    List.drop_length_add_append]

/-- What is shown afterwards. -/
theorem deref_receiveRemain {p : Parts} {data : List UInt8} (hp : p.toBuffer.WellFormed)
    (hroom : data.length ≤ p.tailroom.length) :
    ∃ b', p.toBuffer.receiveRemain data = some b' ∧
      b'.deref = data ++ ((p.visible ++ p.tailroom).drop data.length).take p.visible.length := by
  have hsize := hp.length_lt
  have hsum := length_toBuffer p
  have hstop : p.toBuffer.stop = p.headroom.length + p.visible.length := rfl
  have hadd : usizeAdd p.toBuffer.stop data.length =
      p.headroom.length + (data.length + p.visible.length) := by
    rw [usizeAdd_of_lt (by omega)]
    omega
  have hlen : (p.headroom ++ (data ++ (p.visible ++ p.tailroom).drop data.length)).length =
      p.toBuffer.buf.length := by
    simp only [List.length_append, List.length_drop]
    omega
  rw [receiveRemain, writeRemain_toBuffer]
  simp only [moveBackRight, hadd, hlen]
  rw [if_neg (by omega)]
  refine ⟨_, rfl, ?_⟩
  simp only [deref, List.take_length_add_append]
  exact List.drop_left

/-- Without room behind the window the data is not received. -/
theorem receiveRemain_eq_none {b : Buffer} (hb : b.WellFormed) {data : List UInt8}
    (hdata : data.length ≤ b.remainLen) (hroom : b.tailroom.length < data.length) :
    b.receiveRemain data = none := by
  have hsize := hb.length_lt
  have hstop := hb.stop_le
  have hstart := hb.start_le
  rw [length_tailroom] at hroom
  have hlen : (b.writeRemain data).buf.length = b.buf.length := by
    simp only [writeRemain, remainLen, List.length_append, List.length_take, List.length_drop]
      at hdata ⊢
    omega
  have hadd : usizeAdd (b.writeRemain data).stop data.length = b.stop + data.length :=
    usizeAdd_of_lt (show b.stop + data.length < _ by simp only [remainLen] at hdata; omega)
  rw [receiveRemain, moveBackRight, hadd, hlen, if_pos (by omega)]

/-- **Data is received exactly when nothing is lost.** -/
theorem receives_iff {b : Buffer} (hb : b.WellFormed) {data : List UInt8}
    (hdata : data.length ≤ b.remainLen) : b.Receives data ↔ b.Receivable data := by
  by_cases hroom : data.length ≤ b.tailroom.length
  · have hb' := toBuffer_parts hb
    obtain ⟨b', hsome, hshown⟩ := deref_receiveRemain (hb'.symm ▸ hb) hroom
    rw [hb'] at hsome
    have hiff : b.Receives data ↔ b'.deref = b.deref ++ data := by
      constructor
      · rintro ⟨b'', hsome', hderef⟩
        rw [hsome] at hsome'
        cases hsome'
        exact hderef
      · exact fun hderef ↦ ⟨b', hsome, hderef⟩
    rw [hiff, hshown, eq_comm]
    refine append_eq_overwritten_iff.trans ?_
    constructor
    · exact fun ⟨hrepeats, hbehind⟩ ↦ ⟨hroom, hrepeats, hbehind⟩
    · exact fun h ↦ ⟨h.repeats, h.behind⟩
  · constructor
    · rintro ⟨b', hsome, -⟩
      rw [receiveRemain_eq_none hb hdata (Nat.not_le.1 hroom)] at hsome
      cases hsome
    · exact fun h ↦ absurd h.room hroom

/-- Into an empty window all data is received. -/
theorem receivable_of_isEmpty {b : Buffer} (hb : b.WellFormed) (hempty : b.deref = [])
    {data : List UInt8} (hdata : data.length ≤ b.remainLen) : b.Receivable data := by
  have hview := hb.length_deref
  have htail := b.length_tailroom
  have hstart := hb.start_le
  rw [hempty, List.length_nil] at hview
  rw [remainLen] at hdata
  constructor
  · omega
  · have hprefix : data <+: [] ++ data := List.prefix_rfl
    exact hempty.symm ▸ hprefix
  · rw [hempty, List.length_nil, Nat.sub_zero, List.drop_length,
      List.drop_of_length_le (List.length_take_le ..)]

/-- Data for an empty window, and for one that shows three bytes. -/
theorem receives_iff_new_build :
    ((new 1 4).Receives [7, 8] ↔ (new 1 4).Receivable [7, 8]) ∧
      ((build [1, 2, 3] 0 2).Receives [9] ↔ (build [1, 2, 3] 0 2).Receivable [9]) :=
  ⟨receives_iff ⟨by decide, by decide, by decide⟩ (by decide),
    receives_iff ⟨by decide, by decide, by decide⟩ (by decide)⟩

/-- Into a window that is not empty, a byte is written over the first one, and the byte that
is shown behind the window is not the one that was received. -/
theorem not_receives_build :
    (build [1, 2, 3] 0 2).WellFormed ∧ [9].length ≤ (build [1, 2, 3] 0 2).remainLen ∧
      (build [1, 2, 3] 0 2).receiveRemain [9] = some ⟨[9, 2, 3, 0, 0], 0, 4⟩ ∧
      ¬ (build [1, 2, 3] 0 2).Receives [9] := by
  refine ⟨wellFormed_build (by decide), by decide, by decide, ?_⟩
  rintro ⟨b', hsome, hderef⟩
  have hb' : some b' = some ⟨[9, 2, 3, 0, 0], 0, 4⟩ := hsome.symm.trans (by decide)
  cases hb'
  exact absurd hderef (by decide)

end Buffer

end SansIo
