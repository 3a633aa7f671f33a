import SansIo.Buffer.Parts

/-!
# The laws of a buffer

What the functions of `src/buffer.rs` promise of a buffer that any of them have been called
on, in any order (`Buffer.lawful_of_run`): they do not panic, they return bytes of the
window, and where they return `None` they have done nothing.

For the functions that grow the buffer it is not enough that the sums are those of `usize`:
a vector of `2 ^ 63` bytes or more cannot be allocated (`Buffer.not_grown`).
-/

namespace SansIo

open Lib

namespace Buffer

/-- **A run of a buffer is a run of its parts.** -/
theorem follows_of_run {b₀ b : Buffer} {h : History Buffer BufferOp (Option (List UInt8))}
    (hb₀ : b₀.WellFormed) (hr : machine.Run b₀ h b) (hfits : ∀ m ∈ h, m.pre.Fits m.label) :
    b.WellFormed ∧ threeParts.Run b₀.parts (h.map (Moment.map parts)) b.parts := by
  induction hr with
  | nil => exact ⟨hb₀, .nil⟩
  | @snoc h m hr hm ih =>
      obtain ⟨hpre, hparts⟩ := ih fun m hm ↦ hfits m (List.mem_append_left _ hm)
      obtain ⟨hperform, hpost⟩ := perform_eq hpre (hfits m (by simp))
      have hstep : some ((m.pre.parts.step m.label).2.toBuffer, [(m.pre.parts.step m.label).1]) =
          some (m.post, m.events) := by
        rw [← hm]
        simp only [machine, step, hperform]
      obtain ⟨hstate, hevents⟩ := Prod.mk.inj (Option.some.inj hstep)
      rw [hstate] at hpost
      refine ⟨hpost, ?_⟩
      rw [List.map_append]
      refine Machine.Run.snoc (m := m.map parts) hparts ?_
      change some ((m.pre.parts.step m.label).2, [(m.pre.parts.step m.label).1]) =
        some (m.post.parts, m.events)
      rw [← hstate, parts_toBuffer, hevents]

/-! ## One state -/

/-- What holds of the functions of a buffer. -/
structure Lawful (b : Buffer) : Prop where
  wellFormed : b.WellFormed
  /-- `deref` does not panic, -/
  visible : b.visible = .ok b.deref
  /-- and neither does a function whose sums fit. -/
  possible : ∀ op, b.Fits op → ∃ r, b.perform op = .ok r
  /-- `push_back`, and what does the same. -/
  pushBack : ∀ data : List UInt8, b.stop + data.length < 2 ^ 63 → ∃ b' b'',
    b.pushBack data = .ok b' ∧ b'.deref = b.deref ++ data ∧
    b.writeBack data = .ok b'' ∧ b''.moveBackRight data.length = some b'
  /-- The first bytes, -/
  popFront : ∀ len, BufferView.shown (b.popFront len).1 =
      .ok (if len ≤ b.deref.length then some (b.deref.take len) else none) ∧
    (b.popFront len).2.deref = if len ≤ b.deref.length then b.deref.drop len else b.deref
  /-- and the last. -/
  popBack : ∀ len, BufferView.shown (b.popBack len).1 =
      .ok (if len ≤ b.deref.length then some (b.deref.drop (b.deref.length - len)) else none) ∧
    (b.popBack len).2.deref =
      if len ≤ b.deref.length then b.deref.take (b.deref.length - len) else b.deref
  /-- A view of the same bytes pops the same. -/
  view : ∀ v : BufferView, v.WellFormed → v.deref = .ok b.deref → ∀ len,
    (BufferView.shown (v.popFront len).1 = BufferView.shown (b.popFront len).1 ∧
      (v.popFront len).2.deref = .ok (b.popFront len).2.deref) ∧
    BufferView.shown (v.popBack len).1 = BufferView.shown (b.popBack len).1 ∧
      (v.popBack len).2.deref = .ok (b.popBack len).2.deref
  /-- `None` is for a part that is too short, -/
  none_iff : ∀ op len, b.NoWrap len op →
    ((b.run len op).1 = false ↔ (b.source op).length < len)
  /-- and then nothing has been done. -/
  unchanged : ∀ op len, b.NoWrap len op → (b.run len op).1 = false → (b.run len op).2 = b
  /-- A pop that is taken back. -/
  restore : ∀ len ≤ b.deref.length,
    (b.popFront len).2.moveFrontLeft len = some b ∧ (b.popBack len).2.moveBackRight len = some b

/-- Where a pop leads to. -/
theorem popFront_snd {b : Buffer} (hb : b.WellFormed) {len : Nat} (hlen : len ≤ b.deref.length) :
    (b.popFront len).2 = b.moved len .popFront := by
  have hrun := run_eq hb (show b.NoWrap len .popFront from trivial)
  rw [if_pos (show len ≤ (b.source .popFront).length from hlen)] at hrun
  exact congrArg Prod.snd hrun

theorem popBack_snd {b : Buffer} (hb : b.WellFormed) {len : Nat} (hlen : len ≤ b.deref.length) :
    (b.popBack len).2 = b.moved len .popBack := by
  have hrun := run_eq hb (show b.NoWrap len .popBack from trivial)
  rw [if_pos (show len ≤ (b.source .popBack).length from hlen)] at hrun
  exact congrArg Prod.snd hrun

theorem moveFrontLeft_popFront {b : Buffer} (hb : b.WellFormed) {len : Nat}
    (hlen : len ≤ b.deref.length) : (b.popFront len).2.moveFrontLeft len = some b := by
  have hstart := hb.start_le
  have hsize := hb.length_lt
  have hstop := hb.stop_le
  have hview := hb.length_deref
  have hmoved : b.moved len .popFront = ⟨b.buf, b.start + len, b.stop⟩ := rfl
  rw [popFront_snd hb hlen, hmoved]
  simp only [moveFrontLeft]
  rw [if_neg (Nat.not_lt.2 (Nat.le_add_left ..)), usizeSub_of_le (Nat.le_add_left ..) (by omega),
    Nat.add_sub_cancel]

theorem moveBackRight_popBack {b : Buffer} (hb : b.WellFormed) {len : Nat}
    (hlen : len ≤ b.deref.length) : (b.popBack len).2.moveBackRight len = some b := by
  have hsize := hb.length_lt
  have hstop := hb.stop_le
  have hview := hb.length_deref
  have hback : b.stop - len + len = b.stop := Nat.sub_add_cancel (by omega)
  have hadd : usizeAdd (b.stop - len) len = b.stop := by
    rw [usizeAdd_of_lt (by omega), hback]
  have hmoved : b.moved len .popBack = ⟨b.buf, b.start, b.stop - len⟩ := rfl
  rw [popBack_snd hb hlen, hmoved]
  simp only [moveBackRight, hadd]
  rw [if_neg (Nat.not_lt.2 hstop)]

theorem moveBackRight_toBuffer {p : Parts} (hp : p.toBuffer.WellFormed) (len : Nat)
    (hlen : len ≤ p.tailroom.length) :
    p.toBuffer.moveBackRight len = some (p.moved len .moveBackRight).toBuffer := by
  have hsize := hp.length_lt
  have hsum := length_toBuffer p
  have hstop : p.toBuffer.stop = p.headroom.length + p.visible.length := rfl
  have hlen' : len ≤ (p.source .moveBackRight).length := hlen
  rw [← moved_toBuffer hlen', moveBackRight, usizeAdd_of_lt (by omega),
    if_neg (by omega)]
  rfl

/-- Data that is written behind the window and then made part of it. -/
theorem moveBackRight_writeBack {b : Buffer} (hb : b.WellFormed) {data : List UInt8}
    (hdata : b.stop + data.length < 2 ^ 63) :
    ∃ b' b'', b.pushBack data = .ok b' ∧ b'.deref = b.deref ++ data ∧
      b.writeBack data = .ok b'' ∧ b''.moveBackRight data.length = some b' := by
  have hb' := toBuffer_parts hb
  have hlen : b.parts.toBuffer.buf.length < 2 ^ 63 := hb'.symm ▸ hb.length_lt
  have hpush := pushBack_toBuffer b.parts data (by rwa [hb']) hlen
  have hwrite := writeBack_toBuffer b.parts data (by rwa [hb']) hlen
  rw [hb'] at hpush hwrite
  have hwritten : (b.parts.step (.writeBack data)).2.toBuffer.WellFormed :=
    (perform_eq hb (show b.Fits (.writeBack data) from hdata)).2
  refine ⟨_, _, hpush, ?_, hwrite, ?_⟩
  · exact congrArg Parts.visible (parts_toBuffer (b.parts.step (.pushBack data)).2)
  · have hmoved := moveBackRight_toBuffer hwritten data.length (by
      simp only [Parts.step, List.length_append]
      exact Nat.le_add_right ..)
    simp only [Parts.step, Parts.moved, List.take_left', List.drop_left'] at hmoved
    exact hmoved

theorem deref_of_toView {b : Buffer} {bytes : List UInt8} (h : b.toView.deref = .ok bytes) :
    b.deref = bytes := (slice_eq_ok.1 h).2.2

theorem deref_popFront {b : Buffer} (hb : b.WellFormed) (len : Nat) :
    BufferView.shown (b.popFront len).1 =
        .ok (if len ≤ b.deref.length then some (b.deref.take len) else none) ∧
      (b.popFront len).2.deref = if len ≤ b.deref.length then b.deref.drop len else b.deref := by
  obtain ⟨hfst, hsnd⟩ := toView_popFront b len
  obtain ⟨hshown, hrest⟩ := BufferView.deref_popFront hb.toView hb.deref_toView len
  rw [← hfst] at hshown
  rw [← hsnd] at hrest
  exact ⟨hshown, deref_of_toView hrest⟩

theorem deref_popBack {b : Buffer} (hb : b.WellFormed) (len : Nat) :
    BufferView.shown (b.popBack len).1 =
        .ok (if len ≤ b.deref.length then some (b.deref.drop (b.deref.length - len)) else none) ∧
      (b.popBack len).2.deref =
        if len ≤ b.deref.length then b.deref.take (b.deref.length - len) else b.deref := by
  obtain ⟨hfst, hsnd⟩ := toView_popBack b len
  obtain ⟨hshown, hrest⟩ := BufferView.deref_popBack hb.toView hb.deref_toView len
  rw [← hfst] at hshown
  rw [← hsnd] at hrest
  exact ⟨hshown, deref_of_toView hrest⟩

/-- **What holds of every buffer.** -/
theorem WellFormed.lawful {b : Buffer} (hb : b.WellFormed) : b.Lawful where
  wellFormed := hb
  visible := hb.visible_eq
  possible _ hfits := ⟨_, (perform_eq hb hfits).1⟩
  pushBack _ hdata := moveBackRight_writeBack hb hdata
  popFront len := deref_popFront hb len
  popBack len := deref_popBack hb len
  view v hv hbytes len := by
    obtain ⟨hfront, hfront'⟩ := BufferView.deref_popFront hv hbytes len
    obtain ⟨hback, hback'⟩ := BufferView.deref_popBack hv hbytes len
    rw [hfront, hfront', hback, hback', (deref_popFront hb len).1, (deref_popFront hb len).2,
      (deref_popBack hb len).1, (deref_popBack hb len).2]
    exact ⟨⟨rfl, rfl⟩, rfl, rfl⟩
  none_iff op len hwrap := by
    rw [run_eq hb hwrap, ← Nat.not_le]
    by_cases hle : len ≤ (b.source op).length
    · rw [if_pos hle]
      exact iff_of_false Bool.noConfusion fun h ↦ h hle
    · rw [if_neg hle]
      exact iff_of_true rfl hle
  unchanged op len hwrap hnone := by
    rw [run_eq hb hwrap] at hnone ⊢
    by_cases hle : len ≤ (b.source op).length
    · rw [if_pos hle] at hnone
      cases hnone
    · rw [if_neg hle]
  restore len hlen := ⟨moveFrontLeft_popFront hb hlen, moveBackRight_popBack hb hlen⟩

/-- **A buffer is a three-part byte string**: whatever is called on it, it follows its parts,
and the laws hold. -/
theorem lawful_of_run {b₀ b : Buffer} {h : History Buffer BufferOp (Option (List UInt8))}
    (hb₀ : b₀.WellFormed) (hr : machine.Run b₀ h b) (hfits : ∀ m ∈ h, m.pre.Fits m.label) :
    threeParts.Run b₀.parts (h.map (Moment.map parts)) b.parts ∧ b.Lawful := by
  obtain ⟨hb, hparts⟩ := follows_of_run hb₀ hr hfits
  exact ⟨hparts, hb.lawful⟩

/-- Three bytes between one of headroom and one of tailroom, which then grow. -/
def grow : List BufferOp :=
  [.window .popFront 2, .pushBack [4, 5, 6], .ensureBack 2, .window .moveBackRight 1]

theorem lawful_of_run_build :
    ((machine.exec (build [1, 2, 3] 1 1) grow).get (by decide)).2.Lawful :=
  (lawful_of_run (wellFormed_build (by decide)) (Machine.exec_run_get _) (by decide)).2

/-- More than a vector can have panics, although the sum is one of `usize`. -/
theorem not_grown :
    (new 0 0).WellFormed ∧ (new 0 0).stop + 2 ^ 63 < 2 ^ 64 ∧
      (new 0 0).ensureBack (2 ^ 63) = .error "capacity overflow" := by
  refine ⟨⟨by decide, by decide, by decide⟩, by decide, ?_⟩
  rfl

end Buffer

end SansIo
