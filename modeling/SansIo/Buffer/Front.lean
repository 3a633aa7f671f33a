import SansIo.Buffer

/-!
# The front of a buffer

`src/buffer.rs`, the functions that write in front of the contents.  A buffer
grows to the front when its headroom, the bytes before the window, is shorter
than what is asked for.  `ensure_front` then allocates the bytes that are missing,
but moves the window by all the bytes that were asked for.  So a buffer that has
some headroom, but not enough, shows other bytes afterwards, and
`prepends_iff` says when it does not.
-/

namespace SansIo

open Lib

/-- `a - b` on `usize`, where overflows are not checked. -/
def usizeSub (a b : Nat) : Nat := (a + (2 ^ 64 - b)) % 2 ^ 64

theorem usizeSub_of_le {a b : Nat} (hba : b ≤ a) (ha : a < 2 ^ 64) : usizeSub a b = a - b := by
  have hsum : a + (2 ^ 64 - b) = a - b + 2 ^ 64 := by omega
  rw [usizeSub, hsum, Nat.add_mod_right]
  exact Nat.mod_eq_of_lt (Nat.lt_of_le_of_lt (Nat.sub_le a b) ha)

/-- `vec![0; n]`, which panics when `n` bytes are more than a vector can have. -/
def zeroes (n : Nat) : Panics (List UInt8) :=
  if n < 2 ^ 63 then .ok (List.replicate n 0) else throw "capacity overflow"

/-- `BufferInner::allocate_front`. -/
def allocateFront (v : List UInt8) (more : Nat) : Panics (List UInt8) := do
  let vec2 ← zeroes (usizeAdd more v.length)
  copyFromSlice vec2 more vec2.length v

theorem allocateFront_of_lt {v : List UInt8} {more : Nat} (h : more + v.length < 2 ^ 63) :
    allocateFront v more = .ok (List.replicate more 0 ++ v) := by
  have hcopy : copyFromSlice (List.replicate (more + v.length) 0) more (more + v.length) v =
      .ok (List.replicate more 0 ++ v) := by
    rw [copyFromSlice_eq_ok, List.length_replicate, List.take_replicate, List.drop_replicate,
      Nat.min_eq_left (Nat.le_add_right more v.length), Nat.sub_self]
    simp only [Nat.le_refl, List.replicate_zero, List.append_nil, and_self]
  simp only [allocateFront, zeroes, usizeAdd_of_lt (Nat.lt_trans h (by decide)), if_pos h, ok_bind,
    List.length_replicate, hcopy]

/-- Too much cannot be allocated, also where the sum wraps. -/
theorem allocateFront_ne_ok {v : List UInt8} {more : Nat}
    (h : 2 ^ 63 ≤ more + v.length) (w : List UInt8) : allocateFront v more ≠ .ok w := by
  intro hok
  obtain ⟨vec2, hvec, hcopy⟩ := bind_ok.1 hok
  unfold zeroes at hvec
  split at hvec
  · rename_i hlt
    cases hvec
    obtain ⟨hfits, -, -⟩ := copyFromSlice_eq_ok.1 hcopy
    rw [List.length_replicate] at hfits
    unfold usizeAdd at hlt hfits
    omega
  · cases hvec

namespace Buffer

/-- `build`. -/
def build (data : List UInt8) (moreLeft moreRight : Nat) : Buffer where
  buf := List.replicate moreLeft 0 ++ data ++ List.replicate moreRight 0
  start := moreLeft
  stop := moreLeft + data.length

/-- `ensure_front`. -/
def ensureFront (b : Buffer) (more : Nat) : Panics Buffer :=
  if b.start < more then do
    let buf ← allocateFront b.buf (more - b.start)
    pure { buf, start := usizeAdd b.start more, stop := usizeAdd b.stop more }
  else pure b

/-- `push_front`. -/
def pushFront (b : Buffer) (data : List UInt8) : Panics Buffer := do
  let b ← b.ensureFront data.length
  let start := usizeSub b.start data.length
  let buf ← copyFromSlice b.buf start (usizeAdd start data.length) data
  pure { b with buf, start }

/-- `front_mut`: the buffer, and the range of it that the slice borrows. -/
def frontMut (b : Buffer) (len : Nat) : Panics (Buffer × Nat × Nat) := do
  let b ← b.ensureFront len
  let _ ← slice b.buf (usizeSub b.start len) b.start
  pure (b, usizeSub b.start len, b.start)

/-- `front_mut(data.len()).copy_from_slice(data)`. -/
def writeFront (b : Buffer) (data : List UInt8) : Panics Buffer := do
  let (b, lo, hi) ← b.frontMut data.length
  let buf ← copyFromSlice b.buf lo hi data
  pure { b with buf }

/-- `move_front_left`. -/
def moveFrontLeft (b : Buffer) (len : Nat) : Option Buffer :=
  if b.start < len then none else some { b with start := usizeSub b.start len }

/-- The window is one of the bytes, of which there are as many as a vector can have. -/
structure WellFormed (b : Buffer) : Prop where
  start_le : b.start ≤ b.stop
  stop_le : b.stop ≤ b.buf.length
  length_lt : b.buf.length < 2 ^ 63

/-- What is built is well-formed. -/
theorem wellFormed_build {data : List UInt8} {moreLeft moreRight : Nat}
    (h : moreLeft + data.length + moreRight < 2 ^ 63) :
    (build data moreLeft moreRight).WellFormed := by
  constructor <;>
  · simp only [build, List.length_append, List.length_replicate]
    omega

/-- What prepending is for: room for `n` bytes can be made without changing the
contents, and `data` can be put in front of them, in one call or by hand. -/
structure Prepends (b : Buffer) (n : Nat) (data : List UInt8) : Prop where
  ensure_front : ∃ b', b.ensureFront n = .ok b' ∧ b'.visible = b.visible ∧ b'.WellFormed ∧
    n ≤ b'.start
  push_front : ∃ b', b.pushFront data = .ok b' ∧ b'.visible = .ok (data ++ b.deref)
  front_mut : ∃ b₁ b₂, b.writeFront data = .ok b₁ ∧ b₁.moveFrontLeft data.length = some b₂ ∧
    b₂.visible = .ok (data ++ b.deref)

/-- The headroom is long enough, or the buffer can grow and its bytes repeat with
the length of the headroom as far as the moved window shows them.  The second
holds of every buffer without headroom. -/
def Prependable (b : Buffer) (n : Nat) : Prop :=
  n ≤ b.start ∨
    n - b.start + b.buf.length < 2 ^ 63 ∧ b.stop + b.start ≤ b.buf.length ∧
      ∀ j, b.start ≤ j → j < b.stop → b.buf[j + b.start]? = b.buf[j]?

theorem WellFormed.visible_eq {b : Buffer} (hb : b.WellFormed) : b.visible = .ok b.deref :=
  slice_eq_ok.2 ⟨hb.start_le, hb.stop_le, rfl⟩

/-! ## Making room -/

/-- The buffer after `ensure_front` has grown it. -/
def grown (b : Buffer) (n : Nat) : Buffer where
  buf := List.replicate (n - b.start) 0 ++ b.buf
  start := b.start + n
  stop := b.stop + n

theorem ensureFront_of_le {b : Buffer} {n : Nat} (h : n ≤ b.start) : b.ensureFront n = .ok b :=
  if_neg (Nat.not_lt.2 h)

theorem ensureFront_of_lt {b : Buffer} {n : Nat} (hb : b.WellFormed) (h : b.start < n)
    (hfits : n - b.start + b.buf.length < 2 ^ 63) : b.ensureFront n = .ok (b.grown n) := by
  obtain ⟨hstart, hstop, hlen⟩ := hb
  simp only [ensureFront, if_pos h, allocateFront_of_lt hfits, ok_bind]
  rw [usizeAdd_of_lt (by omega), usizeAdd_of_lt (by omega)]
  rfl

theorem ensureFront_ne_ok {b : Buffer} {n : Nat} (h : b.start < n)
    (hlong : 2 ^ 63 ≤ n - b.start + b.buf.length) (b' : Buffer) : b.ensureFront n ≠ .ok b' := by
  intro hok
  simp only [ensureFront, if_pos h] at hok
  obtain ⟨buf, hbuf, -⟩ := bind_ok.1 hok
  exact allocateFront_ne_ok hlong buf hbuf

/-- The grown buffer shows what stood `start` bytes behind the contents. -/
theorem visible_grown {b : Buffer} {n : Nat} (h : b.start < n) (v : List UInt8) :
    (b.grown n).visible = .ok v ↔
      slice b.buf (b.start + b.start) (b.stop + b.start) = .ok v := by
  let front : List UInt8 := List.replicate (n - b.start) 0
  have hlen : front.length = n - b.start := List.length_replicate
  rw [← @slice_append_left _ _ front, hlen]
  unfold visible grown
  have hstart : n - b.start + (b.start + b.start) = b.start + n := by omega
  have hstop : n - b.start + (b.stop + b.start) = b.stop + n := by omega
  rw [hstart, hstop]

/-- Making room keeps the contents exactly when the buffer can be prepended to. -/
theorem ensureFront_keeps_iff {b : Buffer} {n : Nat} (hb : b.WellFormed) :
    (∃ b', b.ensureFront n = .ok b' ∧ b'.visible = .ok b.deref) ↔ b.Prependable n := by
  rcases Nat.lt_or_ge b.start n with hlt | hle
  · unfold Prependable
    rw [or_iff_right (Nat.not_le.2 hlt)]
    by_cases hfits : n - b.start + b.buf.length < 2 ^ 63
    · rw [and_iff_right hfits, ← slice_eq_iff hb.visible_eq, ← visible_grown hlt]
      rw [ensureFront_of_lt hb hlt hfits]
      constructor
      · rintro ⟨b', hb', hvisible⟩
        cases hb'
        exact hvisible
      · intro hvisible
        exact ⟨_, rfl, hvisible⟩
    · constructor
      · rintro ⟨b', hb', -⟩
        exact absurd hb' (ensureFront_ne_ok hlt (Nat.not_lt.1 hfits) b')
      · rintro ⟨h, -⟩
        exact absurd h hfits
  · constructor
    · intro _
      exact .inl hle
    · intro _
      exact ⟨b, ensureFront_of_le hle, hb.visible_eq⟩

/-- A buffer with room has the room, and is not too long. -/
theorem ensureFront_ok {b b' : Buffer} {n : Nat} (hb : b.WellFormed)
    (h : b.ensureFront n = .ok b') :
    n ≤ b'.start ∧ b'.start ≤ b'.stop ∧ b'.stop < 2 ^ 64 ∧ b'.buf.length < 2 ^ 63 := by
  have hb₀ := hb
  obtain ⟨hstart, hstop, hlen⟩ := hb
  rcases Nat.lt_or_ge b.start n with hlt | hle
  · rcases Nat.lt_or_ge (n - b.start + b.buf.length) (2 ^ 63) with hfits | hlong
    · rw [ensureFront_of_lt hb₀ hlt hfits] at h
      cases h
      simp only [grown, List.length_append, List.length_replicate]
      omega
    · exact absurd h (ensureFront_ne_ok hlt hlong b')
  · rw [ensureFront_of_le hle] at h
    cases h
    omega

/-! ## Writing in front -/

/-- `push_front` writes the bytes that end where the window starts, once there is
room for them. -/
theorem pushFront_eq_ok {b g b' : Buffer} {data : List UInt8} (hb : b.WellFormed)
    (hg : b.ensureFront data.length = .ok g) :
    b.pushFront data = .ok b' ↔
      ∃ buf, copyFromSlice g.buf (g.start - data.length) g.start data = .ok buf ∧
        b' = ⟨buf, g.start - data.length, g.stop⟩ := by
  obtain ⟨hroom, hstart, hstop, -⟩ := ensureFront_ok hb hg
  have hsub : usizeSub g.start data.length = g.start - data.length :=
    usizeSub_of_le hroom (by omega)
  have hadd : usizeAdd (g.start - data.length) data.length = g.start := by
    rw [usizeAdd_of_lt (by omega), Nat.sub_add_cancel hroom]
  simp only [pushFront, hg, ok_bind, hsub, hadd, bind_ok, pure_eq_ok, Except.ok.injEq]
  simp only [eq_comm]

/-- Writing to `front_mut` writes the same bytes, and leaves the window. -/
theorem writeFront_eq_ok {b g b' : Buffer} {data : List UInt8} (hb : b.WellFormed)
    (hg : b.ensureFront data.length = .ok g) :
    b.writeFront data = .ok b' ↔
      ∃ buf, copyFromSlice g.buf (g.start - data.length) g.start data = .ok buf ∧
        b' = ⟨buf, g.start, g.stop⟩ := by
  obtain ⟨hroom, hstart, hstop, -⟩ := ensureFront_ok hb hg
  have hsub : usizeSub g.start data.length = g.start - data.length :=
    usizeSub_of_le hroom (by omega)
  simp only [writeFront, frontMut, hg, ok_bind, hsub, bind_ok, pure_eq_ok, Except.ok.injEq]
  constructor
  · rintro ⟨_, ⟨_, -, rfl⟩, buf, hbuf, rfl⟩
    exact ⟨buf, hbuf, rfl⟩
  · rintro ⟨buf, hbuf, rfl⟩
    obtain ⟨old, hold, -⟩ := bind_ok.1 hbuf
    exact ⟨_, ⟨old, hold, rfl⟩, buf, hbuf, rfl⟩

/-- Both ways of prepending give the same buffer. -/
theorem pushFront_eq_writeFront {b b' : Buffer} {data : List UInt8} (hb : b.WellFormed) :
    b.pushFront data = .ok b' ↔
      ∃ b₁, b.writeFront data = .ok b₁ ∧ b₁.moveFrontLeft data.length = some b' := by
  constructor
  · intro h
    obtain ⟨g, hg, -⟩ := bind_ok.1 h
    obtain ⟨hroom, hstart, hstop, -⟩ := ensureFront_ok hb hg
    obtain ⟨buf, hbuf, rfl⟩ := (pushFront_eq_ok hb hg).1 h
    refine ⟨_, (writeFront_eq_ok hb hg).2 ⟨buf, hbuf, rfl⟩, ?_⟩
    rw [moveFrontLeft, if_neg (Nat.not_lt.2 hroom), usizeSub_of_le hroom (by omega)]
  · rintro ⟨b₁, hwrite, hmove⟩
    obtain ⟨_, hfront, -⟩ := bind_ok.1 hwrite
    obtain ⟨g, hg, -⟩ := bind_ok.1 hfront
    obtain ⟨hroom, hstart, hstop, -⟩ := ensureFront_ok hb hg
    obtain ⟨buf, hbuf, rfl⟩ := (writeFront_eq_ok hb hg).1 hwrite
    rw [moveFrontLeft, if_neg (Nat.not_lt.2 hroom), usizeSub_of_le hroom (by omega)] at hmove
    cases hmove
    exact (pushFront_eq_ok hb hg).2 ⟨buf, hbuf, rfl⟩

/-- The contents after `push_front` are the data and then what is visible once there
is room for it. -/
theorem pushFront_visible_iff {b : Buffer} {data v : List UInt8} (hb : b.WellFormed) :
    (∃ b', b.pushFront data = .ok b' ∧ b'.visible = .ok (data ++ v)) ↔
      ∃ g, b.ensureFront data.length = .ok g ∧ g.visible = .ok v := by
  constructor
  · rintro ⟨b', h, hvisible⟩
    obtain ⟨g, hg, -⟩ := bind_ok.1 h
    obtain ⟨-, hstart, -⟩ := ensureFront_ok hb hg
    obtain ⟨buf, hbuf, rfl⟩ := (pushFront_eq_ok hb hg).1 h
    obtain ⟨m, hm⟩ := Nat.exists_eq_add_of_le hstart
    refine ⟨g, hg, ?_⟩
    simp only [visible, hm] at hvisible ⊢
    exact (slice_copyFromSlice hbuf).1 hvisible
  · rintro ⟨g, hg, hvisible⟩
    obtain ⟨hroom, hstart, -⟩ := ensureFront_ok hb hg
    have hstop : g.stop ≤ g.buf.length := (slice_eq_ok.1 hvisible).2.1
    obtain ⟨m, hm⟩ := Nat.exists_eq_add_of_le hstart
    have hbuf := copyFromSlice_eq_ok.2
      ⟨Nat.sub_add_cancel hroom, Nat.le_trans hstart hstop, rfl⟩
    refine ⟨_, (pushFront_eq_ok hb hg).2 ⟨_, hbuf, rfl⟩, ?_⟩
    simp only [visible, hm] at hvisible ⊢
    exact (slice_copyFromSlice hbuf).2 hvisible

/-- **Prepending works exactly where the headroom is long enough or the buffer can
grow without showing other bytes.**  This holds for the room that is asked for
and for the data. -/
theorem prepends_iff (b : Buffer) (hb : b.WellFormed) (n : Nat) (data : List UInt8) :
    b.Prepends n data ↔ b.Prependable n ∧ b.Prependable data.length := by
  rw [← ensureFront_keeps_iff hb, ← ensureFront_keeps_iff hb, ← pushFront_visible_iff hb]
  constructor
  · rintro ⟨⟨b', hensure, hvisible, -⟩, hpush, -⟩
    rw [hb.visible_eq] at hvisible
    exact ⟨⟨b', hensure, hvisible⟩, hpush⟩
  · rintro ⟨⟨b', hensure, hvisible⟩, ⟨b₂, hpush, hcontents⟩⟩
    obtain ⟨hroom, hstart, -, hlen⟩ := ensureFront_ok hb hensure
    have hstop : b'.stop ≤ b'.buf.length := (slice_eq_ok.1 hvisible).2.1
    obtain ⟨b₁, hwrite, hmove⟩ := (pushFront_eq_writeFront hb).1 hpush
    constructor
    · exact ⟨b', hensure, hvisible.trans hb.visible_eq.symm, ⟨hstart, hstop, hlen⟩, hroom⟩
    · exact ⟨b₂, hpush, hcontents⟩
    · exact ⟨b₁, b₂, hwrite, hmove, hcontents⟩

/-- A headroom of one byte is enough for one. -/
theorem prepends_iff_build :
    (build [1, 2, 3] 1 1).Prepends 1 [9] ↔
      (build [1, 2, 3] 1 1).Prependable 1 ∧ (build [1, 2, 3] 1 1).Prependable 1 :=
  prepends_iff (build [1, 2, 3] 1 1) (wellFormed_build (by decide)) 1 [9]

/-- One byte of headroom, and two bytes to prepend: the first byte of the contents is
lost and a byte of the tailroom becomes one of the contents. -/
theorem not_prepends_build :
    (build [1, 2, 3] 1 1).WellFormed ∧ ¬ (build [1, 2, 3] 1 1).Prepends 2 [8, 9] ∧
      (build [1, 2, 3] 1 1).ensureFront 2 = .ok ⟨[0, 0, 1, 2, 3, 0], 3, 6⟩ ∧
      (build [1, 2, 3] 1 1).pushFront [8, 9] = .ok ⟨[0, 8, 9, 2, 3, 0], 1, 6⟩ := by
  have hb : (build [1, 2, 3] 1 1).WellFormed := wellFormed_build (by decide)
  have hensure : (build [1, 2, 3] 1 1).ensureFront 2 = .ok ⟨[0, 0, 1, 2, 3, 0], 3, 6⟩ :=
    ensureFront_of_lt hb (by decide) (by decide)
  have hpush : (build [1, 2, 3] 1 1).pushFront [8, 9] = .ok ⟨[0, 8, 9, 2, 3, 0], 1, 6⟩ :=
    (@pushFront_eq_ok _ _ _ [8, 9] hb hensure).2 ⟨[0, 8, 9, 2, 3, 0], rfl, rfl⟩
  refine ⟨hb, ?_, hensure, hpush⟩
  rintro ⟨⟨b', hok, hvisible, -⟩, -, -⟩
  cases hensure.symm.trans hok
  cases hvisible

end Buffer

end SansIo
