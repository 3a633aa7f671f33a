import SansIo.Lib.Panics

/-!
# Slices

`slice xs a b` is `&xs[a..b]` and `copyFromSlice xs a b ys` is
`xs[a..b].copy_from_slice(ys)`.  Both panic when the range is not one of the
vector, and the second also when the lengths differ.
-/

universe u

namespace SansIo.Lib

variable {α : Type u}

/-- `&xs[a..b]`. -/
def slice (xs : List α) (a b : Nat) : Panics (List α) :=
  if b < a then throw s!"slice index starts at {a} but ends at {b}"
  else if xs.length < b then
    throw s!"range end index {b} out of range for slice of length {xs.length}"
  else .ok ((xs.take b).drop a)

/-- `xs[a..b].copy_from_slice(ys)`. -/
def copyFromSlice (xs : List α) (a b : Nat) (ys : List α) : Panics (List α) := do
  let old ← slice xs a b
  if old.length = ys.length then .ok (xs.take a ++ ys ++ xs.drop b)
  else throw "copy_from_slice: source slice length does not match destination slice length"

/-! ## Reading -/

theorem slice_eq_ok {xs ys : List α} {a b : Nat} :
    slice xs a b = .ok ys ↔ a ≤ b ∧ b ≤ xs.length ∧ (xs.take b).drop a = ys := by
  unfold slice
  split
  · rename_i hlt
    simp [throw, throwThe, MonadExceptOf.throw, Nat.not_le.2 hlt]
  · rename_i hle
    split
    · rename_i hlt
      simp [throw, throwThe, MonadExceptOf.throw, Nat.not_le.2 hlt]
    · rename_i hlen
      simp [Nat.not_lt.1 hle, Nat.not_lt.1 hlen]

theorem length_slice {xs ys : List α} {a b : Nat} (h : slice xs a b = .ok ys) :
    ys.length = b - a := by
  obtain ⟨-, hlen, rfl⟩ := slice_eq_ok.1 h
  rw [List.length_drop, List.length_take, Nat.min_eq_left hlen]

/-- The bytes of a slice, one by one. -/
theorem getElem?_slice {xs ys : List α} {a b : Nat} (h : slice xs a b = .ok ys) {i : Nat}
    (hi : a + i < b) : ys[i]? = xs[a + i]? := by
  obtain ⟨-, -, rfl⟩ := slice_eq_ok.1 h
  rw [List.getElem?_drop, List.getElem?_take_of_lt hi]

/-- A slice of a slice. -/
theorem slice_slice {xs ys zs : List α} {a b c d : Nat} (h : slice xs a b = .ok ys)
    (hd : d ≤ ys.length) : slice ys c d = .ok zs ↔ slice xs (a + c) (a + d) = .ok zs := by
  have hsize := length_slice h
  obtain ⟨hab, hb, rfl⟩ := slice_eq_ok.1 h
  have hcut : (((xs.take b).drop a).take d).drop c = (xs.take (a + d)).drop (a + c) := by
    rw [List.take_drop, List.take_take, List.drop_drop, Nat.min_eq_left (by omega)]
  rw [slice_eq_ok, slice_eq_ok, hcut, Nat.add_le_add_iff_left]
  have hlen : a + d ≤ xs.length := by omega
  simp only [hd, hlen, true_and]

theorem slice_take {xs : List α} {n : Nat} (h : n ≤ xs.length) :
    slice xs 0 n = .ok (xs.take n) := slice_eq_ok.2 ⟨Nat.zero_le n, h, rfl⟩

theorem slice_drop {xs : List α} {n : Nat} (h : n ≤ xs.length) :
    slice xs n xs.length = .ok (xs.drop n) := by
  rw [slice_eq_ok, List.take_length]
  exact ⟨h, Nat.le_refl _, rfl⟩

/-- What stands in front of a vector shifts its slices. -/
theorem slice_append_left {xs ys zs : List α} {a b : Nat} :
    slice (ys ++ xs) (ys.length + a) (ys.length + b) = .ok zs ↔ slice xs a b = .ok zs := by
  simp [slice_eq_ok, List.take_length_add_append, List.drop_length_add_append]

/-- Two slices of the same length agree when their elements do. -/
theorem slice_eq_iff {xs ys : List α} {a b k : Nat} (h : slice xs a b = .ok ys) :
    slice xs (a + k) (b + k) = .ok ys ↔
      b + k ≤ xs.length ∧ ∀ j, a ≤ j → j < b → xs[j + k]? = xs[j]? := by
  have hab : a ≤ b := (slice_eq_ok.1 h).1
  constructor
  · intro hk
    constructor
    · exact (slice_eq_ok.1 hk).2.1
    · intro j haj hjb
      have hj : a + (j - a) = j := Nat.add_sub_cancel' haj
      have hold := getElem?_slice h (i := j - a) (by omega)
      have hnew := getElem?_slice hk (i := j - a) (by omega)
      rw [hj] at hold
      rw [Nat.add_right_comm, hj] at hnew
      exact hnew.symm.trans hold
  · rintro ⟨hlen, hsame⟩
    have hk : slice xs (a + k) (b + k) = .ok ((xs.take (b + k)).drop (a + k)) :=
      slice_eq_ok.2 ⟨Nat.add_le_add_right hab k, hlen, rfl⟩
    rw [hk]
    apply congrArg
    apply List.ext_getElem?
    intro i
    by_cases hi : a + i < b
    · rw [getElem?_slice hk (by omega), getElem?_slice h hi, Nat.add_right_comm]
      exact hsame (a + i) (Nat.le_add_right a i) hi
    · have hy := length_slice h
      have hz := length_slice hk
      rw [List.getElem?_eq_none (by omega), List.getElem?_eq_none (by omega)]

/-! ## Writing -/

theorem copyFromSlice_eq_ok {xs ys zs : List α} {a b : Nat} :
    copyFromSlice xs a b ys = .ok zs ↔
      a + ys.length = b ∧ b ≤ xs.length ∧ xs.take a ++ ys ++ xs.drop b = zs := by
  unfold copyFromSlice
  rw [bind_ok]
  constructor
  · rintro ⟨old, hold, h⟩
    obtain ⟨hab, hlen, -⟩ := slice_eq_ok.1 hold
    have hsize := length_slice hold
    split at h
    · rename_i heq
      cases h
      exact ⟨by omega, hlen, rfl⟩
    · cases h
  · rintro ⟨hb, hlen, h⟩
    have hold : slice xs a b = .ok ((xs.take b).drop a) := slice_eq_ok.2 ⟨by omega, hlen, rfl⟩
    refine ⟨_, hold, ?_⟩
    rw [if_pos (by rw [length_slice hold]; omega), h]

theorem length_copyFromSlice {xs ys zs : List α} {a b : Nat}
    (h : copyFromSlice xs a b ys = .ok zs) : zs.length = xs.length := by
  obtain ⟨hb, hlen, rfl⟩ := copyFromSlice_eq_ok.1 h
  simp only [List.length_append, List.length_take, List.length_drop]
  omega

/-- Writing to the front of what stands behind a vector. -/
theorem copyFromSlice_append {xs ys zs : List α} (h : zs.length ≤ ys.length) :
    copyFromSlice (xs ++ ys) xs.length (xs.length + zs.length) zs =
      .ok (xs ++ (zs ++ ys.drop zs.length)) := by
  rw [copyFromSlice_eq_ok, List.length_append, List.take_left' rfl, List.drop_length_add_append,
    List.append_assoc]
  exact ⟨rfl, Nat.add_le_add_left h xs.length, rfl⟩

/-- Reading from where the written bytes start gives them and then what follows
them. -/
theorem slice_copyFromSlice {xs ys zs ws : List α} {a b m : Nat}
    (h : copyFromSlice xs a b ys = .ok zs) :
    slice zs a (b + m) = .ok (ys ++ ws) ↔ slice xs b (b + m) = .ok ws := by
  have hsize := length_copyFromSlice h
  obtain ⟨hb, hlen, hzs⟩ := copyFromSlice_eq_ok.1 h
  have ha : (xs.take a).length = a := by
    rw [List.length_take]
    omega
  have hcut : zs.take (b + m) = xs.take a ++ (ys ++ (xs.drop b).take m) := by
    have hend : b + m = (xs.take a ++ ys).length + m := by
      rw [List.length_append, ha, hb]
    rw [← hzs, hend, List.take_length_add_append, List.append_assoc]
  rw [slice_eq_ok, slice_eq_ok, hsize, hcut, List.drop_left' ha, List.drop_take,
    Nat.add_sub_cancel_left, List.append_cancel_left_eq]
  have hab : a ≤ b + m := by omega
  simp only [hab, Nat.le_add_right, true_and]

end SansIo.Lib
