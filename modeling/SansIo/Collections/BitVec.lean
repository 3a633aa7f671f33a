import SansIo.Lib.Byte
import SansIo.Lib.Panics

/-!
# `BitVec`: the flags of a task switcher

`src/collections/bit_vec.rs`.  `len` flags in a vector of bytes.  The vector only
grows: shrinking the length, and `set_all`, leave bits at or beyond `len`, which
no operation may report.  The field `enough` says that the bytes cover the
length, so that no access to them is out of range.

`flag b i` is the bit at `i`, wherever the length is, and each operation has one
lemma that says what it does to the flags.
-/

namespace SansIo.Collections

open SansIo.Lib

/-- `BitVec`. -/
structure BitVec where
  /-- The bits, eight to a byte, the low bit first. -/
  bytes : List UInt8
  /-- How many of them count. -/
  len : Nat
  /-- The bytes cover the length. -/
  enough : len ≤ bytes.length * 8

/-- The bit at an index of a list of bytes; beyond them there is none. -/
def flagOf (bytes : List UInt8) (i : Nat) : Bool :=
  match bytes[i / 8]? with
  | some byte => hasBit byte (i % 8)
  | none => false

namespace BitVec

/-- The bit at an index, whether or not the index is below `len`. -/
def flag (b : BitVec) (i : Nat) : Bool := flagOf b.bytes i

/-- `news`. -/
def news (len : Nat) : BitVec where
  bytes := List.replicate (len / 8 + 1) 0
  len := len
  enough := by
    rw [List.length_replicate]
    omega

/-- `set_len`. -/
def setLen (b : BitVec) (len : Nat) : BitVec :=
  if h : len > b.bytes.length * 8 then
    { bytes := b.bytes ++ List.replicate (len / 8 + 1 - b.bytes.length) 0
      len := len
      enough := by
        rw [List.length_append, List.length_replicate]
        omega }
  else
    { bytes := b.bytes, len := len, enough := by omega }

/-- `get_bit`. -/
def getBit (b : BitVec) (i : Nat) : Panics Bool :=
  if b.len > i then do
    let byte ← index b.bytes (i / 8)
    return hasBit byte (i % 8)
  else throw s!"index out of bounds {i} vs bytes {b.bytes.length}"

/-- The byte with one of its bits set or cleared. -/
def writeBit (byte : UInt8) (k : Nat) (value : Bool) : UInt8 :=
  if value then byte ||| mask k else byte &&& ~~~ mask k

/-- `set_bit`. -/
def setBit (b : BitVec) (i : Nat) (value : Bool) : Panics BitVec :=
  if b.len > i then do
    let byte ← index b.bytes (i / 8)
    return { b with
      bytes := b.bytes.set (i / 8) (writeBit byte (i % 8) value)
      enough := by simpa using b.enough }
  else throw s!"index out of bounds {i} vs bytes {b.bytes.length}"

/-- The inner loop of `first_set_index`, over the bits of one byte.  It returns
from the function with `some`, and goes on to the next byte with `none`. -/
def firstSetIndexByte (len byteIndex : Nat) (byte : UInt8) : List Nat → Option (Option Nat)
  | [] => none
  | bitIndex :: rest =>
    if byteIndex * 8 + bitIndex ≥ len then some none
    else if hasBit byte bitIndex then some (some (byteIndex * 8 + bitIndex))
    else firstSetIndexByte len byteIndex byte rest

/-- The outer loop of `first_set_index`, over the bytes. -/
def firstSetIndexFrom (len : Nat) : Nat → List UInt8 → Option Nat
  | _, [] => none
  | byteIndex, byte :: bytes =>
    if byte != 0 then
      match firstSetIndexByte len byteIndex byte (List.range 8) with
      | some result => result
      | none => firstSetIndexFrom len (byteIndex + 1) bytes
    else firstSetIndexFrom len (byteIndex + 1) bytes

/-- `first_set_index`. -/
def firstSetIndex (b : BitVec) : Option Nat := firstSetIndexFrom b.len 0 b.bytes

/-- `set_all`. -/
def setAll (b : BitVec) (value : Bool) : BitVec where
  bytes := b.bytes.map fun _ ↦ if value then 0xff else 0
  len := b.len
  enough := by simpa using b.enough

/-! ## What the operations do to the flags -/

@[simp] theorem len_news (len : Nat) : (news len).len = len := rfl

@[simp] theorem flag_news (len i : Nat) : (news len).flag i = false := by
  unfold flag flagOf news
  split
  · rename_i byte hbyte
    obtain rfl : byte = 0 := List.eq_of_mem_replicate (List.mem_of_getElem? hbyte)
    exact hasBit_zero _
  · rfl

@[simp] theorem len_setLen (b : BitVec) (len : Nat) : (b.setLen len).len = len := by
  unfold setLen
  split <;> rfl

/-- Changing the length moves no bit: new bytes are zero, and old ones stay. -/
@[simp] theorem flag_setLen (b : BitVec) (len i : Nat) : (b.setLen len).flag i = b.flag i := by
  unfold setLen
  split
  · unfold flag flagOf
    by_cases hi : i / 8 < b.bytes.length
    · simp only [List.getElem?_append_left hi]
    · have hnone : b.bytes[i / 8]? = none := List.getElem?_eq_none (by omega)
      simp only [hnone, List.getElem?_append_right (Nat.le_of_not_lt hi)]
      split
      · rename_i byte hbyte
        obtain rfl : byte = 0 := List.eq_of_mem_replicate (List.mem_of_getElem? hbyte)
        exact hasBit_zero _
      · rfl
  · rfl

/-- Below the length the flags are read, above it the read panics. -/
theorem getBit_of_lt (b : BitVec) {i : Nat} (h : i < b.len) : b.getBit i = .ok (b.flag i) := by
  have hlt : i / 8 < b.bytes.length := by
    have := b.enough
    omega
  simp [getBit, h, flag, flagOf, hlt, index_of_lt hlt]

theorem hasBit_writeBit {j k : Nat} (hj : j < 8) (hk : k < 8) (byte : UInt8) (value : Bool) :
    hasBit (writeBit byte k value) j = if j = k then value else hasBit byte j := by
  unfold writeBit
  cases value with
  | true =>
      rw [if_pos rfl, hasBit_or_mask hj hk]
      by_cases h : j = k <;> simp [h]
  | false =>
      rw [if_neg (by simp), hasBit_and_not_mask hj hk]
      by_cases h : j = k <;> simp [h]

/-- Below the length a flag can be written, and only that flag changes. -/
theorem setBit_of_lt (b : BitVec) {i : Nat} (h : i < b.len) (value : Bool) :
    ∃ b', b.setBit i value = .ok b' ∧ b'.len = b.len ∧
      ∀ j, b'.flag j = if j = i then value else b.flag j := by
  have hlt : i / 8 < b.bytes.length := by
    have := b.enough
    omega
  refine ⟨⟨b.bytes.set (i / 8) (writeBit b.bytes[i / 8] (i % 8) value), b.len,
    by simpa using b.enough⟩, ?_, rfl, fun j ↦ ?_⟩
  · simp only [setBit, gt_iff_lt, h, if_true, index_of_lt hlt, ok_bind, pure_eq_ok]
  unfold flag flagOf
  by_cases hj : i / 8 = j / 8
  · simp only [← hj, List.getElem?_set_self hlt, List.getElem?_eq_getElem hlt]
    rw [hasBit_writeBit (Nat.mod_lt _ (by omega)) (Nat.mod_lt _ (by omega))]
    by_cases hji : j = i
    · simp [hji]
    · rw [if_neg hji, if_neg (by omega)]
  · rw [List.getElem?_set_ne hj, if_neg (by rintro rfl; exact hj rfl)]

/-- At or above the length the write panics. -/
theorem setBit_ok_lt {b b' : BitVec} {i : Nat} {value : Bool} (h : b.setBit i value = .ok b') :
    i < b.len := by
  unfold setBit at h
  split at h
  · assumption
  · cases h

@[simp] theorem len_setAll (b : BitVec) (value : Bool) : (b.setAll value).len = b.len := rfl

/-- After `set_all` every flag below the length has the value. -/
theorem flag_setAll (b : BitVec) (value : Bool) {i : Nat} (h : i < b.len) :
    (b.setAll value).flag i = value := by
  have hlt : i / 8 < b.bytes.length := by
    have := b.enough
    omega
  unfold flag flagOf setAll
  simp only [List.getElem?_map, List.getElem?_eq_getElem hlt, Option.map_some]
  cases value with
  | true => exact hasBit_ones (Nat.mod_lt _ (by omega))
  | false => exact hasBit_zero _

/-! ## `first_set_index` -/

/-- `IsFirst len p a r`: the result `r` is the least index from `a` on, below
`len`, where `p` holds, and `none` where there is none. -/
def IsFirst (len : Nat) (p : Nat → Bool) (a : Nat) : Option Nat → Prop
  | some i => a ≤ i ∧ i < len ∧ p i = true ∧ ∀ j, a ≤ j → j < i → p j = false
  | none => ∀ j, a ≤ j → j < len → p j = false

/-- A search may skip indices where `p` does not hold. -/
theorem IsFirst.skip {len a b : Nat} {p : Nat → Bool} {r : Option Nat} (hab : a ≤ b)
    (hp : ∀ j, a ≤ j → j < b → p j = false) (h : IsFirst len p b r) : IsFirst len p a r := by
  have hbelow : ∀ {c}, (∀ j, b ≤ j → j < c → p j = false) → ∀ j, a ≤ j → j < c → p j = false := by
    intro c hc j haj hjc
    rcases Nat.lt_or_ge j b with hjb | hbj
    · exact hp j haj hjb
    · exact hc j hbj hjc
  cases r with
  | none => exact hbelow h
  | some i =>
      obtain ⟨hbi, hlen, hi, hall⟩ := h
      exact ⟨Nat.le_trans hab hbi, hlen, hi, hbelow hall⟩

/-- The inner loop searches the rest of its byte, and leaves what is beyond it to
the result `rest` of the loop around it. -/
theorem firstSetIndexByte_isFirst {len byteIndex : Nat} {byte : UInt8} {p : Nat → Bool}
    (hp : ∀ i < 8, p (byteIndex * 8 + i) = hasBit byte i) {rest : Option Nat}
    (hrest : IsFirst len p (byteIndex * 8 + 8) rest) {k n : Nat} (hk : k + n = 8) :
    IsFirst len p (byteIndex * 8 + k)
      ((firstSetIndexByte len byteIndex byte (List.range' k n)).getD rest) := by
  induction n generalizing k with
  | zero =>
      obtain rfl : k = 8 := hk
      exact hrest
  | succ n ih =>
      rw [List.range'_succ, firstSetIndexByte]
      by_cases hlen : byteIndex * 8 + k ≥ len
      · rw [if_pos hlen]
        exact fun j hj hj' ↦ absurd hj' (by omega)
      · rw [if_neg hlen]
        by_cases hb : hasBit byte k = true
        · rw [if_pos hb]
          exact ⟨Nat.le_refl _, by omega, by rw [hp k (by omega), hb], by omega⟩
        · rw [if_neg hb]
          refine IsFirst.skip (Nat.le_succ _) (fun j hj hj' ↦ ?_) (ih (k := k + 1) (by omega))
          obtain rfl : j = byteIndex * 8 + k := by omega
          rw [hp k (by omega), Bool.eq_false_iff]
          exact hb

theorem flagOf_cons_lt (byte : UInt8) (bytes : List UInt8) {i : Nat} (hi : i < 8) :
    flagOf (byte :: bytes) i = hasBit byte i := by
  simp [flagOf, Nat.div_eq_of_lt hi, Nat.mod_eq_of_lt hi]

theorem flagOf_cons_add (byte : UInt8) (bytes : List UInt8) (i : Nat) :
    flagOf (byte :: bytes) (8 + i) = flagOf bytes i := by
  simp [flagOf, Nat.add_comm 8 i]

/-- The outer loop searches from its byte on. -/
theorem firstSetIndexFrom_isFirst (len byteIndex : Nat) {bytes : List UInt8} {p : Nat → Bool}
    (hp : ∀ i, p (byteIndex * 8 + i) = flagOf bytes i) :
    IsFirst len p (byteIndex * 8) (firstSetIndexFrom len byteIndex bytes) := by
  induction bytes generalizing byteIndex with
  | nil =>
      intro j hj _
      obtain ⟨i, rfl⟩ := Nat.exists_eq_add_of_le hj
      rw [hp]
      rfl
  | cons byte bytes ih =>
      have hbyte : ∀ i < 8, p (byteIndex * 8 + i) = hasBit byte i := fun i hi ↦ by
        rw [hp, flagOf_cons_lt _ _ hi]
      have hrest : IsFirst len p (byteIndex * 8 + 8)
          (firstSetIndexFrom len (byteIndex + 1) bytes) := by
        have := ih (byteIndex + 1) fun i ↦ by
          rw [show (byteIndex + 1) * 8 + i = byteIndex * 8 + (8 + i) by omega, hp,
            flagOf_cons_add]
        rwa [Nat.succ_mul] at this
      rw [firstSetIndexFrom]
      by_cases hzero : byte = 0
      · rw [if_neg (by simp [hzero])]
        refine hrest.skip (Nat.le_add_right _ 8) fun j hj hj' ↦ ?_
        obtain ⟨i, rfl⟩ := Nat.exists_eq_add_of_le hj
        rw [hbyte i (by omega), hzero, hasBit_zero]
      · rw [if_pos (by simpa using hzero)]
        have := firstSetIndexByte_isFirst hbyte hrest (k := 0) (n := 8) rfl
        rw [← List.range_eq_range'] at this
        cases hloop : firstSetIndexByte len byteIndex byte (List.range 8) with
        | none => simpa [hloop] using this
        | some result => simpa [hloop] using this

/-- **`first_set_index` is exact**: it is the least index below `len` whose flag
is set. -/
theorem firstSetIndex_isFirst (b : BitVec) : IsFirst b.len b.flag 0 b.firstSetIndex := by
  have := firstSetIndexFrom_isFirst b.len 0 (p := b.flag) fun i ↦ by
    rw [Nat.zero_mul, Nat.zero_add]
    rfl
  rwa [Nat.zero_mul] at this

end BitVec

end SansIo.Collections
